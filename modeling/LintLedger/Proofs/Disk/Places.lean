import LintLedger.Proofs.Path.Place

/-!
# Places of a well-formed disk

On a well-formed disk, whatever stands somewhere stands in a directory, so the path of a place
leads to it. A path with one more slash leads there if it is a directory. Where names lead, if they
lead anywhere, can be said without the disk. What is below a place comes in the strict order of
places.
-/

namespace LintLedger.Disk

open LintLedger.Path (IsPart IsStep Spells isPart_of_isStep ofPlace)

variable {d : Disk} {place place' more : Place} {e : Entry} {p : Path} {name : String}
  {names : List String}

/-! ## Entries -/

theorem isStep_of_isName {name : String} (h : isName name) : IsStep name := by
  simp only [isName, Bool.and_eq_true, ne_eq, decide_eq_true_eq] at h
  obtain ⟨⟨⟨⟨⟨hempty, hhere⟩, hup⟩, hslash⟩, -⟩, -⟩ := h
  exact ⟨hempty, hhere, hup, hslash⟩

theorem mem_of_get? (h : d.get? place = some e) (hne : place ≠ []) : (place, e) ∈ d.entries := by
  rw [get?, if_neg hne, Option.map_eq_some_iff] at h
  obtain ⟨found, hfind, rfl⟩ := h
  have hplace : found.1 = place := by simpa using List.find?_some hfind
  rw [← hplace]
  exact List.mem_of_find?_eq_some hfind

section

variable (hd : d.WellFormed)

include hd

theorem get?_of_mem (h : (place, e) ∈ d.entries) : d.get? place = some e := by
  have hne : place ≠ [] := (hd.2 _ h).1
  obtain ⟨front, back, hsplit⟩ := List.append_of_mem h
  have hnodup := hd.1
  rw [hsplit, List.map_append, List.map_cons, List.nodup_append] at hnodup
  have hfront : ∀ entry ∈ front, entry.1 ≠ place :=
    fun entry hentry => hnodup.2.2 _ (List.mem_map_of_mem hentry) _ List.mem_cons_self
  have hnone : front.find? (fun entry => entry.1 = place) = none := by
    simpa using hfront
  rw [get?, if_neg hne, hsplit, List.find?_append, hnone]
  simp

theorem isName_of_get? (h : d.get? place = some e) : ∀ name ∈ place, isName name := by
  by_cases hne : place = []
  · simp [hne]
  · have hnames := (hd.2 _ (mem_of_get? h hne)).2.1
    exact List.all_eq_true.1 hnames

theorem isStep_of_get? (h : d.get? place = some e) : ∀ name ∈ place, IsStep name :=
  fun name hname => isStep_of_isName (isName_of_get? hd h name hname)

/-- What stands somewhere stands in a directory. -/
theorem directory_of_concat {name : String} (h : d.get? (place ++ [name]) = some e) :
    d.get? place = some .directory := by
  have hparent := (hd.2 _ (mem_of_get? h (by simp))).2.2
  rw [List.dropLast_concat] at hparent
  split at hparent
  · assumption
  · cases hparent

theorem directory_of_append (h : d.get? (place ++ more) = some e) (hne : more ≠ []) :
    d.get? place = some .directory := by
  induction more using List.reverseRecOn generalizing e with
  | nil => exact (hne rfl).elim
  | append_singleton more name ih =>
      rw [← List.append_assoc] at h
      have hparent := directory_of_concat hd h
      by_cases hmore : more = []
      · simpa [hmore] using hparent
      · exact ih hparent hmore

/-- What a directory stands in is a directory. -/
theorem directory_above (h : d.get? (place ++ more) = some .directory) :
    d.get? place = some .directory := by
  by_cases hmore : more = []
  · simpa [hmore] using h
  · exact directory_of_append hd h hmore

end

/-! ## Following paths -/

def step (place : Place) (name : String) : Place :=
  if name = "." then place
  else if name = ".." then place.dropLast
  else place ++ [name]

def walk (place : Place) (names : List String) : Place :=
  names.foldl step place

theorem walk_cons (place : Place) (name : String) (names : List String) :
    walk place (name :: names) = walk (step place name) names := rfl

/-- Names that lead down lead to the place that they name. -/
theorem walk_of_isStep (h : ∀ name ∈ names, IsStep name) : walk place names = place ++ names := by
  induction names generalizing place with
  | nil => exact (List.append_nil place).symm
  | cons name names ih =>
      have hname := h name List.mem_cons_self
      have hrest : walk (place ++ [name]) names = place ++ [name] ++ names :=
        ih fun other hother => h other (List.mem_cons_of_mem name hother)
      rw [walk_cons, step, if_neg hname.ne_here, if_neg hname.ne_up, hrest, List.append_assoc,
        List.singleton_append]

/-- A name is followed from a directory, and it must not be too long. -/
theorem follow_cons_iff : d.follow place (name :: names) = .ok place' ↔
    d.get? place = some .directory ∧ name.utf8ByteSize ≤ nameLimit ∧
      d.follow (step place name) names = .ok place' := by
  rw [follow]
  cases hentry : d.get? place with
  | none => simp
  | some entry =>
      cases entry with
      | file bytes => simp
      | directory =>
          simp only [true_and, step]
          by_cases hhere : name = "."
          · have hshort : ".".utf8ByteSize ≤ nameLimit := by decide
            simp [hhere, hshort]
          rw [if_neg hhere, if_neg hhere]
          by_cases hup : name = ".."
          · have hshort : "..".utf8ByteSize ≤ nameLimit := by decide
            simp [hup, hshort]
          rw [if_neg hup, if_neg hup]
          by_cases hlong : nameLimit < name.utf8ByteSize
          · simp [hlong, Nat.not_le_of_lt hlong]
          · simp [hlong, Nat.le_of_not_lt hlong]

theorem eq_walk_of_follow (h : d.follow place names = .ok place') : place' = walk place names := by
  induction names generalizing place with
  | nil => exact (Except.ok.inj h).symm
  | cons name names ih => exact ih (follow_cons_iff.1 h).2.2

theorem follow_append (d : Disk) (place : Place) (front back : List String) :
    d.follow place (front ++ back) = (d.follow place front).bind (d.follow · back) := by
  induction front generalizing place with
  | nil => rfl
  | cons name front ih =>
      simp only [List.cons_append, follow]
      split
      · rfl
      · rfl
      · split
        · exact ih place
        · split
          · exact ih place.dropLast
          · split
            · rfl
            · exact ih (place ++ [name])

/-- Names that lead down lead nowhere else. -/
theorem eq_of_follow (hnames : ∀ name ∈ names, IsStep name)
    (h : d.follow place names = .ok place') : place' = place ++ names := by
  rw [eq_walk_of_follow h, walk_of_isStep hnames]

theorem follow_of_get? (hd : d.WellFormed)
    (h : d.get? (place ++ names) = some e) : d.follow place names = .ok (place ++ names) := by
  induction names generalizing place with
  | nil => simp [follow]
  | cons name names ih =>
      have hplace := directory_of_append hd h (List.cons_ne_nil name names)
      have hname : isName name := isName_of_get? hd h name (by simp)
      have hstep := isStep_of_isName hname
      have hshort : name.utf8ByteSize ≤ nameLimit := by
        simp only [isName, Bool.and_eq_true, decide_eq_true_eq] at hname
        exact hname.2
      have happend : place ++ name :: names = (place ++ [name]) ++ names := by simp
      rw [happend] at h ⊢
      refine follow_cons_iff.2 ⟨hplace, hshort, ?_⟩
      rw [step, if_neg hstep.ne_here, if_neg hstep.ne_up]
      exact ih h

/-! ## Spelled places -/

theorem zero_not_mem_of_isName {name : String} (h : isName name) : '\x00' ∉ name.toList := by
  simp only [isName, Bool.and_eq_true, decide_eq_true_eq] at h
  exact h.1.2

theorem zero_not_mem_ofPlace (h : ∀ name ∈ place, '\x00' ∉ name.toList) :
    '\x00' ∉ (ofPlace place).text.toList := by
  intro hmem
  rw [ofPlace, String.toList_join, List.mem_flatMap] at hmem
  obtain ⟨part, hpart, hzero⟩ := hmem
  obtain ⟨name, hname, rfl⟩ := List.mem_map.1 hpart
  simp [h name hname] at hzero

theorem pieces_ofPlace (hplace : ∀ name ∈ place, IsPart name) (hne : place ≠ []) :
    pieces (ofPlace place) = place := by
  have hlast := Path.getLast?_ofPlace hplace hne
  have hnames := Path.names_ofPlace hplace
  unfold pieces
  rw [if_neg]
  · exact hnames
  · intro hslash
    simp [hslash] at hlast

theorem pieces_slash (hplace : ∀ name ∈ place, IsPart name)
    (hp : p.text = (ofPlace place).text ++ "/") : pieces p = place ++ ["."] := by
  have htext : p.text.toList = (ofPlace place).text.toList ++ '/' :: [] := by simp [hp]
  have hnames : p.names = place := by
    have hown := Path.names_ofPlace hplace
    rw [Path.names] at hown
    rw [Path.names, htext, Path.namesIn_append_slash, hown, Path.namesIn_nil, List.append_nil]
  have hlast : p.text.toList.getLast? = some '/' := by simp [htext]
  unfold pieces
  rw [if_pos hlast]
  exact congrArg (· ++ ["."]) hnames

theorem placeOf_ofPlace (hd : d.WellFormed) (h : d.get? place = some e) (hne : place ≠ []) :
    d.placeOf (ofPlace place) = .ok place := by
  have hzero := zero_not_mem_ofPlace fun name hname =>
    zero_not_mem_of_isName (isName_of_get? hd h name hname)
  have htext : (ofPlace place).text ≠ "" := by
    obtain ⟨name, names, rfl⟩ := List.exists_cons_of_ne_nil hne
    simp [ofPlace]
  rw [placeOf, if_neg htext, if_neg hzero,
    pieces_ofPlace (isPart_of_isStep (isStep_of_get? hd h)) hne]
  exact @follow_of_get? d [] e place hd h

theorem placeOf_slash (hd : d.WellFormed) (h : d.get? place = some .directory)
    (hp : p.text = (ofPlace place).text ++ "/") : d.placeOf p = .ok place := by
  have hzero := zero_not_mem_ofPlace fun name hname =>
    zero_not_mem_of_isName (isName_of_get? hd h name hname)
  have hfollow := @follow_of_get? d [] .directory place hd h
  rw [placeOf, if_neg (by simp [hp]), if_neg (by simp [hp, hzero]),
    pieces_slash (isPart_of_isStep (isStep_of_get? hd h)) hp, follow_append, hfollow]
  simp [Except.bind, follow, h]

theorem placeOf_of_spells (hd : d.WellFormed) (hp : Spells place p)
    (h : d.get? place = some .directory) : d.placeOf p = .ok place := by
  cases hp with
  | plain hne => exact placeOf_ofPlace hd h hne
  | slash hslash => exact placeOf_slash hd h hslash

theorem follow_of_placeOf {other : Place} (h : d.placeOf p = .ok other) :
    d.follow [] (pieces p) = .ok other := by
  unfold placeOf at h
  split at h
  · cases h
  · split at h
    · cases h
    · exact h

/-- A slash at the end leads to a directory or nowhere. -/
theorem of_placeOf_slash (hplace : ∀ name ∈ place, IsStep name)
    (hp : p.text = (ofPlace place).text ++ "/") {other : Place} (h : d.placeOf p = .ok other) :
    other = place ∧ d.get? place = some .directory := by
  have hfollow := follow_of_placeOf h
  rw [pieces_slash (isPart_of_isStep hplace) hp, follow_append] at hfollow
  cases hreach : d.follow [] place with
  | error fault => simp [hreach, Except.bind] at hfollow
  | ok reached =>
      have hreached : reached = place := eq_of_follow hplace hreach
      rw [hreach, hreached] at hfollow
      simp only [Except.bind, follow] at hfollow
      split at hfollow
      · cases hfollow
      · cases hfollow
      · next hdirectory => exact ⟨(Except.ok.inj hfollow).symm, hdirectory⟩

theorem eq_of_placeOf (hp : Spells place p) (hplace : ∀ name ∈ place, IsStep name)
    {other : Place} (h : d.placeOf p = .ok other) : other = place := by
  cases hp with
  | plain hne =>
      have hfollow := follow_of_placeOf h
      rw [pieces_ofPlace (isPart_of_isStep hplace) hne] at hfollow
      exact eq_of_follow hplace hfollow
  | slash hslash => exact (of_placeOf_slash hplace hslash h).1

/-! ## What stands at a path -/

theorem lookup_eq_ok_iff : d.lookup p = .ok e ↔
    ∃ place, d.placeOf p = .ok place ∧ d.get? place = some e := by
  unfold lookup
  cases hplace : d.placeOf p with
  | error fault => simp [bind, Except.bind]
  | ok place =>
      cases hentry : d.get? place with
      | none => simp [hentry, bind, Except.bind, throw, throwThe, MonadExceptOf.throw]
      | some entry => simp [hentry, bind, Except.bind, pure, Except.pure]

theorem lookup_ofPlace_iff (hd : d.WellFormed) (hplace : ∀ name ∈ place, IsStep name)
    (hne : place ≠ []) : d.lookup (ofPlace place) = .ok e ↔ d.get? place = some e := by
  rw [lookup_eq_ok_iff]
  constructor
  · rintro ⟨other, hother, hentry⟩
    rwa [eq_of_placeOf (.plain hne) hplace hother] at hentry
  · intro hentry
    exact ⟨place, placeOf_ofPlace hd hentry hne, hentry⟩

theorem lookup_directory_iff (hd : d.WellFormed) (hp : Spells place p)
    (hplace : ∀ name ∈ place, IsStep name) :
    d.lookup p = .ok .directory ↔ d.get? place = some .directory := by
  rw [lookup_eq_ok_iff]
  constructor
  · rintro ⟨other, hother, hentry⟩
    rwa [eq_of_placeOf hp hplace hother] at hentry
  · intro hentry
    exact ⟨place, placeOf_of_spells hd hp hentry, hentry⟩

theorem isDirectory_iff (hd : d.WellFormed) (hp : Spells place p)
    (hplace : ∀ name ∈ place, IsStep name) :
    d.isDirectory p ↔ d.get? place = some .directory := by
  rw [← lookup_directory_iff hd hp hplace, isDirectory]
  split
  · next hlookup => simp [hlookup]
  · next hother =>
      simp only [Bool.false_eq_true, false_iff]
      exact hother

theorem isFile_ofPlace_iff (hd : d.WellFormed) (hplace : ∀ name ∈ place, IsStep name)
    (hne : place ≠ []) :
    d.isFile (ofPlace place) ↔ ∃ bytes, d.get? place = some (.file bytes) := by
  simp only [← lookup_ofPlace_iff hd hplace hne, isFile]
  split
  · next bytes hlookup => simp [hlookup]
  · next hother =>
      simp only [Bool.false_eq_true, false_iff, not_exists]
      exact hother

theorem exists?_iff : d.exists? p ↔ ∃ e, d.lookup p = .ok e := by
  unfold exists?
  cases d.lookup p <;> simp [Except.isOk, Except.toBool]

theorem exists?_ofPlace_iff (hd : d.WellFormed) (hplace : ∀ name ∈ place, IsStep name)
    (hne : place ≠ []) : d.exists? (ofPlace place) ↔ ∃ e, d.get? place = some e := by
  simp only [exists?_iff, lookup_ofPlace_iff hd hplace hne]

theorem exists?_slash_iff (hd : d.WellFormed) (hplace : ∀ name ∈ place, IsStep name)
    (hp : p.text = (ofPlace place).text ++ "/") :
    d.exists? p ↔ d.get? place = some .directory := by
  rw [exists?_iff]
  constructor
  · rintro ⟨e, hlookup⟩
    obtain ⟨other, hother, -⟩ := lookup_eq_ok_iff.1 hlookup
    exact (of_placeOf_slash hplace hp hother).2
  · intro hentry
    exact ⟨.directory, (lookup_directory_iff hd (.slash hp) hplace).2 hentry⟩

/-! ## What is below a place -/

def entriesBelow (d : Disk) (place : Place) : List (Place × Entry) :=
  (d.entries.filter fun q => place.isPrefixOf q.1 && q.1 ≠ place).mergeSort placeOrder

theorem mem_entriesBelow_iff {q : Place × Entry} :
    q ∈ d.entriesBelow place ↔ q ∈ d.entries ∧ ∃ names, names ≠ [] ∧ q.1 = place ++ names := by
  rw [entriesBelow, (List.mergeSort_perm _ _).mem_iff, List.mem_filter]
  simp only [Bool.and_eq_true, List.isPrefixOf_iff_prefix, decide_eq_true_eq]
  constructor
  · rintro ⟨hmem, ⟨names, hnames⟩, hne⟩
    refine ⟨hmem, names, ?_, hnames.symm⟩
    rintro rfl
    exact hne (by simp [← hnames])
  · rintro ⟨hmem, names, hne, hnames⟩
    refine ⟨hmem, ⟨names, hnames.symm⟩, ?_⟩
    simp [hnames, hne]

theorem mem_below_iff (hd : d.WellFormed) {names : List String} :
    (names, e) ∈ d.below place ↔ names ≠ [] ∧ d.get? (place ++ names) = some e := by
  have hbelow : d.below place =
      (d.entriesBelow place).map fun q => (q.1.drop place.length, q.2) := rfl
  rw [hbelow, List.mem_map]
  constructor
  · rintro ⟨⟨other, e'⟩, hq, heq⟩
    obtain ⟨hmem, names', hne, hother⟩ := mem_entriesBelow_iff.1 hq
    dsimp only at hother heq
    rw [hother, List.drop_left, Prod.mk.injEq] at heq
    rw [← heq.1, ← heq.2, ← hother]
    exact ⟨hne, get?_of_mem hd hmem⟩
  · rintro ⟨hne, hentry⟩
    refine ⟨(place ++ names, e), mem_entriesBelow_iff.2 ⟨?_, names, hne, rfl⟩, by simp⟩
    exact mem_of_get? hentry (by simp [hne])

theorem placeOrder_iff {a b : Place × Entry} : placeOrder a b ↔ ¬ b.1 < a.1 := by
  rw [placeOrder, Bool.not_eq_true', decide_eq_false_iff_not]

theorem lt_of_placeOrder {a b : Place × Entry} (h : placeOrder a b) (hne : a.1 ≠ b.1) :
    a.1 < b.1 := by
  rw [placeOrder_iff] at h
  by_contra hnot
  exact hne (List.le_antisymm (List.not_lt.1 h) (List.not_lt.1 hnot))

theorem pairwise_entriesBelow (hd : d.WellFormed) (place : Place) :
    (d.entriesBelow place).Pairwise fun a b => a.1 < b.1 := by
  have hsorted : (d.entriesBelow place).Pairwise fun a b => placeOrder a b := by
    apply List.pairwise_mergeSort
    · intro a b c hab hbc
      rw [placeOrder_iff] at hab hbc ⊢
      exact List.not_lt.2 (List.le_trans (List.not_lt.1 hab) (List.not_lt.1 hbc))
    · intro a b
      rw [Bool.or_eq_true, placeOrder_iff, placeOrder_iff]
      rcases List.le_total a.1 b.1 with hle | hle
      · exact .inl (List.not_lt.2 hle)
      · exact .inr (List.not_lt.2 hle)
  have hdistinct : (d.entriesBelow place).Pairwise fun a b => a.1 ≠ b.1 := by
    have hall : d.entries.Pairwise fun a b => a.1 ≠ b.1 := List.pairwise_map.1 hd.1
    exact (List.mergeSort_perm _ _).symm.pairwise (hall.filter _) fun h => Ne.symm h
  exact hsorted.imp₂ (fun _ _ => lt_of_placeOrder) hdistinct

theorem pairwise_below (hd : d.WellFormed) (place : Place) :
    (d.below place).Pairwise fun a b => place ++ a.1 < place ++ b.1 := by
  have hbelow : d.below place =
      (d.entriesBelow place).map fun q => (q.1.drop place.length, q.2) := rfl
  rw [hbelow, List.pairwise_map]
  apply (pairwise_entriesBelow hd place).imp_of_mem
  intro a b ha hb hlt
  obtain ⟨-, names, -, hnames⟩ := mem_entriesBelow_iff.1 ha
  obtain ⟨-, names', -, hnames'⟩ := mem_entriesBelow_iff.1 hb
  simpa [hnames, hnames'] using hlt

end LintLedger.Disk
