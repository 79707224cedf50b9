import Mathlib.Data.List.Basic
import Mathlib.Data.List.Induction
import LintLedger.Disk

/-!
# Paths of places

The names in a path text, and the texts that spell a place: a slash in front of every name, with or
without one more slash at the end. Joining a name to a path that spells a place gives the path of
the place with that name, whichever way the first was spelled.
-/

namespace LintLedger

namespace Path

/-- A name that can stand between two slashes. -/
structure IsPart (name : String) : Prop where
  ne_empty : name ≠ ""
  no_slash : '/' ∉ name.toList

/-- A name that leads one step down. -/
structure IsStep (name : String) : Prop where
  ne_empty : name ≠ ""
  ne_here : name ≠ "."
  ne_up : name ≠ ".."
  no_slash : '/' ∉ name.toList

theorem IsStep.isPart {name : String} (h : IsStep name) : IsPart name :=
  ⟨h.ne_empty, h.no_slash⟩

theorem isPart_of_isStep {place : Place} (h : ∀ name ∈ place, IsStep name) :
    ∀ name ∈ place, IsPart name :=
  fun name hname => (h name hname).isPart

def namesOf (pieces : List (List Char)) : List String :=
  (pieces.filter (· ≠ [])).map String.ofList

def namesIn (text : List Char) : List String :=
  namesOf (text.splitOn '/')

def names (p : Path) : List String :=
  namesIn p.text.toList

def Descends (p : Path) : Prop :=
  ∀ name ∈ p.names, name ≠ "." ∧ name ≠ ".."

/-! ## Names in a text -/

theorem splitOn_append_slash (front back : List Char) :
    (front ++ '/' :: back).splitOn '/' = front.splitOn '/' ++ back.splitOn '/' :=
  List.splitOnP_append_cons front back rfl

theorem splitOn_of_not_mem {piece : List Char} (h : '/' ∉ piece) : piece.splitOn '/' = [piece] := by
  have hsplit := @List.splitOn_intercalate _ [piece] _ _ '/' (by simpa using h) (by simp)
  simpa using hsplit

/-- The pieces between the slashes of a text hold its characters, and no slash. -/
theorem of_mem_splitOn {text piece : List Char} {c : Char} (h : piece ∈ text.splitOn '/')
    (hc : c ∈ piece) : c ∈ text ∧ c ≠ '/' := by
  induction text generalizing piece with
  | nil =>
      rw [List.splitOn_nil, List.mem_singleton] at h
      simp [h] at hc
  | cons first text ih =>
      rw [List.splitOn, List.splitOnP_cons_eq_if_modifyHead] at h
      split at h
      · rcases List.mem_cons.1 h with rfl | hmem
        · simp at hc
        · exact (ih hmem hc).imp_left (List.mem_cons_of_mem first)
      · next hfirst =>
          have hne : text.splitOn '/' ≠ [] := List.splitOn_ne_nil _ _
          obtain ⟨head, pieces, hcons⟩ := List.exists_cons_of_ne_nil hne
          rw [List.splitOn] at hcons
          rw [hcons, List.modifyHead_cons] at h
          rw [List.splitOn, hcons] at ih
          rcases List.mem_cons.1 h with rfl | hmem
          · rcases List.mem_cons.1 hc with rfl | hhead
            · exact ⟨List.mem_cons_self, by simpa using hfirst⟩
            · exact (ih List.mem_cons_self hhead).imp_left (List.mem_cons_of_mem first)
          · exact (ih (List.mem_cons_of_mem head hmem) hc).imp_left (List.mem_cons_of_mem first)

theorem namesIn_append_slash (front back : List Char) :
    namesIn (front ++ '/' :: back) = namesIn front ++ namesIn back := by
  simp [namesIn, namesOf, splitOn_append_slash]

theorem namesIn_nil : namesIn [] = [] := rfl

theorem namesIn_singleton {name : String} (hne : name ≠ "") (h : '/' ∉ name.toList) :
    namesIn name.toList = [name] := by
  simp [namesIn, namesOf, splitOn_of_not_mem h, hne]

theorem of_mem_names {p : Path} {name : String} {c : Char} (h : name ∈ p.names)
    (hc : c ∈ name.toList) : c ∈ p.text.toList ∧ c ≠ '/' := by
  obtain ⟨piece, hpiece, rfl⟩ := List.mem_map.1 h
  rw [String.toList_ofList] at hc
  exact of_mem_splitOn (List.mem_of_mem_filter hpiece) hc

theorem isPart_of_mem_names {p : Path} {name : String} (h : name ∈ p.names) : IsPart name := by
  refine ⟨?_, fun hslash => (of_mem_names h hslash).2 rfl⟩
  obtain ⟨piece, hpiece, rfl⟩ := List.mem_map.1 h
  simpa using (List.mem_filter.1 hpiece).2

theorem Descends.isStep {p : Path} (h : p.Descends) : ∀ name ∈ p.names, IsStep name := by
  intro name hname
  obtain ⟨hhere, hup⟩ := h name hname
  obtain ⟨hempty, hslash⟩ := isPart_of_mem_names hname
  exact ⟨hempty, hhere, hup, hslash⟩

theorem isAbsolute_name {name : String} (h : '/' ∉ name.toList) :
    (Path.mk name).isAbsolute = false := by
  rw [isAbsolute, beq_eq_false_iff_ne]
  intro hhead
  exact h (List.mem_of_mem_head? hhead)

/-- The names of a path behind another are behind its names. -/
theorem names_join (p : Path) {q : Path} (h : q.isAbsolute = false) :
    (p.join q).names = p.names ++ q.names := by
  unfold join
  rw [h, if_neg Bool.false_ne_true]
  split
  · next hlast =>
      cases List.eq_nil_or_concat' p.text.toList with
      | inl hnil => simp [names, hnil, namesIn_nil]
      | inr hconcat =>
          obtain ⟨front, c, hfront⟩ := hconcat
          obtain rfl : c = '/' := by simpa [hfront] using hlast
          have hslash : front ++ ['/'] ++ q.text.toList = front ++ '/' :: q.text.toList := by simp
          simp only [names, String.toList_append, hfront, hslash, namesIn_append_slash, namesIn_nil,
            List.append_nil]
  · next => simp [names, namesIn_append_slash]

theorem isAbsolute_join {p : Path} (hp : p.isAbsolute) (q : Path) : (p.join q).isAbsolute := by
  by_cases hq : q.isAbsolute
  · rwa [join_of_isAbsolute p hq]
  · rw [isAbsolute, beq_iff_eq] at hp
    obtain ⟨cs, hcs⟩ := List.head?_eq_some_iff.1 hp
    unfold join
    rw [if_neg hq]
    split <;> simp [isAbsolute, hcs]

/-! ## Spelled places -/

/-- The path of a place: a slash in front of every name. -/
def ofPlace (place : Place) : Path :=
  ⟨String.join (place.map ("/" ++ ·))⟩

theorem text_ofPlace_concat (place : Place) (name : String) :
    (ofPlace (place ++ [name])).text = (ofPlace place).text ++ "/" ++ name := by
  simp [ofPlace, String.append_assoc]

theorem names_ofPlace {place : Place} (h : ∀ name ∈ place, IsPart name) :
    (ofPlace place).names = place := by
  induction place using List.reverseRecOn with
  | nil => rfl
  | append_singleton place name ih =>
      have hname := h name (by simp)
      have hplace := ih fun other hother => h other (by simp [hother])
      have htext : (ofPlace (place ++ [name])).text.toList =
          (ofPlace place).text.toList ++ '/' :: name.toList := by
        simp [text_ofPlace_concat]
      rw [names, htext, namesIn_append_slash, namesIn_singleton hname.ne_empty hname.no_slash]
      rw [names] at hplace
      rw [hplace]

/-- A text for a place: its path, or its path and a slash. -/
inductive Spells (place : Place) : Path → Prop
  | plain : place ≠ [] → Spells place (ofPlace place)
  | slash {p : Path} : p.text = (ofPlace place).text ++ "/" → Spells place p

theorem spells_root : Spells [] ⟨"/"⟩ :=
  .slash rfl

variable {place : Place} {name : String} {p : Path}

theorem getLast?_ofPlace (hplace : ∀ name ∈ place, IsPart name) (hne : place ≠ []) :
    (ofPlace place).text.toList.getLast?.all (· == '/') = false := by
  obtain ⟨front, name, rfl⟩ := (List.eq_nil_or_concat' place).resolve_left hne
  have hname := hplace name (by simp)
  obtain ⟨cs, c, hcs⟩ := (List.eq_nil_or_concat' name.toList).resolve_left
    (by simpa using hname.ne_empty)
  have hc : c ≠ '/' := by
    rintro rfl
    exact hname.no_slash (by simp [hcs])
  have htext : (ofPlace (front ++ [name])).text.toList =
      ((ofPlace front).text.toList ++ '/' :: cs) ++ [c] := by
    simp [text_ofPlace_concat, hcs]
  rw [htext, List.getLast?_concat]
  simpa using hc

/-- A name behind a spelled place. -/
theorem Spells.join_name (h : Spells place p) (hplace : ∀ name ∈ place, IsPart name)
    (hname : IsPart name) : p.join ⟨name⟩ = ofPlace (place ++ [name]) := by
  have hrelative := isAbsolute_name hname.no_slash
  have htext := text_ofPlace_concat place name
  unfold join
  rw [hrelative, if_neg Bool.false_ne_true]
  cases h with
  | plain hne =>
      rw [getLast?_ofPlace hplace hne, if_neg Bool.false_ne_true, ← htext]
  | slash hslash =>
      rw [if_pos (by simp [hslash]), hslash, ← htext]

/-- Nothing behind a spelled place is a slash. -/
theorem Spells.join_empty (h : Spells place p) (hplace : ∀ name ∈ place, IsPart name) :
    (p.join ⟨""⟩).text = (ofPlace place).text ++ "/" := by
  unfold join
  rw [if_neg (by simp [isAbsolute])]
  cases h with
  | plain hne =>
      rw [getLast?_ofPlace hplace hne, if_neg Bool.false_ne_true, String.append_empty]
  | slash hslash =>
      rw [if_pos (by simp [hslash]), hslash, String.append_empty]

theorem foldl_join (h : Spells place p) (hplace : ∀ name ∈ place, IsPart name)
    {names : List String} (hne : names ≠ []) (hnames : ∀ name ∈ names, IsPart name) :
    names.foldl (fun q name => q.join ⟨name⟩) p = ofPlace (place ++ names) := by
  induction names generalizing place p with
  | nil => exact (hne rfl).elim
  | cons name names ih =>
      have hname := hnames name List.mem_cons_self
      have hrest : ∀ other ∈ names, IsPart other :=
        fun other hother => hnames other (List.mem_cons_of_mem name hother)
      rw [List.foldl_cons, h.join_name hplace hname]
      cases names with
      | nil => rfl
      | cons next names =>
          have hplace' : ∀ other ∈ place ++ [name], IsPart other :=
            List.forall_mem_append.2 ⟨hplace, List.forall_mem_singleton.2 hname⟩
          have hlonger := ih (.plain (by simp)) hplace' (by simp) hrest
          rw [hlonger, List.append_assoc, List.singleton_append]

theorem ofPiece?_step (hname : IsStep name) :
    Component.ofPiece? false name.toList = some (.name name) := by
  unfold Component.ofPiece?
  split
  · next hnil => exact (hname.ne_empty (by simpa using hnil)).elim
  · next hdot => exact (hname.ne_here (String.toList_injective hdot)).elim
  · next hdots => exact (hname.ne_up (String.toList_injective hdots)).elim
  · rw [String.ofList_toList]

theorem fileName?_ofPlace_concat (place : Place) (hname : IsStep name) :
    (ofPlace (place ++ [name])).fileName? = some name := by
  have htext : (ofPlace (place ++ [name])).text.toList =
      (ofPlace place).text.toList ++ '/' :: name.toList := by
    simp [text_ofPlace_concat]
  have hsplit : (ofPlace (place ++ [name])).text.toList.splitOn '/' =
      (ofPlace place).text.toList.splitOn '/' ++ [name.toList] := by
    rw [htext, splitOn_append_slash, splitOn_of_not_mem hname.no_slash]
  have hne : (ofPlace place).text.toList.splitOn '/' ≠ [] := List.splitOn_ne_nil _ _
  obtain ⟨first, pieces, hcons⟩ := List.exists_cons_of_ne_nil hne
  rw [fileName?, components, hsplit, hcons]
  simp [List.filterMap_append, ofPiece?_step hname]

end Path

end LintLedger
