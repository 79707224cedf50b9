import LintLedger.Proofs.Disk.Places
import LintLedger.Proofs.Glob.Quoted

/-!
# Walking to a directory and below it

The components of a quoted path lead to the place that the path spells, and to nothing else, if it
is a directory. From there, the pattern for an extension leads to everything below whose name ends
with it, in the order of places.
-/

namespace LintLedger.Glob

open LintLedger.Disk (isStep_of_get?)
open LintLedger.Path (IsStep Spells isPart_of_isStep namesOf ofPlace)

variable {d : Disk} {here : Place} {p : Path} {name : String}

/-! ## What is in a directory -/

theorem isStep_of_below (hd : d.WellFormed) {e : Place × Entry} (h : e ∈ d.below here) :
    e.1 ≠ [] ∧ ∀ name ∈ e.1, IsStep name := by
  obtain ⟨hne, hentry⟩ := (Disk.mem_below_iff hd).1 h
  exact ⟨hne, fun name hname => isStep_of_get? hd hentry name (List.mem_append_right here hname)⟩

theorem foldl_join_below (hd : d.WellFormed) (hp : Spells here p)
    (hhere : ∀ name ∈ here, IsStep name) {e : Place × Entry} (h : e ∈ d.below here) :
    e.1.foldl (fun q name => q.join ⟨name⟩) p = ofPlace (here ++ e.1) := by
  obtain ⟨hne, hsteps⟩ := isStep_of_below hd h
  exact Path.foldl_join hp (isPart_of_isStep hhere) hne (isPart_of_isStep hsteps)

theorem descendants_eq (hd : d.WellFormed) (hp : Spells here p)
    (hdirectory : d.get? here = some .directory) :
    descendants d p = (d.below here).map fun e => ofPlace (here ++ e.1) := by
  rw [descendants, Disk.placeOf_of_spells hd hp hdirectory]
  apply List.map_congr_left
  intro e he
  exact foldl_join_below hd hp (isStep_of_get? hd hdirectory) he

theorem children_eq (hd : d.WellFormed) (hp : Spells here p)
    (hdirectory : d.get? here = some .directory) :
    children d p = ((d.below here).filter fun e => e.1.length = 1).map fun e =>
      ofPlace (here ++ e.1) := by
  rw [children, Disk.placeOf_of_spells hd hp hdirectory]
  apply List.map_congr_left
  intro e he
  exact foldl_join_below hd hp (isStep_of_get? hd hdirectory) (List.mem_of_mem_filter he)

/-- At most one entry stands right below a place under a name. -/
theorem filter_below_name (hd : d.WellFormed) (here : Place) (name : String) :
    (d.below here).filter (fun e => e.1 = [name]) =
      ((d.get? (here ++ [name])).map fun e => ([name], e)).toList := by
  have hnodup : ((d.below here).filter fun e => e.1 = [name]).Nodup := by
    apply List.Pairwise.filter
    apply (Disk.pairwise_below hd here).imp
    rintro a b hlt rfl
    exact List.lt_irrefl _ hlt
  have hmem : ∀ e, e ∈ (d.below here).filter (fun e => e.1 = [name]) ↔
      e.1 = [name] ∧ d.get? (here ++ [name]) = some e.2 := by
    rintro ⟨names, e⟩
    rw [List.mem_filter, Disk.mem_below_iff hd, decide_eq_true_eq]
    constructor
    · rintro ⟨⟨-, hentry⟩, rfl⟩
      exact ⟨rfl, hentry⟩
    · rintro ⟨rfl, hentry⟩
      exact ⟨⟨by simp, hentry⟩, rfl⟩
  cases hentry : d.get? (here ++ [name]) with
  | none =>
      apply List.eq_nil_iff_forall_not_mem.2
      intro e he
      have hsome := ((hmem e).1 he).2
      rw [hentry] at hsome
      cases hsome
  | some e =>
      refine List.perm_singleton.1 ((List.perm_ext_iff_of_nodup hnodup (by simp)).2 ?_)
      rintro ⟨names, e'⟩
      rw [hmem, hentry]
      simp [eq_comm]

/-- The file name of a path below a place is the last name. -/
theorem fileName?_below (hd : d.WellFormed) {e : Place × Entry} (h : e ∈ d.below here) :
    ∃ front name, e.1 = front ++ [name] ∧ (ofPlace (here ++ e.1)).fileName? = some name := by
  obtain ⟨hne, hsteps⟩ := isStep_of_below hd h
  obtain ⟨front, name, hfront⟩ := (List.eq_nil_or_concat' e.1).resolve_left hne
  have hname : IsStep name := hsteps name (by simp [hfront])
  refine ⟨front, name, hfront, ?_⟩
  rw [hfront, ← List.append_assoc]
  exact Path.fileName?_ofPlace_concat (here ++ front) hname

/-- The tokens for a name find that name alone. -/
theorem filter_children (hd : d.WellFormed) (hp : Spells here p)
    (hdirectory : d.get? here = some .directory) (name : String) :
    (children d p).filter (fun q => q.fileName?.any fun found =>
        matchesName (name.toList.map literally) found.toList) =
      (d.get? (here ++ [name])).toList.map fun _ => ofPlace (here ++ [name]) := by
  have hfilter : ((d.below here).filter fun e => e.1.length = 1).filter (fun e =>
      (ofPlace (here ++ e.1)).fileName?.any fun found =>
        matchesName (name.toList.map literally) found.toList) =
      (d.below here).filter fun e => e.1 = [name] := by
    rw [List.filter_filter]
    apply List.filter_congr
    intro e he
    obtain ⟨front, last, hfront, hlast⟩ := fileName?_below hd he
    rw [hlast, Option.any_some, hfront, Bool.eq_iff_iff, Bool.and_eq_true,
      matchesName_map literally_cases, String.toList_inj, decide_eq_true_eq, decide_eq_true_eq]
    cases front with
    | nil => simp
    | cons first front => simp
  rw [children_eq hd hp hdirectory, List.filter_map]
  have hsame : ((d.below here).filter fun e => e.1.length = 1).filter
      ((fun q : Path => q.fileName?.any fun found =>
        matchesName (name.toList.map literally) found.toList) ∘
          fun e => ofPlace (here ++ e.1)) = (d.below here).filter fun e => e.1 = [name] := hfilter
  rw [hsame, filter_below_name hd]
  cases d.get? (here ++ [name]) <;> simp

/-! ## Walking -/

section

variable {segments : List Segment}

theorem walk_literal (d : Disk) (p : Path) {text : String} (hhere : text ≠ ".") (hup : text ≠ "..")
    (segments : List Segment) :
    walk d false p (.literal text :: segments) =
      if d.exists? (p.join ⟨text⟩) then walk d false (p.join ⟨text⟩) segments else [] := by
  simp [walk, hhere, hup]

/-- A name leads to the path of the place with that name, if something stands there. -/
theorem walk_name (hd : d.WellFormed) (hp : Spells here p) (hhere : ∀ name ∈ here, IsStep name)
    (hname : IsStep name) (segments : List Segment) :
    walk d false p (quotedSegment name.toList :: segments) =
      if (d.get? (here ++ [name])).isSome then walk d false (ofPlace (here ++ [name])) segments
      else [] := by
  have hplace : ∀ other ∈ here ++ [name], IsStep other :=
    List.forall_mem_append.2 ⟨hhere, List.forall_mem_singleton.2 hname⟩
  rcases quotedSegment_cases name.toList with hliteral | ⟨hwild, -⟩
  · have hexists : d.exists? (ofPlace (here ++ [name])) = (d.get? (here ++ [name])).isSome := by
      rw [Bool.eq_iff_iff, Disk.exists?_ofPlace_iff hd hplace (by simp),
        Option.isSome_iff_exists]
    rw [hliteral, String.ofList_toList, walk_literal d p hname.ne_here hname.ne_up,
      hp.join_name (isPart_of_isStep hhere) hname.isPart, hexists]
  · have hdots : dotNames (name.toList.map literally) = [] := by
      apply dotNames_literally
      · exact fun heq => hname.ne_here (String.toList_injective heq)
      · exact fun heq => hname.ne_up (String.toList_injective heq)
    have hisDirectory := Disk.isDirectory_iff hd hp hhere
    rw [hwild, walk, hdots]
    by_cases hdirectory : d.get? here = some .directory
    · rw [if_pos (hisDirectory.2 hdirectory)]
      dsimp only
      rw [List.map_nil, List.nil_append, filter_children hd hp hdirectory]
      cases d.get? (here ++ [name]) <;> simp
    · -- Nothing stands in what is no directory.
      rw [if_neg fun h => hdirectory (hisDirectory.1 h), if_neg]
      intro hsome
      obtain ⟨e, hentry⟩ := Option.isSome_iff_exists.1 hsome
      exact hdirectory (Disk.directory_of_concat hd hentry)

/-- Nothing between two slashes leads from a directory to itself. -/
theorem walk_empty (hd : d.WellFormed) (hp : Spells here p) (hhere : ∀ name ∈ here, IsStep name)
    (segments : List Segment) :
    ∃ q, Spells here q ∧ (d.get? here = some .directory →
        walk d false p (quotedSegment [] :: segments) = walk d false q segments) ∧
      (d.get? here ≠ some .directory → walk d false p (quotedSegment [] :: segments) = []) := by
  have hslash := hp.join_empty (isPart_of_isStep hhere)
  have hexists := Disk.exists?_slash_iff hd hhere hslash
  have hsegment : quotedSegment [] = .literal "" := rfl
  refine ⟨p.join ⟨""⟩, .slash hslash, fun hdirectory => ?_, fun hother => ?_⟩
  · rw [hsegment, walk_literal d p (by decide) (by decide), if_pos (hexists.2 hdirectory)]
  · rw [hsegment, walk_literal d p (by decide) (by decide),
      if_neg fun h => hother (hexists.1 h)]

/-- The components of a quoted path lead to the place that it spells, if that is a directory. -/
theorem walk_quoted (hd : d.WellFormed) {pieces : List (List Char)}
    (hpieces : ∀ name ∈ namesOf pieces, IsStep name)
    (htail : ∀ q, d.isDirectory q = false → walk d false q segments = [])
    (hp : Spells here p) (hhere : ∀ name ∈ here, IsStep name) :
    ∃ q, Spells (here ++ namesOf pieces) q ∧
      (d.get? (here ++ namesOf pieces) = some .directory →
        walk d false p (pieces.map quotedSegment ++ segments) = walk d false q segments) ∧
      (d.get? (here ++ namesOf pieces) ≠ some .directory →
        walk d false p (pieces.map quotedSegment ++ segments) = []) := by
  induction pieces generalizing here p with
  | nil =>
      have hnames : here ++ namesOf [] = here := by simp [namesOf]
      rw [hnames]
      refine ⟨p, hp, fun _ => rfl, fun hother => htail p ?_⟩
      rw [Bool.eq_false_iff]
      exact fun h => hother ((Disk.isDirectory_iff hd hp hhere).1 h)
  | cons piece pieces ih =>
      rw [List.map_cons, List.cons_append]
      by_cases hpiece : piece = []
      · subst hpiece
        have hnames : namesOf ([] :: pieces) = namesOf pieces := by simp [namesOf]
        rw [hnames] at hpieces ⊢
        obtain ⟨q, hq, henter, hleave⟩ :=
          walk_empty hd hp hhere (pieces.map quotedSegment ++ segments)
        obtain ⟨r, hr, hreach, hmiss⟩ := ih hpieces hq hhere
        refine ⟨r, hr, fun hdirectory => ?_, fun hother => ?_⟩
        · rw [henter (Disk.directory_above hd hdirectory), hreach hdirectory]
        · by_cases hdirectory : d.get? here = some .directory
          · rw [henter hdirectory, hmiss hother]
          · exact hleave hdirectory
      · have hnames : namesOf (piece :: pieces) = String.ofList piece :: namesOf pieces := by
          simp [namesOf, hpiece]
        have happend : here ++ namesOf (piece :: pieces) =
            (here ++ [String.ofList piece]) ++ namesOf pieces := by
          simp [hnames]
        rw [hnames] at hpieces
        have hname := hpieces (String.ofList piece) List.mem_cons_self
        have hplace : ∀ other ∈ here ++ [String.ofList piece], IsStep other :=
          List.forall_mem_append.2 ⟨hhere, List.forall_mem_singleton.2 hname⟩
        have hwalk := walk_name hd hp hhere hname (pieces.map quotedSegment ++ segments)
        rw [String.toList_ofList] at hwalk
        rw [hwalk, happend]
        obtain ⟨r, hr, hreach, hmiss⟩ := ih
          (fun other hother => hpieces other (List.mem_cons_of_mem _ hother))
          (.plain (by simp)) hplace
        refine ⟨r, hr, fun hdirectory => ?_, fun hother => ?_⟩
        · rw [Disk.directory_above hd hdirectory, Option.isSome_some, if_pos rfl, hreach hdirectory]
        · split
          · exact hmiss hother
          · rfl

end

/-! ## Sources -/

/-- Whether an entry is a file whose name ends with a dot and an extension. -/
def isSource (extension : String) (e : Place × Entry) : Bool :=
  match e.2, e.1.getLast? with
  | .file _, some name => matchesName (suffixTokens extension.toList) name.toList
  | _, _ => false

theorem isFile_below_iff (hd : d.WellFormed) {e : Place × Entry} (h : e ∈ d.below here) :
    d.isFile (ofPlace (here ++ e.1)) ↔ ∃ bytes, e.2 = .file bytes := by
  obtain ⟨hne, hentry⟩ := (Disk.mem_below_iff hd).1 h
  rw [Disk.isFile_ofPlace_iff hd (isStep_of_get? hd hentry) (by simp [hne]), hentry]
  simp

/-- What the last two components lead to from a directory, as far as these are files. -/
theorem filter_walk_below (hd : d.WellFormed) (hp : Spells here p)
    (hdirectory : d.get? here = some .directory) (extension : String) :
    (walk d false p [.directories, .ofTokens (suffixTokens extension.toList)]).filter d.isFile =
      ((d.below here).filter (isSource extension)).map fun e => ofPlace (here ++ e.1) := by
  have hisDirectory := (Disk.isDirectory_iff hd hp (isStep_of_get? hd hdirectory)).2 hdirectory
  have hwalk : walk d false p [.directories, .ofTokens (suffixTokens extension.toList)] =
      (descendants d p).filter fun q => q.fileName?.any fun name =>
        matchesName (suffixTokens extension.toList) name.toList := by
    rw [ofTokens_suffixTokens]
    simp [walk, hisDirectory]
    rfl
  rw [hwalk, descendants_eq hd hp hdirectory, List.filter_filter, List.filter_map]
  congr 1
  apply List.filter_congr
  intro e he
  obtain ⟨front, name, hfront, hname⟩ := fileName?_below hd he
  have hfile : d.isFile (ofPlace (here ++ e.1)) = match e.2 with
      | .file _ => true
      | .directory => false := by
    rw [Bool.eq_iff_iff, isFile_below_iff hd he]
    cases e.2 <;> simp
  rw [Function.comp_apply, hfile, hname, Option.any_some, isSource, hfront, List.getLast?_concat]
  cases e.2 <;> simp

/-- The sources below a directory, in the order of their places. Where there is no directory, there
are none. -/
theorem sources_eq (hd : d.WellFormed) {base : Path} (habsolute : base.isAbsolute)
    (hbase : base.Descends) {extension : String}
    (hextension : ∀ c ∈ extension.toList, c ∉ ['*', '?', '[', '/']) :
    Collection.sources d base extension =
      .ok (((d.below base.names).filter (isSource extension)).map fun e =>
        ofPlace (base.names ++ e.1)) := by
  obtain ⟨cs, hcs⟩ : ∃ cs, base.text.toList = '/' :: cs := by
    rw [Path.isAbsolute, beq_iff_eq] at habsolute
    exact List.head?_eq_some_iff.1 habsolute
  have hnames : base.names = namesOf (cs.splitOn '/') := by
    have happend := Path.namesIn_append_slash [] cs
    rw [Path.namesIn_nil, List.nil_append, List.nil_append] at happend
    rw [Path.names, hcs, happend, Path.namesIn]
  have hsteps := hbase.isStep
  rw [hnames] at hsteps
  have htail : ∀ q, d.isDirectory q = false →
      walk d false q [.directories, .ofTokens (suffixTokens extension.toList)] = [] := by
    intro q hq
    rw [ofTokens_suffixTokens]
    simp [walk, hq]
  obtain ⟨q, hq, hreach, hmiss⟩ := walk_quoted hd hsteps htail Path.spells_root (by simp)
  rw [List.nil_append] at hq hreach hmiss
  have hpaths : paths d (Collection.globText base extension) =
      .ok (walk d false ⟨"/"⟩ ((cs.splitOn '/').map quotedSegment ++
        [.directories, .ofTokens (suffixTokens extension.toList)])) := by
    rw [paths, ofText_globText hcs hextension]
    rfl
  rw [Collection.sources, hpaths, hnames]
  dsimp only
  by_cases hdirectory : d.get? (namesOf (cs.splitOn '/')) = some .directory
  · rw [hreach hdirectory, filter_walk_below hd hq hdirectory]
  · have hnone : d.below (namesOf (cs.splitOn '/')) = [] := by
      apply List.eq_nil_iff_forall_not_mem.2
      intro e he
      obtain ⟨hne, hentry⟩ := (Disk.mem_below_iff hd).1 he
      exact hdirectory (Disk.directory_of_append hd hentry hne)
    rw [hmiss hdirectory, hnone]
    rfl

end LintLedger.Glob
