import LintLedger.Proofs.Path.Place

/-!
# Moves of a path

What is left of an absolute path when everything that says nothing is taken out of it: the names
that lead somewhere else. Writing the moves out again, with one slash in front of each, gives the
path that has the same components.
-/

namespace LintLedger.Path

/-- The names in a path that lead to another place. -/
def moves (p : Path) : List String :=
  p.names.filter (· ≠ ".")

def ofMoves (moves : List String) : Path :=
  if moves = [] then ⟨"/"⟩ else ofPlace moves

variable {p : Path} {name : String} {moves : List String}

theorem mem_moves : name ∈ p.moves ↔ name ∈ p.names ∧ name ≠ "." := by
  simp [Path.moves]

theorem here_not_mem_moves (p : Path) : "." ∉ p.moves :=
  fun h => (mem_moves.1 h).2 rfl

theorem isPart_of_mem_moves (h : name ∈ p.moves) : IsPart name :=
  isPart_of_mem_names (mem_moves.1 h).1

/-- What is left of the moves of a path when some are taken off still leads somewhere else. -/
theorem isPart_of_mem_left {more : List String} (h : p.moves = moves ++ more) :
    ∀ name ∈ more, IsPart name := by
  intro name hname
  have hmem : name ∈ p.moves := by
    rw [h]
    exact List.mem_append_right moves hname
  exact isPart_of_mem_moves hmem

theorem here_not_mem_left {more : List String} (h : p.moves = moves ++ more) : "." ∉ more := by
  intro hmem
  refine here_not_mem_moves p ?_
  rw [h]
  exact List.mem_append_right moves hmem

theorem filter_ne_here (h : "." ∉ moves) : moves.filter (· ≠ ".") = moves := by
  rw [List.filter_eq_self]
  intro name hname
  have hne : name ≠ "." := by
    rintro rfl
    exact h hname
  simpa using hne

/-- A path that does not go up only goes down. -/
theorem isStep_of_mem_moves (hup : ".." ∉ p.names) : ∀ name ∈ p.moves, IsStep name := by
  intro name h
  obtain ⟨hmem, hhere⟩ := mem_moves.1 h
  obtain ⟨hempty, hslash⟩ := isPart_of_mem_names hmem
  refine ⟨hempty, hhere, ?_, hslash⟩
  rintro rfl
  exact hup hmem

/-! ## Writing moves out -/

theorem isAbsolute_ofMoves (moves : List String) : (ofMoves moves).isAbsolute := by
  cases moves with
  | nil => rfl
  | cons name moves => simp [ofMoves, ofPlace, isAbsolute]

theorem text_ofMoves_ne (moves : List String) : (ofMoves moves).text ≠ "" := by
  intro hempty
  have habsolute := isAbsolute_ofMoves moves
  simp [isAbsolute, hempty] at habsolute

theorem names_ofMoves (h : ∀ name ∈ moves, IsPart name) : (ofMoves moves).names = moves := by
  unfold ofMoves
  by_cases hnil : moves = []
  · rw [if_pos hnil, hnil]
    rfl
  · rw [if_neg hnil, names_ofPlace h]

theorem moves_ofMoves (h : ∀ name ∈ moves, IsPart name) (hhere : "." ∉ moves) :
    (ofMoves moves).moves = moves := by
  rw [Path.moves, names_ofMoves h, filter_ne_here hhere]

/-! ## Components -/

def Component.ofMove (name : String) : Component :=
  if name = ".." then .up else .name name

theorem Component.text_ofMove (name : String) : (ofMove name).text = name := by
  unfold ofMove
  by_cases hup : name = ".."
  · rw [if_pos hup, hup]
    rfl
  · rw [if_neg hup]
    rfl

theorem filterMap_ofPiece? (pieces : List (List Char)) :
    pieces.filterMap (Component.ofPiece? false) =
      ((namesOf pieces).filter (· ≠ ".")).map Component.ofMove := by
  induction pieces with
  | nil => rfl
  | cons piece pieces ih =>
      by_cases hempty : piece = []
      · rw [hempty, List.filterMap_cons_none rfl, ih]
        rfl
      have hnames : namesOf (piece :: pieces) = String.ofList piece :: namesOf pieces := by
        simp [namesOf, hempty]
      rw [hnames]
      by_cases hhere : piece = ['.']
      · rw [hhere, List.filterMap_cons_none rfl, ih]
        rfl
      have hmove : String.ofList piece ≠ "." := fun heq => hhere (String.ofList_inj.1 heq)
      have hcomponent : Component.ofPiece? false piece =
          some (Component.ofMove (String.ofList piece)) := by
        by_cases hup : piece = ['.', '.']
        · rw [hup]
          rfl
        · have hname : String.ofList piece ≠ ".." := fun heq => hup (String.ofList_inj.1 heq)
          rw [Component.ofMove, if_neg hname]
          unfold Component.ofPiece?
          split
          · contradiction
          · contradiction
          · contradiction
          · rfl
      rw [List.filterMap_cons_some hcomponent, ih, List.filter_cons_of_pos (by simpa using hmove),
        List.map_cons]

theorem components_eq (h : p.isAbsolute) :
    p.components = .root :: p.moves.map Component.ofMove := by
  obtain ⟨cs, hcs⟩ := List.head?_eq_some_iff.1 (beq_iff_eq.1 h)
  have hsplit : p.text.toList.splitOn '/' = [] :: cs.splitOn '/' := by
    rw [hcs]
    exact splitOn_append_slash [] cs
  have hnames : p.names = namesOf (cs.splitOn '/') := by
    rw [names, namesIn, hsplit]
    rfl
  rw [components, hsplit, h, Path.moves, hnames, ← filterMap_ofPiece?]
  rfl

theorem ofComponents_root (h : ∀ name ∈ moves, IsPart name) :
    ofComponents (.root :: moves.map Component.ofMove) = ofMoves moves := by
  have hroot : (Path.mk "").join ⟨Component.root.text⟩ = ⟨"/"⟩ := rfl
  rw [ofComponents, List.foldl_cons, hroot, List.foldl_map]
  simp only [Component.text_ofMove]
  by_cases hnil : moves = []
  · rw [hnil]
    rfl
  · rw [ofMoves, if_neg hnil, foldl_join spells_root (by simp) hnil h, List.nil_append]

/-- The beginnings of the components of an absolute path, the longest first. -/
theorem lineage_components (h : p.isAbsolute) :
    (lineage p.components).map ofComponents =
      (List.range (p.moves.length + 1)).reverse.map fun k => ofMoves (p.moves.take k) := by
  rw [components_eq h, lineage, List.map_map, List.length_cons, List.length_map]
  apply List.map_congr_left
  intro k _
  have hparts : ∀ name ∈ p.moves.take k, IsPart name :=
    fun name hname => isPart_of_mem_moves (List.mem_of_mem_take hname)
  rw [Function.comp_apply, List.take_succ_cons, ← List.map_take, ofComponents_root hparts]

end LintLedger.Path
