import LintLedger.Path.Relative
import LintLedger.Proofs.Path.Moves

/-!
# Shown paths

An absolute path is shown by the moves that it makes behind those of the root, if it makes these
first and goes on by a name. Any other path is shown as it was written. Behind the root, what is
shown makes the moves of the path that it stands for.
-/

namespace LintLedger.Path

variable {p base : Path} {name : String} {moves more : List String}

/-! ## Names and slashes -/

/-- Every character but the slashes stands in a piece between them. -/
theorem exists_mem_splitOn {text : List Char} {c : Char} (h : c ∈ text) (hc : c ≠ '/') :
    ∃ piece ∈ text.splitOn '/', c ∈ piece := by
  induction text with
  | nil => cases h
  | cons first text ih =>
      rw [List.splitOn, List.splitOnP_cons_eq_if_modifyHead]
      split
      · next hslash =>
          have hne : c ≠ first := by
            rintro rfl
            exact hc (by simpa using hslash)
          obtain ⟨piece, hpiece, hmem⟩ := ih ((List.mem_cons.1 h).resolve_left hne)
          exact ⟨piece, List.mem_cons_of_mem [] hpiece, hmem⟩
      · obtain ⟨head, pieces, hcons⟩ :=
          List.exists_cons_of_ne_nil (List.splitOn_ne_nil '/' text)
        rw [hcons] at ih
        rw [List.splitOn] at hcons
        rw [hcons, List.modifyHead_cons]
        rcases List.mem_cons.1 h with rfl | hmem
        · exact ⟨c :: head, List.mem_cons_self, List.mem_cons_self⟩
        · obtain ⟨piece, hpiece, hmem⟩ := ih hmem
          rcases List.mem_cons.1 hpiece with rfl | hpiece
          · exact ⟨first :: piece, List.mem_cons_self, List.mem_cons_of_mem first hmem⟩
          · exact ⟨piece, List.mem_cons_of_mem _ hpiece, hmem⟩

theorem exists_name_of_mem {c : Char} (h : c ∈ p.text.toList) (hc : c ≠ '/') :
    ∃ name ∈ p.names, c ∈ name.toList := by
  obtain ⟨piece, hpiece, hmem⟩ := exists_mem_splitOn h hc
  have hne : piece ≠ [] := List.ne_nil_of_mem hmem
  refine ⟨String.ofList piece, List.mem_map_of_mem ?_, by simpa using hmem⟩
  exact List.mem_filter.2 ⟨hpiece, by simpa using hne⟩

/-! ## Paths from somewhere -/

def ofSteps (moves : List String) : Path :=
  ofComponents (moves.map Component.ofMove)

theorem ofSteps_eq (moves : List String) :
    ofSteps moves = moves.foldl (fun q name => q.join ⟨name⟩) ⟨""⟩ := by
  rw [ofSteps, ofComponents, List.foldl_map]
  simp only [Component.text_ofMove]

theorem ofSteps_concat (moves : List String) (name : String) :
    ofSteps (moves ++ [name]) = (ofSteps moves).join ⟨name⟩ := by
  rw [ofSteps_eq, ofSteps_eq, List.foldl_append]
  rfl

theorem isAbsolute_join_of_not {p q : Path} (hp : p.isAbsolute = false)
    (hq : q.isAbsolute = false) : (p.join q).isAbsolute = false := by
  unfold join
  rw [hq, if_neg Bool.false_ne_true]
  cases htext : p.text.toList with
  | nil => simpa [isAbsolute, htext] using hq
  | cons c cs =>
      have hc : c ≠ '/' := by simpa [isAbsolute, htext] using hp
      split <;> simp [isAbsolute, htext, hc]

theorem isAbsolute_ofSteps (h : ∀ name ∈ moves, IsPart name) :
    (ofSteps moves).isAbsolute = false := by
  induction moves using List.reverseRecOn with
  | nil => rfl
  | append_singleton moves name ih =>
      have hname := isAbsolute_name (h name (by simp)).no_slash
      rw [ofSteps_concat]
      exact isAbsolute_join_of_not (ih fun other hother => h other (by simp [hother])) hname

theorem names_ofSteps (h : ∀ name ∈ moves, IsPart name) : (ofSteps moves).names = moves := by
  induction moves using List.reverseRecOn with
  | nil => rfl
  | append_singleton moves name ih =>
      have hname := h name (by simp)
      rw [ofSteps_concat, names_join _ (isAbsolute_name hname.no_slash),
        ih fun other hother => h other (by simp [hother])]
      exact congrArg (moves ++ ·) (namesIn_singleton hname.ne_empty hname.no_slash)

theorem text_ofSteps_eq_empty_iff (h : ∀ name ∈ moves, IsPart name) :
    (ofSteps moves).text = "" ↔ moves = [] := by
  constructor
  · intro hempty
    have hnames := names_ofSteps h
    rw [names, hempty] at hnames
    exact hnames.symm
  · rintro rfl
    rfl

theorem getLast?_ofSteps (h : ∀ name ∈ moves, IsPart name) :
    (ofSteps moves).text.toList.getLast? ≠ some '/' := by
  cases List.eq_nil_or_concat' moves with
  | inl hnil => simp [hnil, ofSteps, ofComponents]
  | inr hconcat =>
      obtain ⟨front, name, rfl⟩ := hconcat
      have hname := h name (by simp)
      have hlast : name.toList.getLast? ≠ some '/' :=
        fun hslash => hname.no_slash (List.mem_of_getLast? hslash)
      have hne : name.toList ≠ [] := by simpa using hname.ne_empty
      rw [ofSteps_concat]
      unfold join
      rw [isAbsolute_name hname.no_slash, if_neg Bool.false_ne_true]
      split <;> rw [String.toList_append, List.getLast?_append_of_ne_nil _ hne] <;> exact hlast

/-- A path that does not start at the root has the components of its moves, if it does not begin
with a single dot. -/
theorem components_of_relative (h : p.isAbsolute = false) (hhead : p.names.head? ≠ some ".") :
    p.components = p.moves.map Component.ofMove := by
  obtain ⟨piece, pieces, hsplit⟩ :=
    List.exists_cons_of_ne_nil (List.splitOn_ne_nil '/' p.text.toList)
  have hnames : p.names = namesOf (piece :: pieces) := by rw [names, namesIn, hsplit]
  have hleading : Component.ofPiece? true piece = Component.ofPiece? false piece := by
    unfold Component.ofPiece?
    split
    · rfl
    · rw [hnames] at hhead
      exact (hhead rfl).elim
    · rfl
    · rfl
  have hall : p.components = (piece :: pieces).filterMap (Component.ofPiece? false) := by
    rw [components, hsplit, h, List.filterMap_cons, ← hleading]
    simp only [Bool.false_eq_true, if_false]
    cases Component.ofPiece? true piece <;> rfl
  rw [hall, filterMap_ofPiece?, Path.moves, hnames]

/-! ## Steps from one path to another -/

theorem Component.ofMove_injective : Function.Injective Component.ofMove := by
  intro name other heq
  rw [← Component.text_ofMove name, heq, Component.text_ofMove]

theorem steps?_climb (taken base : List Component) :
    steps? taken [] base = some (taken ++ base.map fun _ => .up) := by
  induction base generalizing taken with
  | nil => simp [steps?]
  | cons c base ih => rw [steps?, ih, List.append_assoc, List.map_cons, List.singleton_append]

theorem steps?_append (target base : List Component) :
    steps? [] (base ++ target) base = some target := by
  induction base with
  | nil => cases target <;> rfl
  | cons c base ih => simpa [steps?] using ih

theorem steps?_of_ne {a b : Component} (h : a ≠ b) (target base : List Component) :
    steps? [] (a :: target) (b :: base) =
      if b = .up then none else some (.up :: base.map (fun _ => .up) ++ a :: target) := by
  unfold steps?
  rw [if_neg (by simpa using h)]
  cases b <;> rfl

theorem map_up (names : List String) :
    (names.map Component.ofMove).map (fun _ => Component.up) =
      (names.map fun _ => "..").map Component.ofMove := by
  rw [List.map_map, List.map_map]
  rfl

/-- What does not lead through the base is reached, if at all, by going up first. -/
theorem steps?_of_not_prefix {target base : List String} (h : ¬ base <+: target) :
    steps? [] (target.map Component.ofMove) (base.map Component.ofMove) = none ∨
      ∃ more, (∀ name ∈ more, name = ".." ∨ name ∈ target) ∧
        steps? [] (target.map Component.ofMove) (base.map Component.ofMove) =
          some ((".." :: more).map Component.ofMove) := by
  induction base generalizing target with
  | nil => exact (h target.nil_prefix).elim
  | cons b base ih =>
      cases target with
      | nil =>
          right
          refine ⟨base.map fun _ => "..", by simp, ?_⟩
          rw [List.map_nil, steps?_climb, map_up]
          rfl
      | cons a target =>
          by_cases hab : a = b
          · have hrest : ¬ base <+: target :=
              fun hprefix => h (List.cons_prefix_cons.2 ⟨hab.symm, hprefix⟩)
            have hsteps : steps? [] ((a :: target).map Component.ofMove)
                ((b :: base).map Component.ofMove) =
                  steps? [] (target.map Component.ofMove) (base.map Component.ofMove) := by
              simp [steps?, hab]
            rw [hsteps]
            rcases ih hrest with hnone | ⟨more, hmore, hsome⟩
            · exact .inl hnone
            · exact .inr ⟨more, fun name hname => (hmore name hname).imp_right
                (List.mem_cons_of_mem a), hsome⟩
          · have hne : Component.ofMove a ≠ Component.ofMove b :=
              fun heq => hab (Component.ofMove_injective heq)
            rw [List.map_cons, List.map_cons, steps?_of_ne hne, map_up]
            by_cases hb : Component.ofMove b = .up
            · left
              rw [if_pos hb]
            · right
              refine ⟨(base.map fun _ => "..") ++ a :: target, ?_, ?_⟩
              · intro name hname
                rcases List.mem_append.1 hname with hdots | htarget
                · obtain ⟨_, -, rfl⟩ := List.mem_map.1 hdots
                  exact .inl rfl
                · exact .inr htarget
              · rw [if_neg hb, List.map_cons, List.map_append]
                rfl

/-! ## What is shown -/

theorem relative?_of_absolute (hp : p.isAbsolute) (hbase : base.isAbsolute) :
    p.relative? base = (steps? [] (p.moves.map Component.ofMove)
      (base.moves.map Component.ofMove)).map ofComponents := by
  have hroot : steps? [] p.components base.components =
      steps? [] (p.moves.map Component.ofMove) (base.moves.map Component.ofMove) := by
    rw [components_eq hp, components_eq hbase]
    rfl
  have hhere : ∀ {q : Path}, q.isAbsolute → withoutHere q.components = q.components := by
    intro q hq
    rw [components_eq hq]
    rfl
  rw [relative?, if_neg (by simp [hp, hbase]), hhere hp, hhere hbase, hroot]

theorem moves_ofSteps (h : ∀ name ∈ moves, IsPart name) (hhere : "." ∉ moves) :
    (ofSteps moves).moves = moves := by
  rw [Path.moves, names_ofSteps h, filter_ne_here hhere]

theorem head?_components_ofSteps (h : ∀ name ∈ moves, IsPart name) (hhere : "." ∉ moves) :
    (ofSteps moves).components.head? = moves.head?.map Component.ofMove := by
  have hhead : (ofSteps moves).names.head? ≠ some "." := by
    rw [names_ofSteps h]
    exact fun hhead => hhere (List.mem_of_mem_head? hhead)
  rw [components_of_relative (isAbsolute_ofSteps h) hhead, moves_ofSteps h hhere, List.head?_map]

/-- Whether a path makes the moves of a base first and then goes on by a name. -/
def GoesBelow (p base : Path) : Prop :=
  ∃ more, p.moves = base.moves ++ more ∧ more ≠ [] ∧ more.head? ≠ some ".."

section

variable (hp : p.isAbsolute) (hbase : base.isAbsolute)

include hp hbase

/-- A path that goes on by a name behind the moves of the base is shown by the moves that are
left. -/
theorem shownFrom_of_below (hmoves : p.moves = base.moves ++ more) (hne : more ≠ [])
    (hup : more.head? ≠ some "..") : shownFrom base p = (ofSteps more).text := by
  have hparts := isPart_of_mem_left hmoves
  have hhere := here_not_mem_left hmoves
  have hrelative : p.relative? base = some (ofSteps more) := by
    rw [relative?_of_absolute hp hbase, hmoves, List.map_append, steps?_append]
    rfl
  have hshown : (ofSteps more).text ≠ "" ∧ (ofSteps more).components.head? ≠ some .up := by
    refine ⟨fun hempty => hne ((text_ofSteps_eq_empty_iff hparts).1 hempty), ?_⟩
    rw [head?_components_ofSteps hparts hhere]
    intro hhead
    obtain ⟨name, hname, heq⟩ := Option.map_eq_some_iff.1 hhead
    have hdots : name = ".." := Component.ofMove_injective heq
    exact hup (by rw [hname, hdots])
  simp only [shownFrom, hrelative]
  rw [if_pos hshown]

/-- Any other path is shown as it was written. -/
theorem shownFrom_of_not_below (h : ¬ p.GoesBelow base) : shownFrom base p = p.text := by
  have hshown : ∀ steps, (∀ name ∈ steps, IsPart name) → "." ∉ steps →
      (steps = [] ∨ steps.head? = some "..") →
      p.relative? base = some (ofSteps steps) → shownFrom base p = p.text := by
    intro steps hparts hhere hsteps hrelative
    have hnot : ¬ ((ofSteps steps).text ≠ "" ∧
        (ofSteps steps).components.head? ≠ some .up) := by
      rw [head?_components_ofSteps hparts hhere, ne_eq, text_ofSteps_eq_empty_iff hparts]
      rintro ⟨hne, hhead⟩
      rw [hsteps.resolve_left hne] at hhead
      exact hhead rfl
    simp only [shownFrom, hrelative]
    rw [if_neg hnot]
  have hrelative := relative?_of_absolute hp hbase
  by_cases hprefix : base.moves <+: p.moves
  · obtain ⟨more, hmore⟩ := hprefix
    rw [← hmore, List.map_append, steps?_append] at hrelative
    refine hshown more (isPart_of_mem_left hmore.symm) (here_not_mem_left hmore.symm) ?_ hrelative
    by_contra hboth
    rw [not_or] at hboth
    exact h ⟨more, hmore.symm, hboth⟩
  · rcases steps?_of_not_prefix hprefix with hnone | ⟨more, hmore, hsome⟩
    · rw [hnone] at hrelative
      simp [shownFrom, hrelative]
    · rw [hsome] at hrelative
      refine hshown (".." :: more) ?_ ?_ (.inr rfl) hrelative
      · intro name hname
        rcases List.mem_cons.1 hname with rfl | hname
        · exact ⟨by decide, by decide⟩
        · rcases hmore name hname with rfl | hmem
          · exact ⟨by decide, by decide⟩
          · exact isPart_of_mem_moves hmem
      · intro hhere
        rcases List.mem_cons.1 hhere with hdots | hhere
        · exact absurd hdots (by decide)
        · rcases hmore _ hhere with hdots | hmem
          · exact absurd hdots (by decide)
          · exact here_not_mem_moves p hmem

end

end LintLedger.Path
