import LintLedger.Proofs.Path.Shown

/-!
# Shown paths lead back

What is shown of a path at a root, written behind the root again, has the components of the path.
It is another text than the path only where the path goes on by a name behind the components of the
root, and nothing is lost then: the components of the root are left out, and all others are there.
So paths with other components are shown otherwise.
-/

namespace LintLedger.Path

variable {p q base : Path} {name : String}

/-! ## Components behind a path -/

theorem moves_join (p : Path) (h : q.isAbsolute = false) :
    (p.join q).moves = p.moves ++ q.moves := by
  rw [Path.moves, names_join p h, List.filter_append, Path.moves, Path.moves]

theorem components_join (hp : p.isAbsolute) (hq : q.isAbsolute = false) :
    (p.join q).components = p.components ++ q.moves.map Component.ofMove := by
  rw [components_eq (isAbsolute_join hp q), moves_join p hq, components_eq hp, List.map_append,
    List.cons_append]

theorem Component.ofMove_eq_up_iff : ofMove name = .up ↔ name = ".." := by
  rw [← Component.ofMove_injective.eq_iff (b := "..")]
  rfl

/-! ## What is shown -/

section

variable (hp : p.isAbsolute) (hbase : base.isAbsolute)

include hp hbase

theorem goesBelow_iff :
    p.GoesBelow base ↔ ∃ c cs, p.components = base.components ++ c :: cs ∧ c ≠ .up := by
  rw [components_eq hp, components_eq hbase]
  constructor
  · rintro ⟨more, hmoves, hne, hup⟩
    obtain ⟨name, names, rfl⟩ := List.exists_cons_of_ne_nil hne
    refine ⟨Component.ofMove name, names.map Component.ofMove, ?_, ?_⟩
    · rw [hmoves, List.map_append, List.map_cons, List.cons_append]
    · intro hname
      rw [Component.ofMove_eq_up_iff] at hname
      exact hup (by rw [hname, List.head?_cons])
  · rintro ⟨c, cs, hcomponents, hup⟩
    obtain ⟨front, back, hmoves, hfront, hback⟩ :=
      List.map_eq_append_iff.1 (List.cons.inj hcomponents).2
    obtain ⟨name, names, rfl, rfl, -⟩ := List.map_eq_cons_iff.1 hback
    obtain rfl := Component.ofMove_injective.list_map hfront
    refine ⟨name :: names, hmoves, List.cons_ne_nil name names, ?_⟩
    rintro ⟨⟩
    exact hup rfl

/-- What is shown of a path that goes below the base is a relative path that makes the moves that
are left. -/
theorem exists_shown_of_goesBelow (h : p.GoesBelow base) :
    ∃ q : Path, shownFrom base p = q.text ∧ q.isAbsolute = false ∧
      p.moves = base.moves ++ q.moves := by
  obtain ⟨more, hmoves, hne, hup⟩ := h
  have hparts := isPart_of_mem_left hmoves
  refine ⟨ofSteps more, shownFrom_of_below hp hbase hmoves hne hup, isAbsolute_ofSteps hparts, ?_⟩
  rw [moves_ofSteps hparts (here_not_mem_left hmoves), hmoves]

theorem isAbsolute_shownFrom_iff :
    (Path.mk (shownFrom base p)).isAbsolute = false ↔ p.GoesBelow base := by
  by_cases hbelow : p.GoesBelow base
  · obtain ⟨q, hshown, hrelative, -⟩ := exists_shown_of_goesBelow hp hbase hbelow
    rw [hshown]
    exact iff_of_true hrelative hbelow
  · rw [shownFrom_of_not_below hp hbase hbelow]
    exact iff_of_false (by simp [hp]) hbelow

theorem components_join_shownFrom :
    (base.join ⟨shownFrom base p⟩).components = p.components := by
  by_cases hbelow : p.GoesBelow base
  · obtain ⟨q, hshown, hrelative, hmoves⟩ := exists_shown_of_goesBelow hp hbase hbelow
    calc (base.join ⟨shownFrom base p⟩).components
        = (base.join q).components := by rw [hshown]
      _ = base.components ++ q.moves.map Component.ofMove := components_join hbase hrelative
      _ = .root :: (base.moves ++ q.moves).map Component.ofMove := by
          rw [components_eq hbase, List.cons_append, List.map_append]
      _ = p.components := by rw [← hmoves, components_eq hp]
  · rw [shownFrom_of_not_below hp hbase hbelow, join_of_isAbsolute base hp]

end

/-- What is shown of a path, written behind the root, has the components of the path. It is a
relative path exactly if the path has the components of the root and more behind them, of which
the first does not go up. So paths with other components are not shown alike at one root. -/
theorem shown_leads_back {p root : Path} (hp : p.isAbsolute) (hroot : root.isAbsolute) :
    (root.join ⟨shownFrom root p⟩).components = p.components ∧
      ((Path.mk (shownFrom root p)).isAbsolute = false ↔
        ∃ c cs, p.components = root.components ++ c :: cs ∧ c ≠ .up) ∧
      ∀ q : Path, q.isAbsolute → q.components ≠ p.components →
        shownFrom root q ≠ shownFrom root p := by
  have hback : ∀ {q : Path}, q.isAbsolute →
      (root.join ⟨shownFrom root q⟩).components = q.components :=
    fun hq => components_join_shownFrom hq hroot
  refine ⟨hback hp, ?_, ?_⟩
  · rw [isAbsolute_shownFrom_iff hp hroot, goesBelow_iff hp hroot]
  · intro q hq hother hsame
    rw [← hback hq, hsame, hback hp] at hother
    exact hother rfl

/-- The root here goes up and down again, one path goes on behind it by a name that begins with
two dots, and the other one goes up. -/
theorem shown_leads_back_dotted :
    let root : Path := ⟨"/w/.././/w/"⟩
    let below : Path := ⟨"//w/../w/./..x//y"⟩
    let above : Path := ⟨"/w/../w/../..x/y"⟩
    shownFrom root below = "..x/y" ∧ shownFrom root above = above.text ∧
      (root.join ⟨"..x/y"⟩).components = below.components ∧
      (∃ c cs, below.components = root.components ++ c :: cs ∧ c ≠ .up) ∧
      ¬ (∃ c cs, above.components = root.components ++ c :: cs ∧ c ≠ .up) ∧
      shownFrom root above ≠ shownFrom root below := by
  intro root below above
  have hbelow : shownFrom root below = "..x/y" := by decide +kernel
  have habove : shownFrom root above = above.text := by decide +kernel
  have hroot : root.isAbsolute := by decide
  have hp : below.isAbsolute := by decide
  have hq : above.isAbsolute := by decide
  obtain ⟨hback, hrelative, hother⟩ := shown_leads_back hp hroot
  obtain ⟨-, hrelative', -⟩ := shown_leads_back hq hroot
  refine ⟨hbelow, habove, ?_, ?_, ?_, ?_⟩
  · rw [← hbelow]
    exact hback
  · exact hrelative.1 (by rw [hbelow]; decide)
  · rw [← hrelative', habove]
    decide
  · exact hother above hq (by decide +kernel)

end LintLedger.Path
