import Mathlib.Data.List.Perm.Basic
import LintLedger.Listing

/-!
# Lints in the order of their names

What it is for lints to stand in the order of their names, with lints of one name as they stood:
there is one such order of a list, and the table uses it.
-/

namespace LintLedger.Listing

/-- Whether some lints are put in the order of their names, and those of one name left in the
order in which they stood. -/
structure InNameOrder (lints sorted : List Lint) : Prop where
  perm : sorted.Perm lints
  ascending : sorted.Pairwise fun a b => a.name ≤ b.name
  stable : ∀ name, (sorted.filter fun lint => lint.name = name) =
    lints.filter fun lint => lint.name = name

theorem inNameOrder_byName (lints : List Lint) : InNameOrder lints (byName lints) := by
  have htrans : ∀ a b c : Lint, nameOrder a b → nameOrder b c → nameOrder a c := by
    intro a b c hab hbc
    simp only [nameOrder, decide_eq_true_eq] at hab hbc ⊢
    exact String.le_trans hab hbc
  have htotal : ∀ a b : Lint, nameOrder a b || nameOrder b a := by
    intro a b
    simp only [nameOrder, Bool.or_eq_true, decide_eq_true_eq]
    exact String.le_total a.name b.name
  have hperm : (byName lints).Perm lints := List.mergeSort_perm lints nameOrder
  refine ⟨hperm, ?_, ?_⟩
  · exact (List.pairwise_mergeSort htrans htotal lints).imp fun h => of_decide_eq_true h
  · intro name
    -- Lints of one name are in order as they stand, so they stay a part of the list.
    have hties : (lints.filter fun lint => lint.name = name).Pairwise fun a b => nameOrder a b := by
      apply List.pairwise_of_forall_mem_list
      intro a ha b hb
      have ha' : a.name = name := by simpa using (List.mem_filter.1 ha).2
      have hb' : b.name = name := by simpa using (List.mem_filter.1 hb).2
      simp [nameOrder, ha', hb']
    have hpart := (List.sublist_mergeSort htrans htotal hties List.filter_sublist).filter
      fun lint => decide (lint.name = name)
    rw [List.filter_filter] at hpart
    simp only [Bool.and_self] at hpart
    exact (hpart.eq_of_length (hperm.filter _).length_eq.symm).symm

/-- There is only one way to put lints in the order of their names. -/
theorem InNameOrder.unique {lints sorted sorted' : List Lint} (h : InNameOrder lints sorted)
    (h' : InNameOrder lints sorted') : sorted = sorted' := by
  have hperm : sorted.Perm sorted' := h.perm.trans h'.perm.symm
  have hstable : ∀ name, (sorted.filter fun lint => lint.name = name) =
      sorted'.filter fun lint => lint.name = name :=
    fun name => (h.stable name).trans (h'.stable name).symm
  have hascending := h.ascending
  have hascending' := h'.ascending
  clear h h'
  induction sorted generalizing sorted' with
  | nil => exact hperm.nil_eq
  | cons a rest ih =>
      cases sorted' with
      | nil => exact hperm.eq_nil
      | cons b rest' =>
          obtain ⟨hleast, hrest⟩ := List.pairwise_cons.1 hascending
          obtain ⟨hleast', hrest'⟩ := List.pairwise_cons.1 hascending'
          -- Both lists start with a lint of the least name, and the same one.
          have hname : b.name = a.name := by
            apply String.le_antisymm
            · rcases List.mem_cons.1 (hperm.mem_iff.1 List.mem_cons_self) with heq | hmem
              · exact heq ▸ String.le_refl _
              · exact hleast' a hmem
            · rcases List.mem_cons.1 (hperm.mem_iff.2 List.mem_cons_self) with heq | hmem
              · exact heq ▸ String.le_refl _
              · exact hleast b hmem
          have hfirst := hstable a.name
          simp only [List.filter_cons, hname, decide_true, if_true] at hfirst
          obtain ⟨rfl, htail⟩ := List.cons.inj hfirst
          have hother : ∀ name, (rest.filter fun lint => lint.name = name) =
              rest'.filter fun lint => lint.name = name := by
            intro name
            by_cases hequal : a.name = name
            · exact hequal ▸ htail
            · simpa [List.filter_cons, hequal] using hstable name
          rw [ih (List.Perm.cons_inv hperm) hother hrest hrest']

end LintLedger.Listing
