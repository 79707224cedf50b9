import Mathlib.Data.Prod.Lex
import Mathlib.Data.String.Basic
import LintLedger.Proofs.Listing.Rows
import LintLedger.Report

/-!
# The order of the listings

All that is known of a lint decides on its place in the group. Only equal lints share a place, so
the entries are the same in whatever order the lints were collected. The table and the document go
by the name alone; they are the same as long as lints of one name keep their order.
-/

namespace LintLedger

theorem Level.text_injective : Function.Injective Level.text := by
  intro a b
  cases a <;> cases b <;> decide

/-- What decides on the place of a lint in the group. -/
def Lint.rank (lint : Lint) : String ×ₗ String ×ₗ String ×ₗ String :=
  toLex (lint.module, toLex (lint.name, toLex (lint.level.text, lint.description)))

theorem Lint.rank_injective : Function.Injective Lint.rank := by
  intro a b h
  obtain ⟨hmodule, hrest⟩ := Prod.mk.inj (toLex.injective h)
  obtain ⟨hname, hrest⟩ := Prod.mk.inj (toLex.injective hrest)
  obtain ⟨htext, hdescription⟩ := Prod.mk.inj (toLex.injective hrest)
  have hlevel := Level.text_injective htext
  cases a
  cases b
  rw [Lint.mk.injEq]
  exact ⟨hmodule, hname, hlevel, hdescription⟩

namespace Listing

/-! ## The group -/

/-- The entries stand in the lexicographic order of their ranks. -/
theorem groupOrder_iff {a b : Lint} : groupOrder a b ↔ a.rank ≤ b.rank := by
  have hlevel : a.level = b.level ↔ a.level.text = b.level.text :=
    Level.text_injective.eq_iff.symm
  simp only [Lint.rank, Prod.Lex.toLex_le_toLex, groupOrder, ne_eq, ite_not, hlevel]
  -- Two different texts are in order as soon as the first is not behind the second.
  have hstrict : ∀ s t : String, s ≠ t → (s ≤ t ↔ s < t) :=
    fun s t hne => ⟨fun hle => lt_of_le_of_ne hle hne, le_of_lt⟩
  by_cases hmodule : a.module = b.module
  · by_cases hname : a.name = b.name
    · by_cases htext : a.level.text = b.level.text
      · simp [hmodule, hname, htext]
      · simp [hmodule, hname, htext, hstrict _ _ htext]
    · simp [hmodule, hname, hstrict _ _ hname]
  · simp [hmodule, hstrict _ _ hmodule]

/-- Whether some lints are put in the order of their ranks. -/
structure InRankOrder (lints sorted : List Lint) : Prop where
  perm : sorted.Perm lints
  ascending : sorted.Pairwise fun a b => a.rank ≤ b.rank

theorem inRankOrder_mergeSort (lints : List Lint) :
    InRankOrder lints (lints.mergeSort groupOrder) := by
  have htrans : ∀ a b c : Lint, groupOrder a b → groupOrder b c → groupOrder a c := by
    intro a b c hab hbc
    rw [groupOrder_iff] at hab hbc ⊢
    exact le_trans hab hbc
  have htotal : ∀ a b : Lint, groupOrder a b || groupOrder b a := by
    intro a b
    rw [Bool.or_eq_true, groupOrder_iff, groupOrder_iff]
    exact le_total a.rank b.rank
  refine ⟨List.mergeSort_perm lints groupOrder, ?_⟩
  exact (List.pairwise_mergeSort htrans htotal lints).imp groupOrder_iff.1

variable {lints lints' sorted sorted' : List Lint}

/-- The same lints, collected in whatever order, are put in one order. -/
theorem InRankOrder.unique (h : InRankOrder lints sorted) (h' : InRankOrder lints' sorted')
    (hperm : lints.Perm lints') : sorted = sorted' := by
  have hsame : sorted.Perm sorted' := (h.perm.trans hperm).trans h'.perm.symm
  refine hsame.eq_of_pairwise ?_ h.ascending h'.ascending
  intro a b _ _ hab hba
  exact Lint.rank_injective (le_antisymm hab hba)

theorem group_eq (h : InRankOrder lints sorted) (hperm : lints.Perm lints') :
    group lints' = sorted.map entry := by
  rw [group, h.unique (inRankOrder_mergeSort lints') hperm]

/-! ## The table and the document -/

theorem InNameOrder.of_perm (h : InNameOrder lints sorted) (hperm : lints.Perm lints')
    (hties : ∀ name, (lints.filter fun lint => lint.name = name) =
      lints'.filter fun lint => lint.name = name) :
    InNameOrder lints' sorted where
  perm := h.perm.trans hperm
  ascending := h.ascending
  stable name := (h.stable name).trans (hties name)

theorem tableDocument_eq (h : InNameOrder lints sorted) :
    Report.tableDocument lints = .record [("lints", .list (sorted.map Report.lintRecord)),
      ("summary", .record [("total", .number sorted.length)])] := by
  rw [Report.tableDocument, (inNameOrder_byName lints).unique h, h.perm.length_eq]

/-- The listings do not depend on the order in which the lints were collected more than they must:
the group, in the order of the ranks, not at all, and the table and the document only on the order
of the lints of one name. -/
theorem listings_of_perm (hperm : lints.Perm lints') :
    (∃ sorted, InRankOrder lints sorted ∧ group lints = sorted.map entry ∧
      group lints' = sorted.map entry) ∧
    ((∀ name, (lints.filter fun lint => lint.name = name) =
        lints'.filter fun lint => lint.name = name) →
      table lints = table lints' ∧ Report.tableDocument lints = Report.tableDocument lints') := by
  have hrank := inRankOrder_mergeSort lints
  refine ⟨⟨_, hrank, group_eq hrank (.refl lints), group_eq hrank hperm⟩, fun hties => ?_⟩
  have hname := inNameOrder_byName lints
  have hname' := hname.of_perm hperm hties
  constructor
  · rw [table_eq_tableOf hname, table_eq_tableOf hname']
  · rw [tableDocument_eq hname, tableDocument_eq hname']

/-- Lints of one name and level in several modules, two of them equal, that were collected from the
last file to the first but for those of the name. -/
theorem listings_of_perm_tied :
    let lints : List Lint :=
      [⟨"m", "b", .warn, "x"⟩, ⟨"n", "a", .deny, "é"⟩, ⟨"m", "a", .allow, "-"⟩,
        ⟨"n", "a", .deny, "é"⟩, ⟨"n", "ab", .forbid, ""⟩]
    let lints' : List Lint :=
      [⟨"n", "ab", .forbid, ""⟩, ⟨"n", "a", .deny, "é"⟩, ⟨"m", "a", .allow, "-"⟩,
        ⟨"n", "a", .deny, "é"⟩, ⟨"m", "b", .warn, "x"⟩]
    group lints = group lints' ∧ table lints = table lints' ∧
      Report.tableDocument lints = Report.tableDocument lints' := by
  intro lints lints'
  have hperm : lints.Perm lints' := by decide
  have hties : ∀ name, (lints.filter fun lint => lint.name = name) =
      lints'.filter fun lint => lint.name = name := by
    intro name
    by_cases ha : "a" = name
    · subst ha
      decide
    · by_cases hb : "b" = name
      · subst hb
        decide
      · simp [lints, lints', List.filter_cons, ha, hb]
  obtain ⟨⟨sorted, -, hgroup, hgroup'⟩, hnamed⟩ := listings_of_perm hperm
  exact ⟨hgroup.trans hgroup'.symm, hnamed hties⟩

end Listing

end LintLedger
