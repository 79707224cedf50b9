import LintLedger.Proofs.Listing.Readers
import LintLedger.Proofs.Listing.Sorted

/-!
# What the table shows

A row can be taken apart again, whatever the widths of the columns are and whatever the description
holds. So the table is another way to write down the names, levels and descriptions of the lints in
the order of their names.
-/

namespace LintLedger.Listing

open Text

/-! ## Rows -/

/-- A row shows the name, the level and the description of its lint, in columns of any width. -/
theorem shown_eq_of_row {lint lint' : Lint} (hname : Lint.IsName lint.name)
    (hname' : Lint.IsName lint'.name) {width width' : Nat}
    (h : row width lint = row width' lint') : lint.shown = lint'.shown := by
  have hread := readRow?_row (blank_not_mem hname.2) width
  rw [h, readRow?_row (blank_not_mem hname'.2)] at hread
  exact (Option.some.inj hread).symm

theorem map_shown_of_map_row {lints lints' : List Lint}
    (hnames : ∀ lint ∈ lints, Lint.IsName lint.name)
    (hnames' : ∀ lint ∈ lints', Lint.IsName lint.name) {width width' : Nat}
    (h : lints.map (row width) = lints'.map (row width')) :
    lints.map Lint.shown = lints'.map Lint.shown := by
  induction lints generalizing lints' with
  | nil =>
      obtain rfl := List.map_eq_nil_iff.1 h.symm
      rfl
  | cons lint lints ih =>
      cases lints' with
      | nil => simp at h
      | cons lint' lints' =>
          obtain ⟨hfirst, hrest⟩ := List.cons.inj h
          have hlint := shown_eq_of_row (hnames lint List.mem_cons_self)
            (hnames' lint' List.mem_cons_self) hfirst
          have hlints := ih (fun other hmem => hnames other (List.mem_cons_of_mem lint hmem))
            (fun other hmem => hnames' other (List.mem_cons_of_mem lint' hmem)) hrest
          rw [List.map_cons, List.map_cons, hlint, hlints]

/-! ## The whole table -/

theorem widest_perm {texts texts' : List String} (h : texts.Perm texts') :
    widest texts = widest texts' :=
  (h.map String.length).foldr_eq 0

def tableOf (rows : List (String × Level × String)) : List String :=
  let nameWidth := widest (rows.map (·.1))
  let descriptionWidth := widest (rows.map (·.2.2))
  header nameWidth :: underline nameWidth descriptionWidth ::
    rows.map fun (name, level, description) => row nameWidth ⟨"", name, level, description⟩

variable {lints lints' sorted sorted' : List Lint}

theorem table_eq_tableOf (h : InNameOrder lints sorted) :
    table lints = tableOf (sorted.map Lint.shown) := by
  obtain rfl := h.unique (inNameOrder_byName lints)
  have hnames : widest (((byName lints).map Lint.shown).map (·.1)) =
      widest (lints.map Lint.name) := by
    rw [List.map_map]
    exact widest_perm (h.perm.map Lint.name)
  have hdescriptions : widest (((byName lints).map Lint.shown).map (·.2.2)) =
      widest (lints.map Lint.description) := by
    rw [List.map_map]
    exact widest_perm (h.perm.map Lint.description)
  rw [table, tableOf, hnames, hdescriptions, List.map_map]
  rfl

/-- Tables of different lints are different: two lists of lints have the same table exactly if they
show the same in the order of their names. So a table is another one as soon as a lint comes in or
goes out, wherever it stands, or gets another name, level or description. -/
theorem table_shows_shown (hnames : ∀ lint ∈ lints, Lint.IsName lint.name)
    (hnames' : ∀ lint ∈ lints', Lint.IsName lint.name) (hsorted : InNameOrder lints sorted)
    (hsorted' : InNameOrder lints' sorted') :
    (table lints = table lints' ↔ sorted.map Lint.shown = sorted'.map Lint.shown) ∧
      (∀ front lint back, lints = front ++ back → lints' = front ++ lint :: back →
        table lints ≠ table lints') ∧
      ∀ front lint lint' back, lints = front ++ lint :: back → lints' = front ++ lint' :: back →
        lint.shown ≠ lint'.shown → table lints ≠ table lints' := by
  have hiff : table lints = table lints' ↔ sorted.map Lint.shown = sorted'.map Lint.shown := by
    constructor
    · intro h
      obtain rfl := hsorted.unique (inNameOrder_byName lints)
      obtain rfl := hsorted'.unique (inNameOrder_byName lints')
      have hrows := (List.cons.inj (List.cons.inj h).2).2
      exact map_shown_of_map_row (fun lint hlint => hnames lint (hsorted.perm.mem_iff.1 hlint))
        (fun lint hlint => hnames' lint (hsorted'.perm.mem_iff.1 hlint)) hrows
    · intro h
      rw [table_eq_tableOf hsorted, table_eq_tableOf hsorted', h]
  refine ⟨hiff, ?_, ?_⟩
  · rintro front lint back rfl rfl h
    have hlength := congrArg List.length h
    simp only [length_table, List.length_append, List.length_cons] at hlength
    omega
  · rintro front lint lint' back rfl rfl hne h
    -- The same lints are shown on both sides, in whatever order.
    have hperm : ((front ++ lint :: back).map Lint.shown).Perm
        ((front ++ lint' :: back).map Lint.shown) := by
      have hrows := List.Perm.of_eq (hiff.1 h)
      exact ((hsorted.perm.map Lint.shown).symm.trans hrows).trans (hsorted'.perm.map Lint.shown)
    rw [List.map_append, List.map_append, List.map_cons, List.map_cons] at hperm
    have hrest : ([lint.shown] ++ back.map Lint.shown).Perm ([lint'.shown] ++ back.map Lint.shown) :=
      (List.perm_append_left_iff _).1 hperm
    exact hne (List.singleton_perm_singleton.1 ((List.perm_append_right_iff _).1 hrest))

/-- Lints that come in another order and from other modules have the same table, unless two of one
name are exchanged. -/
theorem table_shows_shown_tied :
    let lints : List Lint :=
      [⟨"m", "b", .warn, "x"⟩, ⟨"m", "a", .deny, "p | q"⟩, ⟨"n", "a", .allow, "-"⟩]
    let moved : List Lint :=
      [⟨"n", "a", .deny, "p | q"⟩, ⟨"k", "b", .warn, "x"⟩, ⟨"m", "a", .allow, "-"⟩]
    let exchanged : List Lint :=
      [⟨"n", "a", .allow, "-"⟩, ⟨"m", "a", .deny, "p | q"⟩, ⟨"m", "b", .warn, "x"⟩]
    table lints = table moved ∧ table lints ≠ table exchanged := by
  intro lints moved exchanged
  have hnames : ∀ lint ∈ lints, Lint.IsName lint.name := by decide +kernel
  have hmoved : ∀ lint ∈ moved, Lint.IsName lint.name := by decide +kernel
  have hexchanged : ∀ lint ∈ exchanged, Lint.IsName lint.name := by decide +kernel
  have hsame : (byName lints).map Lint.shown = (byName moved).map Lint.shown := by
    simp [lints, moved, byName, List.mergeSort, nameOrder, Lint.shown]
  have hother : (byName lints).map Lint.shown ≠ (byName exchanged).map Lint.shown := by
    simp [lints, exchanged, byName, List.mergeSort, nameOrder, Lint.shown]
  have hsorted := inNameOrder_byName
  constructor
  · exact (table_shows_shown hnames hmoved (hsorted lints) (hsorted moved)).1.2 hsame
  · intro h
    exact hother ((table_shows_shown hnames hexchanged (hsorted lints) (hsorted exchanged)).1.1 h)

end LintLedger.Listing
