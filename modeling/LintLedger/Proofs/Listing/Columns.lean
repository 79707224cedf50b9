import Mathlib.Data.List.Forall2
import LintLedger.Listing

/-!
# The columns of the table

The lines of the table have three cells each, with bars between them. The width of the first cell
is the same in all rows, and that of the second is the same in all lines, so the bars of the rows
stand below those of the underline. The titles follow the same columns if some name is at least as
wide as the first title. Columns count characters from zero.
-/

namespace LintLedger.Listing

open Text

/-! ## Lines with three cells -/

/-- Whether a line has three cells, the first of some width and the second seven characters wide,
and behind each of these a bar between two gaps. -/
structure InColumns (width : Nat) (gap : Char) (first second third : List Char) (line : String) :
    Prop where
  first : line.toList.take width = first
  firstBar : line.toList[width + 1]? = some '|'
  second : (line.toList.drop (width + 3)).take 7 = second
  secondBar : line.toList[width + 11]? = some '|'
  third : line.toList.drop (width + 13) = third
  gaps : ∀ column ∈ [width, width + 2, width + 10, width + 12], line.toList[column]? = some gap

variable {width : Nat} {gap : Char} {first second third : List Char} {line : String}

theorem inColumns_of_toList (h : line.toList =
      first ++ gap :: '|' :: gap :: (second ++ gap :: '|' :: gap :: third))
    (hfirst : first.length = width) (hsecond : second.length = 7) :
    InColumns width gap first second third line := by
  subst hfirst
  have hbehind : line.toList = (first ++ [gap, '|', gap]) ++
      (second ++ gap :: '|' :: gap :: third) := by simp [h]
  have hlast : line.toList = (first ++ [gap, '|', gap] ++ second ++ [gap, '|', gap]) ++ third := by
    simp [h]
  constructor
  · rw [h, List.take_left]
  · simp [h]
  · rw [hbehind, List.drop_left' (by simp), List.take_left' hsecond]
  · simp [h, List.getElem?_append, hsecond]
  · rw [hlast, List.drop_left' (by simp [hsecond])]
  · simp [h, List.getElem?_append, hsecond]

theorem InColumns.length_eq (h : InColumns width gap first second third line) :
    line.length = width + 13 + third.length := by
  have hlast := h.gaps (width + 12) (by simp)
  obtain ⟨hlong, -⟩ := List.getElem?_eq_some_iff.1 hlast
  rw [← h.third, List.length_drop, ← String.length_toList]
  omega

def padded (width : Nat) (s : String) : List Char :=
  s.toList ++ List.replicate (width - s.length) ' '

theorem toList_alignLeft (width : Nat) (s : String) :
    (alignLeft width s).toList = padded width s := by
  rw [alignLeft, String.toList_append, blanks, String.toList_ofList]
  rfl

theorem length_padded (width : Nat) (s : String) :
    (padded width s).length = max width s.length := by
  rw [← toList_alignLeft, String.length_toList, length_alignLeft]

/-! ## The lines of the table -/

/-- Whether a line shows a lint in the columns of a table. -/
def RowOf (width : Nat) (lint : Lint) (line : String) : Prop :=
  InColumns width ' ' (padded width lint.name) (padded 7 lint.level.text)
    (lint.description.toList ++ ['\n']) line

/-- The cells of a row. -/
theorem toList_row_cells (width : Nat) (lint : Lint) :
    (row width lint).toList = padded width lint.name ++ ' ' :: '|' :: ' ' ::
      (padded 7 lint.level.text ++ ' ' :: '|' :: ' ' :: (lint.description.toList ++ ['\n'])) := by
  have hbar : " | ".toList = [' ', '|', ' '] := rfl
  have hend : "\n".toList = ['\n'] := rfl
  simp [row, toList_alignLeft, hbar, hend, levelWidth]

theorem rowOf_row {lint : Lint} (h : lint.name.length ≤ width) :
    RowOf width lint (row width lint) := by
  refine inColumns_of_toList (toList_row_cells width lint) ?_ ?_
  · rw [length_padded, Nat.max_eq_left h]
  · cases lint.level <;> rfl

theorem inColumns_underline (width extent : Nat) :
    InColumns width '-' (List.replicate width '-') (List.replicate 7 '-')
      (List.replicate extent '-' ++ ['\n']) (underline width extent) := by
  have hbar : "-|-".toList = ['-', '|', '-'] := rfl
  have hend : "\n".toList = ['\n'] := rfl
  refine inColumns_of_toList ?_ List.length_replicate List.length_replicate
  simp [underline, dashes, hbar, hend, levelWidth]

theorem inColumns_header (width : Nat) :
    InColumns (max width 4) ' ' (padded width "name") "default".toList "meaning\n".toList
      (header width) := by
  have hbar : " | default | meaning\n".toList =
      ' ' :: '|' :: ' ' :: ("default".toList ++ ' ' :: '|' :: ' ' :: "meaning\n".toList) := rfl
  refine inColumns_of_toList ?_ (length_padded width "name") rfl
  rw [header, String.toList_append, toList_alignLeft, hbar]

/-! ## The widths of the columns -/

theorem widest_eq_max (texts : List String) :
    widest texts = (texts.map String.length).max?.getD 0 := by
  induction texts with
  | nil => rfl
  | cons s texts ih =>
      rw [List.map_cons, List.max?_cons]
      rw [widest] at ih ⊢
      rw [List.map_cons, List.foldr_cons, ih]
      cases (texts.map String.length).max? <;> simp

theorem exists_length_eq_widest {texts : List String} (h : texts ≠ []) :
    ∃ s ∈ texts, s.length = widest texts := by
  have hne : texts.map String.length ≠ [] := by simpa using h
  obtain ⟨n, hn⟩ := Option.isSome_iff_exists.1 (List.isSome_max?_of_ne_nil hne)
  obtain ⟨s, hs, rfl⟩ := List.mem_map.1 (List.max?_mem hn)
  exact ⟨s, hs, by rw [widest_eq_max, hn, Option.getD_some]⟩

/-! ## The whole table -/

/-- Whether the lines of a table stand in columns, where the widest name and the widest description
have these widths. -/
structure Aligned (lints : List Lint) (width extent : Nat) (heading rule : String)
    (rows : List String) : Prop where
  titles : InColumns (max width 4) ' ' (padded width "name") "default".toList "meaning\n".toList
    heading
  dashes : InColumns width '-' (List.replicate width '-') (List.replicate 7 '-')
    (List.replicate extent '-' ++ ['\n']) rule
  /-- The last character is the line feed. -/
  length : rule.length = width + 13 + extent + 1
  shown : ∃ sorted, sorted.Perm lints ∧ List.Forall₂ (RowOf width) sorted rows
  within : ∀ row ∈ rows, row.length ≤ rule.length
  reached : lints ≠ [] → ∃ row ∈ rows, row.length = rule.length

theorem length_row {lint : Lint} (h : lint.name.length ≤ width) :
    (row width lint).length = width + 13 + lint.description.length + 1 := by
  have hlength := (rowOf_row h).length_eq
  rw [List.length_append, String.length_toList] at hlength
  exact hlength

/-- The table has a line for every lint and two more. Its lines stand in columns that are as wide as
the widest name and the widest description, in characters, whatever characters these are. -/
theorem table_aligned (lints : List Lint) :
    let width := (lints.map fun lint => lint.name.length).max?.getD 0
    let extent := (lints.map fun lint => lint.description.length).max?.getD 0
    (table lints).length = lints.length + 2 ∧
      ∃ heading rule rows, table lints = heading :: rule :: rows ∧
        Aligned lints width extent heading rule rows := by
  intro width extent
  have hwidth : widest (lints.map Lint.name) = width := by
    rw [widest_eq_max, List.map_map]
    rfl
  have hextent : widest (lints.map Lint.description) = extent := by
    rw [widest_eq_max, List.map_map]
    rfl
  have hname : ∀ lint ∈ lints, lint.name.length ≤ width :=
    fun lint hlint => hwidth ▸ length_le_widest (List.mem_map_of_mem hlint)
  have hdescription : ∀ lint ∈ lints, lint.description.length ≤ extent :=
    fun lint hlint => hextent ▸ length_le_widest (List.mem_map_of_mem hlint)
  have hsorted : (byName lints).Perm lints := List.mergeSort_perm lints nameOrder
  have hrule := inColumns_underline width extent
  have hlength : (underline width extent).length = width + 13 + extent + 1 := by
    have hcells := hrule.length_eq
    rw [List.length_append, List.length_replicate] at hcells
    exact hcells
  refine ⟨length_table lints, header width, underline width extent, (byName lints).map (row width),
    ?_, inColumns_header width, hrule, hlength, ⟨byName lints, hsorted, ?_⟩, ?_, ?_⟩
  · rw [table, hwidth, hextent]
  · rw [List.forall₂_map_right_iff, List.forall₂_same]
    exact fun lint hlint => rowOf_row (hname lint (hsorted.mem_iff.1 hlint))
  · intro line hmem
    obtain ⟨lint, hlint, rfl⟩ := List.mem_map.1 hmem
    have hlint := hsorted.mem_iff.1 hlint
    have hshort := hdescription lint hlint
    rw [length_row (hname lint hlint), hlength]
    omega
  · intro hne
    have hdescriptions : lints.map Lint.description ≠ [] := by simpa using hne
    obtain ⟨s, hs, hwidest⟩ := exists_length_eq_widest hdescriptions
    obtain ⟨lint, hlint, rfl⟩ := List.mem_map.1 hs
    refine ⟨row width lint, List.mem_map_of_mem (hsorted.mem_iff.2 hlint), ?_⟩
    rw [length_row (hname lint hlint), hlength, hwidest, hextent]

/-- A name of three characters in five bytes is narrower than the first title. -/
example : table [⟨"m", "éßa", .warn, "ü"⟩, ⟨"m", "b", .forbid, ""⟩] =
    ["name | default | meaning\n", "----|---------|--\n", "b   | forbid  | \n",
      "éßa | warn    | ü\n"] := by
  cbv

end LintLedger.Listing
