import LintLedger.Lint
import LintLedger.Text.Case

/-!
# Generated listings

The three texts that are kept in step with the declarations: the table of all lints, the list
that registers them as a group, and the sentence that counts them. Each is a list of lines with
their line ends. The table is ordered by name, lints of one name as they were found; the group
is ordered by all that is known of a lint.
-/

namespace LintLedger.Listing

def levelWidth : Nat := 7

/-- Every level fits in its column. -/
theorem length_display_level (a : Text.Alignment) (level : Level) :
    (level.display ⟨a, levelWidth, none⟩).length = levelWidth := by
  have hfits : level.text.length ≤ levelWidth := by cases level <;> decide
  simp [Level.display, Text.length_pad, hfits]

def nameOrder (a b : Lint) : Bool :=
  decide (a.name ≤ b.name)

def byName (lints : List Lint) : List Lint :=
  lints.mergeSort nameOrder

def row (nameWidth : Nat) (lint : Lint) : String :=
  Text.alignLeft nameWidth lint.name ++ " | "
    ++ lint.level.display ⟨.left, levelWidth, none⟩ ++ " | " ++ lint.description ++ "\n"

def dashes (n : Nat) : String :=
  String.ofList (List.replicate n '-')

def header (nameWidth : Nat) : String :=
  Text.alignLeft nameWidth "name" ++ " | default | meaning\n"

def underline (nameWidth descriptionWidth : Nat) : String :=
  dashes nameWidth ++ "-|-" ++ dashes levelWidth ++ "-|-" ++ dashes descriptionWidth ++ "\n"

def table (lints : List Lint) : List String :=
  let nameWidth := Text.widest (lints.map Lint.name)
  let descriptionWidth := Text.widest (lints.map Lint.description)
  header nameWidth :: underline nameWidth descriptionWidth :: (byName lints).map (row nameWidth)

theorem length_table (lints : List Lint) : (table lints).length = lints.length + 2 := by
  simp [table, byName]

/-- Ascending order by module, then name, then the text of the level, then description. -/
def groupOrder (a b : Lint) : Bool :=
  if a.module ≠ b.module then decide (a.module ≤ b.module)
  else if a.name ≠ b.name then decide (a.name ≤ b.name)
  else if a.level ≠ b.level then decide (a.level.text ≤ b.level.text)
  else decide (a.description ≤ b.description)

def entry (lint : Lint) : String :=
  "        " ++ lint.module ++ "::" ++ Text.upper lint.name ++ ",\n"

def group (lints : List Lint) : List String :=
  (lints.mergeSort groupOrder).map entry

theorem length_group (lints : List Lint) : (group lints).length = lints.length := by
  simp [group]

def countSentence (count : Nat) : String :=
  "There are " ++ toString count ++ " lints included in this crate:\n"

end LintLedger.Listing
