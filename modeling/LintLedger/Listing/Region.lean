import LintLedger.Pattern.Quote
import LintLedger.Region

/-!
# The regions of the listings

Where the generated listings stand: the table from its line of titles to the first empty line,
the sentence on a line of its own, and the group from its registration to the end of the call.
-/

namespace LintLedger.Listing

def tableRegion : Except Pattern.Invalid Region :=
  Region.ofTexts "^name +\\|" "^$" true

/-- The line with the number of lints; whatever line follows ends it. -/
def countRegion : Except Pattern.Invalid Region :=
  Region.ofTexts "^There are \\d+ lints included in this crate:" "" true

def groupOpening (group : String) : String :=
  "reg.register_lint_group\\(\"" ++ String.ofList (Pattern.quote group.toList) ++ "\""

def groupRegion (group : String) : Except Pattern.Invalid Region :=
  Region.ofTexts (groupOpening group) "\\]\\);" false

end LintLedger.Listing
