/-!
# Faults of pattern texts

Why a text is no pattern.
-/

namespace LintLedger.Pattern

inductive Fault where
  | groupUnclosed
  | groupUnopened
  | groupNameInvalid
  | groupNameRepeated
  | lookAround
  | flagUnknown
  | flagRepeated
  | flagMissing
  | nothingToRepeat
  | countUnclosed
  | countMissing
  | countReversed
  | classUnclosed
  | classRangeReversed
  | classRangeEnd
  | escapeUnknown
  | escapeUnfinished
  | backReference
  deriving DecidableEq, Repr

namespace Fault

def message : Fault → String
  | .groupUnclosed => "unclosed group"
  | .groupUnopened => "unopened group"
  | .groupNameInvalid => "invalid capture group name"
  | .groupNameRepeated => "duplicate capture group name"
  | .lookAround => "look-around, including look-ahead and look-behind, is not supported"
  | .flagUnknown => "unrecognized flag"
  | .flagRepeated => "duplicate flag"
  | .flagMissing => "dangling flag negation operator"
  | .nothingToRepeat => "repetition operator missing expression"
  | .countUnclosed => "unclosed counted repetition"
  | .countMissing => "repetition quantifier expects a valid decimal"
  | .countReversed => "invalid repetition count range, the start must be <= the end"
  | .classUnclosed => "unclosed character class"
  | .classRangeReversed => "invalid character class range, the start must be <= the end"
  | .classRangeEnd => "invalid range boundary, must be a literal"
  | .escapeUnknown => "unrecognized escape sequence"
  | .escapeUnfinished => "incomplete escape sequence, reached end of pattern prematurely"
  | .backReference => "backreferences are not supported"

end Fault

end LintLedger.Pattern
