import LintLedger.Pattern.Fault

/-!
# Flags of a pattern

What a directive such as `(?is-x)` switches on and off for the rest of the group it stands in.
-/

namespace LintLedger.Pattern

structure Flags where
  /-- Case variants count as equal. -/
  anyCase : Bool
  /-- The dot stands for a line feed too. -/
  dotAll : Bool
  /-- White space and comments in the pattern mean nothing. -/
  verbose : Bool
  /-- The line anchors hold at every line. -/
  multiLine : Bool
  /-- Loops are lazy, and those with a question mark are greedy. -/
  swapped : Bool
  deriving DecidableEq, Repr

namespace Flags

def none : Flags :=
  ⟨false, false, false, false, false⟩

def set? (f : Flags) (on : Bool) : Char → Option Flags
  | 'i' => some { f with anyCase := on }
  | 's' => some { f with dotAll := on }
  | 'x' => some { f with verbose := on }
  | 'm' => some { f with multiLine := on }
  | 'U' => some { f with swapped := on }
  | _ => Option.none

/-- Reads the letters of a directive up to the colon or bracket that ends it. `seen` holds the
letters so far, the minus sign included. -/
def read (f : Flags) (on : Bool) (seen : List Char) : List Char → Except Fault (Flags × List Char)
  | [] => .error .groupUnclosed
  | c :: cs =>
    if c = ')' ∨ c = ':' then
      if seen.head? = some '-' then .error .flagMissing
      else if c = ')' ∧ seen.isEmpty then .error .nothingToRepeat
      else .ok (f, c :: cs)
    else if c ∈ seen then .error .flagRepeated
    else if c = '-' then f.read false ('-' :: seen) cs
    else match f.set? on c with
      | some g => g.read on (c :: seen) cs
      | Option.none => .error .flagUnknown

end Flags

end LintLedger.Pattern
