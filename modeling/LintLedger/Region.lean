import LintLedger.Pattern.Basic
import LintLedger.Text.Line

/-!
# Regions

A region goes from a line that matches the opening pattern to the next line that matches the
closing one. What stands between them is generated anew. The closing line is always kept, the
opening line only if the region says so. An opening line is not looked at as a closing one, nor
the other way round.
-/

namespace LintLedger

structure Region where
  opening : Pattern
  closing : Pattern
  /-- Whether the opening line gives way to the generated lines too. -/
  replacesOpening : Bool

namespace Region

/-- The region of two pattern texts, or the first of the texts that is no pattern. -/
def ofTexts (opening closing : String) (replacesOpening : Bool) :
    Except Pattern.Invalid Region := do
  return ⟨← Pattern.compile opening, ← Pattern.compile closing, replacesOpening⟩

def opens (r : Region) (line : String) : Bool :=
  r.opening.isMatch (Text.content line)

def closes (r : Region) (line : String) : Bool :=
  r.closing.isMatch (Text.content line)

/-- The lines that replace an opening line. -/
def kept (r : Region) (line : String) : List String :=
  if r.replacesOpening then [] else [line]

structure Outcome where
  /-- How many regions were closed. -/
  closed : Nat
  /-- The new lines, or the number of the line that opens a region that is never closed. -/
  result : Except Nat (List String)

namespace Outcome

def after (lines : List String) (o : Outcome) : Outcome :=
  { o with result := o.result.map (lines ++ ·) }

end Outcome

/-- Goes through the lines from the one with a given number on. `opened` is the number of the
line that opened the current region, `closed` how many regions were closed before; region `k`
gets the lines `generate k`. -/
def regenerateFrom (r : Region) (generate : Nat → List String) (number closed : Nat)
    (opened : Option Nat) : List String → Outcome
  | [] =>
    match opened with
    | none => ⟨closed, .ok []⟩
    | some opening => ⟨closed, .error opening⟩
  | line :: lines =>
    match opened with
    | none =>
      if r.opens line then
        (r.regenerateFrom generate (number + 1) closed (some number) lines).after (r.kept line)
      else (r.regenerateFrom generate (number + 1) closed none lines).after [line]
    | some opening =>
      if r.closes line then
        (r.regenerateFrom generate (number + 1) (closed + 1) none lines).after
          (generate closed ++ [line])
      else r.regenerateFrom generate (number + 1) closed (some opening) lines

/-- Generates every region of a list of lines anew. Line numbers start at one. -/
def regenerate (r : Region) (generate : Nat → List String) (lines : List String) : Outcome :=
  r.regenerateFrom generate 1 0 none lines

end Region

end LintLedger
