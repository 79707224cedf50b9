/-!
# File name patterns

Patterns for file names: `?` stands for any character, `*` for any characters, brackets for one
of some characters, and `**` as a whole component for any number of directories. All else stands
for itself.
-/

namespace LintLedger.Glob

inductive Token where
  | char (c : Char)
  | anyChar
  | anySequence
  | anyDirectories
  /-- One character that is in one of the ranges. -/
  | within (ranges : List (Char × Char))
  /-- One character that is in none of the ranges. -/
  | outside (ranges : List (Char × Char))
  deriving DecidableEq, Repr

inductive Flaw where
  | range
  | wildcards
  | recursion
  deriving DecidableEq, Repr

def Flaw.message : Flaw → String
  | .range => "invalid range pattern"
  | .wildcards => "wildcards are either regular `*` or recursive `**`"
  | .recursion => "recursive wildcards must form a single path component"

/-- What is wrong with a pattern, and how many characters into it. -/
structure Fault where
  flaw : Flaw
  position : Nat
  deriving DecidableEq, Repr

/-! ## Quoting -/

def quoteChar (c : Char) : List Char :=
  if c ∈ ['?', '*', '[', ']'] then ['[', c, ']'] else [c]

def quote (text : String) : String :=
  String.ofList (text.toList.flatMap quoteChar)

/-! ## Reading -/

/-- The ranges between brackets; a single character is a range of its own. -/
def readRanges : List Char → List (Char × Char)
  | first :: '-' :: last :: cs => (first, last) :: readRanges cs
  | c :: cs => (c, c) :: readRanges cs
  | [] => []

/-- The characters between brackets, after the opening one. The first of them may be a closing
bracket. -/
def bracketed? : List Char → Option (List Char)
  | [] => none
  | c :: cs => if ']' ∈ cs then some (c :: cs.takeWhile (· ≠ ']')) else none

/-- Reads a bracket, after the opening one; the number says how many characters it has. -/
def readBracket? (cs : List Char) : Option (Token × Nat) :=
  match cs with
  | '!' :: cs => (bracketed? cs).map fun inner => (.outside (readRanges inner), inner.length + 2)
  | cs => (bracketed? cs).map fun inner => (.within (readRanges inner), inner.length + 1)

/-- Reads a run of stars at a position; `more` are the stars and characters after the first one.
The number says how many characters after the first star belong to it. -/
def readStars (position : Nat) (before : Option Char) (more : List Char) :
    Except Fault (Token × Nat) :=
  let count := 1 + (more.takeWhile (· == '*')).length
  let rest := more.dropWhile (· == '*')
  if 2 < count then .error ⟨.wildcards, position + 2⟩
  else if count = 1 then .ok (.anySequence, 0)
  else if before.any (· ≠ '/') then .error ⟨.recursion, position - 1⟩
  else match rest with
    | [] => .ok (.anyDirectories, 1)
    | '/' :: _ => .ok (.anyDirectories, 2)
    | _ => .error ⟨.recursion, position + 2⟩

/-- Reads a pattern from a position on. The first `skip` characters belong to a token that is
done; `before` is the character before the position. -/
def readTokens (position skip : Nat) (before : Option Char) :
    List Char → Except Fault (List Token)
  | [] => .ok []
  | c :: cs =>
    match skip with
    | n + 1 => readTokens (position + 1) n (some c) cs
    | 0 =>
      match c with
      | '?' => do return .anyChar :: (← readTokens (position + 1) 0 (some c) cs)
      | '*' => do
        let (token, n) ← readStars position before cs
        return token :: (← readTokens (position + 1) n (some c) cs)
      | '[' =>
        match readBracket? cs with
        | none => .error ⟨.range, position⟩
        | some (token, n) => do return token :: (← readTokens (position + 1) n (some c) cs)
      | c => do return .char c :: (← readTokens (position + 1) 0 (some c) cs)

/-! ## Matching -/

def suffixes {α : Type} : List α → List (List α)
  | [] => [[]]
  | a :: as => (a :: as) :: suffixes as

def inRanges (ranges : List (Char × Char)) (c : Char) : Bool :=
  ranges.any fun (first, last) => first ≤ c && c ≤ last

def matchesName : List Token → List Char → Bool
  | [], cs => cs.isEmpty
  | .anySequence :: ts, cs => (suffixes cs).any (matchesName ts)
  | .anyDirectories :: ts, cs => (suffixes cs).any (matchesName ts)
  | .char c :: ts, d :: cs => c == d && matchesName ts cs
  | .anyChar :: ts, _ :: cs => matchesName ts cs
  | .within ranges :: ts, c :: cs => inRanges ranges c && matchesName ts cs
  | .outside ranges :: ts, c :: cs => !inRanges ranges c && matchesName ts cs
  | _ :: _, [] => false

end LintLedger.Glob
