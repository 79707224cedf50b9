import LintLedger.Pattern.Escape
import LintLedger.Pattern.Flags

/-!
# Character classes

The classes between square brackets: characters, ranges, escapes, named ASCII classes, classes
inside classes, and the operators for what two classes share, what only the first has, and what
exactly one of them has.
-/

namespace LintLedger.Pattern

def ranges (rs : List (Char × Char)) : CharSet :=
  .unions (rs.map fun (first, last) => .range first last)

def asciiClass? : String → Option CharSet
  | "alnum" => some (ranges [('0', '9'), ('A', 'Z'), ('a', 'z')])
  | "alpha" => some (ranges [('A', 'Z'), ('a', 'z')])
  | "ascii" => some (ranges [('\x00', '\x7f')])
  | "blank" => some (ranges [('\t', '\t'), (' ', ' ')])
  | "cntrl" => some (ranges [('\x00', '\x1f'), ('\x7f', '\x7f')])
  | "digit" => some (ranges [('0', '9')])
  | "graph" => some (ranges [('!', '~')])
  | "lower" => some (ranges [('a', 'z')])
  | "print" => some (ranges [(' ', '~')])
  | "punct" => some (ranges [('!', '/'), (':', '@'), ('[', '`'), ('\x7b', '~')])
  | "space" => some (ranges [('\t', '\r'), (' ', ' ')])
  | "upper" => some (ranges [('A', 'Z')])
  | "word" => some (ranges [('0', '9'), ('A', 'Z'), ('_', '_'), ('a', 'z')])
  | "xdigit" => some (ranges [('0', '9'), ('A', 'F'), ('a', 'f')])
  | _ => none

/-- Reads a named ASCII class, from the colon after its bracket to its closing bracket. -/
def readAsciiClass? : List Char → Option (CharSet × List Char)
  | ':' :: cs =>
    let (negated, cs) := match cs with
      | '^' :: cs => (true, cs)
      | cs => (false, cs)
    match cs.dropWhile (· ≠ ':') with
    | ':' :: ']' :: rest =>
      (asciiClass? (String.ofList (cs.takeWhile (· ≠ ':')))).map fun s =>
        (if negated then .compl s else s, rest)
    | _ => none
  | _ => none

inductive Operator where
  | shared
  | onlyFirst
  | exactlyOne

def Operator.apply (s t : CharSet) : Operator → CharSet
  | .shared => .inter s t
  | .onlyFirst => .inter s (.compl t)
  | .exactlyOne => .union (.inter s (.compl t)) (.inter t (.compl s))

/-- A class that is being read: the operands so far with the operator after them, and the
members of the current operand. -/
structure ClassState where
  pending : Option (CharSet × Operator)
  members : CharSet

namespace ClassState

def start : ClassState :=
  ⟨none, .none⟩

def add (st : ClassState) (s : CharSet) : ClassState :=
  { st with members := .union st.members s }

def result (st : ClassState) : CharSet :=
  match st.pending with
  | none => st.members
  | some (s, op) => op.apply s st.members

def operator (st : ClassState) (op : Operator) : ClassState :=
  ⟨some (st.result, op), .none⟩

end ClassState

def readMember : List Char → Except Fault (Escape × List Char)
  | [] => .error .classUnclosed
  | '\\' :: [] => .error .escapeUnfinished
  | '\\' :: c :: cs => do
    match ← Escape.ofChar c with
    | .anchor _ => throw .escapeUnknown
    | member => return (member, cs)
  | c :: cs => .ok (.char c, cs)

def readRange (cs : List Char) : Except Fault (CharSet × List Char) := do
  let (member, rest) ← readMember cs
  let alone := match member with
    | .set s => s
    | .char c => .single c
    | .anchor _ => .none
  match rest with
  | '-' :: ']' :: _ => return (alone, rest)
  | '-' :: '-' :: _ => return (alone, rest)
  | '-' :: rest => do
    let (last, rest) ← readMember rest
    match member, last with
    | .char c, .char d => if c ≤ d then return (.range c d, rest) else throw .classRangeReversed
    | _, _ => throw .classRangeEnd
  | _ => return (alone, rest)

/-- Takes the characters at the start of a class that stand for themselves there: minus signs,
or else a closing bracket. -/
def readLeading (st : ClassState) : List Char → ClassState × List Char
  | '-' :: cs =>
    (st.add (.single '-'), cs.dropWhile (· == '-'))
  | ']' :: cs => (st.add (.single ']'), cs)
  | cs => (st, cs)

mutual

/-- Reads a class after its opening bracket. The fuel bounds the brackets and members to come. -/
def readClass (fuel : Nat) (flags : Flags) (cs : List Char) :
    Except Fault (CharSet × List Char) :=
  match fuel with
  | 0 => .error .classUnclosed
  | fuel + 1 => do
    let (negated, cs) := match cs with
      | '^' :: cs => (true, cs)
      | cs => (false, cs)
    let (st, cs) := readLeading .start cs
    let (s, rest) ← readMembers fuel flags st cs
    let s := if flags.anyCase then .anyCase s else s
    return (if negated then .compl s else s, rest)

def readMembers (fuel : Nat) (flags : Flags) (st : ClassState) (cs : List Char) :
    Except Fault (CharSet × List Char) :=
  match fuel with
  | 0 => .error .classUnclosed
  | fuel + 1 =>
    match cs with
    | [] => .error .classUnclosed
    | ']' :: rest => .ok (st.result, rest)
    | '&' :: '&' :: rest => readMembers fuel flags (st.operator .shared) rest
    | '-' :: '-' :: rest => readMembers fuel flags (st.operator .onlyFirst) rest
    | '~' :: '~' :: rest => readMembers fuel flags (st.operator .exactlyOne) rest
    | '[' :: rest =>
      match readAsciiClass? rest with
      | some (s, rest) =>
        readMembers fuel flags (st.add (if flags.anyCase then .anyCase s else s)) rest
      | none => do
        let (s, rest) ← readClass fuel flags rest
        readMembers fuel flags (st.add s) rest
    | c :: rest =>
      if flags.verbose && Text.isBlank c then readMembers fuel flags st rest
      else if flags.verbose && c == '#' then
        readMembers fuel flags st (rest.dropWhile (· ≠ '\n'))
      else do
        let (s, rest) ← readRange (c :: rest)
        readMembers fuel flags (st.add s) rest

end

end LintLedger.Pattern
