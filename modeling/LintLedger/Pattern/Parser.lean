import LintLedger.Pattern.Class
import LintLedger.Text.Numeral

/-!
# Reading patterns

A pattern text is read one piece at a time, from left to right, with the open groups on a stack.
The state holds the alternatives of the current group; closing the group turns them into one
expression. Reading a literal character only adds it to the current alternative.
-/

namespace LintLedger.Pattern

structure Suspended where
  name : Option String
  flags : Flags
  alternatives : List Expr
  items : List Expr

/-- A pattern that is being read. Alternatives and items are kept last first. -/
structure State where
  flags : Flags
  /-- The finished alternatives of the current group. -/
  alternatives : List Expr
  /-- The items of the current alternative. -/
  items : List Expr
  /-- Whether the last item can be repeated. -/
  repeatable : Bool
  suspended : List Suspended
  /-- The group names that are taken. -/
  names : List String

namespace State

def start : State :=
  ⟨.none, [], [], false, [], []⟩

def push (st : State) (e : Expr) : State :=
  { st with items := e :: st.items, repeatable := true }

def pushSet (st : State) (s : CharSet) : State :=
  st.push (.char (if st.flags.anyCase then .anyCase s else s))

def pushChar (st : State) (c : Char) : State :=
  st.pushSet (.single c)

def result (st : State) : Expr :=
  .oneOf (st.alternatives.reverse ++ [.chain st.items.reverse])

def alternate (st : State) : State :=
  { st with
    alternatives := .chain st.items.reverse :: st.alternatives, items := [], repeatable := false }

def openGroup (st : State) (name : Option String) (flags : Flags) : State :=
  { st with
    flags := flags, alternatives := [], items := [], repeatable := false
    suspended := ⟨name, st.flags, st.alternatives, st.items⟩ :: st.suspended }

def closeGroup (st : State) : Except Fault State :=
  match st.suspended with
  | [] => .error .groupUnopened
  | s :: suspended =>
    let e := match s.name with
      | some name => .named name st.result
      | none => st.result
    .ok ⟨s.flags, s.alternatives, e :: s.items, true, suspended, st.names⟩

def repeated (st : State) (f : Expr → Expr) : Except Fault State :=
  match st.repeatable, st.items with
  | true, e :: items => .ok { st with items := f e :: items }
  | _, _ => .error .nothingToRepeat

def pushEscape (st : State) : Escape → State
  | .char c => st.pushChar c
  | .set s => st.push (.char s)
  | .anchor a => st.push (.anchor a)

end State

/-- Whether a repetition is greedy, given what follows its operator, and how many characters say
so. -/
def greediness (flags : Flags) : List Char → Bool × Nat
  | '?' :: _ => (flags.swapped, 1)
  | _ => (!flags.swapped, 0)

def readNumber (cs : List Char) : Option Nat × List Char :=
  let cs := cs.dropWhile Text.isBlank
  let digits := cs.takeWhile Char.isDigit
  (if digits.isEmpty then none else some (Text.decimalNumber digits),
    (cs.dropWhile Char.isDigit).dropWhile Text.isBlank)

structure Count where
  least : Nat
  /-- Without bound if absent. -/
  most : Option Nat

def Count.repeat (count : Count) (greedy : Bool) (e : Expr) : Expr :=
  match count.most with
  | none => Expr.times e count.least (.star greedy e)
  | some most => Expr.times e count.least (Expr.upTo greedy e (most - count.least))

def readCount (cs : List Char) : Except Fault (Count × List Char) :=
  match readNumber cs with
  | (_, []) => .error .countUnclosed
  | (none, _) => .error .countMissing
  | (some n, '\x7d' :: rest) => .ok (⟨n, some n⟩, rest)
  | (some n, ',' :: '\x7d' :: rest) => .ok (⟨n, none⟩, rest)
  | (some n, ',' :: rest) =>
    match readNumber rest with
    | (_, []) => .error .countUnclosed
    | (none, _) => .error .countMissing
    | (some m, '\x7d' :: rest) => if n ≤ m then .ok (⟨n, some m⟩, rest) else .error .countReversed
    | (some _, _) => .error .countUnclosed
  | (some _, _) => .error .countUnclosed

def isGroupName (name : List Char) : Bool :=
  match name with
  | [] => false
  | c :: cs =>
    (c == '_' || (Text.isWord c && !Text.isDigit c))
      && cs.all fun d => Text.isWord d || d == '.' || d == '[' || d == ']'

/-- Opens a named group; the text starts with the name. -/
def openNamed (st : State) (cs : List Char) : Except Fault (State × Nat) :=
  let name := cs.takeWhile (· ≠ '>')
  if name.length = cs.length then .error .groupUnclosed
  else if !isGroupName name then .error .groupNameInvalid
  else if String.ofList name ∈ st.names then .error .groupNameRepeated
  else
    let st := { st with names := String.ofList name :: st.names }
    .ok (st.openGroup (some (String.ofList name)) st.flags, name.length + 1)

/-- Opens a group or carries out a directive, after the opening bracket. -/
def readOpening (st : State) (cs : List Char) : Except Fault (State × Nat) :=
  match cs with
  | '?' :: 'P' :: '<' :: cs => do
    let (st, n) ← openNamed st cs
    return (st, n + 3)
  | '?' :: '=' :: _ => .error .lookAround
  | '?' :: '!' :: _ => .error .lookAround
  | '?' :: '<' :: '=' :: _ => .error .lookAround
  | '?' :: '<' :: '!' :: _ => .error .lookAround
  | '?' :: '<' :: cs => do
    let (st, n) ← openNamed st cs
    return (st, n + 2)
  | '?' :: cs => do
    let (flags, rest) ← st.flags.read true [] cs
    let used := 1 + (cs.length - rest.length) + 1
    match rest with
    | ':' :: _ => return (st.openGroup none flags, used)
    | _ => return ({ st with flags := flags, repeatable := false }, used)
  | _ => .ok (st.openGroup none st.flags, 0)

/-- Reads the piece that starts with `c`; the number says how many characters after `c` belong
to it. -/
def State.step (st : State) (c : Char) (cs : List Char) : Except Fault (State × Nat) :=
  if st.flags.verbose && Text.isBlank c then .ok (st, 0)
  else match c with
    | '#' =>
      if st.flags.verbose then .ok (st, (cs.takeWhile (· ≠ '\n')).length)
      else .ok (st.pushChar c, 0)
    | '(' => readOpening st cs
    | ')' => do return (← st.closeGroup, 0)
    | '|' => .ok (st.alternate, 0)
    | '[' => do
      let (s, rest) ← readClass (2 * cs.length + 2) st.flags cs
      return (st.push (.char s), cs.length - rest.length)
    | '*' =>
      let (greedy, n) := greediness st.flags cs
      do return (← st.repeated (.star greedy), n)
    | '+' =>
      let (greedy, n) := greediness st.flags cs
      do return (← st.repeated (.plus greedy), n)
    | '?' =>
      let (greedy, n) := greediness st.flags cs
      do return (← st.repeated (.optional greedy), n)
    | '\x7b' => do
      let _ ← st.repeated id
      let (count, rest) ← readCount cs
      let (greedy, n) := greediness st.flags rest
      return (← st.repeated (count.repeat greedy), cs.length - rest.length + n)
    | '.' => .ok (st.push (.char (if st.flags.dotAll then .all else .withinLine)), 0)
    | '^' => .ok (st.push (.anchor (if st.flags.multiLine then .lineStart else .textStart)), 0)
    | '$' => .ok (st.push (.anchor (if st.flags.multiLine then .lineEnd else .textEnd)), 0)
    | '\\' =>
      match cs with
      | [] => .error .escapeUnfinished
      | d :: _ => do return (st.pushEscape (← Escape.ofChar d), 1)
    | c => .ok (st.pushChar c, 0)

/-- Reads on from a state. The first `skip` characters belong to a piece that is done. -/
def State.readOn (st : State) (skip : Nat) : List Char → Except Fault State
  | [] => .ok st
  | c :: cs =>
    match skip with
    | n + 1 => st.readOn n cs
    | 0 => do
      let (st, n) ← st.step c cs
      st.readOn n cs

def Expr.parse (text : List Char) : Except Fault Expr := do
  let st ← State.start.readOn 0 text
  if st.suspended.isEmpty then return st.result else throw .groupUnclosed

end LintLedger.Pattern
