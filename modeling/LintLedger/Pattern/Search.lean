import LintLedger.Pattern.Expr

/-!
# Searching a text

A search walks over the text once for every place where a match may start. On the way it keeps
what is left of the expression along each way of reading the text, in order of preference. Two
ways with the same rest have the same future, so only the preferred one is kept; once a way is
complete, the ways behind it are given up.
-/

namespace LintLedger.Pattern

/-- The marks passed so far, each with the number of characters read before it. -/
abbrev Trace := List (Mark × Nat)

/-- A way to begin an expression: the marks passed at once, and then either nothing more or one
character and the rest of the expression. -/
structure Branch where
  marks : List Mark
  step : Option (CharSet × Expr)

namespace Branch

def after (marks : List Mark) (b : Branch) : Branch :=
  ⟨marks ++ b.marks, b.step⟩

/-- A round of a loop; a round that reads nothing is no round. -/
def round? (b : Branch) (loop : Expr) : Option Branch :=
  b.step.map fun (set, e) => ⟨b.marks, some (set, .seq e loop)⟩

end Branch

/-- The ways to begin an expression between two characters, the preferred one first. -/
def Expr.branches (before next : Option Char) : Expr → List Branch
  | .empty => [⟨[], none⟩]
  | .char set => [⟨[], some (set, .empty)⟩]
  | .anchor a => if a.holds before next then [⟨[], none⟩] else []
  | .mark m => [⟨[m], none⟩]
  | .seq e f =>
    (e.branches before next).flatMap fun b =>
      match b.step with
      | none => (f.branches before next).map (Branch.after b.marks)
      | some (set, e') => [⟨b.marks, some (set, .seq e' f)⟩]
  | .alt e f => e.branches before next ++ f.branches before next
  | .star greedy e =>
    let rounds := (e.branches before next).filterMap fun b => b.round? (.star greedy e)
    if greedy then rounds ++ [⟨[], none⟩] else ⟨[], none⟩ :: rounds

/-- What is left of an expression along one way of reading, with the marks passed on it. -/
structure Thread where
  rest : Expr
  trace : Trace

/-- A match: how many characters it has, and the marks passed in it. -/
structure Hit where
  length : Nat
  trace : Trace

/-- Keeps the first of the threads with the same rest. -/
def distinct : List Thread → List Thread
  | [] => []
  | t :: ts => t :: (distinct ts).filter fun u => u.rest ≠ t.rest

def Thread.continuations (t : Thread) (position : Nat) (before next : Option Char) :
    List (Trace × Option (CharSet × Expr)) :=
  (t.rest.branches before next).map fun b =>
    (t.trace ++ b.marks.map fun m => (m, position), b.step)

/-- Follows the ways on over the next character, up to the first that is complete. -/
def follow (position : Nat) (next : Option Char) :
    List (Trace × Option (CharSet × Expr)) → List Thread × Option Hit
  | [] => ([], none)
  | (trace, none) :: _ => ([], some ⟨position, trace⟩)
  | (trace, some (set, e)) :: ways =>
    let (threads, hit) := follow position next ways
    if next.any set.mem then (⟨e, trace⟩ :: threads, hit) else (threads, hit)

/-- Reads on with some threads; `best` is the match to fall back to. -/
def run (position : Nat) (before : Option Char) (threads : List Thread) (best : Option Hit) :
    List Char → Option Hit
  | [] =>
    let ways := threads.flatMap fun t => t.continuations position before none
    (follow position none ways).2 <|> best
  | c :: cs =>
    if threads.isEmpty then best
    else
      let ways := threads.flatMap fun t => t.continuations position before (some c)
      let (threads, hit) := follow position (some c) ways
      run (position + 1) (some c) (distinct threads) (hit <|> best) cs

def Expr.matchHere (e : Expr) (before : Option Char) (cs : List Char) : Option Hit :=
  run 0 before [⟨e, []⟩] none cs

/-- A match in a text: what stands before it, its own text, and what follows. -/
structure Found where
  skipped : List Char
  text : List Char
  rest : List Char
  trace : Trace

namespace Found

def group (f : Found) (name : String) : List Char :=
  let at? (m : Mark) := (f.trace.reverse.find? fun p => p.1 == m).map (·.2)
  match at? (.enter name), at? (.leave name) with
  | some i, some j => (f.text.drop i).take (j - i)
  | _, _ => []

end Found

def Expr.find? (e : Expr) (before : Option Char) : List Char → Option Found
  | [] => (e.matchHere before []).map fun hit => ⟨[], [], [], hit.trace⟩
  | c :: cs =>
    match e.matchHere before (c :: cs) with
    | some hit => some ⟨[], (c :: cs).take hit.length, (c :: cs).drop hit.length, hit.trace⟩
    | none => (e.find? (some c) cs).map fun f => { f with skipped := c :: f.skipped }

/-- All matches in a text from left to right, each starting at or after the end of the one
before. The search ends where a match makes no progress. -/
def Expr.findAll (e : Expr) (before : Option Char) (cs : List Char) : List Found :=
  match e.find? before cs with
  | none => []
  | some f =>
    if f.rest.length < cs.length then
      f :: e.findAll (f.text.getLast? <|> f.skipped.getLast? <|> before) f.rest
    else [f]
termination_by cs.length

def Expr.occursIn (e : Expr) (cs : List Char) : Bool :=
  (e.find? none cs).isSome

end LintLedger.Pattern
