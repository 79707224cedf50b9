import LintLedger.Pattern.CharSet

/-!
# Pattern expressions

The expressions that patterns are made of. An alternative on the left is preferred to one on the
right, and a greedy loop prefers another round to leaving. A group that has a name marks where it
is entered and left.
-/

namespace LintLedger.Pattern

/-- A condition on the characters on both sides of a point of a text. -/
inductive Anchor where
  | textStart
  | textEnd
  | lineStart
  | lineEnd
  | wordEdge
  | wordInside
  | wordStart
  | wordEnd
  deriving DecidableEq, Repr

def besideWord (side : Option Char) : Bool :=
  side.any Text.isWord

def Anchor.holds (before after : Option Char) : Anchor → Bool
  | .textStart => before.isNone
  | .textEnd => after.isNone
  | .lineStart => before.isNone || before == some '\n'
  | .lineEnd => after.isNone || after == some '\n'
  | .wordEdge => besideWord before != besideWord after
  | .wordInside => besideWord before == besideWord after
  | .wordStart => !besideWord before && besideWord after
  | .wordEnd => besideWord before && !besideWord after

inductive Mark where
  | enter (group : String)
  | leave (group : String)
  deriving DecidableEq, Repr

inductive Expr where
  | empty
  | char (set : CharSet)
  | anchor (a : Anchor)
  | mark (m : Mark)
  | seq (e f : Expr)
  | alt (e f : Expr)
  | star (greedy : Bool) (e : Expr)
  deriving DecidableEq, Repr

namespace Expr

def chain (es : List Expr) : Expr :=
  es.foldr .seq .empty

def oneOf : List Expr → Expr
  | [] => .empty
  | [e] => e
  | e :: es => .alt e (oneOf es)

def literal (c : Char) : Expr :=
  .char (.single c)

def optional (greedy : Bool) (e : Expr) : Expr :=
  if greedy then .alt e .empty else .alt .empty e

def plus (greedy : Bool) (e : Expr) : Expr :=
  .seq e (.star greedy e)

def upTo (greedy : Bool) (e : Expr) : Nat → Expr
  | 0 => .empty
  | n + 1 => optional greedy (.seq e (upTo greedy e n))

def times (e : Expr) (n : Nat) (last : Expr) : Expr :=
  n.repeat (.seq e) last

def named (group : String) (e : Expr) : Expr :=
  .seq (.mark (.enter group)) (.seq e (.mark (.leave group)))

end Expr

end LintLedger.Pattern
