import LintLedger.Pattern.Parser
import LintLedger.Pattern.Search

/-!
# Patterns

A pattern is a text together with the expression that it stands for.
-/

namespace LintLedger

structure Pattern where
  text : String
  expr : Pattern.Expr

namespace Pattern

structure Invalid where
  text : String
  fault : Fault
  deriving DecidableEq, Repr

def compile (text : String) : Except Invalid Pattern :=
  match Expr.parse text.toList with
  | .ok expr => .ok ⟨text, expr⟩
  | .error fault => .error ⟨text, fault⟩

def isMatch (p : Pattern) (text : List Char) : Bool :=
  p.expr.occursIn text

/-- All matches in a text, from left to right. -/
def matchesOf (p : Pattern) (text : List Char) : List Found :=
  p.expr.findAll none text

end Pattern

end LintLedger
