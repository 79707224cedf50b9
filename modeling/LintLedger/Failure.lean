import LintLedger.Fault
import LintLedger.Glob.Pattern
import LintLedger.Path.Basic
import LintLedger.Pattern.Basic

/-!
# Failures

What ends a run before its time, and the words for it. Whatever stands in a directory can be looked
at, so no failure stands for a walk through the sources that gets stuck.
-/

namespace LintLedger

inductive Failure where
  | read (path : Path) (fault : Fault)
  | write (path : Path) (fault : Fault)
  | output (fault : Fault)
  | pattern (invalid : Pattern.Invalid)
  | glob (text : String) (fault : Glob.Fault)
  /-- The region that the line opens is never closed. -/
  | unclosed (path : Path) (line : Nat) (closing : String)
  deriving DecidableEq, Repr

namespace Failure

def message : Failure → String
  | .read path fault => "failed to read " ++ path.text ++ ": " ++ fault.message
  | .write path fault => "failed to write " ++ path.text ++ ": " ++ fault.message
  | .output fault => "failed to write to stdout: " ++ fault.message
  | .pattern invalid => "invalid pattern `" ++ invalid.text ++ "`: " ++ invalid.fault.message
  | .glob text fault =>
    "bad glob pattern `" ++ text ++ "`: Pattern syntax error near position "
      ++ toString fault.position ++ ": " ++ fault.flaw.message
  | .unclosed path line closing =>
    path.text ++ ": region opened at line " ++ toString line
      ++ " is never closed (no line matches `" ++ closing ++ "`)"

end Failure

end LintLedger
