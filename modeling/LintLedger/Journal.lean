/-!
# Journal

The messages that a run leaves for whoever looks into it.
-/

namespace LintLedger

inductive Severity where
  | debug
  | info
  | warn
  deriving DecidableEq, Repr

structure Message where
  severity : Severity
  text : String
  deriving DecidableEq, Repr

def Severity.name : Severity → String
  | .debug => "DEBUG"
  | .info => "INFO"
  | .warn => "WARN"

/-- The line about a message, without the time in front. -/
def Message.line (m : Message) : String :=
  m.severity.name ++ " " ++ m.text

/-- Whether a message is logged. Only a warning is, unless more is asked for. -/
def Message.isLogged (verbose : Bool) (m : Message) : Bool :=
  verbose || m.severity == .warn

end LintLedger
