import LintLedger.Fault

/-!
# Sinks

Where output goes. A sink with a limit takes that many bytes and then refuses all others; what
it has taken is the beginning of what was written to it.
-/

namespace LintLedger

structure Sink where
  /-- How many bytes it still takes, without limit if absent. -/
  room : Option Nat
  /-- What it says when it takes no more. -/
  fault : Fault
  taken : ByteArray

namespace Sink

def unlimited : Sink :=
  ⟨none, .closed, .empty⟩

def limited (n : Nat) (fault : Fault) : Sink :=
  ⟨some n, fault, .empty⟩

/-- Writes a text; the flag says whether all of it was taken. -/
def write (s : Sink) (text : String) : Sink × Bool :=
  let bytes := text.toUTF8
  match s.room with
  | none => (⟨none, s.fault, s.taken ++ bytes⟩, true)
  | some n =>
    (⟨some (n - bytes.size), s.fault, s.taken ++ bytes.extract 0 n⟩, bytes.size ≤ n)

/-- Writes some texts one after the other, up to the first that is not wholly taken. -/
def writeAll (s : Sink) : List String → Sink × Bool
  | [] => (s, true)
  | text :: texts =>
    match s.write text with
    | (s, true) => s.writeAll texts
    | (s, false) => (s, false)

end Sink

end LintLedger
