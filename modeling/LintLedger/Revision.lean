import LintLedger.Disk
import LintLedger.Failure
import LintLedger.Journal
import LintLedger.Region

/-!
# Revisions

What regenerating a region makes of a file. The file is read and its regions are generated anew;
only then, and only if that changed its lines, it is written.
-/

namespace LintLedger

/-- The lines of a file, and what became of them. -/
structure Revision where
  path : Path
  region : Region
  lines : List String
  outcome : Region.Outcome

namespace Revision

def plan (d : Disk) (path : Path) (region : Region) (generate : Nat → List String) :
    Except Failure Revision :=
  match d.readText path with
  | .ok text =>
    let lines := Text.splitLines text
    .ok ⟨path, region, lines, region.regenerate generate lines⟩
  | .error fault => .error (.read path fault)

def newLines (r : Revision) : Except Failure (List String) :=
  match r.outcome.result with
  | .ok lines => .ok lines
  | .error line => .error (.unclosed r.path line r.region.closing.text)

structure Saved where
  disk : Disk
  changed : Bool
  messages : List Message

/-- Carries a revision out: the file is written if it is to be and its lines changed. -/
def save (r : Revision) (d : Disk) (write : Bool) : Except Failure Saved := do
  let lines ← r.newLines
  let changed := decide (lines ≠ r.lines)
  if write && changed then
    match d.writeText r.path (String.join lines) with
    | .ok d => return ⟨d, changed, [⟨.debug, "rewrote " ++ r.path.text⟩]⟩
    | .error fault => throw (.write r.path fault)
  else return ⟨d, changed, []⟩

def replace (d : Disk) (path : Path) (region : Region) (generate : Nat → List String)
    (write : Bool) : Except Failure Saved := do
  (← plan d path region generate).save d write

end Revision

end LintLedger
