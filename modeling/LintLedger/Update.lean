import LintLedger.Listing.Region
import LintLedger.Path.Relative
import LintLedger.Report
import LintLedger.Revision
import LintLedger.Settings.Basic

/-!
# Updates

The three listings are brought in step one after the other, each in a pass of its own that reads
its file anew. A pass that fails ends the update; what earlier passes wrote stays.
-/

namespace LintLedger.Update

structure Pass where
  name : String
  path : Path
  region : Except Pattern.Invalid Region
  /-- What every region is to hold. -/
  lines : List String

def passes (s : Settings) (lints : List Lint) : List Pass :=
  [⟨"table", s.readmePath, Listing.tableRegion, Listing.table lints⟩,
    ⟨"count", s.readmePath, Listing.countRegion, [Listing.countSentence lints.length]⟩,
    ⟨"group", s.entryPath, Listing.groupRegion s.group, Listing.group lints⟩]

def Pass.run (p : Pass) (d : Disk) (write : Bool) : Except Failure Revision.Saved :=
  match p.region with
  | .error invalid => .error (.pattern invalid)
  | .ok region => Revision.replace d p.path region (fun _ => p.lines) write

def Pass.report (p : Pass) (root : Path) (changed write : Bool) : RegionUpdate :=
  ⟨Path.shownFrom root p.path, p.name, changed, changed && write⟩

def Pass.message (p : Pass) (changed : Bool) : Message :=
  ⟨.debug, p.path.text ++ " [" ++ p.name ++ "]: " ++ (if changed then "changed" else "up to date")⟩

structure Result where
  disk : Disk
  updates : List RegionUpdate
  messages : List Message
  failure : Option Failure

def runPasses (root : Path) (write : Bool) (d : Disk) : List Pass → Result
  | [] => ⟨d, [], [], none⟩
  | p :: ps =>
    match p.run d write with
    | .error failure => ⟨d, [], [], some failure⟩
    | .ok saved =>
      let rest := runPasses root write saved.disk ps
      ⟨rest.disk, p.report root saved.changed write :: rest.updates,
        saved.messages ++ p.message saved.changed :: rest.messages, rest.failure⟩

/-- Brings all listings in step with some lints; without `write`, only says what would change. -/
def run (d : Disk) (s : Settings) (lints : List Lint) (write : Bool) : Result :=
  runPasses s.root write d (passes s lints)

end LintLedger.Update
