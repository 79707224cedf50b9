import LintLedger.Program

/-!
# Running on a real disk

The part of the disk that a run can look at is read beforehand: the places where the root is
looked for, the files that the settings name, and the source tree. The run itself is a function;
afterwards the files that it changed are written.
-/

namespace LintLedger.Snapshot

def pathText (place : Place) : String :=
  "/" ++ "/".intercalate place

def names? (place : Place) : IO (Option (List String)) := do
  try
    let found ← (← IO.FS.realPath (pathText place)).readDir
    return some (found.toList.map fun e => e.fileName)
  catch _ => return none

def read? (place : Place) : IO (Option Entry) := do
  if (← names? place).isSome then return some .directory
  try
    return some (.file (← IO.FS.readBinFile (pathText place)))
  catch _ => return none

def addPlace (d : Disk) (place : Place) : IO Disk := do
  if (d.get? place).isSome then return d
  match ← read? place with
  | some e => return d.set place e
  | none => return d

/-- Adds every place that a path goes over, from a place on. -/
def addPieces (d : Disk) (place : Place) : List String → IO Disk
  | [] => return d
  | piece :: pieces => do
    let next := if piece = "." then place
      else if piece = ".." then place.dropLast
      else place ++ [piece]
    addPieces (← addPlace d next) next pieces

def addPath (d : Disk) (p : Path) : IO Disk :=
  addPieces d [] (Disk.pieces p)

partial def addBelow (d : Disk) (place : Place) : IO Disk := do
  let mut d := d
  for name in (← names? place).getD [] do
    d ← addPlace d (place ++ [name])
    d ← addBelow d (place ++ [name])
  return d

/-- Adds what tells whether a directory is the root of a project. -/
def addCandidate (d : Disk) (p : Path) : IO Disk := do
  let marks := Settings.configFiles.map (·.1) ++ [Settings.defaultMarker, ".git"]
  marks.foldlM (fun d name => addPath d (p.join ⟨name⟩)) d

/-- Reads the part of the disk that a run can look at. -/
def take (cwd : Path) (request : CommandLine.Request) : IO Disk := do
  let start := Settings.startingPoint cwd (Settings.startOf request.repoRoot)
  let d ← (Settings.candidates start).foldlM addCandidate Disk.empty
  let s := (Settings.resolve d cwd request.repoRoot request.output).settings
  let d ← [s.readmePath, s.entryPath, s.root.join ⟨s.marker⟩].foldlM addPath d
  let sources := s.root.join ⟨s.sourceDir⟩
  let d ← addPath d sources
  match d.placeOf sources with
  | .ok place => addBelow d place
  | .error _ => return d

def writeChanges (before after : Disk) : IO Unit := do
  for (place, e) in after.entries do
    match e, before.get? place with
    | .file bytes, some (.file old) =>
      if bytes != old then IO.FS.writeBinFile (pathText place) bytes
    | .file bytes, _ => IO.FS.writeBinFile (pathText place) bytes
    | .directory, _ => pure ()

end LintLedger.Snapshot

open LintLedger in
def main (args : List String) : IO UInt32 := do
  let cwd : Path := ⟨toString (← IO.currentDir)⟩
  let d ← match CommandLine.read args with
    | .ok request => Snapshot.take cwd request
    | .error _ => pure Disk.empty
  let start : Program.Start :=
    { disk := d, cwd := cwd, colors := (← IO.getEnv "NO_COLOR").isNone }
  let finish := Program.run start args
  Snapshot.writeChanges d finish.disk
  let finish ←
    try
      let out ← IO.getStdout
      out.putStr finish.stdout
      out.flush
      pure finish
    catch e =>
      pure (Program.run { start with refusal := some (.other (toString e)) } args)
  let err ← IO.getStderr
  finish.log.forM fun m => err.putStrLn m.line
  err.putStr finish.stderr
  return UInt32.ofNat finish.code
