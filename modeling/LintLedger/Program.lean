import LintLedger.CommandLine
import LintLedger.Update

/-!
# The program

One run, from its arguments to its exit status, as a function: the disk, the streams and the log it
leaves behind are part of its result. A failure ends it with status 2. A check that finds listings
out of step ends with status 1. Where the lines for readers cannot be written, the run breaks off.

The log is kept apart from the standard error that it goes to, since its lines say when and where
they were written. The environment can ask for more or less of it than a run does.
-/

namespace LintLedger.Program

/-- What stands around the message of a run that breaks off: in front the thread and the place in
the program, behind it how the run got there. It depends on how the program was built and on the
system, and is left open. -/
structure Frame where
  head : String
  tail : String

structure Start where
  disk : Disk
  cwd : Path
  /-- Whether colors are wanted. -/
  colors : Bool
  /-- Why the standard output takes nothing, if it does not. -/
  refusal : Option Fault := none
  /-- What stands around the message if the run breaks off. -/
  frame : Frame := ⟨"", ""⟩

def Start.working (st : Start) : Bool :=
  st.refusal.isNone

/-- How a run ends: the disk it leaves, its status, and its streams without the log. -/
structure Outcome where
  disk : Disk
  code : Nat
  stdout : String
  stderr : String

structure Finish extends Outcome where
  log : List Message

def versionLine : String := "lintsync 0.1.0\n"

/-- Ends with an error message and status 2. -/
def fail (colors : Bool) (d : Disk) (message : String) : Outcome :=
  ⟨d, 2, "", Terminal.errorPrefix colors ++ " " ++ message ++ "\n"⟩

/-- Ends at a line that could not be printed. -/
def breakOff (frame : Frame) (d : Disk) (fault : Fault) : Outcome :=
  ⟨d, 101, "", frame.head ++ "failed printing to stdout: " ++ fault.message ++ "\n" ++ frame.tail⟩

def markerMessage (s : Settings) : String :=
  s.marker ++ " not found under " ++ s.root.text
    ++ "; call lintsync from the project checkout directory (or pass --repo-root)"

def printTable (st : Start) (s : Settings) (lints : List Lint) : Outcome :=
  match st.refusal with
  | none => ⟨st.disk, 0, String.join (Report.tableTexts lints s.output), ""⟩
  | some fault => fail st.colors st.disk (Failure.output fault).message

def isStale (check : Bool) (result : Update.Result) : Bool :=
  check && result.updates.any (·.changed)

/-- What is printed of an update or a check, line by line. -/
def reportTexts (st : Start) (s : Settings) (check : Bool) (lints : List Lint)
    (result : Update.Result) : List String :=
  let json := Report.isJson s.output
  let texts :=
    Report.updatesTexts result.updates lints.length s.output (!json && st.colors) (!check)
  if isStale check result && !json then texts ++ [Report.reminder] else texts

/-- Reports an update or a check. The first line that is refused is the last. -/
def printUpdates (st : Start) (s : Settings) (check : Bool) (lints : List Lint)
    (result : Update.Result) : Outcome :=
  let stale := isStale check result
  match st.refusal, reportTexts st s check lints result with
  | some fault, _ :: _ => breakOff st.frame result.disk fault
  | _, texts => ⟨result.disk, if stale then 1 else 0, String.join texts,
      if stale && Report.isJson s.output then Report.reminder else ""⟩

def runWith (st : Start) (request : CommandLine.Request) (s : Settings) : Finish :=
  let harvest := Collection.harvest st.disk s.root s.scope
  let collecting := Collection.messages s.scope harvest
  match harvest.result with
  | .error failure => ⟨fail st.colors st.disk failure.message, collecting⟩
  | .ok lints =>
    if request.printOnly then ⟨printTable st s lints, collecting⟩
    else
      let result := Update.run st.disk s lints (!request.check)
      let outcome := match result.failure with
        | some failure => fail st.colors result.disk failure.message
        | none => printUpdates st s request.check lints result
      ⟨outcome, collecting ++ result.messages⟩

/-- What is logged of settings that no configuration has a say in. -/
def defaultsMessages (s : Settings) : List Message :=
  if s.configured then [] else [⟨.debug, "no lintsync config found; using defaults"⟩]

def usageMessage : CommandLine.Stop → String
  | .unknownArgument => "unexpected argument found"
  | .repeated => "an argument cannot be used multiple times"
  | .valueMissing => "a value is required but none was supplied"
  | .valueUnwanted => "an unexpected value was found for a flag"
  | .help => ""
  | .version => ""

def helpText : String :=
  "Regenerate lint tables and registration lists\n\n"
    ++ "Usage: lintsync [OPTIONS]\n\n"
    ++ "Options:\n"
    ++ "  -n, --print-only             Only print the new lint table to stdout\n"
    ++ "  -c, --check                  Exit non-zero if a file would change (never writes)\n"
    ++ "      --repo-root <REPO_ROOT>  Repository root (default: current dir)\n"
    ++ "      --output <OUTPUT>        Output mode: human|json (default: human)\n"
    ++ "  -v, --verbose                Enable debug logging\n"
    ++ "  -h, --help                   Print help\n"
    ++ "  -V, --version                Print version\n"

/-- What comes of arguments that make no request. -/
def stop (st : Start) : CommandLine.Stop → Outcome
  | .version => ⟨st.disk, 0, if st.working then versionLine else "", ""⟩
  | .help => ⟨st.disk, 0, if st.working then helpText else "", ""⟩
  | reason => ⟨st.disk, 2, "", "error: " ++ usageMessage reason ++ "\n"⟩

def runRequest (st : Start) (request : CommandLine.Request) : Finish :=
  let resolved := Settings.resolve st.disk st.cwd request.repoRoot request.output
  let s := resolved.settings
  if s.hasMarker st.disk then
    let finish := runWith st request s
    { finish with log := resolved.messages ++ defaultsMessages s ++ finish.log }
  else ⟨fail st.colors st.disk (markerMessage s), resolved.messages⟩

def run (st : Start) (args : List String) : Finish :=
  match CommandLine.read args with
  | .error reason => ⟨stop st reason, []⟩
  | .ok request =>
    let finish := runRequest st request
    { finish with log := finish.log.filter (·.isLogged request.verbose) }

end LintLedger.Program
