import LintLedger.Declaration
import LintLedger.Failure
import LintLedger.Glob.Walk
import LintLedger.Journal

/-!
# Collection

The lints of a source tree. The files are those at any depth below a directory whose names have
the extension; they are read one after the other in ascending order, up to the first that cannot
be read.
-/

namespace LintLedger.Collection

/-- The lints found in each file that was read, and what ended the reading early. -/
structure Harvest where
  files : List (Path × List Lint)
  failure : Option Failure

namespace Harvest

def lints (h : Harvest) : List Lint :=
  h.files.flatMap (·.2)

def result (h : Harvest) : Except Failure (List Lint) :=
  match h.failure with
  | none => .ok h.lints
  | some failure => .error failure

def fileMessage (path : Path) (lints : List Lint) : Message :=
  ⟨.debug, path.text ++ ": " ++ toString lints.length ++ " lint(s)"⟩

def messages (h : Harvest) : List Message :=
  h.files.map fun (path, lints) => fileMessage path lints

end Harvest

/-- The lints of one file; its module is named after it. -/
def scanFile (d : Disk) (p : Pattern) (path : Path) : Except Failure (List Lint) :=
  match d.readText path with
  | .ok text => .ok (Declaration.extract p path.fileStem text)
  | .error fault => .error (.read path fault)

def scanFiles (d : Disk) (p : Pattern) : List Path → Harvest
  | [] => ⟨[], none⟩
  | path :: paths =>
    match scanFile d p path with
    | .ok lints =>
      let rest := scanFiles d p paths
      ⟨(path, lints) :: rest.files, rest.failure⟩
    | .error failure => ⟨[], some failure⟩

/-- The file name pattern for all files with an extension below a directory. -/
def globText (directory : Path) (extension : String) : String :=
  Glob.quote directory.text ++ "/**/*." ++ extension

def sources (d : Disk) (directory : Path) (extension : String) : Except Failure (List Path) :=
  let text := globText directory extension
  match Glob.paths d text with
  | .ok paths => .ok (paths.filter d.isFile)
  | .error fault => .error (.glob text fault)

/-- Where lints are looked for: the files with an extension below a directory, in declarations
made with a macro. -/
structure Scope where
  sourceDir : String
  extension : String
  macroName : String

def harvest (d : Disk) (root : Path) (scope : Scope) : Harvest :=
  match Declaration.pattern scope.macroName with
  | .error invalid => ⟨[], some (.pattern invalid)⟩
  | .ok p =>
    match sources d (root.join ⟨scope.sourceDir⟩) scope.extension with
    | .error failure => ⟨[], some failure⟩
    | .ok paths => scanFiles d p paths

/-- The messages of a collection, with the number of all lints at the end. -/
def messages (scope : Scope) (h : Harvest) : List Message :=
  match h.failure with
  | some _ => h.messages
  | none =>
    h.messages ++ [⟨.info, "collected " ++ toString h.lints.length ++ " lint(s) from "
      ++ scope.sourceDir⟩]

end LintLedger.Collection
