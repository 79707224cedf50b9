import LintLedger.Collection
import LintLedger.Settings.Root

/-!
# Settings

What a run goes by: what the command line says before what the configuration file says, and that
before what holds otherwise. The configuration is the first file at the root that has one of the
names; if that cannot be read or is invalid, it is as if there were none.
-/

namespace LintLedger

structure Settings where
  root : Path
  sourceDir : String
  extension : String
  macroName : String
  readme : String
  entry : String
  marker : String
  group : String
  output : String
  /-- Whether a configuration was found and valid. -/
  configured : Bool
  deriving DecidableEq, Repr

namespace Settings

structure Loaded where
  config : Option Config
  messages : List Message

def loadConfig (d : Disk) (root : Path) : Loaded :=
  match configFiles.find? fun file => d.exists? (root.join ⟨file.1⟩) with
  | none => ⟨none, []⟩
  | some (name, language) =>
    let path := root.join ⟨name⟩
    match d.readText path with
    | .error fault => ⟨none, [⟨.warn, "ignoring " ++ path.text ++ ": " ++ fault.message⟩]⟩
    | .ok text =>
      match Config.parse? language text with
      | some config => ⟨some config, [⟨.debug, "loaded config from " ++ path.text⟩]⟩
      | none => ⟨none, [⟨.warn, "ignoring invalid " ++ path.text⟩]⟩

def bareExtension (s : String) : String :=
  String.ofList (s.toList.dropWhile (· == '.'))

/-- The settings at a root, given its configuration and what the command line says of the
output. -/
def ofConfig (root : Path) (config : Option Config) (output : Option String) : Settings :=
  let c := config.getD .empty
  { root := root
    sourceDir := c.sourceDir.getD "src"
    extension := (c.extension.map bareExtension).getD "rs"
    macroName := c.macroName.getD "declare_lint"
    readme := c.readme.getD "README.md"
    entry := c.entry.getD "src/lib.rs"
    marker := c.marker.getD defaultMarker
    group := c.group.getD "clippy"
    output := (output <|> c.output).getD "human"
    configured := config.isSome }

/-- Where a run starts to look for the root if it is not told. -/
def startOf (repoRoot : Option String) : Path :=
  ⟨repoRoot.getD "."⟩

structure Resolved where
  settings : Settings
  messages : List Message

def resolve (d : Disk) (cwd : Path) (repoRoot output : Option String) : Resolved :=
  let root := detectRoot d cwd (startOf repoRoot) defaultMarker
  let loaded := loadConfig d root
  ⟨ofConfig root loaded.config output, loaded.messages⟩

def readmePath (s : Settings) : Path :=
  s.root.join ⟨s.readme⟩

def entryPath (s : Settings) : Path :=
  s.root.join ⟨s.entry⟩

def hasMarker (s : Settings) (d : Disk) : Bool :=
  d.isFile (s.root.join ⟨s.marker⟩)

def scope (s : Settings) : Collection.Scope :=
  ⟨s.sourceDir, s.extension, s.macroName⟩

end Settings

end LintLedger
