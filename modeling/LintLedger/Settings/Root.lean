import LintLedger.Disk
import LintLedger.Settings.Config

/-!
# The root of a project

The root is looked for from a directory upwards, by leaving out the last component of its path
again and again. The first place with a configuration file, with the marker file, or with a
repository is the root; if there is none, the directory itself is.
-/

namespace LintLedger.Settings

/-- The names that a configuration file can have, in order of preference. -/
def configFiles : List (String × Config.Language) :=
  [("lintsync.toml", .toml), ("lintsync.yaml", .yaml), ("lintsync.yml", .yaml)]

def defaultMarker : String := "src/lib.rs"

def isRoot (d : Disk) (marker : String) (p : Path) : Bool :=
  configFiles.any (fun file => d.exists? (p.join ⟨file.1⟩))
    || d.isFile (p.join ⟨marker⟩) || d.exists? (p.join ⟨".git"⟩)

/-- A path seen from the working directory, without components that say nothing. -/
def startingPoint (cwd start : Path) : Path :=
  .ofComponents (cwd.join start).components

/-- The places that are looked at, from the starting point up to the root of the disk. -/
def candidates (start : Path) : List Path :=
  (Path.lineage start.components).map Path.ofComponents

def detectRoot (d : Disk) (cwd start : Path) (marker : String) : Path :=
  let start := startingPoint cwd start
  ((candidates start).find? (isRoot d marker)).getD start

end LintLedger.Settings
