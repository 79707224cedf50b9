import LintLedger.Json
import LintLedger.Listing
import LintLedger.Sink
import LintLedger.Terminal

/-!
# Reports

What a run says on its standard output: the table of lints, or a line for every listing that was
out of step, for readers or as a JSON document. The document is chosen by the mode `json` alone;
every other word means the form for readers.
-/

namespace LintLedger

structure RegionUpdate where
  file : String
  region : String
  changed : Bool
  wrote : Bool
  deriving DecidableEq, Repr

namespace Report

def isJson (mode : String) : Bool :=
  mode == "json"

def lintRecord (lint : Lint) : Json :=
  .record [("module", .text lint.module), ("name", .text lint.name),
    ("level", .text lint.level.text), ("description", .text lint.description)]

/-- All lints in the order of the table, and their number. -/
def tableDocument (lints : List Lint) : Json :=
  .record [("lints", .list ((Listing.byName lints).map lintRecord)),
    ("summary", .record [("total", .number lints.length)])]

def updateRecord (u : RegionUpdate) : Json :=
  .record [("file", .text u.file), ("region", .text u.region), ("changed", .flag u.changed),
    ("wrote", .flag u.wrote)]

/-- What became of every listing, with the numbers of lints, listings, changes and writes. -/
def updatesDocument (updates : List RegionUpdate) (lints : Nat) : Json :=
  .record [("results", .list (updates.map updateRecord)),
    ("summary", .record [("lints", .number lints), ("regions", .number updates.length),
      ("changed", .number (updates.countP (·.changed))),
      ("wrote", .number (updates.countP (·.wrote)))])]

def tableTexts (lints : List Lint) (mode : String) : List String :=
  if isJson mode then [(tableDocument lints).pretty, "\n"] else Listing.table lints

def writeTable (s : Sink) (lints : List Lint) (mode : String) : Sink × Bool :=
  s.writeAll (tableTexts lints mode)

def updateLine (colors write : Bool) (u : RegionUpdate) : String :=
  let label := if write then "updated:" else "would update:"
  let head :=
    if colors then Terminal.bold (Terminal.colored .green label) ++ " " ++ Terminal.bold u.file
    else label ++ " " ++ u.file
  head ++ " (" ++ u.region ++ ")\n"

def updatesTexts (updates : List RegionUpdate) (lints : Nat) (mode : String)
    (colors write : Bool) : List String :=
  if isJson mode then [(updatesDocument updates lints).pretty ++ "\n"]
  else (updates.filter (·.changed)).map (updateLine colors write)

def reminder : String :=
  "Please run lintsync to regenerate lint lists.\n"

end Report

end LintLedger
