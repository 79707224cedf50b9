import LintLedger.Toml.Document
import LintLedger.Yaml.Document

/-!
# Configurations

What a configuration file can set: eight texts, each under a key of its own and each optional.
Other keys are passed over. A key with a value that is no text makes the whole file invalid.
-/

namespace LintLedger

structure Config where
  sourceDir : Option String
  extension : Option String
  macroName : Option String
  readme : Option String
  entry : Option String
  marker : Option String
  group : Option String
  output : Option String
  deriving DecidableEq, Repr

namespace Config

inductive Language where
  | toml
  | yaml
  deriving DecidableEq, Repr

def empty : Config :=
  ⟨none, none, none, none, none, none, none, none⟩

/-- The configuration in which every key has the value that a function finds for it, if it finds
a valid one for each. -/
def ofValues? (value? : String → Option (Option String)) : Option Config := do
  return ⟨← value? "source_dir", ← value? "extension", ← value? "macro", ← value? "readme",
    ← value? "entry", ← value? "marker", ← value? "group", ← value? "output"⟩

/-- The text under a key of a TOML document, if what stands there is valid. -/
def tomlValue? (entries : Toml.Entries) (key : String) : Option (Option String) :=
  match entries.lookup key with
  | none => some none
  | some (.value (.text s)) => some (some s)
  | some _ => none

/-- The text under a key of a YAML document, if what stands there is valid. A key must not be
repeated. -/
def yamlValue? (fields : List (String × Yaml.Value)) (key : String) : Option (Option String) :=
  match fields.filter (·.1 == key) with
  | [] => some none
  | [(_, .absent)] => some none
  | [(_, .text s)] => some (some s)
  | _ => none

def parse? (language : Language) (text : String) : Option Config :=
  match language with
  | .toml => do ofValues? (tomlValue? (← Toml.read text))
  | .yaml => do ofValues? (yamlValue? (← Yaml.read text))

end Config

end LintLedger
