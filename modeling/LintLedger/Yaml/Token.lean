/-!
# Tokens of YAML

The pieces that a YAML text is made of: marks, names, texts, and the starts and ends of
collections that are shown by indentation alone.
-/

namespace LintLedger.Yaml

/-- How a tag is written: a handle that stands for a beginning, and the rest. -/
structure TagText where
  handle : String
  suffix : String
  deriving DecidableEq, Repr

inductive Token where
  | versionDirective (major minor : Nat)
  | tagDirective (handle start : String)
  | documentStart
  | documentEnd
  | blockSequence
  | blockMapping
  | blockEnd
  | flowSequence
  | flowSequenceEnd
  | flowMapping
  | flowMappingEnd
  | blockEntry
  | flowEntry
  | key
  | value
  | alias (name : String)
  | anchor (name : String)
  | tag (tag : TagText)
  | scalar (plain : Bool) (text : String)
  deriving DecidableEq, Repr

end LintLedger.Yaml
