import LintLedger.Yaml.Alias
import LintLedger.Yaml.Lexer

/-!
# YAML documents

The fields of a document that is a mapping from texts. An empty document has no fields. A value
can be a text or nothing; any other value is kept as such.
-/

namespace LintLedger.Yaml

inductive Value where
  | absent
  | text (s : String)
  | other
  deriving DecidableEq, Repr

def isNull (text : String) : Bool :=
  text ∈ ["null", "Null", "NULL", "~"]

/-- What a text stands for as a value. Only a plain one can stand for nothing; one that is tagged
as nothing must. -/
def Value.ofScalar (s : Scalar) : Value :=
  if !s.plain then .text s.text
  else if s.tag = some "tag:yaml.org,2002:null" then (if isNull s.text then .absent else .other)
  else if s.tag.isSome then .text s.text
  else if s.text = "" || isNull s.text then .absent
  else .text s.text

def Value.ofNode (known : Anchors) (node : Node Nat) : Value :=
  match node.scalar? known with
  | some s => .ofScalar s
  | none => .other

/-- The fields of a node: those of a mapping, whose keys must be texts, and none of an empty
plain text. -/
def fields? (known : Anchors) : Node Nat → Option (List (String × Value))
  | .mapping _ fields =>
    fields.mapM fun (key, value) => do
      return ((← key.scalar? known).text, .ofNode known value)
  | .scalar _ s => if s.plain && s.text == "" then some [] else none
  | _ => none

def read (text : String) : Option (List (String × Value)) := do
  match ← Source.ofTokens? (← tokens? text) with
  | none => return []
  | some source =>
    let (node, known) ← numbered .none source
    fields? known node

end LintLedger.Yaml
