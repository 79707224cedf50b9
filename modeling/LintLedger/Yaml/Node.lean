import LintLedger.Yaml.Token

/-!
# Nodes of YAML

What the tokens of a document build up: texts, sequences, mappings, and aliases that stand for
another node. Where a node may stand but none does, there is an empty plain text.
-/

namespace LintLedger.Yaml

structure Scalar where
  tag : Option String
  plain : Bool
  text : String
  deriving DecidableEq, Repr

/-- A node whose aliases name their targets by `α`. -/
inductive Node (α : Type) where
  | alias (target : α)
  | scalar (anchor : Option String) (s : Scalar)
  | sequence (anchor : Option String) (items : List (Node α))
  | mapping (anchor : Option String) (fields : List (Node α × Node α))

abbrev Source := Node String

namespace Source

abbrev Handles := List (String × String)

/-- The handles that are known without a directive. -/
def defaultHandles : Handles :=
  [("!", "!"), ("!!", "tag:yaml.org,2002:")]

def empty : Source :=
  .scalar none ⟨none, true, ""⟩

def resolveTag (handles : Handles) (t : TagText) : Option String :=
  if t.handle = "" then some t.suffix
  else (handles.lookup t.handle).map (· ++ t.suffix)

structure Properties where
  anchor : Option String
  tag : Option TagText

/-- Reads an anchor and a tag, in any order. -/
def readProperties : List Token → Properties × List Token
  | .anchor name :: .tag tag :: ts => (⟨some name, some tag⟩, ts)
  | .tag tag :: .anchor name :: ts => (⟨some name, some tag⟩, ts)
  | .anchor name :: ts => (⟨some name, none⟩, ts)
  | .tag tag :: ts => (⟨none, some tag⟩, ts)
  | ts => (⟨none, none⟩, ts)

/-- Where in a text a node stands: shown by indentation, as an item of a mapping shown by
indentation, or inside brackets. -/
inductive Context where
  | block
  | field
  | flow
  deriving DecidableEq

def startsWith (ts : List Token) (ends : List Token) : Bool :=
  ts.head?.any (· ∈ ends)

mutual

/-- Reads a node. The fuel bounds the nodes and items to come. -/
def readNode (fuel : Nat) (handles : Handles) (context : Context) (ts : List Token) :
    Option (Source × List Token) :=
  match fuel with
  | 0 => none
  | fuel + 1 =>
    match ts with
    | .alias name :: ts => some (.alias name, ts)
    | ts => do
      let (p, ts) := readProperties ts
      let tag ← match p.tag with
        | some t => (resolveTag handles t).map some
        | none => some none
      match ts with
      | .scalar plain text :: rest =>
        return (.scalar p.anchor ⟨tag, plain, text⟩, rest)
      | .flowSequence :: rest =>
        let (items, rest) ← readFlowItems fuel handles true rest
        return (.sequence p.anchor items, rest)
      | .flowMapping :: rest =>
        let (fields, rest) ← readFlowFields fuel handles true rest
        return (.mapping p.anchor fields, rest)
      | .blockEntry :: _ =>
        if context = .field then
          let (items, rest) ← readLooseItems fuel handles ts
          return (.sequence p.anchor items, rest)
        else bare p tag ts
      | .blockSequence :: rest =>
        if context = .flow then bare p tag ts
        else
          let (items, rest) ← readItems fuel handles rest
          return (.sequence p.anchor items, rest)
      | .blockMapping :: rest =>
        if context = .flow then bare p tag ts
        else
          let (fields, rest) ← readFields fuel handles rest
          return (.mapping p.anchor fields, rest)
      | _ => bare p tag ts
where
  /-- Only an anchor or a tag, with nothing after it. -/
  bare (p : Properties) (tag : Option String) (ts : List Token) : Option (Source × List Token) :=
    if p.anchor.isSome || p.tag.isSome then some (.scalar p.anchor ⟨tag, true, ""⟩, ts) else none

def readUnless (fuel : Nat) (handles : Handles) (context : Context) (ends : List Token)
    (ts : List Token) : Option (Source × List Token) :=
  match fuel with
  | 0 => none
  | fuel + 1 => if startsWith ts ends then some (empty, ts) else readNode fuel handles context ts

def readValue (fuel : Nat) (handles : Handles) (context : Context) (ends : List Token)
    (ts : List Token) : Option (Source × List Token) :=
  match fuel, ts with
  | fuel + 1, .value :: rest => readUnless fuel handles context ends rest
  | _, ts => some (empty, ts)

def readItems (fuel : Nat) (handles : Handles) (ts : List Token) :
    Option (List Source × List Token) :=
  match fuel, ts with
  | fuel + 1, .blockEntry :: rest => do
    let (item, rest) ← readUnless fuel handles .block [.blockEntry, .blockEnd] rest
    let (items, rest) ← readItems fuel handles rest
    return (item :: items, rest)
  | _, .blockEnd :: rest => some ([], rest)
  | _, _ => none

/-- Reads the items of a sequence that is not indented against the mapping it stands in. -/
def readLooseItems (fuel : Nat) (handles : Handles) (ts : List Token) :
    Option (List Source × List Token) :=
  match fuel, ts with
  | fuel + 1, .blockEntry :: rest => do
    let (item, rest) ← readUnless fuel handles .block [.blockEntry, .key, .value, .blockEnd] rest
    let (items, rest) ← readLooseItems fuel handles rest
    return (item :: items, rest)
  | _, ts => some ([], ts)

def readFields (fuel : Nat) (handles : Handles) (ts : List Token) :
    Option (List (Source × Source) × List Token) :=
  match fuel, ts with
  | fuel + 1, .key :: rest => do
    let (key, rest) ← readUnless fuel handles .field [.key, .value, .blockEnd] rest
    let (value, rest) ← readValue fuel handles .field [.key, .value, .blockEnd] rest
    let (fields, rest) ← readFields fuel handles rest
    return ((key, value) :: fields, rest)
  | _, .blockEnd :: rest => some ([], rest)
  | _, _ => none

/-- Reads the items between brackets, with a comma in front of all but the first. A key makes a
mapping of one field. -/
def readFlowItems (fuel : Nat) (handles : Handles) (first : Bool) (ts : List Token) :
    Option (List Source × List Token) :=
  match fuel with
  | 0 => none
  | fuel + 1 => do
    if ts.head? = some .flowSequenceEnd then return ([], ts.drop 1)
    let ts ← if first then some ts
      else if ts.head? = some .flowEntry then some (ts.drop 1) else none
    match ts with
    | .flowSequenceEnd :: rest => return ([], rest)
    | .key :: rest => do
      let ends := [.flowEntry, .flowSequenceEnd]
      let (key, rest) ←
        if startsWith rest (.value :: ends) then some (empty, rest.drop 1)
        else readNode fuel handles .flow rest
      let (value, rest) ← readValue fuel handles .flow ends rest
      let (items, rest) ← readFlowItems fuel handles false rest
      return (.mapping none [(key, value)] :: items, rest)
    | ts => do
      let (item, rest) ← readNode fuel handles .flow ts
      let (items, rest) ← readFlowItems fuel handles false rest
      return (item :: items, rest)

/-- Reads the fields between braces, with a comma in front of all but the first. -/
def readFlowFields (fuel : Nat) (handles : Handles) (first : Bool) (ts : List Token) :
    Option (List (Source × Source) × List Token) :=
  match fuel with
  | 0 => none
  | fuel + 1 => do
    if ts.head? = some .flowMappingEnd then return ([], ts.drop 1)
    let ts ← if first then some ts
      else if ts.head? = some .flowEntry then some (ts.drop 1) else none
    match ts with
    | .flowMappingEnd :: rest => return ([], rest)
    | .key :: rest => do
      let ends := [.flowEntry, .flowMappingEnd]
      let (key, rest) ← readUnless fuel handles .flow (.value :: ends) rest
      let (value, rest) ← readValue fuel handles .flow ends rest
      let (fields, rest) ← readFlowFields fuel handles false rest
      return ((key, value) :: fields, rest)
    | ts => do
      let (key, rest) ← readNode fuel handles .flow ts
      let (fields, rest) ← readFlowFields fuel handles false rest
      return ((key, empty) :: fields, rest)

end

/-! ## Documents -/

/-- Reads the directives of a document and the mark after them; gives the handles. -/
def readDirectives (versioned : Bool) (handles : Handles) :
    List Token → Option (Handles × List Token)
  | .versionDirective major minor :: ts =>
    if versioned || major ≠ 1 || (minor ≠ 1 && minor ≠ 2) then none
    else readDirectives true handles ts
  | .tagDirective handle start :: ts =>
    if (handles.lookup handle).isSome then none
    else readDirectives versioned (handles ++ [(handle, start)]) ts
  | .documentStart :: ts => some (handles, ts)
  | _ => none

def isDirective : Token → Bool
  | .versionDirective _ _ => true
  | .tagDirective _ _ => true
  | _ => false

def readDocument (ts : List Token) : Option (Option Source × List Token) :=
  let fuel := 4 * ts.length + 4
  match ts with
  | [] => some (none, [])
  | t :: _ =>
    if isDirective t || t = .documentStart then do
      let (handles, ts) ← readDirectives false [] ts
      let known := handles ++ defaultHandles
      if ts.isEmpty || ts.head?.any isDirective
          || startsWith ts [.documentStart, .documentEnd] then return (some empty, ts)
      let (node, ts) ← readNode fuel known .block ts
      return (some node, ts)
    else do
      let (node, ts) ← readNode fuel defaultHandles .block ts
      return (some node, ts)

/-- The document that the tokens of a text build up, which must be the only one. -/
def ofTokens? (ts : List Token) : Option (Option Source) := do
  let (document, rest) ← readDocument ts
  if rest.all (· = .documentEnd) then return document else none

end Source

end LintLedger.Yaml
