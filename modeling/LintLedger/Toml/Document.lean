import LintLedger.Toml.Quoted
import LintLedger.Toml.Scalar
import LintLedger.Toml.Table

/-!
# TOML documents

A document is a list of statements, one a line: headers that open tables, and keys with their
values. Each statement is read and carried out at once; the document is valid if every one is.
-/

namespace LintLedger.Toml

/-! ## Blanks and comments -/

def skipBlanks (cs : List Char) : List Char :=
  cs.dropWhile fun c => c == ' ' || c == '\t'

def readComment (cs : List Char) : Option (List Char) :=
  let rest := cs.dropWhile (!isControl ·)
  match rest with
  | [] => some []
  | '\n' :: _ => some rest
  | '\r' :: '\n' :: _ => some rest
  | _ => none

/-- Reads what may follow a statement: blanks, a comment, and the line end or the end. -/
def readLineEnd (cs : List Char) : Option (List Char) := do
  let rest ← match skipBlanks cs with
    | '#' :: cs => readComment cs
    | cs => some cs
  match rest with
  | [] => some []
  | '\n' :: cs => some cs
  | '\r' :: '\n' :: cs => some cs
  | _ => none

/-- Skips some line ends and comments with the blanks before them, and the blanks after them. -/
def skipLinesFrom (fuel : Nat) (cs : List Char) : Option (List Char) :=
  match fuel, skipBlanks cs with
  | fuel + 1, '\n' :: cs => skipLinesFrom fuel cs
  | fuel + 1, '\r' :: '\n' :: cs => skipLinesFrom fuel cs
  | fuel + 1, '#' :: cs => do skipLinesFrom fuel (← readComment cs)
  | _, cs => some cs

def skipLines (cs : List Char) : Option (List Char) :=
  skipLinesFrom cs.length cs

/-- How many brackets and braces can be open at once, and how many parts a key can have. -/
def nestingLimit : Nat := 80

/-! ## Keys -/

def isBareChar (c : Char) : Bool :=
  c.isAlphanum || c == '-' || c == '_'

def readKeyPart (cs : List Char) : Option (String × List Char) :=
  match cs with
  | '"' :: cs => (readBasic cs).map fun (text, rest) => (String.ofList text, rest)
  | '\'' :: cs => (readLiteral cs).map fun (text, rest) => (String.ofList text, rest)
  | cs =>
    let bare := cs.takeWhile isBareChar
    if bare.isEmpty then none else some (String.ofList bare, cs.dropWhile isBareChar)

/-- Reads the parts of a key, at most as many as the fuel, with dots between them, and the blanks
after it. -/
def readKeyParts (fuel : Nat) (cs : List Char) : Option (List String × List Char) :=
  match fuel with
  | 0 => none
  | fuel + 1 => do
    let (part, rest) ← readKeyPart (skipBlanks cs)
    match skipBlanks rest with
    | '.' :: rest => do
      let (parts, rest) ← readKeyParts fuel rest
      return (part :: parts, rest)
    | rest => return ([part], rest)

def readKey (cs : List Char) : Option (List String × List Char) :=
  readKeyParts nestingLimit cs

/-! ## Values -/

mutual

/-- Reads a value inside `depth` brackets and braces. The fuel bounds the brackets and items to
come. -/
def readValue (fuel depth : Nat) (cs : List Char) : Option (Value × List Char) :=
  match fuel with
  | 0 => none
  | fuel + 1 =>
    match cs with
    | '[' :: cs =>
      if depth < nestingLimit then do return (.other, ← readItems fuel (depth + 1) cs) else none
    | '\x7b' :: cs =>
      if depth < nestingLimit then do return (.other, ← readFields fuel (depth + 1) [] cs) else none
    | cs =>
      match cs.head? with
      | some '"' => (readQuoted cs).map fun (text, rest) => (.text (String.ofList text), rest)
      | some '\'' => (readQuoted cs).map fun (text, rest) => (.text (String.ofList text), rest)
      | _ => (readScalar cs).map fun rest => (.other, rest)

/-- Reads the items of an array up to its closing bracket; a comma may follow the last. -/
def readItems (fuel depth : Nat) (cs : List Char) : Option (List Char) :=
  match fuel with
  | 0 => none
  | fuel + 1 => do
    match ← skipLines cs with
    | ']' :: rest => return rest
    | cs =>
      let (_, rest) ← readValue fuel depth cs
      match ← skipLines rest with
      | ']' :: rest => return rest
      | ',' :: rest => readItems fuel depth rest
      | _ => none

/-- Reads the fields of a table up to its closing brace; a comma may follow the last. Only the
parts of a key have to stand on one line. -/
def readFields (fuel depth : Nat) (t : Entries) (cs : List Char) : Option (List Char) :=
  match fuel with
  | 0 => none
  | fuel + 1 => do
    match ← skipLines cs with
    | '\x7d' :: rest => return rest
    | cs =>
      let (key, rest) ← readKey cs
      match ← skipLines rest with
      | '=' :: rest =>
        let (v, rest) ← readValue fuel depth (← skipLines rest)
        let t ← t.assign v key
        match ← skipLines rest with
        | '\x7d' :: rest => return rest
        | ',' :: rest => readFields fuel depth t rest
        | _ => none
      | _ => none

end

/-! ## Statements -/

/-- The tables so far, and the path of the table that keys belong to. -/
structure State where
  root : Entries
  current : List String

def readHeader (st : State) (closing : List Char) (add : String → Entries → Option Entries)
    (cs : List Char) : Option (State × List Char) := do
  let (key, rest) ← readKey cs
  let name ← key.getLast?
  let rest ← if closing.isPrefixOf rest then some (rest.drop closing.length) else none
  return (⟨← st.root.changeAt (add name) key.dropLast, key⟩, rest)

def readSetting (st : State) (cs : List Char) : Option (State × List Char) := do
  let (key, rest) ← readKey cs
  match rest with
  | '=' :: rest => do
    let (v, rest) ← readValue (2 * rest.length + 2) 0 (skipBlanks rest)
    return ({ st with root := ← st.root.changeAt (Entries.assign v key) st.current }, rest)
  | _ => none

def readStatement (st : State) (cs : List Char) : Option (State × List Char) :=
  match cs with
  | [] => some (st, cs)
  | '\n' :: _ => some (st, cs)
  | '\r' :: _ => some (st, cs)
  | '#' :: _ => some (st, cs)
  | '[' :: '[' :: cs => readHeader st [']', ']'] Entries.openShared cs
  | '[' :: cs => readHeader st [']'] Entries.openTable cs
  | cs => readSetting st cs

def readLines (fuel : Nat) (st : State) (cs : List Char) : Option Entries :=
  match fuel, cs with
  | _, [] => some st.root
  | 0, _ => none
  | fuel + 1, cs => do
    let (st, rest) ← readStatement st (skipBlanks cs)
    readLines fuel st (← readLineEnd rest)

/-- The entries of a document, if it is valid. A byte order mark may stand in front. -/
def read (text : String) : Option Entries :=
  let cs := match text.toList with
    | '\ufeff' :: cs => cs
    | cs => cs
  readLines (cs.length + 1) ⟨[], []⟩ cs

end LintLedger.Toml
