import LintLedger.Text.Numeral

/-!
# JSON documents

The documents that the reports are made of, and their indented form: two blanks a level, one
item a line, `[]` and an empty pair of braces for what has no items. Numbers are whole.
-/

namespace LintLedger

/-- A JSON value whose records keep the order of their fields. -/
inductive Json where
  | flag (value : Bool)
  | number (value : Nat)
  | text (value : String)
  | list (items : List Json)
  | record (fields : List (String × Json))

namespace Json

def escapeChar (c : Char) : List Char :=
  match c with
  | '"' => ['\\', '"']
  | '\\' => ['\\', '\\']
  | '\x08' => ['\\', 'b']
  | '\x0c' => ['\\', 'f']
  | '\n' => ['\\', 'n']
  | '\r' => ['\\', 'r']
  | '\t' => ['\\', 't']
  | _ =>
    if c.toNat < 0x20 then ['\\', 'u', '0', '0', Text.hexDigit (c.toNat / 16),
      Text.hexDigit (c.toNat % 16)]
    else [c]

def quote (s : String) : List Char :=
  '"' :: s.toList.flatMap escapeChar ++ ['"']

def newLine (depth : Nat) : List Char :=
  '\n' :: List.replicate (2 * depth) ' '

/-- Items between brackets, one a line, or the bare brackets if there are none. -/
def bracket (opening closing : Char) (depth : Nat) (items : List (List Char)) : List Char :=
  match items with
  | [] => [opening, closing]
  | items =>
    opening :: newLine (depth + 1) ++ (',' :: newLine (depth + 1)).intercalate items
      ++ newLine depth ++ [closing]

mutual

def indented (depth : Nat) : Json → List Char
  | .flag true => "true".toList
  | .flag false => "false".toList
  | .number value => (toString value).toList
  | .text value => quote value
  | .list items => bracket '[' ']' depth (indentedItems (depth + 1) items)
  | .record fields => bracket '\x7b' '\x7d' depth (indentedFields (depth + 1) fields)

def indentedItems (depth : Nat) : List Json → List (List Char)
  | [] => []
  | item :: items => indented depth item :: indentedItems depth items

def indentedFields (depth : Nat) : List (String × Json) → List (List Char)
  | [] => []
  | (name, value) :: fields =>
    (quote name ++ ": ".toList ++ indented depth value) :: indentedFields depth fields

end

def pretty (document : Json) : String :=
  String.ofList (indented 0 document)

end Json

end LintLedger
