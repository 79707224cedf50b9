import LintLedger.Yaml.Cursor
import LintLedger.Yaml.Scalar
import LintLedger.Yaml.Token

/-!
# Anchors, tags and directives

The names that can be given to parts of a YAML text, the tags that say what they are, and the
directives in front of a document. Every reader starts at the mark of what it reads.
-/

namespace LintLedger.Yaml

/-! ## Anchors -/

def readAnchor (cur : Cursor) : Option (String × Cursor) :=
  let cur := cur.advance 1
  let name := cur.rest.takeWhile isNameChar
  let next := cur.advance name.length
  let fits := startsBlank next.rest
    || next.rest.head?.any (· ∈ ['?', ':', ',', ']', '\x7d', '%', '@', '`'])
  if !name.isEmpty && fits then some (String.ofList name, next) else none

/-! ## Tags -/

def isUriChar (verbatim : Bool) (c : Char) : Bool :=
  isNameChar c || c ∈ [';', '/', '?', ':', '@', '&', '=', '+', '$', '.', '!', '~', '*', '\'',
    '(', ')'] || (verbatim && c ∈ [',', '[', ']'])

/-- How many bytes a character has that starts with this one. -/
def utf8Width? (byte : Nat) : Option Nat :=
  if byte < 0x80 then some 1
  else if 0xc0 ≤ byte ∧ byte < 0xe0 then some 2
  else if 0xe0 ≤ byte ∧ byte < 0xf0 then some 3
  else if 0xf0 ≤ byte ∧ byte < 0xf8 then some 4
  else none

/-- Reads `n` bytes written as percent signs and two digits each. -/
def readPercents (n : Nat) (cs : List Char) : Option (List Nat × List Char) :=
  match n, cs with
  | 0, cs => some ([], cs)
  | n + 1, '%' :: a :: b :: cs => do
    let byte ← Text.hexNumber? [a, b]
    let (bytes, rest) ← readPercents n cs
    return (byte :: bytes, rest)
  | _, _ => none

/-- Reads a character written byte by byte with percent signs. The bytes after the first have to
be such as continue a character; each byte is kept as a character of its own. -/
def readEncoded (cs : List Char) : Option (List Char × List Char) := do
  let ([first], _) ← readPercents 1 cs | none
  let (bytes, rest) ← readPercents (← utf8Width? first) cs
  if (bytes.drop 1).all fun byte => 0x80 ≤ byte && byte < 0xc0 then
    return (bytes.map Char.ofNat, rest)
  else none

def readUri (fuel : Nat) (verbatim : Bool) (cs : List Char) : Option (List Char × List Char) :=
  match fuel, cs with
  | fuel + 1, '%' :: _ => do
    let (text, rest) ← readEncoded cs
    let (more, rest) ← readUri fuel verbatim rest
    return (text ++ more, rest)
  | fuel + 1, c :: rest =>
    if isUriChar verbatim c then do
      let (more, rest) ← readUri fuel verbatim rest
      return (c :: more, rest)
    else some ([], cs)
  | _, _ => some ([], cs)

/-- Goes on over a tag; it may be empty only if something stands in front of it. What follows a
zero byte is not kept. -/
def uriFrom (verbatim emptyFits : Bool) (cur : Cursor) : Option (String × Cursor) := do
  let (text, rest) ← readUri (cur.rest.length + 1) verbatim cur.rest
  if text.isEmpty && !emptyFits then none
  else return (String.ofList (text.takeWhile (· ≠ '\x00')),
    cur.advance (cur.rest.length - rest.length))

/-- Reads a handle: an exclamation mark, a name, and another mark if there is one. -/
def readHandle (cur : Cursor) : Option (String × Cursor) :=
  match cur.rest with
  | '!' :: cs =>
    let name := cs.takeWhile isNameChar
    match cs.dropWhile isNameChar with
    | '!' :: _ => some (String.ofList ('!' :: name ++ ['!']), cur.advance (name.length + 2))
    | _ => some (String.ofList ('!' :: name), cur.advance (name.length + 1))
  | _ => none

/-- Whether a handle is more than its first mark and ends with one. -/
def isClosedHandle (handle : String) : Bool :=
  2 ≤ handle.length && handle.toList.getLast? == some '!'

/-- Reads a tag; inside brackets a comma may end it. -/
def readTag (flow : Bool) (cur : Cursor) : Option (TagText × Cursor) := do
  let (tag, cur) ←
    if (cur.rest.drop 1).head? = some '<' then do
      let (suffix, cur) ← uriFrom true false (cur.advance 2)
      if cur.rest.head? = some '>' then some (⟨"", suffix⟩, cur.advance 1) else none
    else do
      let (handle, cur) ← readHandle cur
      if isClosedHandle handle then do
        let (suffix, cur) ← uriFrom false false cur
        some (⟨handle, suffix⟩, cur)
      else do
        let (more, cur) ← uriFrom false true cur
        let suffix := String.ofList (handle.toList.drop 1) ++ more
        some (if suffix = "" then ⟨"", "!"⟩ else ⟨"!", suffix⟩, cur)
  if startsBlank cur.rest || (flow && cur.rest.head? == some ',') then return (tag, cur) else none

/-! ## Directives -/

def readNumber (cur : Cursor) : Option (Nat × Cursor) :=
  let digits := cur.rest.takeWhile Char.isDigit
  if digits.isEmpty || 9 < digits.length then none
  else some (Text.decimalNumber digits, cur.advance digits.length)

def readVersion (cur : Cursor) : Option (Token × Cursor) := do
  let (major, cur) ← readNumber (cur.skipWhile isBlank)
  if cur.rest.head? = some '.' then do
    let (minor, cur) ← readNumber (cur.advance 1)
    return (.versionDirective major minor, cur)
  else none

def readTagDirective (cur : Cursor) : Option (Token × Cursor) := do
  let (handle, cur) ← readHandle (cur.skipWhile isBlank)
  if handle = "!" ∨ isClosedHandle handle then
    if cur.rest.head?.any isBlank then do
      let (start, cur) ← uriFrom true false (cur.skipWhile isBlank)
      if startsBlank cur.rest then return (.tagDirective handle start, cur) else none
    else none
  else none

def readDirective (cur : Cursor) : Option (Token × Cursor) := do
  let cur := cur.advance 1
  let name := cur.rest.takeWhile isNameChar
  let cur := cur.advance name.length
  let (token, cur) ←
    if !startsBlank cur.rest then none
    else if name = "YAML".toList then readVersion cur
    else if name = "TAG".toList then readTagDirective cur
    else none
  return (token, ← cur.endLine?)

end LintLedger.Yaml
