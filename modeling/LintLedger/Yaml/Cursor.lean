/-!
# Places in a YAML text

A cursor is what is left of a text, and where that stands: how many characters into the text, and
on which line and column. Five characters, and one pair of them, end a line.
-/

namespace LintLedger.Yaml

/-! ## Classes of characters -/

def isPrintable (c : Char) : Bool :=
  let n := c.toNat
  c == '\t' || c == '\n' || c == '\r' || (0x20 ≤ n && n ≤ 0x7e) || n == 0x85
    || (0xa0 ≤ n && n ≤ 0xfffd) || 0x10000 ≤ n

def isBlank (c : Char) : Bool :=
  c == ' ' || c == '\t'

def isBreak (c : Char) : Bool :=
  c == '\n' || c == '\r' || c == '\u0085' || c == '\u2028' || c == '\u2029'

def isNameChar (c : Char) : Bool :=
  c.isAlphanum || c == '-' || c == '_'

def startsBlank : List Char → Bool
  | [] => true
  | c :: _ => isBlank c || isBreak c

/-! ## Cursors -/

structure Cursor where
  rest : List Char
  index : Nat
  line : Nat
  column : Nat

namespace Cursor

def start (cs : List Char) : Cursor :=
  ⟨cs, 0, 0, 0⟩

def advance (cur : Cursor) (n : Nat) : Cursor :=
  ⟨cur.rest.drop n, cur.index + n, cur.line, cur.column + n⟩

def skipWhile (cur : Cursor) (p : Char → Bool) : Cursor :=
  cur.advance (cur.rest.takeWhile p).length

/-- Goes on over a line end; gives the characters that stand for it in a text. -/
def lineBreak? (cur : Cursor) : Option (List Char × Cursor) :=
  match cur.rest with
  | '\r' :: '\n' :: cs => some (['\n'], ⟨cs, cur.index + 2, cur.line + 1, 0⟩)
  | c :: cs =>
    if isBreak c then
      let text := if c == '\u2028' || c == '\u2029' then [c] else ['\n']
      some (text, ⟨cs, cur.index + 1, cur.line + 1, 0⟩)
    else none
  | [] => none

def skipBreak (cur : Cursor) : Cursor :=
  match cur.lineBreak? with
  | some (_, next) => next
  | none => cur

def skipComment (cur : Cursor) : Cursor :=
  if cur.rest.head? = some '#' then cur.skipWhile (!isBreak ·) else cur

/-- Whether three characters that separate documents stand here. -/
def atSeparator (cur : Cursor) (mark : Char) : Bool :=
  cur.column == 0 && [mark, mark, mark].isPrefixOf cur.rest && startsBlank (cur.rest.drop 3)

def atDocumentEdge (cur : Cursor) : Bool :=
  cur.atSeparator '-' || cur.atSeparator '.'

/-- Skips blanks and a comment up to a line end, which it goes over. -/
def endLine? (cur : Cursor) : Option Cursor :=
  let cur := (cur.skipWhile isBlank).skipComment
  match cur.rest with
  | [] => some cur
  | c :: _ => if isBreak c then some cur.skipBreak else none

end Cursor

end LintLedger.Yaml
