import LintLedger.Yaml.Name

/-!
# Reading tokens

Tokens are read from left to right. Collections that are shown by indentation start where a mark
stands further right than the collection around it, and end where something stands further left.
That a text is a key is only known at the colon after it, so the tokens for its being a key are
put in front of it then; this is possible only on one line and for a limited length.
-/

namespace LintLedger.Yaml

/-- Something that would be a key if a colon followed. -/
structure KeyPlace where
  /-- How many tokens stand in front of it. -/
  token : Nat
  line : Nat
  index : Nat
  column : Nat
  /-- Whether nothing but a key can stand here. -/
  required : Bool

/-- The state of the reading. Columns of collections are counted from one; zero stands for the
text as a whole. -/
structure Lexer where
  cursor : Cursor
  /-- The tokens so far, last first. -/
  tokens : List Token
  /-- The column of the innermost collection shown by indentation. -/
  indent : Nat
  /-- The columns of the collections around it. -/
  outer : List Nat
  /-- For every open bracket, and for the text as a whole, what may be a key there. -/
  keys : List (Option KeyPlace)
  /-- Whether a key may stand here without a mark. -/
  keyAllowed : Bool

namespace Lexer

def start (cs : List Char) : Lexer :=
  ⟨.start cs, [], 0, [], [none], true⟩

def inFlow (lx : Lexer) : Bool :=
  1 < lx.keys.length

def push (lx : Lexer) (t : Token) : Lexer :=
  { lx with tokens := t :: lx.tokens }

def insertAt (lx : Lexer) (n : Nat) (t : Token) : Lexer :=
  let after := lx.tokens.length - n
  { lx with tokens := lx.tokens.take after ++ t :: lx.tokens.drop after }

/-! ## Keys -/

/-- How long a key without a mark can be. -/
def keyLimit : Nat := 1024

def dropStale (lx : Lexer) : Option Lexer := do
  let keys ← lx.keys.mapM fun place? =>
    match place? with
    | none => some none
    | some place =>
      if place.line < lx.cursor.line || place.index + keyLimit < lx.cursor.index then
        if place.required then none else some none
      else some (some place)
  return { lx with keys := keys }

def dropKey (lx : Lexer) : Option Lexer :=
  match lx.keys with
  | some place :: keys => if place.required then none else some { lx with keys := none :: keys }
  | _ => some lx

def noteKey (lx : Lexer) : Option Lexer := do
  if lx.keyAllowed then
    let cur := lx.cursor
    let required := !lx.inFlow && lx.indent == cur.column + 1
    let place := KeyPlace.mk lx.tokens.length cur.line cur.index cur.column required
    let lx ← lx.dropKey
    return { lx with keys := some place :: lx.keys.drop 1 }
  else return lx

/-! ## Indentation -/

/-- Opens a collection at a column, if that is further right, behind the first `n` tokens. -/
def indentTo (lx : Lexer) (column n : Nat) (t : Token) : Lexer :=
  if !lx.inFlow && lx.indent < column + 1 then
    { (lx.insertAt n t) with indent := column + 1, outer := lx.indent :: lx.outer }
  else lx

/-- Closes collections whose column, counted from one, lies right of `limit`. The list of outer
columns bounds their number. -/
def closeTo (limit indent : Nat) : List Nat → List Token → Nat × List Nat × List Token
  | [], tokens => (indent, [], tokens)
  | next :: outer, tokens =>
    if limit < indent then closeTo limit next outer (.blockEnd :: tokens)
    else (indent, next :: outer, tokens)

def unindentTo (lx : Lexer) (limit : Nat) : Lexer :=
  if lx.inFlow then lx
  else
    let (indent, outer, tokens) := closeTo limit lx.indent lx.outer lx.tokens
    { lx with indent := indent, outer := outer, tokens := tokens }

/-! ## Between tokens -/

/-- Skips blanks, comments and line ends up to the next token. Tabs only separate tokens where
they could not be indentation. A byte order mark in front of everything is skipped like a blank,
so it takes up a column. -/
def skipSpace (fuel : Nat) (lx : Lexer) : Lexer :=
  match fuel with
  | 0 => lx
  | fuel + 1 =>
    let cur := if lx.cursor.index = 0 ∧ lx.cursor.rest.head? = some '\ufeff'
      then lx.cursor.advance 1 else lx.cursor
    let tabs := lx.inFlow || !lx.keyAllowed
    let cur := (cur.skipWhile fun c => c == ' ' || (tabs && c == '\t')).skipComment
    match cur.lineBreak? with
    | some (_, next) =>
      skipSpace fuel { lx with cursor := next, keyAllowed := lx.keyAllowed || !lx.inFlow }
    | none => { lx with cursor := cur }

/-! ## Single tokens -/

def moved (lx : Lexer) (cur : Cursor) : Lexer :=
  { lx with cursor := cur }

def mark (lx : Lexer) (n : Nat) (t : Token) : Lexer :=
  (lx.push t).moved (lx.cursor.advance n)

def atEdge (lx : Lexer) : Option Lexer := do
  return { (← (lx.unindentTo 0).dropKey) with keyAllowed := false }

def openBracket (lx : Lexer) (t : Token) : Option Lexer := do
  let lx ← lx.noteKey
  return { (lx.mark 1 t) with keys := none :: lx.keys, keyAllowed := true }

def closeBracket (lx : Lexer) (t : Token) : Option Lexer := do
  let lx ← lx.dropKey
  let keys := if lx.inFlow then lx.keys.drop 1 else lx.keys
  return { (lx.mark 1 t) with keys := keys, keyAllowed := false }

def comma (lx : Lexer) : Option Lexer := do
  return { ((← lx.dropKey).mark 1 .flowEntry) with keyAllowed := true }

def dash (lx : Lexer) : Option Lexer := do
  if !lx.inFlow && !lx.keyAllowed then none
  else
    let lx := lx.indentTo lx.cursor.column lx.tokens.length .blockSequence
    return { ((← lx.dropKey).mark 1 .blockEntry) with keyAllowed := true }

def questionMark (lx : Lexer) : Option Lexer := do
  if !lx.inFlow && !lx.keyAllowed then none
  else
    let lx := lx.indentTo lx.cursor.column lx.tokens.length .blockMapping
    return { ((← lx.dropKey).mark 1 .key) with keyAllowed := !lx.inFlow }

def colon (lx : Lexer) : Option Lexer :=
  match lx.keys with
  | some place :: keys =>
    let lx := (lx.insertAt place.token .key).indentTo place.column place.token .blockMapping
    some { (lx.mark 1 .value) with keys := none :: keys, keyAllowed := false }
  | _ =>
    if !lx.inFlow && !lx.keyAllowed then none
    else
      let lx := lx.indentTo lx.cursor.column lx.tokens.length .blockMapping
      some { (lx.mark 1 .value) with keyAllowed := !lx.inFlow }

/-- Adds a token that may be a key, given what is read and where the cursor is then. -/
def named (lx : Lexer) (read : Cursor → Option (Token × Cursor)) : Option Lexer := do
  let lx ← lx.noteKey
  let (t, cur) ← read lx.cursor
  return { ((lx.push t).moved cur) with keyAllowed := false }

def blockText (lx : Lexer) (folded : Bool) : Option Lexer := do
  let lx ← lx.dropKey
  let (text, cur) ← readBlock folded lx.indent lx.cursor
  return { ((lx.push (.scalar false (String.ofList text))).moved cur) with keyAllowed := true }

def plainText (lx : Lexer) : Option Lexer := do
  let lx ← lx.noteKey
  let (f, cur) ← plainFrom (lx.cursor.rest.length + 1) lx.inFlow lx.indent .start lx.cursor
  return { ((lx.push (.scalar true (String.ofList f.text))).moved cur) with keyAllowed := f.broken }

/-- Whether a plain text can start with a character, given what follows it. -/
def startsPlain (flow : Bool) (c : Char) (cs : List Char) : Bool :=
  let free := !(isBlank c || isBreak c) && c ∉ ['-', '?', ':', ',', '[', ']', '\x7b', '\x7d', '#',
    '&', '*', '!', '|', '>', '\'', '"', '%', '@', '`']
  free || (c == '-' && !cs.head?.any isBlank)
    || (!flow && (c == '?' || c == ':') && !startsBlank cs)

/-- Reads the token at the cursor, which is not at the end. -/
def token (lx : Lexer) (c : Char) (cs : List Char) : Option Lexer :=
  let cur := lx.cursor
  let followed := startsBlank cs
  if cur.column = 0 ∧ c = '%' then do
    let lx ← lx.atEdge
    let (t, cur) ← readDirective lx.cursor
    return (lx.push t).moved cur
  else if cur.atSeparator '-' then do return (← lx.atEdge).mark 3 .documentStart
  else if cur.atSeparator '.' then do return (← lx.atEdge).mark 3 .documentEnd
  else if c = '[' then lx.openBracket .flowSequence
  else if c = '\x7b' then lx.openBracket .flowMapping
  else if c = ']' then lx.closeBracket .flowSequenceEnd
  else if c = '\x7d' then lx.closeBracket .flowMappingEnd
  else if c = ',' then lx.comma
  else if c = '-' ∧ followed then lx.dash
  else if c = '?' ∧ (lx.inFlow || followed) then lx.questionMark
  else if c = ':' ∧ (lx.inFlow || followed) then lx.colon
  else if c = '*' then
    lx.named fun cur => (readAnchor cur).map fun (name, next) => (.alias name, next)
  else if c = '&' then
    lx.named fun cur => (readAnchor cur).map fun (name, next) => (.anchor name, next)
  else if c = '!' then
    lx.named fun cur => (readTag lx.inFlow cur).map fun (tag, next) => (.tag tag, next)
  else if c = '|' ∧ !lx.inFlow then lx.blockText false
  else if c = '>' ∧ !lx.inFlow then lx.blockText true
  else if c = '\'' ∨ c = '"' then
    lx.named fun cur => (readQuoted (c == '\'') cur).map fun (text, next) =>
      (.scalar false (String.ofList text), next)
  else if startsPlain lx.inFlow c cs then lx.plainText
  else none

def readOn (fuel : Nat) (lx : Lexer) : Option (List Token) :=
  match fuel with
  | 0 => none
  | fuel + 1 => do
    let lx ← (lx.skipSpace (lx.cursor.rest.length + 1)).dropStale
    let lx := lx.unindentTo (lx.cursor.column + 1)
    match lx.cursor.rest with
    | [] => return (← lx.atEdge).tokens.reverse
    | c :: cs => do readOn fuel (← lx.token c cs)

end Lexer

def tokens? (text : String) : Option (List Token) :=
  let cs := text.toList
  if cs.all isPrintable then Lexer.readOn (cs.length + 2) (.start cs) else none

end LintLedger.Yaml
