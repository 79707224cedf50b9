import LintLedger.Text.Numeral
import LintLedger.Yaml.Cursor

/-!
# Texts in YAML

The four ways to write a text: plain, in single or double quotes, and as an indented block. Line
ends inside the first three are folded: one becomes a blank, and of several the first is dropped.
-/

namespace LintLedger.Yaml

/-! ## Folding -/

/-- A text that is being read, with the white space after it that may yet become part of it. -/
structure Folding where
  text : List Char
  /-- The blanks after the text, while no line end came. -/
  blanks : List Char
  /-- Whether a line end came. -/
  broken : Bool
  /-- The first line end, unless it was taken away. -/
  first : List Char
  /-- The line ends after the first. -/
  others : List Char

namespace Folding

def start : Folding :=
  ⟨[], [], false, [], []⟩

def joined (f : Folding) : List Char :=
  if f.broken then
    if f.first.head? = some '\n' then f.text ++ (if f.others.isEmpty then [' '] else f.others)
    else f.text ++ f.first ++ f.others
  else f.text ++ f.blanks

def add (f : Folding) (word : List Char) : Folding :=
  if word.isEmpty then f else ⟨f.joined ++ word, [], false, [], []⟩

/-- Takes up the white space here. Where tabs would stand in the indentation, that is below the
column `tabLimit`, they are refused. -/
def space (fuel tabLimit : Nat) (f : Folding) (cur : Cursor) : Option (Folding × Cursor) :=
  match fuel, cur.rest with
  | fuel + 1, c :: _ =>
    if isBlank c then
      if f.broken && c == '\t' && cur.column < tabLimit then none
      else if f.broken then space fuel tabLimit f (cur.advance 1)
      else space fuel tabLimit { f with blanks := f.blanks ++ [c] } (cur.advance 1)
    else match cur.lineBreak? with
      | some (text, next) =>
        if f.broken then space fuel tabLimit { f with others := f.others ++ text } next
        else space fuel tabLimit { f with blanks := [], broken := true, first := text } next
      | none => some (f, cur)
  | _, _ => some (f, cur)

end Folding

/-! ## Plain texts -/

def isFlowMark (c : Char) : Bool :=
  c ∈ [',', '[', ']', '\x7b', '\x7d']

/-- Reads up to white space or to what ends a plain text. Inside brackets, a colon in front of a
delimiter is refused. -/
def plainWord (flow : Bool) : List Char → Option (List Char)
  | [] => some []
  | c :: cs =>
    if isBlank c || isBreak c then some []
    else if flow && c == ':' && cs.head?.any (fun d => isFlowMark d || d == '?') then none
    else if (c == ':' && startsBlank cs) || (flow && isFlowMark c) then some []
    else (plainWord flow cs).map (c :: ·)

/-- Reads on in a plain text, whose further lines start at the column `indent` or after it. -/
def plainFrom (fuel : Nat) (flow : Bool) (indent : Nat) (f : Folding) (cur : Cursor) :
    Option (Folding × Cursor) :=
  match fuel with
  | 0 => some (f, cur)
  | fuel + 1 =>
    if cur.atDocumentEdge || cur.rest.head? == some '#' then some (f, cur)
    else do
      let word ← plainWord flow cur.rest
      let f := f.add word
      let cur := cur.advance word.length
      if cur.rest.head?.any (fun c => isBlank c || isBreak c) then
        let (f, cur) ← f.space (cur.rest.length + 1) indent cur
        if !flow && cur.column < indent then return (f, cur)
        else plainFrom fuel flow indent f cur
      else return (f, cur)

/-! ## Quoted texts -/

def escape? : Char → Option Char
  | '0' => some '\x00'
  | 'a' => some '\x07'
  | 'b' => some '\x08'
  | 't' => some '\t'
  | '\t' => some '\t'
  | 'n' => some '\n'
  | 'v' => some '\x0b'
  | 'f' => some '\x0c'
  | 'r' => some '\r'
  | 'e' => some '\x1b'
  | ' ' => some ' '
  | '"' => some '"'
  | '/' => some '/'
  | '\\' => some '\\'
  | 'N' => some '\u0085'
  | '_' => some '\u00a0'
  | 'L' => some '\u2028'
  | 'P' => some '\u2029'
  | _ => none

def hexLength? : Char → Option Nat
  | 'x' => some 2
  | 'u' => some 4
  | 'U' => some 8
  | _ => none

def readEscape? (cs : List Char) : Option (Char × Nat) := do
  let c ← cs.head?
  match hexLength? c with
  | some n =>
    let digits := (cs.drop 1).take n
    if digits.length = n then return (← Text.hexChar? digits, n + 1) else none
  | none => return (← escape? c, 1)

inductive WordEnd where
  /-- White space, or the end of the text. -/
  | space
  | quote
  /-- A backslash at the end of a line, both of which say nothing. -/
  | continuation

def quotedWord (fuel : Nat) (single : Bool) (cur : Cursor) :
    Option (List Char × WordEnd × Cursor) :=
  match fuel, cur.rest with
  | fuel + 1, c :: cs =>
    if isBlank c || isBreak c then some ([], .space, cur)
    else if single && c == '\'' then
      if cs.head? = some '\'' then do
        let (word, stop, cur) ← quotedWord fuel single (cur.advance 2)
        return ('\'' :: word, stop, cur)
      else some ([], .quote, cur)
    else if !single && c == '"' then some ([], .quote, cur)
    else if !single && c == '\\' then
      if cs.head?.any isBreak then some ([], .continuation, (cur.advance 1).skipBreak)
      else do
        let (d, n) ← readEscape? cs
        let (word, stop, cur) ← quotedWord fuel single (cur.advance (n + 1))
        return (d :: word, stop, cur)
    else do
      let (word, stop, cur) ← quotedWord fuel single (cur.advance 1)
      return (c :: word, stop, cur)
  | _, _ => some ([], .space, cur)

def quotedFrom (fuel : Nat) (single : Bool) (f : Folding) (cur : Cursor) :
    Option (List Char × Cursor) :=
  match fuel with
  | 0 => none
  | fuel + 1 =>
    if cur.atDocumentEdge || cur.rest.isEmpty then none
    else do
      let (word, stop, cur) ← quotedWord (cur.rest.length + 1) single cur
      let text := f.text ++ word
      match stop with
      | .quote => return (text, cur.advance 1)
      | .space =>
        let (g, cur) ← Folding.space (cur.rest.length + 1) 0 ⟨text, [], false, [], []⟩ cur
        quotedFrom fuel single ⟨g.joined, [], false, [], []⟩ cur
      | .continuation =>
        let (g, cur) ← Folding.space (cur.rest.length + 1) 0 ⟨text, [], true, [], []⟩ cur
        quotedFrom fuel single ⟨g.joined, [], false, [], []⟩ cur

def readQuoted (single : Bool) (cur : Cursor) : Option (List Char × Cursor) :=
  quotedFrom (cur.rest.length + 1) single .start (cur.advance 1)

/-! ## Block texts -/

inductive Chomping where
  | strip
  | clip
  | keep

/-- The header of a block: what becomes of its end, and how far it is indented if that is said. -/
structure BlockHeader where
  chomping : Chomping
  indent : Option Nat

def chomping? : Char → Option Chomping
  | '+' => some .keep
  | '-' => some .strip
  | _ => none

/-- A digit but zero, which gives an indentation. -/
def indentDigit? (c : Char) : Option Nat :=
  if '1' ≤ c ∧ c ≤ '9' then some (c.toNat - 0x30) else none

/-- Reads the header of a block, after its mark, and the line end after it. -/
def readBlockHeader (cur : Cursor) : Option (BlockHeader × Cursor) := do
  let ends (h : BlockHeader) (cur : Cursor) := do return (h, ← cur.endLine?)
  match cur.rest with
  | [] => ends ⟨.clip, none⟩ cur
  | c :: cs =>
    match chomping? c with
    | some chomping =>
      match cs.head? with
      | some '0' => none
      | next =>
        match next.bind indentDigit? with
        | some n => ends ⟨chomping, some n⟩ (cur.advance 2)
        | none => ends ⟨chomping, none⟩ (cur.advance 1)
    | none =>
      if c = '0' then none
      else match indentDigit? c with
        | some n =>
          match cs.head?.bind chomping? with
          | some chomping => ends ⟨chomping, some n⟩ (cur.advance 2)
          | none => ends ⟨.clip, some n⟩ (cur.advance 1)
        | none => ends ⟨.clip, none⟩ cur

/-- Skips indentation and empty lines. `indent` is the indentation if it is known; `widest` is
the widest seen so far. Gives the line ends and the widest indentation. -/
def blockBreaks (fuel : Nat) (indent : Option Nat) (widest : Nat) (breaks : List Char)
    (cur : Cursor) : Option (List Char × Nat × Cursor) :=
  match fuel with
  | 0 => some (breaks, widest, cur)
  | fuel + 1 =>
    let blanks := (cur.rest.takeWhile (· == ' ')).length
    let cur := match indent with
      | some n => cur.advance (min blanks (n - cur.column))
      | none => cur.advance blanks
    let widest := max widest cur.column
    if indent.all (cur.column < ·) && cur.rest.head? == some '\t' then none
    else match cur.lineBreak? with
      | some (text, next) => blockBreaks fuel indent widest (breaks ++ text) next
      | none => some (breaks, widest, cur)

structure Block where
  text : List Char
  /-- The line end after the text. -/
  first : List Char
  /-- The line ends after that. -/
  others : List Char
  /-- Whether the last line started with a blank. -/
  blankLine : Bool

def blockLines (fuel : Nat) (folded : Bool) (indent : Nat) (b : Block) (cur : Cursor) :
    Option (Block × Cursor) :=
  match fuel with
  | 0 => some (b, cur)
  | fuel + 1 =>
    if cur.column = indent ∧ !cur.rest.isEmpty then do
      let blank := cur.rest.head?.any isBlank
      let between :=
        if folded && b.first.head? == some '\n' && !b.blankLine && !blank then
          (if b.others.isEmpty then [' '] else [])
        else b.first
      let line := cur.rest.takeWhile (!isBreak ·)
      let text := b.text ++ between ++ b.others ++ line
      let cur := cur.advance line.length
      let (first, cur) := match cur.lineBreak? with
        | some (first, next) => (first, next)
        | none => ([], cur)
      let (others, _, cur) ← blockBreaks (cur.rest.length + 1) (some indent) 0 [] cur
      blockLines fuel folded indent ⟨text, first, others, blank⟩ cur
    else some (b, cur)

/-- Reads a block, its mark included. `parent` is the column of the collection it stands in, plus
one. -/
def readBlock (folded : Bool) (parent : Nat) (cur : Cursor) : Option (List Char × Cursor) := do
  let (header, cur) ← readBlockHeader (cur.advance 1)
  let given := header.indent.map fun n => (parent - 1) + n
  let (breaks, widest, cur) ← blockBreaks (cur.rest.length + 1) given 0 [] cur
  let indent := given.getD (max 1 (max widest parent))
  let (b, cur) ← blockLines (cur.rest.length + 1) folded indent ⟨[], [], breaks, false⟩ cur
  let text := match header.chomping with
    | .strip => b.text
    | .clip => b.text ++ b.first
    | .keep => b.text ++ b.first ++ b.others
  return (text, cur)

end LintLedger.Yaml
