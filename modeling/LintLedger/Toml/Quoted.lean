import LintLedger.Text.Numeral

/-!
# Quoted texts of TOML

Basic texts stand between double quotes and know escapes; literal texts stand between single
quotes and mean what they say. Three quotes in a row open a text of several lines. Every reader
starts after the opening quotes and gives the text and what follows the closing ones.
-/

namespace LintLedger.Toml

def andText (c : Char) (r : Option (List Char × List Char)) : Option (List Char × List Char) :=
  r.map fun (text, rest) => (c :: text, rest)

/-- Whether a character must not stand in a text of one line or in a comment. -/
def isControl (c : Char) : Bool :=
  (c.toNat < 0x20 && c != '\t') || c == '\x7f'

def escape? : Char → Option Char
  | 'b' => some '\x08'
  | 'e' => some '\x1b'
  | 't' => some '\t'
  | 'n' => some '\n'
  | 'f' => some '\x0c'
  | 'r' => some '\r'
  | '"' => some '"'
  | '\\' => some '\\'
  | _ => none

def readBasic : List Char → Option (List Char × List Char)
  | [] => none
  | '"' :: cs => some ([], cs)
  | '\\' :: 'x' :: a :: b :: cs => do andText (← Text.hexChar? [a, b]) (readBasic cs)
  | '\\' :: 'u' :: a :: b :: c :: d :: cs => do andText (← Text.hexChar? [a, b, c, d]) (readBasic cs)
  | '\\' :: 'U' :: a :: b :: c :: d :: e :: f :: g :: h :: cs => do
    andText (← Text.hexChar? [a, b, c, d, e, f, g, h]) (readBasic cs)
  | '\\' :: c :: cs => do andText (← escape? c) (readBasic cs)
  | c :: cs => if isControl c then none else andText c (readBasic cs)

def readLiteral : List Char → Option (List Char × List Char)
  | [] => none
  | '\'' :: cs => some ([], cs)
  | c :: cs => if isControl c then none else andText c (readLiteral cs)

def atLineEnd (cs : List Char) : Bool :=
  match cs.dropWhile fun c => c == ' ' || c == '\t' with
  | '\n' :: _ => true
  | '\r' :: '\n' :: _ => true
  | _ => false

/-- The end of a text of several lines, after three closing quotes: up to two more belong to the
text. -/
def closeLong (quote : Char) (cs : List Char) : List Char × List Char :=
  let extra := (cs.takeWhile (· == quote)).length.min 2
  (cs.take extra, cs.drop extra)

/-- Reads a basic text of several lines. `skipping` says that a backslash at the end of a line
takes away white space here. -/
def readLongBasic (skipping : Bool) : List Char → Option (List Char × List Char)
  | [] => none
  | '"' :: '"' :: '"' :: cs => some (closeLong '"' cs)
  | '\\' :: 'x' :: a :: b :: cs => do andText (← Text.hexChar? [a, b]) (readLongBasic false cs)
  | '\\' :: 'u' :: a :: b :: c :: d :: cs => do
    andText (← Text.hexChar? [a, b, c, d]) (readLongBasic false cs)
  | '\\' :: 'U' :: a :: b :: c :: d :: e :: f :: g :: h :: cs => do
    andText (← Text.hexChar? [a, b, c, d, e, f, g, h]) (readLongBasic false cs)
  | '\r' :: '\n' :: cs =>
    if skipping then readLongBasic true cs
    else andText '\r' (andText '\n' (readLongBasic false cs))
  | '\\' :: c :: cs =>
    if atLineEnd (c :: cs) then readLongBasic true (c :: cs)
    else do andText (← escape? c) (readLongBasic false cs)
  | c :: cs =>
    if skipping && (c == ' ' || c == '\t' || c == '\n') then readLongBasic true cs
    else if isControl c && c != '\n' then none
    else andText c (readLongBasic false cs)

def readLongLiteral : List Char → Option (List Char × List Char)
  | [] => none
  | '\'' :: '\'' :: '\'' :: cs => some (closeLong '\'' cs)
  | '\r' :: '\n' :: cs => andText '\r' (andText '\n' (readLongLiteral cs))
  | c :: cs => if isControl c && c != '\n' then none else andText c (readLongLiteral cs)

def dropLineEnd : List Char → List Char
  | '\n' :: cs => cs
  | '\r' :: '\n' :: cs => cs
  | cs => cs

def readQuoted : List Char → Option (List Char × List Char)
  | '"' :: '"' :: '"' :: cs => readLongBasic false (dropLineEnd cs)
  | '"' :: cs => readBasic cs
  | '\'' :: '\'' :: '\'' :: cs => readLongLiteral (dropLineEnd cs)
  | '\'' :: cs => readLiteral cs
  | _ => none

end LintLedger.Toml
