import LintLedger.Pattern.Expr
import LintLedger.Pattern.Fault

/-!
# Escapes

What a backslash and the character after it stand for.
-/

namespace LintLedger.Pattern

inductive Escape where
  | char (c : Char)
  | set (s : CharSet)
  | anchor (a : Anchor)

namespace Escape

def set? : Char → Option CharSet
  | 'd' => some .digit
  | 'D' => some (.compl .digit)
  | 's' => some .blank
  | 'S' => some (.compl .blank)
  | 'w' => some .word
  | 'W' => some (.compl .word)
  | _ => none

def control? : Char → Option Char
  | 'a' => some '\x07'
  | 'f' => some '\x0c'
  | 'n' => some '\n'
  | 'r' => some '\r'
  | 't' => some '\t'
  | 'v' => some '\x0b'
  | _ => none

def anchor? : Char → Option Anchor
  | 'A' => some .textStart
  | 'z' => some .textEnd
  | 'b' => some .wordEdge
  | 'B' => some .wordInside
  | '<' => some .wordStart
  | '>' => some .wordEnd
  | _ => none

/-- The escape of a character. Punctuation stands for itself; digits would refer back. -/
def ofChar (c : Char) : Except Fault Escape :=
  match set? c, control? c, anchor? c with
  | some s, _, _ => .ok (.set s)
  | _, some d, _ => .ok (.char d)
  | _, _, some a => .ok (.anchor a)
  | _, _, _ =>
    if c.isDigit then .error .backReference
    else if c.toNat < 0x80 && !c.isAlpha then .ok (.char c)
    else .error .escapeUnknown

end Escape

end LintLedger.Pattern
