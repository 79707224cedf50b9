/-!
# Numerals

Numbers written in decimal or hexadecimal digits of ASCII, the most significant digit first.
-/

namespace LintLedger.Text

def hexValue? (c : Char) : Option Nat :=
  if '0' ≤ c ∧ c ≤ '9' then some (c.toNat - 0x30)
  else if 'a' ≤ c ∧ c ≤ 'f' then some (c.toNat - 0x57)
  else if 'A' ≤ c ∧ c ≤ 'F' then some (c.toNat - 0x37)
  else none

/-- The number that some hexadecimal digits give; zero for none. -/
def hexNumber? (digits : List Char) : Option Nat :=
  digits.foldlM (fun n c => (hexValue? c).map (16 * n + ·)) 0

def hexChar? (digits : List Char) : Option Char :=
  (hexNumber? digits).bind fun code => if code.isValidChar then some (Char.ofNat code) else none

/-- The digit in lower case for a number below sixteen. -/
def hexDigit (n : Nat) : Char :=
  if n < 10 then Char.ofNat (0x30 + n) else Char.ofNat (0x57 + n)

/-- The number that some decimal digits give; zero for none. -/
def decimalNumber (digits : List Char) : Nat :=
  digits.foldl (fun n c => 10 * n + (c.toNat - 0x30)) 0

end LintLedger.Text
