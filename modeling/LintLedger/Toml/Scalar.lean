import LintLedger.Text.Numeral

/-!
# Numbers, truth values and moments of TOML

Which words are scalars. Nothing is made of their values, but numbers have bounds: whole numbers
fit in 128 bits, with a sign or without, and others round to a finite double.
-/

namespace LintLedger.Toml

/-- Some digits with single underscores between them. -/
def isDigits (isDigit : Char → Bool) (cs : List Char) : Bool :=
  (cs.splitOn '_').all fun group => !group.isEmpty && group.all isDigit

def isDecimal (cs : List Char) : Bool :=
  isDigits Char.isDigit cs && (cs.length == 1 || cs.head? != some '0')

def unsigned : List Char → List Char
  | '+' :: cs => cs
  | '-' :: cs => cs
  | cs => cs

/-- The number that digits give in a base of up to sixteen; underscores do not count. -/
def magnitude (base : Nat) (digits : List Char) : Nat :=
  (digits.filter (· ≠ '_')).foldl (fun n c => base * n + (Text.hexValue? c).getD 0) 0

/-- The largest whole number without a sign in front is one less. -/
def wholeBound : Nat := Nat.pow 2 128

def negativeBound : Nat := Nat.pow 2 127

def isInteger (cs : List Char) : Bool :=
  match cs with
  | '0' :: 'x' :: ds =>
    isDigits (fun c => (Text.hexValue? c).isSome) ds && magnitude 16 ds < wholeBound
  | '0' :: 'o' :: ds => isDigits (fun c => '0' ≤ c && c ≤ '7') ds && magnitude 8 ds < wholeBound
  | '0' :: 'b' :: ds => isDigits (fun c => c == '0' || c == '1') ds && magnitude 2 ds < wholeBound
  | '-' :: ds => isDecimal ds && magnitude 10 ds ≤ negativeBound
  | _ =>
    let ds := unsigned cs
    isDecimal ds && magnitude 10 ds < wholeBound

def isExponent (cs : List Char) : Bool :=
  isDigits Char.isDigit (unsigned cs)

def isExponentMark (c : Char) : Bool :=
  c == 'e' || c == 'E'

def exponentValue (cs : List Char) : Int :=
  match cs with
  | '-' :: ds => -magnitude 10 ds
  | ds => magnitude 10 (unsigned ds)

/-- The least number that no finite double is nearest to: half a step above the largest one. -/
def doubleBound : Nat := (Nat.pow 2 54 - 1) * Nat.pow 2 970

/-- Whether the nearest double to `m * 10 ^ k` is finite. Only where the number of digits leaves
it open, the power is computed. -/
def isFinite (m : Nat) (k : Int) : Bool :=
  let size := (toString m).length + k
  if m = 0 ∨ size ≤ 308 then true
  else if 309 < size then false
  else m * Nat.pow 10 k.toNat < doubleBound * Nat.pow 10 (-k).toNat

def isFloat (cs : List Char) : Bool :=
  let ds := unsigned cs
  if ds = "inf".toList ∨ ds = "nan".toList then true
  else
    let mantissa := ds.takeWhile (!isExponentMark ·)
    let exponent := (ds.dropWhile (!isExponentMark ·)).drop 1
    let marked := mantissa.length < ds.length
    let k := exponentValue exponent
    (!marked || isExponent exponent) &&
      match mantissa.splitOn '.' with
      | [whole] => marked && isDecimal whole && isFinite (magnitude 10 whole) k
      | [whole, fraction] =>
        isDecimal whole && isDigits Char.isDigit fraction &&
          isFinite (magnitude 10 (whole ++ fraction)) (k - (fraction.filter (· ≠ '_')).length)
      | _ => false

def number? (n : Nat) (cs : List Char) : Option Nat :=
  if cs.length = n ∧ cs.all Char.isDigit then
    some (Text.decimalNumber cs)
  else none

def isLeapYear (year : Nat) : Bool :=
  year % 4 == 0 && (year % 100 != 0 || year % 400 == 0)

def daysIn (year month : Nat) : Nat :=
  if month = 2 then (if isLeapYear year then 29 else 28)
  else if month ∈ [4, 6, 9, 11] then 30
  else 31

def isDate (cs : List Char) : Bool :=
  match cs.splitOn '-' with
  | [y, m, d] =>
    match number? 4 y, number? 2 m, number? 2 d with
    | some year, some month, some day =>
      1 ≤ month && month ≤ 12 && 1 ≤ day && day ≤ daysIn year month
    | _, _, _ => false
  | _ => false

def isClock (h m : List Char) : Bool :=
  match number? 2 h, number? 2 m with
  | some hour, some minute => hour ≤ 23 && minute ≤ 59
  | _, _ => false

/-- Seconds, with a fraction or without; a leap second counts. -/
def isSecond (cs : List Char) : Bool :=
  let whole := cs.takeWhile (· ≠ '.')
  let fractionFits := match cs.dropWhile (· ≠ '.') with
    | [] => true
    | _ :: fraction => !fraction.isEmpty && fraction.all Char.isDigit
  (number? 2 whole).any (· ≤ 60) && fractionFits

def isTime (cs : List Char) : Bool :=
  match cs.splitOn ':' with
  | [h, m] => isClock h m
  | [h, m, s] => isClock h m && isSecond s
  | _ => false

/-- A distance from universal time: `Z`, or a sign with hours and minutes. -/
def isOffset (cs : List Char) : Bool :=
  match cs with
  | [] => true
  | ['Z'] => true
  | ['z'] => true
  | sign :: offset =>
    (sign == '+' || sign == '-') &&
      match offset.splitOn ':' with
      | [h, m] => isClock h m
      | _ => false

/-- A date, a time, or both with a letter or a blank between them. -/
def isMoment (cs : List Char) : Bool :=
  isDate cs || isTime cs ||
    match cs.drop 10 with
    | [] => false
    | between :: clock =>
      let isZone (c : Char) := c ∈ ['Z', 'z', '+', '-']
      isDate (cs.take 10) && between ∈ ['T', 't', ' '] &&
        isTime (clock.takeWhile (!isZone ·)) && isOffset (clock.dropWhile (!isZone ·))

def isScalar (cs : List Char) : Bool :=
  cs = "true".toList || cs = "false".toList || isInteger cs || isFloat cs || isMoment cs

def isScalarChar (c : Char) : Bool :=
  c.isAlphanum || c ∈ ['+', '-', '_', '.', ':']

/-- Reads a scalar. A blank belongs to it only between a date and a time. -/
def readScalar (cs : List Char) : Option (List Char) :=
  let word := cs.takeWhile isScalarChar
  match cs.dropWhile isScalarChar with
  | ' ' :: rest =>
    let time := rest.takeWhile isScalarChar
    if isDate word ∧ isMoment (word ++ ' ' :: time) then some (rest.dropWhile isScalarChar)
    else if isScalar word then some (' ' :: rest) else none
  | rest => if isScalar word then some rest else none

end LintLedger.Toml
