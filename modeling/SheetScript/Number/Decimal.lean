import SheetScript.Number.Binary64
import SheetScript.Text.Blank
import SheetScript.Text.Digit

/-! Decimal numbers: written with digits, point and exponent, and rounded to binary ones. -/

namespace SheetScript.Number

open SheetScript.Text

structure Decimal where
  negative : Bool
  digits : Nat
  exponent : Int
  deriving DecidableEq, Repr

def decimalDigits (n : Nat) : List Char :=
  Nat.toDigits 10 n

def decimalLength (n : Nat) : Nat :=
  (decimalDigits n).length

namespace Decimal

/--
The nearest binary number. Exponents far outside the range of binary numbers are decided by the
position of the leading digit alone, so that no large power is computed.
-/
def toBinary64 (d : Decimal) : Binary64 :=
  if d.digits = 0 then .finite d.negative 0
  else
    let leading := d.exponent + decimalLength d.digits
    if leading > 400 then .infinity d.negative
    else if leading < -400 then .finite d.negative 0
    else if 0 ≤ d.exponent then
      .round d.negative (d.digits * Nat.pow 10 d.exponent.toNat * Binary64.one) 1
    else .round d.negative (d.digits * Binary64.one) (Nat.pow 10 (-d.exponent).toNat)

def isGroupChar (c : Char) : Bool :=
  isDigit c || c == '_'

/-- Every underscore stands between two digits; no digits at all are a group too. -/
def isGroup : List Char → Bool
  | [] => true
  | ['_'] => false
  | '_' :: _ => false
  | [_] => true
  | _ :: '_' :: '_' :: _ => false
  | [_, '_'] => false
  | _ :: '_' :: rest => isGroup rest
  | _ :: rest => isGroup rest

def readExponent? : List Char → Option Int
  | [] => some 0
  | mark :: rest =>
    if mark == 'e' || mark == 'E' then
      let (negative, digits) :=
        match rest with
        | '-' :: digits => (true, digits)
        | '+' :: digits => (false, digits)
        | digits => (false, digits)
      if digits.isEmpty || !digits.all isGroupChar || !isGroup digits then none
      else
        let value : Int := digitsValue (digits.filter isDigit)
        some (if negative then -value else value)
    else none

/-- Digits with an optional point and exponent: `1`, `.5`, `5.`, `1_000.5e-3`. -/
def readUnsigned? (negative : Bool) (text : List Char) : Option Decimal :=
  let whole := text.takeWhile isGroupChar
  let afterWhole := text.dropWhile isGroupChar
  let (fraction, afterFraction) :=
    match afterWhole with
    | '.' :: rest => (rest.takeWhile isGroupChar, rest.dropWhile isGroupChar)
    | rest => ([], rest)
  if !isGroup whole || !isGroup fraction || (whole.isEmpty && fraction.isEmpty) then none
  else
    (readExponent? afterFraction).map fun exponent =>
      let places := fraction.filter isDigit
      ⟨negative, digitsValue (whole.filter isDigit ++ places), exponent - places.length⟩

end Decimal

namespace Binary64

/-- Blanks that may stand around a number: those beyond ASCII, and the six of ASCII. -/
def isMargin (c : Char) : Bool :=
  if c.toNat < 127 then c == ' ' || (9 ≤ c.toNat && c.toNat ≤ 13) else isBlank c

def readMagnitude? (negative : Bool) (text : List Char) : Option Binary64 :=
  let word := String.ofList (text.map Char.toLower)
  if word == "inf" || word == "infinity" then some (.infinity negative)
  else if word == "nan" then some .nan
  else (Decimal.readUnsigned? negative text).map Decimal.toBinary64

def read? (text : List Char) : Option Binary64 :=
  let trimmed := ((text.dropWhile isMargin).reverse.dropWhile isMargin).reverse
  match trimmed with
  | '-' :: rest => readMagnitude? true rest
  | '+' :: rest => readMagnitude? false rest
  | rest => readMagnitude? false rest

end Binary64

end SheetScript.Number
