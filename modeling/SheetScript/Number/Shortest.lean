import SheetScript.Number.Decimal

/-!
The shortest decimal text of a binary number: the fewest digits that read back, and of those the
nearest. Positional notation holds for decimal exponents from -4 to 15.
-/

namespace SheetScript.Number.Binary64

def gapAbove (units : Nat) : Nat :=
  Nat.pow 2 (bitLength units - 53)

def gapBelow (units : Nat) : Nat :=
  if units = Nat.pow 2 (bitLength units - 1) then Nat.pow 2 (bitLength units - 54)
  else gapAbove units

/-- The decimal `digits · 10 ^ exponent` rounds to `units`; ends count for an even significand. -/
def readsBack (units digits : Nat) (exponent : Int) : Bool :=
  let low := 2 * units - gapBelow units
  let high := 2 * units + gapAbove units
  let scale := Nat.pow 10 (-exponent).toNat
  let point := digits * Nat.pow 10 exponent.toNat * (2 * one)
  if units / gapAbove units % 2 = 0 then low * scale ≤ point && point ≤ high * scale
  else low * scale < point && point < high * scale

def leadingExponent (units : Nat) : Int :=
  (decimalLength (units * Nat.pow 10 330 / one) : Int) - 331

def decimalOfLength? (units count : Nat) : Option (Nat × Int) :=
  let exponent := leadingExponent units + 1 - count
  let numerator := units * Nat.pow 10 (-exponent).toNat
  let denominator := one * Nat.pow 10 exponent.toNat
  let below := numerator / denominator
  let nearest := roundQuotient numerator denominator
  let other := if nearest = below then below + 1 else below
  if readsBack units nearest exponent then some (nearest, exponent)
  else if readsBack units other exponent then some (other, exponent)
  else none

/-- The digits and exponent of the shortest decimal; seventeen digits always read back. -/
def shortest (units : Nat) : Nat × Int :=
  ((List.range 17).findSome? fun k => decimalOfLength? units (k + 1)).getD (0, 0)

def withoutEndZeros (digits : List Char) : List Char :=
  (digits.reverse.dropWhile (· == '0')).reverse

def exponentText (exponent : Int) : List Char :=
  let digits := decimalDigits exponent.natAbs
  (if exponent < 0 then '-' else '+') :: (if digits.length < 2 then '0' :: digits else digits)

/-- The text of `0.d₁d₂… · 10 ^ point`. -/
def layout (digits : List Char) (point : Int) : List Char :=
  if point ≤ -4 || point > 16 then
    let fraction := digits.drop 1
    digits.take 1 ++ (if fraction.isEmpty then [] else '.' :: fraction) ++
      'e' :: exponentText (point - 1)
  else if point ≤ 0 then '0' :: '.' :: List.replicate (-point).toNat '0' ++ digits
  else
    let whole := digits.take point.toNat
    let fraction := digits.drop point.toNat
    whole ++ List.replicate (point.toNat - digits.length) '0' ++
      '.' :: (if fraction.isEmpty then ['0'] else fraction)

def text : Binary64 → String
  | nan => "nan"
  | infinity negative => if negative then "-inf" else "inf"
  | finite negative units =>
    let magnitude :=
      if units = 0 then ['0', '.', '0']
      else
        let (digits, exponent) := shortest units
        let written := decimalDigits digits
        layout (withoutEndZeros written) (written.length + exponent)
    String.ofList (if negative then '-' :: magnitude else magnitude)

end SheetScript.Number.Binary64
