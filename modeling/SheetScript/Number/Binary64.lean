/-!
Binary floating-point numbers of 64 bits, as exact multiples of the smallest positive one.

Every finite number is `± units · 2⁻¹⁰⁷⁴` with a natural number of units, so sums and comparisons are
those of integers, and rounding to 53 significant bits is the only approximation.
-/

namespace SheetScript.Number

/-- The quotient rounded to the nearest integer; a half goes to the even neighbour. -/
def roundQuotient (numerator denominator : Nat) : Nat :=
  let quotient := numerator / denominator
  let twice := 2 * (numerator % denominator)
  if twice < denominator then quotient
  else if denominator < twice then quotient + 1
  else quotient + quotient % 2

def bitLength (n : Nat) : Nat :=
  if n = 0 then 0 else n.log2 + 1

/-- The quotient rounded to a natural number of at most 53 significant bits. -/
def roundToPrecision (numerator denominator : Nat) : Nat :=
  let excess := bitLength (numerator / denominator) - 53
  roundQuotient numerator (denominator * Nat.pow 2 excess) * Nat.pow 2 excess

inductive Binary64
  | nan
  | infinity (negative : Bool)
  | finite (negative : Bool) (units : Nat)
  deriving DecidableEq, Repr, Inhabited

namespace Binary64

def one : Nat := Nat.pow 2 1074

/-- The first count of units that is too large for a finite number. -/
def unitLimit : Nat := Nat.pow 2 2098

def zero : Binary64 := .finite false 0

def round (negative : Bool) (numerator denominator : Nat) : Binary64 :=
  let units := roundToPrecision numerator denominator
  if units < unitLimit then .finite negative units else .infinity negative

def finite? : Binary64 → Option Binary64
  | finite negative units => some (finite negative units)
  | _ => none

def ofInt? (n : Int) : Option Binary64 :=
  (round (n < 0) (n.natAbs * one) 1).finite?

def signedUnits (negative : Bool) (units : Nat) : Int :=
  if negative then -units else units

def neg : Binary64 → Binary64
  | nan => nan
  | infinity negative => infinity !negative
  | finite negative units => finite (!negative) units

/-- The rounded sum. A sum of zero is negative only if both terms are. -/
def add : Binary64 → Binary64 → Binary64
  | nan, _ => nan
  | _, nan => nan
  | infinity left, infinity right => if left = right then infinity left else nan
  | infinity left, finite _ _ => infinity left
  | finite _ _, infinity right => infinity right
  | finite left leftUnits, finite right rightUnits =>
    let sum := signedUnits left leftUnits + signedUnits right rightUnits
    if sum = 0 then finite (left && right) 0 else round (sum < 0) sum.natAbs 1

def rank? : Binary64 → Option Int
  | nan => none
  | infinity negative => some (signedUnits negative unitLimit)
  | finite negative units => some (signedUnits negative units)

def lt (left right : Binary64) : Bool :=
  match left.rank?, right.rank? with
  | some l, some r => l < r
  | _, _ => false

def le (left right : Binary64) : Bool :=
  match left.rank?, right.rank? with
  | some l, some r => l ≤ r
  | _, _ => false

def toInt? : Binary64 → Option Int
  | finite negative units =>
    if units % one = 0 then some (signedUnits negative (units / one)) else none
  | _ => none

def isZero : Binary64 → Bool
  | finite _ units => units = 0
  | _ => false

end Binary64

end SheetScript.Number
