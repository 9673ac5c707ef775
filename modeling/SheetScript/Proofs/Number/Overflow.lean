import Mathlib.Algebra.Group.Nat.Defs
import SheetScript.Number.Binary64

/-!
Which integers are too large for a finite number. Rounding to 53 significant bits reaches a power of
two from halfway between it and the number below on, since the half goes up there.
-/

namespace SheetScript.Number

theorem roundQuotient_lt_iff {numerator half bound : Nat} (positive : 0 < half)
    (even : bound % 2 = 0) :
    roundQuotient numerator (2 * half) < bound ↔ numerator + half < 2 * half * bound := by
  have parts := Nat.div_add_mod numerator (2 * half)
  have small : numerator % (2 * half) < 2 * half := Nat.mod_lt _ (by omega)
  unfold roundQuotient
  dsimp only
  generalize numerator / (2 * half) = quotient at parts ⊢
  generalize numerator % (2 * half) = rest at parts small ⊢
  have above (more : Nat) (fits : quotient + more ≤ bound) :
      2 * half * quotient + 2 * half * more ≤ 2 * half * bound := by
    rw [← Nat.mul_add]
    exact Nat.mul_le_mul_left _ fits
  have below (more : Nat) (fits : bound ≤ quotient + more) :
      2 * half * bound ≤ 2 * half * quotient + 2 * half * more := by
    rw [← Nat.mul_add]
    exact Nat.mul_le_mul_left _ fits
  split
  · constructor
    · intro less
      have := above 1 less
      omega
    · intro less
      have := below 0
      omega
  · split
    · constructor
      · intro less
        have := above 2 less
        omega
      · intro less
        have := below 1
        omega
    · -- The half goes to the even neighbour, which is below an even bound only if both are.
      constructor
      · intro less
        have := above 2 (by omega)
        omega
      · intro less
        have := below 1
        omega

theorem roundQuotient_one (n : Nat) : roundQuotient n 1 = n := by
  unfold roundQuotient
  simp [Nat.mod_one]

theorem lt_two_pow_bitLength (n : Nat) : n < 2 ^ bitLength n := by
  unfold bitLength
  split
  · omega
  · exact Nat.lt_log2_self

theorem two_pow_le_of_bitLength {n bits : Nat} (isLength : bitLength n = bits + 1) : 2 ^ bits ≤ n := by
  unfold bitLength at isLength
  split at isLength
  · omega
  · rename_i nonzero
    obtain rfl : n.log2 = bits := by omega
    exact Nat.log2_self_le nonzero

theorem roundToPrecision_short {n : Nat} (short : bitLength n ≤ 53) : roundToPrecision n 1 = n := by
  have noExcess : bitLength n - 53 = 0 := by omega
  unfold roundToPrecision
  rw [Nat.div_one, noExcess]
  change roundQuotient n 1 * 1 = n
  rw [roundQuotient_one, Nat.mul_one]

theorem roundToPrecision_long {n shift : Nat} (isLength : bitLength n = shift + 54) :
    roundToPrecision n 1 = roundQuotient n (2 * 2 ^ shift) * 2 ^ (shift + 1) := by
  have isExcess : bitLength n - 53 = shift + 1 := by omega
  unfold roundToPrecision
  rw [Nat.div_one, isExcess]
  change roundQuotient n (1 * 2 ^ (shift + 1)) * 2 ^ (shift + 1) = _
  rw [Nat.one_mul, Nat.pow_succ']

theorem rounded_lt_iff (n shift bits : Nat) :
    roundQuotient n (2 * 2 ^ shift) * 2 ^ (shift + 1) < 2 ^ (shift + bits + 2) ↔
      n + 2 ^ shift < 2 ^ (shift + bits + 2) := by
  have isProduct : 2 ^ (shift + bits + 2) = 2 ^ (bits + 1) * 2 ^ (shift + 1) := by
    rw [← Nat.pow_add]
    exact congrArg (2 ^ ·) (by omega)
  have even : 2 ^ (bits + 1) % 2 = 0 := by
    rw [Nat.pow_succ]
    exact Nat.mul_mod_left _ _
  rw [isProduct, Nat.mul_lt_mul_right (Nat.two_pow_pos _),
    roundQuotient_lt_iff (Nat.two_pow_pos shift) even, ← Nat.pow_succ', Nat.mul_comm]

theorem two_pow_mono {first second : Nat} (le : first ≤ second) : 2 ^ first ≤ 2 ^ second :=
  Nat.pow_le_pow_right Nat.two_pos le

theorem add_two_pow_lt {n low high : Nat} (less : n < 2 ^ (high + 53)) (le : low ≤ high) :
    n + 2 ^ low < 2 ^ (high + 54) := by
  have isTwice : 2 ^ (high + 54) = 2 * 2 ^ (high + 53) := Nat.pow_succ'
  have isLower : 2 ^ low ≤ 2 ^ (high + 53) := two_pow_mono (by omega)
  omega

/-- A number is rounded to less than a power of two if it is less than halfway up to it. -/
theorem roundToPrecision_lt_iff (n low : Nat) :
    roundToPrecision n 1 < 2 ^ (low + 54) ↔ n + 2 ^ low < 2 ^ (low + 54) := by
  have isBelow := lt_two_pow_bitLength n
  rcases Nat.lt_or_ge 53 (bitLength n) with long | short
  · obtain ⟨shift, isLength⟩ : ∃ shift, bitLength n = shift + 54 := ⟨bitLength n - 54, by omega⟩
    have reaches : 2 ^ (shift + 53) ≤ n := two_pow_le_of_bitLength isLength
    rw [isLength] at isBelow
    rw [roundToPrecision_long isLength]
    rcases Nat.lt_trichotomy shift low with lower | rfl | higher
    · obtain ⟨room, rfl⟩ := Nat.exists_eq_add_of_le (Nat.le_of_lt lower)
      have less : n < 2 ^ (shift + room + 53) := Nat.lt_of_lt_of_le isBelow (two_pow_mono (by omega))
      refine iff_of_true ((rounded_lt_iff n shift (room + 52)).2 ?_) (add_two_pow_lt less (Nat.le_refl _))
      exact add_two_pow_lt less (Nat.le_add_right shift room)
    · exact rounded_lt_iff n shift 52
    · have above : 2 ^ (low + 54) ≤ 2 ^ (shift + 53) := two_pow_mono (by omega)
      have rounded : roundQuotient n (2 * 2 ^ shift) * 2 ^ (shift + 1) < 2 ^ (shift + 53) ↔
          n + 2 ^ shift < 2 ^ (shift + 53) := rounded_lt_iff n shift 51
      have lowPositive := Nat.two_pow_pos low
      have shiftPositive := Nat.two_pow_pos shift
      exact iff_of_false (by omega) (by omega)
  · have less : n < 2 ^ (low + 53) := Nat.lt_of_lt_of_le isBelow (two_pow_mono (by omega))
    rw [roundToPrecision_short short]
    exact iff_of_true (Nat.lt_of_le_of_lt (Nat.le_add_right _ _) (add_two_pow_lt less (Nat.le_refl _)))
      (add_two_pow_lt less (Nat.le_refl _))

theorem roundToPrecision_scaled_lt_iff (n low places : Nat) :
    roundToPrecision (n * 2 ^ places) 1 < 2 ^ (low + places + 54) ↔
      n + 2 ^ low < 2 ^ (low + 54) := by
  have isLimit : 2 ^ (low + places + 54) = 2 ^ (low + 54) * 2 ^ places := by
    rw [← Nat.pow_add]
    exact congrArg (2 ^ ·) (by omega)
  rw [roundToPrecision_lt_iff, isLimit, Nat.pow_add 2 low places, ← Nat.add_mul]
  exact Nat.mul_lt_mul_right (Nat.two_pow_pos places)

namespace Binary64

/-- In size at least halfway between the largest finite number and the power of two above it. -/
def Overflows (n : Int) : Prop :=
  2 ^ 1024 ≤ n.natAbs + 2 ^ 970

instance (n : Int) : Decidable (Overflows n) :=
  inferInstanceAs (Decidable (2 ^ 1024 ≤ n.natAbs + 2 ^ 970))

theorem one_eq : one = 2 ^ 1074 := by
  unfold one
  generalize 1074 = places
  rfl

theorem one_pos : 0 < one := by
  unfold one
  generalize 1074 = places
  exact Nat.two_pow_pos places

theorem unitLimit_eq : unitLimit = 2 ^ 2098 := by
  unfold unitLimit
  generalize 2098 = places
  rfl

section

variable {numerator denominator : Nat} (negative : Bool)

theorem round_of_lt (less : roundToPrecision numerator denominator < unitLimit) :
    round negative numerator denominator =
      .finite negative (roundToPrecision numerator denominator) := by
  unfold round
  generalize unitLimit = limit at less ⊢
  exact if_pos less

theorem round_of_not_lt (notLess : ¬ roundToPrecision numerator denominator < unitLimit) :
    round negative numerator denominator = .infinity negative := by
  unfold round
  generalize unitLimit = limit at notLess ⊢
  exact if_neg notLess

end

/-- The integers that are too large for a finite number. -/
theorem ofInt?_eq_none_iff (n : Int) : ofInt? n = none ↔ Overflows n := by
  have finite : roundToPrecision (n.natAbs * one) 1 < unitLimit ↔ ¬ Overflows n := by
    have scaled := roundToPrecision_scaled_lt_iff n.natAbs 970 1074
    have allBits : 970 + 1074 + 54 = 2098 := rfl
    have bits : 970 + 54 = 1024 := rfl
    rw [allBits, bits] at scaled
    rw [one_eq, unitLimit_eq, scaled]
    exact Nat.not_le.symm
  unfold ofInt?
  by_cases less : roundToPrecision (n.natAbs * one) 1 < unitLimit
  · rw [round_of_lt _ less]
    exact iff_of_false nofun (finite.1 less)
  · rw [round_of_not_lt _ less]
    exact iff_of_true rfl (Classical.not_not.1 fun small => less (finite.2 small))

end Binary64

end SheetScript.Number
