import SheetScript.Proofs.Number.Overflow
import SheetScript.Proofs.Script.Place

/-!
Numbers in scripts. Numbers add up to a number, but for a float with an integer that is too large for
one; the negation of a number is one; and lists and texts can be read at every finite number.
-/

namespace SheetScript.Number.Binary64

theorem signedUnits_mul (negative : Bool) (count unit : Nat) :
    signedUnits negative (count * unit) = signedUnits negative count * unit := by
  cases negative with
  | true =>
      change -((count * unit : Nat) : Int) = -(count : Int) * unit
      rw [Int.natCast_mul, Int.neg_mul]
  | false => exact Int.natCast_mul count unit

theorem natAbs_signedUnits (negative : Bool) (units : Nat) :
    (signedUnits negative units).natAbs = units := by
  cases negative with
  | true => exact Int.natAbs_neg units
  | false => rfl

/-- A finite number is an integer if it is that many times one. -/
theorem toInt?_eq_some_iff {negative : Bool} {units : Nat} {n : Int} :
    (finite negative units).toInt? = some n ↔ signedUnits negative units = n * one := by
  have positive := one_pos
  unfold toInt?
  dsimp only
  generalize one = unit at positive ⊢
  constructor
  · intro isInt
    split at isInt
    · rename_i whole
      obtain rfl := Option.some.inj isInt
      rw [← signedUnits_mul, Nat.div_mul_cancel (Nat.dvd_of_mod_eq_zero whole)]
    · cases isInt
  · intro equal
    have isProduct : units = n.natAbs * unit := by
      have sizes := congrArg Int.natAbs equal
      rwa [natAbs_signedUnits, Int.natAbs_mul] at sizes
    subst isProduct
    rw [if_pos (Nat.mul_mod_left _ _), Nat.mul_div_cancel _ positive]
    rw [signedUnits_mul] at equal
    exact congrArg some (Int.eq_of_mul_eq_mul_right (by omega) equal)

end SheetScript.Number.Binary64

namespace SheetScript.Script

open SheetScript.Number

namespace Value

inductive Denotes : Value → Int → Prop
  | int (n : Int) : Denotes (.int n) n
  | float {negative : Bool} {units : Nat} {n : Int}
      (equal : Binary64.signedUnits negative units = n * Binary64.one) :
      Denotes (.float (.finite negative units)) n

inductive Mixed : Value → Value → Int → Prop
  | intFirst (n : Int) (x : Binary64) : Mixed (.int n) (.float x) n
  | floatFirst (x : Binary64) (n : Int) : Mixed (.float x) (.int n) n

def indexFault? : Value → Option ScriptFault
  | .float .nan => some .indexNotANumber
  | .float (.infinity _) => some .indexInfinite
  | _ => none

def elements? : Value → Option (List Value)
  | .list _ items => some items
  | .text characters => some (characters.toList.map fun c => .text c.toString)
  | _ => none

end Value

namespace Evaluate

variable {world : World}

/-! Values -/

theorem add_of_mixed {left right : Value} {n : Int} (mixed : Value.Mixed left right n)
    (large : Binary64.Overflows n) : add left right = throw .integerTooLarge := by
  have isNone := (Binary64.ofInt?_eq_none_iff n).2 large
  fun_cases add left right
  · cases mixed
  · cases mixed
  · rename_i isSome
    cases mixed
    cases isNone.symm.trans isSome
  · rfl
  · rename_i isSome
    cases mixed
    cases isNone.symm.trans isSome
  · rfl
  · rename_i ints floats intFloat floatInt
    cases mixed with
    | intFirst n x => exact (intFloat _ _ rfl rfl).elim
    | floatFirst x n => exact (floatInt _ _ rfl rfl).elim

theorem add_of_numbers {left right : Value} (leftNumber : left.isNumber = true)
    (rightNumber : right.isNumber = true)
    (small : ∀ n, Value.Mixed left right n → ¬ Binary64.Overflows n) :
    ∃ sum, sum.isNumber = true ∧ add left right world = .ok sum world := by
  fun_cases add left right
  · exact ⟨_, rfl, rfl⟩
  · exact ⟨_, rfl, rfl⟩
  · exact ⟨_, rfl, rfl⟩
  · rename_i n x isNone
    exact absurd ((Binary64.ofInt?_eq_none_iff n).1 isNone) (small n (.intFirst n x))
  · exact ⟨_, rfl, rfl⟩
  · rename_i x n isNone
    exact absurd ((Binary64.ofInt?_eq_none_iff n).1 isNone) (small n (.floatFirst x n))
  · rename_i ints floats intFloat floatInt
    cases left <;> cases leftNumber
    · cases right <;> cases rightNumber
      · exact (ints _ _ rfl rfl).elim
      · exact (intFloat _ _ rfl rfl).elim
    · cases right <;> cases rightNumber
      · exact (floatInt _ _ rfl rfl).elim
      · exact (floats _ _ rfl rfl).elim

theorem negate_of_number {value : Value} (isNumber : value.isNumber = true) :
    ∃ negated, negated.isNumber = true ∧ negate value world = .ok negated world := by
  cases value with
  | int n => exact ⟨.int (-n), rfl, rfl⟩
  | float x => exact ⟨.float x.neg, rfl, rfl⟩
  | _ => cases isNumber

theorem position?_of_denotes {key : Value} {n : Int} (denotes : key.Denotes n) :
    position? key world = .ok (if n < 0 then none else some n.toNat) world := by
  cases denotes with
  | int n => rfl
  | float equal =>
      have isInt := Binary64.toInt?_eq_some_iff.2 equal
      unfold position?
      dsimp only
      rw [isInt]
      rfl

theorem position?_of_nowhere {key : Value} (finite : key.indexFault? = none)
    (nowhere : ∀ n, ¬ key.Denotes n) : position? key world = .ok none world := by
  cases key with
  | int n => exact absurd (.int n) (nowhere n)
  | float x =>
      cases x with
      | nan => cases finite
      | infinity negative => cases finite
      | finite negative units =>
          have notInt : (Binary64.finite negative units).toInt? = none := by
            cases found : (Binary64.finite negative units).toInt? with
            | none => rfl
            | some n => exact absurd (.float (Binary64.toInt?_eq_some_iff.1 found)) (nowhere n)
          unfold position?
          dsimp only
          rw [notInt]
          rfl
  | _ => rfl

theorem position?_of_fault {key : Value} {fault : ScriptFault}
    (isFault : key.indexFault? = some fault) : position? key world = .error fault world := by
  cases key with
  | float x =>
      cases x with
      | finite negative units => cases isFault
      | _ =>
          cases isFault
          rfl
  | _ => cases isFault

theorem readIndex_of_elements {value key : Value} {elements : List Value}
    (hasElements : value.elements? = some elements) (isNumber : key.isNumber = true)
    (line : Option Nat) :
    readIndex value key line = do
      return ((← position? key).bind (elements[·]?)).getD .undefined := by
  cases value with
  | list stamp items =>
      cases hasElements
      unfold readIndex
      rw [isNumber]
  | text characters =>
      cases hasElements
      unfold readIndex
      rw [isNumber]
      refine congrArg (bind (position? key)) (funext fun position => ?_)
      cases position with
      | none => rfl
      | some index =>
          dsimp only [Option.bind]
          rw [List.getElem?_map]
          cases characters.toList[index]? <;> rfl
  | _ => cases hasElements

/-! Expressions -/

section

variable {importFile : Value → Step Value} {scope : Scope} {first second : Expr}
variable {middle after : World} {left right : Value} {elements : List Value}

theorem index_element (isLeft : expr importFile scope first world = .ok left middle)
    (isRight : expr importFile scope second middle = .ok right after)
    (isNumber : right.isNumber = true) (hasElements : left.elements? = some elements) {n : Nat}
    (denotes : right.Denotes n) (inside : n < elements.length) (line : Option Nat) :
    expr importFile scope (.index first second line) world = .ok elements[n] after := by
  have place := @position?_of_denotes after right n denotes
  rw [if_neg (by omega), Int.toNat_natCast] at place
  rw [expr, bind_of_ok isLeft, bind_of_ok isRight, readIndex_of_elements hasElements isNumber,
    bind_of_ok place]
  dsimp only [Option.bind]
  rw [List.getElem?_eq_getElem inside]
  rfl

theorem index_outside (isLeft : expr importFile scope first world = .ok left middle)
    (isRight : expr importFile scope second middle = .ok right after)
    (isNumber : right.isNumber = true) (hasElements : left.elements? = some elements)
    (finite : right.indexFault? = none)
    (outside : ∀ n : Nat, right.Denotes n → elements.length ≤ n) (line : Option Nat) :
    expr importFile scope (.index first second line) world = .ok .undefined after := by
  have place : ∃ position, position? right after = .ok position after ∧
      position.bind (elements[·]?) = none := by
    by_cases somewhere : ∃ n, right.Denotes n
    · obtain ⟨n, denotes⟩ := somewhere
      refine ⟨_, position?_of_denotes denotes, ?_⟩
      split
      · rfl
      · rename_i notNegative
        obtain ⟨count, rfl⟩ := Int.eq_ofNat_of_zero_le (Int.not_lt.1 notNegative)
        exact List.getElem?_eq_none (outside count denotes)
    · exact ⟨none, position?_of_nowhere finite fun n denotes => somewhere ⟨n, denotes⟩, rfl⟩
  obtain ⟨position, found, isNone⟩ := place
  rw [expr, bind_of_ok isLeft, bind_of_ok isRight, readIndex_of_elements hasElements isNumber,
    bind_of_ok found, isNone]
  rfl

theorem index_fault (isLeft : expr importFile scope first world = .ok left middle)
    (isRight : expr importFile scope second middle = .ok right after)
    (isNumber : right.isNumber = true) (hasElements : left.elements? = some elements)
    {fault : ScriptFault} (isFault : right.indexFault? = some fault) (line : Option Nat) :
    expr importFile scope (.index first second line) world = .error fault after := by
  rw [expr, bind_of_ok isLeft, bind_of_ok isRight, readIndex_of_elements hasElements isNumber,
    bind_of_error (position?_of_fault isFault)]

/--
Two expressions of which the second comes to a number. If the first does too, so does their sum, but
for a float with an integer that is too large for one. The negation of the number is a number. If the
first comes to a list or a text, it can be read at the number, unless that is infinite or a NaN: what
is found is the element at the position that the number is equal to, or undefined if there is none.
-/
theorem arithmetic_of_numbers (isLeft : expr importFile scope first world = .ok left middle)
    (isRight : expr importFile scope second middle = .ok right after)
    (isNumber : right.isNumber = true) :
    (left.isNumber = true →
      (∀ n, left.Mixed right n → Binary64.Overflows n →
        expr importFile scope (.sum first second) world = .error .integerTooLarge after) ∧
      ((∀ n, left.Mixed right n → ¬ Binary64.Overflows n) →
        ∃ sum, sum.isNumber = true ∧
          expr importFile scope (.sum first second) world = .ok sum after)) ∧
    (∃ negated, negated.isNumber = true ∧
      expr importFile scope (.negation second) middle = .ok negated after) ∧
    ∀ elements line, left.elements? = some elements →
      (∀ fault, right.indexFault? = some fault →
        expr importFile scope (.index first second line) world = .error fault after) ∧
      (right.indexFault? = none →
        (∀ (n : Nat) (inside : n < elements.length), right.Denotes n →
          expr importFile scope (.index first second line) world = .ok elements[n] after) ∧
        ((∀ n : Nat, right.Denotes n → elements.length ≤ n) →
          expr importFile scope (.index first second line) world = .ok .undefined after)) := by
  refine ⟨fun leftNumber => ?_, ?_, fun elements line hasElements => ⟨fun fault isFault => ?_,
    fun finite => ⟨fun n inside denotes => ?_, fun outside => ?_⟩⟩⟩
  · rw [expr, bind_of_ok isLeft, bind_of_ok isRight]
    refine ⟨fun n mixed large => ?_, add_of_numbers leftNumber isNumber⟩
    -- Only an integer beside a float is turned into one, so only it can be too large.
    rw [add_of_mixed mixed large]
    rfl
  · obtain ⟨negated, isNegated, negates⟩ := @negate_of_number after right isNumber
    rw [expr, bind_of_ok isRight]
    exact ⟨negated, isNegated, negates⟩
  · exact index_fault isLeft isRight isNumber hasElements isFault line
  · exact index_element isLeft isRight isNumber hasElements denotes inside line
  · exact index_outside isLeft isRight isNumber hasElements finite outside line

end

/-- A text read at a float, and the sum of an integer with that float. -/
theorem arithmetic_of_numbers_one :
    expr (fun _ => pure .undefined) [] (.index (.literal (.text "abc"))
        (.literal (.float (.finite false Binary64.one))) none) (World.start none default) =
      .ok (.text "b") (World.start none default) ∧
    ∃ sum, sum.isNumber = true ∧
      expr (fun _ => pure .undefined) [] (.sum (.literal (.int 2))
        (.literal (.float (.finite false Binary64.one)))) (World.start none default) =
          .ok sum (World.start none default) := by
  have literal (constant : Constant) : expr (fun _ => pure .undefined) [] (.literal constant)
      (World.start none default) = .ok constant.value (World.start none default) := by
    rw [expr]
    rfl
  have isOne : (Value.float (.finite false Binary64.one)).Denotes (1 : Nat) :=
    .float (Int.one_mul _).symm
  obtain ⟨-, -, index⟩ := arithmetic_of_numbers (literal (.text "abc"))
    (literal (.float (.finite false Binary64.one))) rfl
  obtain ⟨sum, -, -⟩ := arithmetic_of_numbers (literal (.int 2))
    (literal (.float (.finite false Binary64.one))) rfl
  constructor
  · exact ((index _ none rfl).2 rfl).1 1 (by decide) isOne
  · refine (sum rfl).2 fun n mixed => ?_
    cases mixed
    decide +kernel

/-- A list cannot be read at infinity. -/
theorem index_infinity :
    ¬ ∀ (first second : Expr) (world middle after : World) (left right : Value)
      (elements : List Value) (line : Option Nat),
      expr (fun _ => pure .undefined) [] first world = .ok left middle →
      expr (fun _ => pure .undefined) [] second middle = .ok right after →
      right.isNumber = true → left.elements? = some elements →
      ∃ answer, expr (fun _ => pure .undefined) [] (.index first second line) world =
        .ok answer after := by
  intro answers
  obtain ⟨answer, ran⟩ := answers (.array [.literal (.int 1)])
    (.literal (.float (.infinity false))) (World.start none default) _ _ _ _ _ none rfl rfl rfl rfl
  cases ran

end Evaluate

end SheetScript.Script
