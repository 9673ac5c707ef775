import Mathlib.Data.List.TakeWhile
import SheetScript.Prefix.Lookup
import SheetScript.Prefix.Version

/-!
Version numbers as numbers. Groups of digits with points between them are a number as long as there
is one point at most.
-/

namespace SheetScript.Prefix

open SheetScript.Number SheetScript.Text

/-! Groups -/

theorem length_splitAt (mark : Char) (text : List Char) :
    (splitAt mark text).length = text.count mark + 1 := by
  fun_induction splitAt mark text with
  | case1 => rfl
  | case2 rest ih => rw [List.length_cons, ih, List.count_cons_self]
  | case3 c rest different first more parts ih =>
      rw [parts, List.length_cons] at ih
      rw [List.length_cons, ih, List.count_cons_of_ne different]
  | case4 c rest different none => exact absurd none (splitAt_ne_nil mark rest)

def IsDigits (group : List Char) : Prop :=
  group ≠ [] ∧ ∀ c ∈ group, isDigit c = true

/-- Groups of digits with points between them, and the number of the points. -/
inductive IsVersion : Nat → List Char → Prop
  | group {group : List Char} (digits : IsDigits group) : IsVersion 0 group
  | point {group rest : List Char} {points : Nat} (digits : IsDigits group)
    (behind : IsVersion points rest) : IsVersion (points + 1) (group ++ '.' :: rest)

theorem isVersion_intercalate {first : List Char} {rest : List (List Char)}
    (digits : ∀ group ∈ first :: rest, IsDigits group) :
    IsVersion rest.length (['.'].intercalate (first :: rest)) := by
  induction rest generalizing first with
  | nil =>
      rw [List.intercalate_singleton]
      exact .group (digits first List.mem_cons_self)
  | cons second rest ih =>
      rw [List.intercalate_cons_cons, List.append_assoc, List.singleton_append]
      exact .point (digits first List.mem_cons_self)
        (ih fun group here => digits group (List.mem_cons_of_mem first here))

theorem isVersion_of_isVersionText {text : List Char} (isText : isVersionText text = true) :
    IsVersion (text.count '.') text := by
  have digits : ∀ group ∈ splitAt '.' text, IsDigits group := by
    intro group here
    simpa [IsDigits] using List.all_eq_true.1 isText group here
  have points := length_splitAt '.' text
  have whole := intercalate_splitAt '.' text
  obtain ⟨first, rest, groups⟩ := List.exists_cons_of_ne_nil (splitAt_ne_nil '.' text)
  rw [groups] at digits points whole
  rw [← Nat.succ_inj.1 points]
  have version := isVersion_intercalate digits
  rwa [whole] at version

/-! Characters -/

theorem not_blank_of_digit {c : Char} (digit : isDigit c = true) : isBlank c = false := by
  have dark : ∀ range ∈ blankRanges, ∀ offset < range.2 + 1 - range.1,
      isDigit (Char.ofNat (range.1 + offset)) = false := by
    decide +kernel
  refine Bool.eq_false_iff.2 fun blank => ?_
  obtain ⟨range, inBlanks, low, high⟩ := (inRanges_iff blankRanges c).1 blank
  have none := dark range inBlanks (c.toNat - range.1) (by omega)
  rw [Nat.add_sub_cancel' low, Char.ofNat_toNat, digit] at none
  cases none

theorem not_margin_of_digit {c : Char} (digit : isDigit c = true) :
    Binary64.isMargin c = false := by
  have notBlank := not_blank_of_digit digit
  unfold Binary64.isMargin
  split
  · refine Bool.eq_false_iff.2 fun margin => ?_
    have blank : isBlank c = true := by
      refine (inRanges_iff blankRanges c).2 ?_
      simp only [Bool.or_eq_true, beq_iff_eq, Bool.and_eq_true, decide_eq_true_eq] at margin
      rcases margin with rfl | between
      · exact ⟨(0x1c, 0x20), by decide, by decide⟩
      · exact ⟨(0x9, 0xd), by decide, between⟩
    rw [notBlank] at blank
    cases blank
  · exact notBlank

theorem not_mem_of_digits {mark : Char} (dark : isDigit mark = false) {group : List Char}
    (digits : ∀ c ∈ group, isDigit c = true) : mark ∉ group := by
  intro here
  rw [digits mark here] at dark
  cases dark

theorem IsVersion.not_margin {points : Nat} {text : List Char} (version : IsVersion points text) :
    ∀ c ∈ text, Binary64.isMargin c = false := by
  induction version with
  | group digits => exact fun c here => not_margin_of_digit (digits.2 c here)
  | point digits _ ih =>
      exact List.forall_mem_append.2 ⟨fun c here => not_margin_of_digit (digits.2 c here),
        List.forall_mem_cons.2 ⟨by decide, ih⟩⟩

theorem IsVersion.head_digit {points : Nat} {text : List Char} (version : IsVersion points text) :
    ∃ c rest, text = c :: rest ∧ isDigit c = true := by
  cases version with
  | group digits =>
      obtain ⟨c, rest, rfl⟩ := List.exists_cons_of_ne_nil digits.1
      exact ⟨c, rest, rfl, digits.2 c List.mem_cons_self⟩
  | point digits _ =>
      obtain ⟨c, rest, rfl⟩ := List.exists_cons_of_ne_nil digits.1
      exact ⟨c, _, rfl, digits.2 c List.mem_cons_self⟩

/-! Reading -/

/-- A version has no margins and no sign. -/
theorem IsVersion.read?_eq {points : Nat} {text : List Char} (version : IsVersion points text) :
    Binary64.read? text = Binary64.readMagnitude? false text := by
  have front : text.dropWhile Binary64.isMargin = text :=
    List.dropWhile_eq_self_iff.2 fun nonempty =>
      Bool.eq_false_iff.1 (version.not_margin _ (List.getElem_mem nonempty))
  have back : text.reverse.dropWhile Binary64.isMargin = text.reverse :=
    List.dropWhile_eq_self_iff.2 fun nonempty =>
      Bool.eq_false_iff.1 (version.not_margin _ (List.mem_reverse.1 (List.getElem_mem nonempty)))
  unfold Binary64.read?
  rw [front, back, List.reverse_reverse]
  obtain ⟨c, rest, rfl, digit⟩ := version.head_digit
  dsimp only
  split
  · rename_i same
    rw [(List.cons.inj same).1] at digit
    cases digit
  · rename_i same
    rw [(List.cons.inj same).1] at digit
    cases digit
  · rfl

theorem isGroup_of_plain {text : List Char} (plain : '_' ∉ text) : Decimal.isGroup text = true := by
  fun_induction Decimal.isGroup text with
  | case1 => rfl
  | case4 => rfl
  | case8 =>
      rename_i ih
      exact ih fun here => plain (List.mem_cons_of_mem _ here)
  | _ => simp at plain

theorem isGroup_of_digits {group : List Char} (digits : ∀ c ∈ group, isDigit c = true) :
    Decimal.isGroup group = true :=
  isGroup_of_plain (not_mem_of_digits (by decide) digits)

theorem isGroupChar_of_digit {c : Char} (digit : isDigit c = true) :
    Decimal.isGroupChar c = true := by
  rw [Decimal.isGroupChar, digit, Bool.true_or]

/-- A group of digits is a number by itself. -/
theorem readUnsigned?_group {group : List Char} (digits : IsDigits group) (negative : Bool) :
    (Decimal.readUnsigned? negative group).isSome = true := by
  have all : ∀ c ∈ group, Decimal.isGroupChar c = true := fun c here =>
    isGroupChar_of_digit (digits.2 c here)
  have front : group.takeWhile Decimal.isGroupChar = group := List.takeWhile_eq_self_iff.2 all
  have behind : group.dropWhile Decimal.isGroupChar = [] := List.dropWhile_eq_nil_iff.2 all
  unfold Decimal.readUnsigned?
  simp [front, behind, isGroup_of_digits digits.2, Decimal.isGroup, Decimal.readExponent?, digits.1]

/-- Behind a point and a group of digits, a number ends or has an exponent. -/
theorem readUnsigned?_point {first second rest : List Char} (whole : IsDigits first)
    (fraction : IsDigits second) (ends : rest.head?.any Decimal.isGroupChar = false)
    (negative : Bool) :
    (Decimal.readUnsigned? negative (first ++ '.' :: (second ++ rest))).isSome =
      (Decimal.readExponent? rest).isSome := by
  have allFirst : ∀ c ∈ first, Decimal.isGroupChar c = true := fun c here =>
    isGroupChar_of_digit (whole.2 c here)
  have allSecond : ∀ c ∈ second, Decimal.isGroupChar c = true := fun c here =>
    isGroupChar_of_digit (fraction.2 c here)
  have dark : Decimal.isGroupChar '.' = false := by decide
  have point : ('.' :: (second ++ rest)).head?.any Decimal.isGroupChar = false := dark
  obtain ⟨front, behind⟩ := takeWhile_append_of_ends allFirst point
  obtain ⟨inner, after⟩ := takeWhile_append_of_ends allSecond ends
  unfold Decimal.readUnsigned?
  rw [front, behind]
  simp only [inner, after]
  simp [isGroup_of_digits whole.2, isGroup_of_digits fraction.2, whole.1]

theorem readMagnitude?_of_isSome {text : List Char}
    (some : (Decimal.readUnsigned? false text).isSome = true) :
    (Binary64.readMagnitude? false text).isSome = true := by
  unfold Binary64.readMagnitude?
  dsimp only
  split
  · rfl
  · split
    · rfl
    · rwa [Option.isSome_map]

/-- No name of a limit has a point in it. -/
theorem readMagnitude?_point {text : List Char} (point : '.' ∈ text) :
    (Binary64.readMagnitude? false text).isSome = (Decimal.readUnsigned? false text).isSome := by
  have notWord {word : String} (plain : '.' ∉ word.toList) :
      ¬(String.ofList (text.map Char.toLower) == word) = true := by
    intro same
    refine plain ?_
    rw [← eq_of_beq same, String.toList_ofList]
    exact List.mem_map.2 ⟨'.', point, by decide⟩
  unfold Binary64.readMagnitude?
  simp [notWord]

/-- A version is a number if it has one point at most. -/
theorem IsVersion.isSome_read? {points : Nat} {text : List Char} (version : IsVersion points text) :
    (Binary64.read? text).isSome = true ↔ points ≤ 1 := by
  rw [version.read?_eq]
  cases version with
  | group digits =>
      exact iff_of_true (readMagnitude?_of_isSome (readUnsigned?_group digits false)) (by decide)
  | @point first rest points digits behind =>
      rw [readMagnitude?_point (List.mem_append_right _ List.mem_cons_self)]
      cases behind with
      | group fraction =>
          have read := @readUnsigned?_point first rest [] digits fraction rfl false
          rw [List.append_nil] at read
          exact iff_of_true read (by decide)
      | @point second rest points fraction behind =>
          -- Two points: behind the fraction stands what is neither an end nor an exponent.
          have dark : Decimal.isGroupChar '.' = false := by decide
          have ends : ('.' :: rest).head?.any Decimal.isGroupChar = false := dark
          have none : Decimal.readExponent? ('.' :: rest) = none := rfl
          rw [readUnsigned?_point digits fraction ends, none]
          exact iff_of_false (by decide) (by omega)

theorem exists_readNumber_iff {limit : String} (isText : isVersionText limit.toList = true) :
    (∃ number, readNumber limit = .ok number) ↔ limit.toList.count '.' ≤ 1 := by
  rw [← (isVersion_of_isVersionText isText).isSome_read?]
  unfold readNumber
  cases Binary64.read? limit.toList with
  | none => simp
  | some number => simp

end SheetScript.Prefix
