import SheetScript.Css.Write
import SheetScript.Proofs.Css.Readers

/-! Numbers in style sheets: of which parts they are made, and before which texts they end. -/

namespace SheetScript.Css

open SheetScript.Text

section

variable {condition : Char → Bool}

theorem take_runLength (text : List Char) :
    text.take (runLength condition text) = text.takeWhile condition := by
  unfold runLength
  exact (List.prefix_iff_eq_take.1 (List.takeWhile_prefix condition)).symm

theorem runLength_append {front rest : List Char} (all : ∀ c ∈ front, condition c = true)
    (stops : rest.head?.any condition = false) :
    runLength condition (front ++ rest) = front.length := by
  unfold runLength
  rw [List.takeWhile_append_of_pos all, List.length_append]
  cases rest with
  | nil => rfl
  | cons first more =>
      have fails : condition first = false := by simpa using stops
      simp [fails]

end

def IsSign (sign : List Char) : Prop :=
  sign = [] ∨ sign = ['+'] ∨ sign = ['-']

def AllDigits (text : List Char) : Prop :=
  ∀ c ∈ text, c.isDigit = true

def IsFraction (fraction : List Char) : Prop :=
  fraction = [] ∨ ∃ digits, digits ≠ [] ∧ AllDigits digits ∧ fraction = '.' :: digits

def IsExponent (exponent : List Char) : Prop :=
  exponent = [] ∨ ∃ mark sign digits, (mark = 'e' ∨ mark = 'E') ∧ IsSign sign ∧ digits ≠ [] ∧
    AllDigits digits ∧ exponent = mark :: (sign ++ digits)

structure NumberParts (text sign whole fraction exponent : List Char) : Prop where
  joined : text = sign ++ (whole ++ fraction ++ exponent)
  isSign : IsSign sign
  allDigits : AllDigits whole
  isFraction : IsFraction fraction
  some : whole ++ fraction ≠ []
  isExponent : IsExponent exponent

theorem take_signLength (text : List Char) : IsSign (text.take (signLength text)) := by
  unfold signLength
  cases text with
  | nil => exact .inl rfl
  | cons first rest =>
      by_cases plus : first = '+'
      · subst plus
        exact .inr (.inl rfl)
      · by_cases minus : first = '-'
        · subst minus
          exact .inr (.inr rfl)
        · left
          simp [runLength, plus, minus]

theorem take_mantissaLength (text : List Char) :
    ∃ whole fraction, text.take (mantissaLength text) = whole ++ fraction ∧ AllDigits whole ∧
      IsFraction fraction := by
  have digits (text : List Char) : AllDigits (text.takeWhile Char.isDigit) :=
    List.all_eq_true.1 List.all_takeWhile
  unfold mantissaLength
  dsimp only
  split
  · rename_i rest behind
    split
    · exact ⟨_, [], by rw [take_runLength, List.append_nil], digits text, .inl rfl⟩
    · rename_i notZero
      refine ⟨text.takeWhile Char.isDigit, '.' :: rest.takeWhile Char.isDigit, ?_, digits text,
        .inr ⟨_, ?_, digits rest, rfl⟩⟩
      · rw [Nat.add_assoc, List.take_add, take_runLength, behind, Nat.add_comm 1,
          List.take_succ_cons, take_runLength]
      · intro empty
        exact notZero (congrArg List.length empty)
  · exact ⟨_, [], by rw [take_runLength, List.append_nil], digits text, .inl rfl⟩

theorem take_exponentLength (text : List Char) : IsExponent (text.take (exponentLength text)) := by
  unfold exponentLength
  split
  · exact .inl rfl
  · rename_i mark rest
    split
    · rename_i isMark
      dsimp only
      split
      · exact .inl rfl
      · rename_i notZero
        refine .inr ⟨mark, _, (rest.drop (signLength rest)).takeWhile Char.isDigit, by simpa using isMark,
          take_signLength rest, ?_, List.all_eq_true.1 List.all_takeWhile, ?_⟩
        · intro empty
          exact notZero (congrArg List.length empty)
        · rw [Nat.add_assoc, Nat.add_comm 1, List.take_succ_cons, List.take_add, take_runLength]
    · exact .inl rfl

theorem take_numberLength {text : List Char} (number : numberLength text ≠ 0) :
    ∃ sign whole fraction exponent,
      NumberParts (text.take (numberLength text)) sign whole fraction exponent := by
  unfold numberLength at number ⊢
  dsimp only at number ⊢
  split at number
  · exact absurd rfl number
  · rename_i notZero
    rw [if_neg notZero]
    obtain ⟨whole, fraction, mantissa, digits, isFraction⟩ :=
      take_mantissaLength (text.drop (signLength text))
    refine ⟨_, whole, fraction, _, ?_, take_signLength text, digits, isFraction, ?_,
      take_exponentLength (text.drop (signLength text + mantissaLength (text.drop (signLength text))))⟩
    · rw [← mantissa, ← List.drop_drop, Nat.add_assoc, List.take_add, List.take_add]
    · intro empty
      rw [empty, List.take_eq_nil_iff] at mantissa
      rcases mantissa with none | atEnd
      · exact notZero none
      · rw [atEnd] at notZero
        exact notZero rfl

/-! Reading a number again -/

def endsDigits (text : List Char) : Bool :=
  !text.head?.any Char.isDigit && !(text.head? == some '.' && text.tail.head?.any Char.isDigit)

theorem head?_of_endsDigits {text : List Char} (ends : endsDigits text = true) :
    text.head?.any Char.isDigit = false := by
  rw [endsDigits, Bool.and_eq_true, Bool.not_eq_true'] at ends
  exact ends.1

theorem signLength_append {sign rest : List Char} (isSign : IsSign sign)
    (noSign : ∀ c ∈ rest.head?, c ≠ '+' ∧ c ≠ '-') :
    signLength (sign ++ rest) = sign.length := by
  rcases isSign with rfl | rfl | rfl
  · cases rest with
    | nil => rfl
    | cons first more =>
        obtain ⟨notPlus, notMinus⟩ := noSign first rfl
        simp [signLength, runLength, notPlus, notMinus]
  · simp [signLength, runLength]
  · simp [signLength, runLength]

theorem mantissaLength_append {whole fraction rest : List Char} (allDigits : AllDigits whole)
    (isFraction : IsFraction fraction) (ends : endsDigits rest = true) :
    mantissaLength (whole ++ fraction ++ rest) = (whole ++ fraction).length := by
  have notDigit := head?_of_endsDigits ends
  unfold mantissaLength
  rcases isFraction with rfl | ⟨digits, some, allFraction, rfl⟩
  · rw [List.append_nil, runLength_append allDigits notDigit]
    dsimp only
    rw [List.drop_left]
    split
    · rename_i more
      -- A point behind the digits is no part of the number, for no digit follows it.
      have none : runLength Char.isDigit more = 0 := by
        rw [endsDigits] at ends
        cases more with
        | nil => rfl
        | cons second more =>
            have fails : second.isDigit = false := by
              have both : '.'.isDigit = false ∧ second.isDigit = false := by simpa using ends
              exact both.2
            simp [runLength, fails]
      rw [if_pos none]
    · rfl
  · rw [List.append_assoc, runLength_append allDigits (by rfl)]
    dsimp only
    rw [List.drop_left]
    have run : runLength Char.isDigit (digits ++ rest) = digits.length :=
      runLength_append allFraction notDigit
    have notZero : digits.length ≠ 0 := fun zero => some (List.length_eq_zero_iff.1 zero)
    simp only [List.cons_append, run, if_neg notZero, List.length_append, List.length_cons]
    omega

theorem exponentLength_append {exponent rest : List Char} (isExponent : IsExponent exponent)
    (notDigit : rest.head?.any Char.isDigit = false)
    (ends : exponent = [] → exponentLength rest = 0) :
    exponentLength (exponent ++ rest) = exponent.length := by
  rcases isExponent with rfl | ⟨mark, sign, digits, isMark, isSign, some, allDigits, rfl⟩
  · exact ends rfl
  · obtain ⟨first, more, rfl⟩ := List.exists_cons_of_ne_nil some
    have isFirst := allDigits first List.mem_cons_self
    have noSign : ∀ c ∈ ((first :: more) ++ rest).head?, c ≠ '+' ∧ c ≠ '-' := by
      rintro c here
      obtain rfl := Option.some.inj here
      constructor <;> rintro rfl <;> cases isFirst
    rw [List.cons_append, List.append_assoc]
    unfold exponentLength
    dsimp only
    rw [if_pos (by simpa using isMark), signLength_append isSign noSign, List.drop_left,
      runLength_append allDigits notDigit, if_neg (by simp)]
    simp only [List.length_cons, List.length_append]
    omega

theorem numberLength_append {text sign whole fraction exponent rest : List Char}
    (parts : NumberParts text sign whole fraction exponent) (endsRest : endsDigits rest = true)
    (noExponent : exponent = [] → exponentLength rest = 0) :
    numberLength (text ++ rest) = text.length := by
  have endsMantissa : endsDigits (exponent ++ rest) = true := by
    rcases parts.isExponent with rfl | ⟨mark, sign, digits, isMark, -, -, -, rfl⟩
    · exact endsRest
    · rcases isMark with rfl | rfl <;> rfl
  -- A number without a sign begins with a digit or a point, so no sign is read.
  have noSign : ∀ c ∈ (whole ++ fraction ++ (exponent ++ rest)).head?, c ≠ '+' ∧ c ≠ '-' := by
    intro c here
    have mantissa : ∀ c ∈ (whole ++ fraction).head?, c ≠ '+' ∧ c ≠ '-' := by
      intro c here
      cases whole with
      | nil =>
          rcases parts.isFraction with rfl | ⟨digits, -, -, rfl⟩
          · cases here
          · obtain rfl := Option.some.inj here
            decide
      | cons first more =>
          obtain rfl := Option.some.inj here
          have isFirst := parts.allDigits first List.mem_cons_self
          constructor <;> rintro rfl <;> cases isFirst
    obtain ⟨first, more, same⟩ := List.exists_cons_of_ne_nil parts.some
    rw [same] at here mantissa
    exact mantissa c here
  have notZero : (whole ++ fraction).length ≠ 0 := fun zero =>
    parts.some (List.length_eq_zero_iff.1 zero)
  have whole_text : text ++ rest = sign ++ (whole ++ fraction ++ (exponent ++ rest)) := by
    rw [parts.joined]
    simp only [List.append_assoc]
  rw [whole_text]
  unfold numberLength
  dsimp only
  rw [signLength_append parts.isSign noSign, List.drop_left,
    mantissaLength_append parts.allDigits parts.isFraction endsMantissa, if_neg notZero,
    ← List.append_assoc, ← List.length_append, List.drop_left,
    exponentLength_append parts.isExponent (head?_of_endsDigits endsRest) noExponent, parts.joined]
  simp only [List.length_append]
  omega

/-! Ranges of characters -/

theorem hexValue?_digitChar :
    ∀ digit < 16, hexValue? (Nat.digitChar digit).toUpper = some digit := by
  decide

theorem upperHex_small {n : Nat} (small : n < 16) : upperHex n = [(Nat.digitChar n).toUpper] := by
  rw [upperHex, Nat.toDigits_of_lt_base small]
  rfl

theorem upperHex_large {n : Nat} (large : 16 ≤ n) :
    upperHex n = upperHex (n / 16) ++ [(Nat.digitChar (n % 16)).toUpper] := by
  rw [upperHex, Nat.toDigits_of_base_le (by decide) large, List.map_append]
  rfl

theorem hexNumber_upperHex (n : Nat) : hexNumber (upperHex n) = n := by
  induction n using Nat.strongRecOn with
  | _ n ih =>
      by_cases small : n < 16
      · rw [upperHex_small small]
        simp [hexNumber, hexValue?_digitChar n small]
      · have rest := ih (n / 16) (by omega)
        rw [upperHex_large (by omega)]
        unfold hexNumber at rest ⊢
        rw [List.foldl_append, rest]
        simp only [List.foldl_cons, List.foldl_nil,
          hexValue?_digitChar (n % 16) (Nat.mod_lt _ (by decide)), Option.getD_some]
        omega

theorem isHexDigit_upperHex (n : Nat) : ∀ c ∈ upperHex n, isHexDigit c = true := by
  induction n using Nat.strongRecOn with
  | _ n ih =>
      have isHex (digit : Nat) (small : digit < 16) :
          isHexDigit (Nat.digitChar digit).toUpper = true := by
        rw [isHexDigit, hexValue?_digitChar digit small]
        rfl
      intro c here
      by_cases small : n < 16
      · rw [upperHex_small small, List.mem_singleton] at here
        rw [here]
        exact isHex n small
      · rw [upperHex_large (by omega), List.mem_append, List.mem_singleton] at here
        rcases here with before | rfl
        · exact ih (n / 16) (by omega) c before
        · exact isHex _ (Nat.mod_lt _ (by decide))

theorem length_upperHex_le {n count : Nat} (fits : n < 16 ^ (count + 1)) :
    (upperHex n).length ≤ count + 1 := by
  induction count generalizing n with
  | zero =>
      rw [upperHex_small (by simpa using fits)]
      exact Nat.le_refl 1
  | succ count ih =>
      by_cases small : n < 16
      · rw [upperHex_small small]
        simp
      · rw [upperHex_large (by omega), List.length_append]
        have fewer := ih (n := n / 16) (by rw [Nat.pow_succ] at fits; omega)
        simp only [List.length_cons, List.length_nil]
        omega

theorem upperHex_ne_nil (n : Nat) : upperHex n ≠ [] := by
  unfold upperHex
  simp [Nat.toDigits_ne_nil]

theorem escapeDigits_append {digits rest : List Char} (allHex : ∀ c ∈ digits, isHexDigit c = true)
    (short : digits.length ≤ 6) (stops : rest.head?.any isHexDigit = false) :
    escapeDigits (digits ++ rest) = digits := by
  unfold escapeDigits
  rw [List.take_append, List.take_of_length_le short, List.takeWhile_append_of_pos allHex]
  cases rest with
  | nil => simp
  | cons first more =>
      have fails : isHexDigit first = false := by simpa using stops
      cases 6 - digits.length with
      | zero => simp
      | succ count => simp [fails]

def endsRange (text : List Char) : Bool :=
  !text.head?.any (fun c => isHexDigit c || c == '?') &&
    !(text.head? == some '-' && text.tail.head?.any isHexDigit)

theorem questionMarks_append {digits rest : List Char} (short : digits.length ≤ 6)
    (noMark : rest.head? ≠ some '?') :
    runLength (· == '?') (((digits ++ rest).take 6).drop digits.length) = 0 := by
  rw [List.take_append, List.take_of_length_le short, List.drop_left]
  cases rest with
  | nil => simp [runLength]
  | cons first more =>
      have other : first ≠ '?' := fun same => noMark (congrArg some same)
      cases 6 - digits.length with
      | zero => rfl
      | succ count => simp [runLength, other]

theorem characterRange_single {n : Nat} (fits : n < 16 ^ 6) {rest : List Char}
    (ends : endsRange rest = true) :
    characterRange (upperHex n ++ rest) = (.characterRange n n, (upperHex n).length) := by
  have short := length_upperHex_le fits
  simp only [endsRange, Bool.and_eq_true, Bool.not_eq_true'] at ends
  have notHex : rest.head?.any isHexDigit = false := by
    cases rest <;> simp_all
  have noMark : rest.head? ≠ some '?' := by
    cases rest <;> simp_all
  have digits := escapeDigits_append (isHexDigit_upperHex n) short notHex
  unfold escapeDigits at digits
  unfold characterRange
  dsimp only
  rw [digits, questionMarks_append short noMark, hexNumber_upperHex, if_neg (by simp),
    List.drop_left]
  split
  · rename_i more
    have none : (more.take 6).takeWhile isHexDigit = [] := by
      cases more <;> simp_all
    rw [none]
    rfl
  · rfl

theorem characterRange_double {first last : Nat} (firstFits : first < 16 ^ 6)
    (lastFits : last < 16 ^ 6) {rest : List Char} (ends : endsRange rest = true) :
    characterRange (upperHex first ++ '-' :: (upperHex last ++ rest)) =
      (.characterRange first last, (upperHex first).length + 1 + (upperHex last).length) := by
  have shortFirst := length_upperHex_le firstFits
  have shortLast := length_upperHex_le lastFits
  simp only [endsRange, Bool.and_eq_true, Bool.not_eq_true'] at ends
  have notHex : rest.head?.any isHexDigit = false := by
    cases rest <;> simp_all
  have digitsFirst : escapeDigits (upperHex first ++ '-' :: (upperHex last ++ rest)) =
      upperHex first :=
    escapeDigits_append (isHexDigit_upperHex first) shortFirst rfl
  have digitsLast := escapeDigits_append (isHexDigit_upperHex last) shortLast notHex
  have notEmpty : (upperHex last).isEmpty = false := by simp [upperHex_ne_nil]
  unfold escapeDigits at digitsFirst digitsLast
  unfold characterRange
  dsimp only
  rw [digitsFirst, questionMarks_append shortFirst (by simp), if_neg (by simp), List.drop_left]
  simp only
  rw [digitsLast, notEmpty, hexNumber_upperHex, hexNumber_upperHex]
  rfl

theorem hexValue?_lt (c : Char) : (hexValue? c).getD 0 < 16 := by
  unfold hexValue?
  simp only [Bool.and_eq_true, decide_eq_true_eq]
  split
  · rename_i decimal
    have above : c.toNat ≤ 57 := decimal.2
    have zero : '0'.toNat = 48 := rfl
    rw [Option.getD_some, zero]
    omega
  · split
    · rename_i small
      have above : c.toNat ≤ 102 := small.2
      have letter : 'a'.toNat = 97 := rfl
      rw [Option.getD_some, letter]
      omega
    · split
      · rename_i capital
        have above : c.toNat ≤ 70 := capital.2
        have letter : 'A'.toNat = 65 := rfl
        rw [Option.getD_some, letter]
        omega
      · decide

theorem hexNumber_lt {digits : List Char} (short : digits.length ≤ 6) :
    hexNumber digits < 16 ^ 6 := by
  have bound (digits : List Char) (start count : Nat) (small : start < 16 ^ count) :
      digits.foldl (fun value c => value * 16 + (hexValue? c).getD 0) start <
        16 ^ (count + digits.length) := by
    induction digits generalizing start count with
    | nil => exact small
    | cons first rest ih =>
        have next := ih (start * 16 + (hexValue? first).getD 0) (count + 1) (by
          have := hexValue?_lt first
          rw [Nat.pow_succ]
          omega)
        rwa [Nat.add_assoc, Nat.add_comm 1] at next
  have whole := bound digits 0 0 (by decide)
  rw [Nat.zero_add] at whole
  exact Nat.lt_of_lt_of_le whole (Nat.pow_le_pow_right (by decide) short)

theorem characterRange_lt (text : List Char) :
    ∃ first last, (characterRange text).1 = .characterRange first last ∧
      first < 16 ^ 6 ∧ last < 16 ^ 6 := by
  have short (text : List Char) : ((text.take 6).takeWhile isHexDigit).length ≤ 6 :=
    Nat.le_trans (List.takeWhile_sublist _).length_le (List.length_take_le _ _)
  have marks : runLength (· == '?')
      ((text.take 6).drop ((text.take 6).takeWhile isHexDigit).length) ≤
        6 - ((text.take 6).takeWhile isHexDigit).length := by
    refine Nat.le_trans (runLength_le _ _) ?_
    rw [List.length_drop]
    have := List.length_take_le 6 text
    omega
  unfold characterRange
  dsimp only
  split
  · refine ⟨_, _, rfl, hexNumber_lt ?_, hexNumber_lt ?_⟩ <;>
      rw [List.length_append, List.length_replicate] <;>
      have := short text <;> omega
  · split
    · split
      · exact ⟨_, _, rfl, hexNumber_lt (short text), hexNumber_lt (short text)⟩
      · exact ⟨_, _, rfl, hexNumber_lt (short text), hexNumber_lt (short _)⟩
    · exact ⟨_, _, rfl, hexNumber_lt (short text), hexNumber_lt (short text)⟩

end SheetScript.Css
