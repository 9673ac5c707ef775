import SheetScript.Proofs.Css.Numbers

/-! What the leaves hold that are read from a normalised source. -/

namespace SheetScript.Css

open SheetScript.Text

def isClean (c : Char) : Bool :=
  c != '\x00' && c != '\r' && c != '\x0c'

def Clean (text : List Char) : Prop :=
  ∀ c ∈ text, isClean c = true

theorem Clean.append {front rest : List Char} (front_clean : Clean front) (rest_clean : Clean rest) :
    Clean (front ++ rest) :=
  fun c here => (List.mem_append.1 here).elim (front_clean c) (rest_clean c)

theorem Clean.drop {text : List Char} (clean : Clean text) (count : Nat) : Clean (text.drop count) :=
  fun c here => clean c (List.mem_of_mem_drop here)

theorem Clean.take {text : List Char} (clean : Clean text) (count : Nat) : Clean (text.take count) :=
  fun c here => clean c (List.mem_of_mem_take here)

theorem Clean.tail {first : Char} {rest : List Char} (clean : Clean (first :: rest)) : Clean rest :=
  fun c here => clean c (List.mem_cons_of_mem _ here)

theorem Clean.ne_zero {first : Char} {rest : List Char} (clean : Clean (first :: rest)) :
    '\x00' ≠ first := by
  rintro rfl
  exact absurd (clean _ List.mem_cons_self) (by decide)

theorem clean_normalise (text : List Char) : Clean (normalise text) := by
  fun_induction normalise text with
  | case1 => nofun
  | case2 rest ih =>
      intro c here
      rcases List.mem_cons.1 here with rfl | behind
      · rfl
      · exact ih c behind
  | case3 first rest notBreak ih =>
      intro c here
      rcases List.mem_cons.1 here with rfl | behind
      · split
        · rfl
        · split
          · rfl
          · rename_i notReturn notZero
            simp only [Bool.or_eq_true, beq_iff_eq, not_or] at notReturn notZero
            simp [isClean, notReturn, notZero]
      · exact ih c behind

theorem normalise_clean {text : List Char} (clean : Clean text) : normalise text = text := by
  fun_induction normalise text with
  | case1 => rfl
  | case2 rest ih => exact absurd (clean '\r' List.mem_cons_self) (by decide)
  | case3 first rest notBreak ih =>
      have isFirst := clean first List.mem_cons_self
      simp only [isClean, Bool.and_eq_true, bne_iff_ne, ne_eq] at isFirst
      rw [ih fun c here => clean c (List.mem_cons_of_mem _ here)]
      simp [isFirst]

/-! Names -/

/-- A name as it can be read; NUL is no part of one. -/
def NameText (name : List Char) : Prop :=
  name ≠ [] ∧ '\x00' ∉ name

theorem charOfNumber_ne_zero (n : Nat) : charOfNumber n ≠ '\x00' := by
  unfold charOfNumber
  split
  · rename_i valid
    intro same
    have number : (Char.ofNat n).toNat = n := by
      simp [Char.ofNat, valid.2, Char.ofNatAux, Char.toNat]
    rw [same] at number
    exact valid.1 number.symm
  · decide

theorem escape_ne_zero {text : List Char} (clean : Clean text) : (escape text).1 ≠ '\x00' := by
  cases text with
  | nil => decide
  | cons first rest =>
      cases hex : isHexDigit first with
      | false =>
          rw [escape_of_not_hex rest hex]
          rintro rfl
          exact absurd (clean _ List.mem_cons_self) (by decide)
      | true =>
          rw [escape_of_hex rest hex]
          exact charOfNumber_ne_zero _

theorem zero_not_mem_name {text : List Char} (clean : Clean text) : '\x00' ∉ (name text).1 := by
  fun_induction name text with
  | case1 => nofun
  | case2 first rest isChar more count found ih =>
      have behind := ih clean.tail
      rw [found] at behind
      exact List.not_mem_cons_of_ne_of_not_mem clean.ne_zero behind
  | case3 first rest notChar escapes escaped taken isEscape more count found ih =>
      have here := escape_ne_zero clean.tail
      have behind := ih (clean.tail.drop taken)
      rw [isEscape] at here
      rw [found] at behind
      exact List.not_mem_cons_of_ne_of_not_mem here.symm behind
  | case4 => nofun

theorem name_ne_nil {text : List Char} (goesOn : endsName text = false) : (name text).1 ≠ [] := by
  rcases name_cases text with ends | ⟨first, rest, rfl, isChar | ⟨notChar, escapes⟩⟩
  · rw [ends] at goesOn
    cases goesOn
  · rw [name_char rest isChar]
    exact List.cons_ne_nil _ _
  · rw [name_escape rest notChar escapes]
    exact List.cons_ne_nil _ _

theorem endsName_of_startsIdent {text : List Char} (starts : startsIdent text = true) :
    endsName text = false := by
  cases text with
  | nil => cases starts
  | cons first rest =>
      rw [startsIdent_cons] at starts
      unfold endsName
      split at starts
      · rename_i minus
        subst minus
        rfl
      · rcases Bool.or_eq_true_iff.1 starts with isStart | escapes
        · simp [isNameChar, isStart]
        · simp [escapes]

theorem nameText_name {text : List Char} (clean : Clean text) (starts : startsIdent text = true) :
    NameText (name text).1 :=
  ⟨name_ne_nil (endsName_of_startsIdent starts), zero_not_mem_name clean⟩

def startsPlain : List Char → Bool
  | '-' :: rest => rest.head?.all fun c => isNameChar c && !isNameStart c && c != '-'
  | first :: _ => isNameChar first && !isNameStart first
  | [] => false

theorem startsPlain_name {text : List Char} (goesOn : endsName text = false)
    (notIdent : startsIdent text = false) : startsPlain (name text).1 = true := by
  -- The name goes on, but not as an identifier: it begins with a digit, or a hyphen before one.
  rcases name_cases text with ends | ⟨first, rest, rfl, isChar | ⟨notChar, escapes⟩⟩
  · rw [ends] at goesOn
    cases goesOn
  · rw [name_char rest isChar]
    rw [startsIdent_cons] at notIdent
    by_cases minus : first = '-'
    · subst minus
      rw [if_pos rfl, Bool.or_eq_false_iff] at notIdent
      rcases name_cases rest with ends | ⟨second, more, rfl, isSecond | ⟨-, escapesBehind⟩⟩
      · rw [name_of_endsName ends]
        rfl
      · rw [name_char more isSecond]
        have notStart := notIdent.1
        simp only [List.head?_cons, Option.any_some, Bool.or_eq_false_iff] at notStart
        have notMinus := ne_of_beq_false notStart.2
        simp [startsPlain, isSecond, notStart.1, notMinus]
      · rw [escapesBehind] at notIdent
        cases notIdent.2
    · rw [if_neg minus, Bool.or_eq_false_iff] at notIdent
      unfold startsPlain
      simp [isChar, notIdent.1]
  · rw [startsIdent_cons] at notIdent
    split at notIdent
    · rename_i minus
      rw [minus] at notChar
      cases notChar
    · rw [escapes, Bool.or_true] at notIdent
      cases notIdent

/-! Quoted texts and addresses -/

theorem zero_not_mem_quotedText {quote : Char} {text : List Char} (clean : Clean text) :
    '\x00' ∉ (quotedText quote text).1 := by
  fun_induction quotedText quote text with
  | case1 => nofun
  | case2 => nofun
  | case3 => nofun
  | case4 => nofun
  | case5 first notQuote notNewline backslash rest more ending count found ih =>
      have behind := ih clean.tail.tail
      rwa [found] at behind
  | case6 first notQuote notNewline backslash rest some noNewline escaped taken isEscape more ending
      count found ih =>
      have here := escape_ne_zero clean.tail
      have behind := ih (clean.tail.drop taken)
      rw [isEscape] at here
      rw [found] at behind
      exact List.not_mem_cons_of_ne_of_not_mem here.symm behind
  | case7 first rest notQuote notNewline notBackslash more ending count found ih =>
      have behind := ih clean.tail
      rw [found] at behind
      exact List.not_mem_cons_of_ne_of_not_mem clean.ne_zero behind

theorem zero_not_mem_addressText {text : List Char} (clean : Clean text) :
    '\x00' ∉ (addressText text).1 := by
  fun_induction addressText text with
  | case1 => nofun
  | case2 => nofun
  | case3 => nofun
  | case4 first rest notClose notBlank escapes escaped taken isEscape more ending count found ih =>
      have here := escape_ne_zero clean.tail
      have behind := ih (clean.tail.drop taken)
      rw [isEscape] at here
      rw [found] at behind
      exact List.not_mem_cons_of_ne_of_not_mem here.symm behind
  | case5 => nofun
  | case6 first rest notClose notBlank noEscape fits more ending count found ih =>
      have behind := ih clean.tail
      rw [found] at behind
      exact List.not_mem_cons_of_ne_of_not_mem clean.ne_zero behind

/-! Leaves -/

def NumberText (text : List Char) : Prop :=
  (∃ sign whole fraction exponent, NumberParts text sign whole fraction exponent) ∧
    startsIdent text = false ∧ Clean text

def isMarkChar (c : Char) : Bool :=
  isClean c && !isBlankChar c && !isNameStart c && !c.isDigit &&
    !(['"', '\'', '(', ')', '[', ']', '\x7b', '\x7d'].contains c)

def longMarks : List (List Char) :=
  ["-->", "<!--", "||", "~=", "|=", "^=", "$=", "*="].map String.toList

def Leaf.Sound : Leaf → Prop
  | .blank text => text ≠ [] ∧ ∀ c ∈ text, isBlankChar c = true
  | .mark text => text ∈ longMarks ∨ ∃ c, isMarkChar c = true ∧ text = [c]
  | .ident name | .atKeyword name => NameText name
  | .hash name isIdent => NameText name ∧ (isIdent = false → startsPlain name = true)
  | .quoted value _ | .address value _ => '\x00' ∉ value
  | .characterRange first last => first < 16 ^ 6 ∧ last < 16 ^ 6
  | .number text | .percentage text => NumberText text
  | .dimension text unit => NumberText text ∧ NameText unit

theorem nameToken_sound {text : List Char} (clean : Clean text) (starts : startsIdent text = true)
    {leaf : Leaf} (isLeaf : (nameToken text).1 = .leaf leaf) : leaf.Sound := by
  unfold nameToken at isLeaf
  dsimp only at isLeaf
  split at isLeaf
  · rename_i rest behind
    have cleanRest : Clean rest := Clean.tail (behind ▸ clean.drop _)
    split at isLeaf
    · have noZero := zero_not_mem_addressText (cleanRest.drop (runLength isBlankChar rest))
      dsimp only at isLeaf
      split at isLeaf
      · obtain rfl := Token.leaf.inj isLeaf
        exact noZero
      · obtain rfl := Token.leaf.inj isLeaf
        exact noZero
      · cases isLeaf
    · cases isLeaf
  · obtain rfl := Token.leaf.inj isLeaf
    exact nameText_name clean starts

theorem not_mem_backslash_of_parts {text sign whole fraction exponent : List Char}
    (parts : NumberParts text sign whole fraction exponent) : '\\' ∉ text := by
  have notDigit {digits : List Char} (allDigits : AllDigits digits) : '\\' ∉ digits :=
    fun here => absurd (allDigits _ here) (by decide)
  have notSign {sign : List Char} (isSign : IsSign sign) : '\\' ∉ sign := by
    rcases isSign with rfl | rfl | rfl <;> decide
  have inFraction : '\\' ∉ fraction := by
    rcases parts.isFraction with rfl | ⟨digits, -, allDigits, rfl⟩
    · nofun
    · exact List.not_mem_cons_of_ne_of_not_mem (by decide) (notDigit allDigits)
  have inExponent : '\\' ∉ exponent := by
    rcases parts.isExponent with rfl | ⟨mark, sign, digits, isMark, isSign, -, allDigits, rfl⟩
    · nofun
    · refine List.not_mem_cons_of_ne_of_not_mem ?_ ?_
      · rcases isMark with rfl | rfl <;> decide
      · simp [notSign isSign, notDigit allDigits]
  rw [parts.joined]
  simp [notSign parts.isSign, notDigit parts.allDigits, inFraction, inExponent]

theorem startsIdent_take {text : List Char} (notIdent : startsIdent text = false) {count : Nat}
    (noEscape : '\\' ∉ text.take count) : startsIdent (text.take count) = false := by
  have plain {part : List Char} (noEscape : '\\' ∉ part) : startsEscape part = false := by
    cases part with
    | nil => rfl
    | cons first rest =>
        have other : first ≠ '\\' := fun same => noEscape (same ▸ List.mem_cons_self)
        simp [startsEscape_cons, other]
  -- Without escapes the first two characters decide, and they are cut off last.
  cases text with
  | nil => rw [List.take_nil]; rfl
  | cons first rest =>
      cases count with
      | zero => rfl
      | succ count =>
          rw [List.take_succ_cons] at noEscape ⊢
          rw [startsIdent_cons] at notIdent ⊢
          split
          · rename_i minus
            rw [if_pos minus, Bool.or_eq_false_iff] at notIdent
            rw [plain fun here => noEscape (List.mem_cons_of_mem _ here)]
            cases rest with
            | nil => simp
            | cons second rest =>
                cases count with
                | zero => rfl
                | succ count => simpa using notIdent.1
          · rename_i notMinus
            rw [if_neg notMinus, Bool.or_eq_false_iff] at notIdent
            rw [plain noEscape, notIdent.1]
            rfl

theorem numberToken_sound {text : List Char} (clean : Clean text)
    (notIdent : startsIdent text = false) (number : numberLength text ≠ 0)
    {leaf : Leaf} (isLeaf : (numberToken text (numberLength text)).1 = .leaf leaf) :
    leaf.Sound := by
  obtain ⟨sign, whole, fraction, exponent, parts⟩ := take_numberLength number
  have isNumber : NumberText (text.take (numberLength text)) :=
    ⟨⟨sign, whole, fraction, exponent, parts⟩,
      startsIdent_take notIdent (not_mem_backslash_of_parts parts), clean.take _⟩
  unfold numberToken at isLeaf
  dsimp only at isLeaf
  split at isLeaf
  · rename_i starts
    obtain rfl := Token.leaf.inj isLeaf
    exact ⟨isNumber, nameText_name (clean.drop _) starts⟩
  · split at isLeaf
    · obtain rfl := Token.leaf.inj isLeaf
      exact isNumber
    · obtain rfl := Token.leaf.inj isLeaf
      exact isNumber

theorem plainMark_sound {first : Char} {rest : List Char} (clean : Clean (first :: rest))
    (notBlank : isBlankChar first = false) (notStart : isNameStart first = false)
    (notDigit : first.isDigit = false) {leaf : Leaf}
    (isLeaf : (plainMark first rest).1 = .leaf leaf) : leaf.Sound := by
  unfold plainMark at isLeaf
  split at isLeaf
  · have noZero : '\x00' ∉ (quotedText first rest).1 := zero_not_mem_quotedText clean.tail
    dsimp only at isLeaf
    split at isLeaf
    · obtain rfl := Token.leaf.inj isLeaf
      exact noZero
    · obtain rfl := Token.leaf.inj isLeaf
      exact noZero
    · cases isLeaf
  · rename_i notQuote
    split at isLeaf
    · cases isLeaf
    · cases isLeaf
    · rename_i notOpening notClosing
      unfold matchMark at isLeaf
      split at isLeaf
      · rename_i long
        obtain rfl := Token.leaf.inj isLeaf
        simp only [List.contains_iff_mem, List.mem_cons, List.not_mem_nil, or_false,
          Bool.and_eq_true] at long
        left
        rcases long.1 with rfl | rfl | rfl | rfl | rfl <;> decide
      · obtain rfl := Token.leaf.inj isLeaf
        refine .inr ⟨first, ?_, rfl⟩
        -- Whatever a character can mean but itself has been ruled out before.
        have isFirst := clean first List.mem_cons_self
        have other : ['"', '\'', '(', ')', '[', ']', '\x7b', '\x7d'].contains first = false := by
          refine Bool.eq_false_iff.2 fun special => ?_
          simp only [List.contains_iff_mem, List.mem_cons, List.not_mem_nil, or_false] at special
          rcases special with rfl | rfl | rfl | rfl | rfl | rfl | rfl | rfl
          · exact notQuote rfl
          · exact notQuote rfl
          · cases notOpening
          · cases notClosing
          · cases notOpening
          · cases notClosing
          · cases notOpening
          · cases notClosing
        rw [isMarkChar, isFirst, notBlank, notStart, notDigit, other]
        rfl

theorem isDigit_of_numberLength {first : Char} {rest : List Char}
    (number : numberLength (first :: rest) = 0) : first.isDigit = false := by
  refine Bool.eq_false_iff.2 fun digit => ?_
  have noSign : signLength (first :: rest) = 0 := by
    have notPlus : first ≠ '+' := by rintro rfl; cases digit
    have notMinus : first ≠ '-' := by rintro rfl; cases digit
    simp [signLength, runLength, notPlus, notMinus]
  have some : 0 < runLength Char.isDigit (first :: rest) := by simp [runLength, digit]
  have mantissa : mantissaLength (first :: rest) ≠ 0 := by
    unfold mantissaLength
    dsimp only
    split
    · split <;> omega
    · omega
  unfold numberLength at number
  rw [noSign] at number
  dsimp only at number
  rw [List.drop_zero, if_neg mantissa] at number
  omega

theorem markToken_sound {first : Char} {rest : List Char} (clean : Clean (first :: rest))
    (notBlank : isBlankChar first = false) (notIdent : startsIdent (first :: rest) = false)
    (number : numberLength (first :: rest) = 0)
    {leaf : Leaf} (isLeaf : (markToken first rest).1 = .leaf leaf) : leaf.Sound := by
  have notStart : isNameStart first = false := by
    rw [startsIdent_cons] at notIdent
    split at notIdent
    · rename_i minus
      rw [minus]
      rfl
    · exact (Bool.or_eq_false_iff.1 notIdent).1
  have notDigit := isDigit_of_numberLength number
  cases isLong : isLongMark first rest with
  | false =>
      rw [markToken_plain isLong] at isLeaf
      exact plainMark_sound clean notBlank notStart notDigit isLeaf
  | true =>
      simp only [isLongMark, Bool.or_eq_true, Bool.and_eq_true, beq_iff_eq] at isLong
      -- The marks whose kind depends on what follows: `@`, `#`, `/*`, `<!--` and `||`.
      rcases isLong with (((rfl | rfl) | ⟨rfl, star⟩) | ⟨rfl, dashes⟩) | ⟨rfl, bar⟩
      · rw [markToken_at] at isLeaf
        split at isLeaf
        · rename_i starts
          obtain rfl := Token.leaf.inj isLeaf
          exact nameText_name clean.tail starts
        · obtain rfl := Token.leaf.inj isLeaf
          exact .inr ⟨'@', rfl, rfl⟩
      · rw [markToken_hash] at isLeaf
        split at isLeaf
        · rename_i goesOn
          have begins : endsName rest = false := by
            unfold endsName
            rcases Bool.or_eq_true_iff.1 goesOn with isChar | escapes
            · rw [isChar]
              rfl
            · rw [escapes, Bool.not_true, Bool.and_false]
          obtain rfl := Token.leaf.inj isLeaf
          exact ⟨⟨name_ne_nil begins, zero_not_mem_name clean.tail⟩, startsPlain_name begins⟩
        · obtain rfl := Token.leaf.inj isLeaf
          exact .inr ⟨'#', rfl, rfl⟩
      · obtain ⟨more, rfl⟩ := List.head?_eq_some_iff.1 star
        cases isLeaf
      · obtain ⟨more, rfl⟩ := List.isPrefixOf_iff_prefix.1 dashes
        obtain rfl := Token.leaf.inj isLeaf
        exact .inl (by decide)
      · obtain ⟨more, rfl⟩ := List.head?_eq_some_iff.1 bar
        obtain rfl := Token.leaf.inj isLeaf
        exact .inl (by decide)

theorem scan_sound {first : Char} {rest : List Char} (clean : Clean (first :: rest)) {leaf : Leaf}
    (isLeaf : (scan first rest).1 = .leaf leaf) : leaf.Sound := by
  -- The kinds of tokens in the order in which they are tried.
  unfold scan at isLeaf
  dsimp only at isLeaf
  split at isLeaf
  · rename_i blank
    obtain rfl := Token.leaf.inj isLeaf
    have some : runLength isBlankChar (first :: rest) ≠ 0 := by simp [runLength, blank]
    refine ⟨?_, ?_⟩
    · intro empty
      rcases List.take_eq_nil_iff.1 empty with none | none
      · exact some none
      · cases none
    · rw [take_runLength]
      exact List.all_eq_true.1 List.all_takeWhile
  · rename_i notBlank
    split at isLeaf
    · obtain ⟨low, high, same, lowFits, highFits⟩ := characterRange_lt (rest.drop 1)
      obtain rfl := Token.leaf.inj isLeaf
      rw [same]
      exact ⟨lowFits, highFits⟩
    · split at isLeaf
      · obtain rfl := Token.leaf.inj isLeaf
        exact .inl (by decide)
      · split at isLeaf
        · rename_i starts
          exact nameToken_sound clean starts isLeaf
        · rename_i notIdent
          split at isLeaf
          · rename_i none
            exact markToken_sound clean (by simpa using notBlank) (by simpa using notIdent) none isLeaf
          · rename_i some
            exact numberToken_sound clean (by simpa using notIdent) some isLeaf

end SheetScript.Css
