import SheetScript.Proofs.Css.Leaves

/-! Names, quoted texts and addresses that are read again from what they are written as. -/

namespace SheetScript.Css

open SheetScript.Text

theorem digit_bounds {c : Char} (digit : c.isDigit = true) : 48 ≤ c.toNat ∧ c.toNat < 58 := by
  simp only [Char.isDigit, Bool.and_eq_true, decide_eq_true_eq] at digit
  exact ⟨digit.1, Nat.lt_succ_of_le digit.2⟩

theorem isDigit_of_isNameStart {c : Char} (start : isNameStart c = true) : c.isDigit = false := by
  refine Bool.eq_false_iff.2 fun digit => ?_
  obtain ⟨low, high⟩ := digit_bounds digit
  simp only [isNameStart, Bool.or_eq_true, Bool.and_eq_true, decide_eq_true_eq, beq_iff_eq] at start
  have atLeast (first : Char) (le : first ≤ c) : first.toNat ≤ c.toNat := le
  rcases start with ((⟨small, -⟩ | ⟨capital, -⟩) | rfl) | large
  · have := atLeast _ small
    simp at this
    omega
  · have := atLeast _ capital
    simp at this
    omega
  · cases digit
  · have : '\x7f'.toNat < c.toNat := large
    simp at this
    omega

theorem isNameChar_of_isHexDigit {c : Char} (hex : isHexDigit c = true) : isNameChar c = true := by
  unfold isHexDigit hexValue? at hex
  unfold isNameChar isNameStart
  split at hex
  · rename_i decimal
    simp only [Bool.and_eq_true, decide_eq_true_eq] at decimal
    have digit : c.isDigit = true := by
      simp only [Char.isDigit, Bool.and_eq_true, decide_eq_true_eq]
      exact ⟨decimal.1, decimal.2⟩
    rw [digit]
    simp
  · split at hex
    · rename_i small
      simp only [Bool.and_eq_true, decide_eq_true_eq] at small
      have below : c ≤ 'z' := Char.le_trans small.2 (by decide)
      simp [small.1, below]
    · split at hex
      · rename_i capital
        simp only [Bool.and_eq_true, decide_eq_true_eq] at capital
        have below : c ≤ 'Z' := Char.le_trans capital.2 (by decide)
        simp [capital.1, below]
      · cases hex

theorem escape_letter {letter : Char} (hex : isHexDigit letter = true) (rest : List Char) :
    escape (letter :: ' ' :: rest) = (charOfNumber (hexNumber [letter]), 2) := by
  have digits : escapeDigits (letter :: ' ' :: rest) = [letter] := by
    have blank : isHexDigit ' ' = false := rfl
    simp [escapeDigits, hex, blank]
  rw [escape_of_hex _ hex, digits]
  rfl

theorem name_backslash {first : Char} (rest : List Char) (notNewline : first ≠ '\n') :
    name ('\\' :: first :: rest) =
      ((escape (first :: rest)).1 :: (name ((first :: rest).drop (escape (first :: rest)).2)).1,
        1 + (escape (first :: rest)).2 +
          (name ((first :: rest).drop (escape (first :: rest)).2)).2) :=
  name_escape _ rfl (by simp [startsEscape_cons, notNewline])

theorem name_escape_letter {letter : Char} (hex : isHexDigit letter = true)
    (notNewline : letter ≠ '\n') (rest : List Char) :
    name ('\\' :: letter :: ' ' :: rest) =
      (charOfNumber (hexNumber [letter]) :: (name rest).1, 3 + (name rest).2) := by
  rw [name_backslash _ notNewline, escape_letter hex]
  rfl

theorem name_escapeSpecial {c : Char} (notHex : isHexDigit c = false) (rest : List Char) :
    name (escapeSpecial c ++ rest) = (c :: (name rest).1, (escapeSpecial c).length + (name rest).2) := by
  unfold escapeSpecial
  split
  · exact name_escape_letter rfl (by decide) rest
  · exact name_escape_letter rfl (by decide) rest
  · exact name_escape_letter rfl (by decide) rest
  · rename_i notNewline notReturn notFeed
    have other : c ≠ '\n' := notNewline
    rw [List.cons_append, List.cons_append, name_backslash _ other, escape_of_not_hex _ notHex]
    rfl

theorem name_writeNameChar (c : Char) (rest : List Char) :
    name (writeNameChar c ++ rest) =
      (c :: (name rest).1, (writeNameChar c).length + (name rest).2) := by
  unfold writeNameChar
  split
  · rename_i isChar
    rw [List.singleton_append, name_char rest isChar, Nat.add_comm]
    rfl
  · rename_i notChar
    exact name_escapeSpecial (Bool.eq_false_iff.2 fun hex => notChar (isNameChar_of_isHexDigit hex)) rest

theorem name_writeName (found : List Char) {rest : List Char} (ends : endsName rest = true) :
    name (writeName found ++ rest) = (found, (writeName found).length) := by
  induction found with
  | nil => exact name_of_endsName ends
  | cons first more ih =>
      have written : writeName (first :: more) = writeNameChar first ++ writeName more := rfl
      rw [written, List.append_assoc, name_writeNameChar, ih, List.length_append]

theorem escape_digit {c : Char} (digit : c.isDigit = true) (rest : List Char) :
    escape ('3' :: c :: ' ' :: rest) = (c, 3) := by
  obtain ⟨low, high⟩ := digit_bounds digit
  have value : hexValue? c = some (c.toNat - 48) := by
    have decimal : ('0' ≤ c && c ≤ '9') = true := by
      simp only [Bool.and_eq_true, decide_eq_true_eq]
      exact ⟨low, Nat.le_of_lt_succ high⟩
    rw [hexValue?, if_pos decimal]
    rfl
  have hex : isHexDigit c = true := by
    rw [isHexDigit, value]
    rfl
  have digits : escapeDigits ('3' :: c :: ' ' :: rest) = ['3', c] := by
    have three : isHexDigit '3' = true := rfl
    have blank : isHexDigit ' ' = false := rfl
    simp [escapeDigits, hex, three, blank]
  have number : hexNumber ['3', c] = c.toNat := by
    have three : hexValue? '3' = some 3 := rfl
    simp only [hexNumber, List.foldl_cons, List.foldl_nil, value, three, Option.getD_some]
    omega
  have char : charOfNumber c.toNat = c := by
    have valid : c.toNat ≠ 0 ∧ c.toNat.isValidChar := ⟨by omega, c.valid⟩
    rw [charOfNumber, if_pos valid, Char.ofNat_toNat]
  rw [escape_of_hex _ rfl, digits, number, char]
  rfl

theorem name_writeNameStart (c : Char) (rest : List Char) :
    name (writeNameStart c ++ rest) =
      (c :: (name rest).1, (writeNameStart c).length + (name rest).2) := by
  unfold writeNameStart
  split
  · rename_i isStart
    rw [List.singleton_append, name_char rest (by simp [isNameChar, isStart]), Nat.add_comm]
    rfl
  · rename_i notStart
    have notStart : isNameStart c = false := Bool.eq_false_iff.2 notStart
    split
    · rename_i digit
      change name ('\\' :: '3' :: c :: ' ' :: rest) = _
      rw [name_backslash _ (by decide), escape_digit digit]
      rfl
    · rename_i notDigit
      refine name_escapeSpecial (Bool.eq_false_iff.2 fun hex => ?_) rest
      have isChar := isNameChar_of_isHexDigit hex
      simp only [isNameChar, notStart, Bool.eq_false_iff.2 notDigit, Bool.false_or,
        beq_iff_eq] at isChar
      rw [isChar] at hex
      cases hex

/-- The text of a name that is an identifier, and is read as one. -/
theorem name_writeIdent {found : List Char} (named : found ≠ []) {rest : List Char}
    (ends : endsName rest = true) :
    name (writeIdent found ++ rest) = (found, (writeIdent found).length) := by
  have minus (rest : List Char) : name ('-' :: rest) = ('-' :: (name rest).1, (name rest).2 + 1) :=
    name_char rest rfl
  unfold writeIdent
  split
  · exact absurd rfl named
  · change name ('\\' :: '-' :: rest) = _
    rw [name_backslash _ (by decide), escape_of_not_hex _ rfl]
    change (_ :: (name rest).1, 2 + (name rest).2) = _
    rw [name_of_endsName ends]
    rfl
  · rw [List.cons_append, List.cons_append, minus, minus, name_writeName _ ends]
    rfl
  · rw [List.append_assoc, List.cons_append, minus, name_writeNameStart, name_writeName _ ends]
    simp only [List.length_append, List.length_cons, Prod.mk.injEq, true_and]
    omega
  · rw [List.append_assoc, name_writeNameStart, name_writeName _ ends, List.length_append]

theorem escapeSpecial_cons (c : Char) :
    ∃ second more, escapeSpecial c = '\\' :: second :: more ∧ second ≠ '\n' := by
  unfold escapeSpecial
  split
  · exact ⟨_, _, rfl, by decide⟩
  · exact ⟨_, _, rfl, by decide⟩
  · exact ⟨_, _, rfl, by decide⟩
  · rename_i notNewline _ _
    exact ⟨c, _, rfl, notNewline⟩

theorem writeNameStart_cons (c : Char) :
    (writeNameStart c = [c] ∧ isNameStart c = true) ∨
      ∃ second more, writeNameStart c = '\\' :: second :: more ∧ second ≠ '\n' := by
  unfold writeNameStart
  split
  · rename_i isStart
    exact .inl ⟨rfl, isStart⟩
  · right
    split
    · exact ⟨'3', _, rfl, by decide⟩
    · exact escapeSpecial_cons c

theorem startsIdent_writeNameStart (c : Char) (rest : List Char) :
    startsIdent (writeNameStart c ++ rest) = true ∧
      startsIdent ('-' :: (writeNameStart c ++ rest)) = true := by
  rcases writeNameStart_cons c with ⟨written, isStart⟩ | ⟨second, more, written, notNewline⟩
  · have notMinus : c ≠ '-' := by
      rintro rfl
      cases isStart
    rw [written]
    simp [startsIdent_cons, isStart, notMinus]
  · rw [written]
    simp [startsIdent_cons, startsEscape_cons, notNewline]

theorem startsIdent_writeIdent {found : List Char} (named : found ≠ []) (rest : List Char) :
    startsIdent (writeIdent found ++ rest) = true := by
  unfold writeIdent
  split
  · exact absurd rfl named
  · rfl
  · rfl
  · rw [List.append_assoc, List.cons_append]
    exact (startsIdent_writeNameStart _ _).2
  · rw [List.append_assoc]
    exact (startsIdent_writeNameStart _ _).1

theorem startsEscape_char {c : Char} (isChar : isNameChar c = true) (rest : List Char) :
    startsEscape (c :: rest) = false := by
  have other : c ≠ '\\' := by
    rintro rfl
    cases isChar
  simp [startsEscape_cons, other]

theorem startsIdent_of_endsName {text : List Char} (ends : endsName text = true) :
    startsIdent text = false ∧ startsIdent ('-' :: text) = false := by
  simp only [endsName, Bool.and_eq_true, Bool.not_eq_true'] at ends
  obtain ⟨notChar, noEscape⟩ := ends
  rw [startsIdent_cons, if_pos rfl, noEscape]
  cases text with
  | nil => exact ⟨rfl, rfl⟩
  | cons first rest =>
      simp only [List.head?_cons, Option.any_some, isNameChar, Bool.or_eq_false_iff] at notChar ⊢
      have notMinus := ne_of_beq_false notChar.2
      rw [startsIdent_cons, if_neg notMinus, noEscape, notChar.1.1, notChar.2]
      simp

/-- A name that is no identifier is not read as one. -/
theorem startsIdent_writeName {found : List Char} (plain : startsPlain found = true)
    {rest : List Char} (ends : endsName rest = true) :
    startsIdent (writeName found ++ rest) = false := by
  have raw {c : Char} (isChar : isNameChar c = true) (more : List Char) :
      writeName (c :: more) = c :: writeName more := by
    have char : writeNameChar c = [c] := if_pos isChar
    rw [writeName, List.flatMap_cons, char]
    rfl
  unfold startsPlain at plain
  split at plain
  · rename_i more
    rw [raw rfl, List.cons_append]
    cases more with
    | nil => exact (startsIdent_of_endsName ends).2
    | cons second more =>
        simp only [List.head?_cons, Option.all_some, Bool.and_eq_true, Bool.not_eq_true',
          bne_iff_ne, ne_eq] at plain
        obtain ⟨⟨isChar, notStart⟩, notMinus⟩ := plain
        rw [raw isChar, List.cons_append, startsIdent_cons, if_pos rfl, startsEscape_char isChar]
        simp [notStart, notMinus]
  · rename_i first more notMinus
    simp only [Bool.and_eq_true, Bool.not_eq_true'] at plain
    rw [raw plain.1, List.cons_append, startsIdent_cons, if_neg notMinus,
      startsEscape_char plain.1, plain.2]
    rfl
  · cases plain

/-! Quoted texts -/

theorem quotedText_escape_letter {letter : Char} (hex : isHexDigit letter = true)
    (notNewline : letter ≠ '\n') (rest : List Char) :
    quotedText '"' ('\\' :: letter :: ' ' :: rest) =
      (charOfNumber (hexNumber [letter]) :: (quotedText '"' rest).1, (quotedText '"' rest).2.1,
        3 + (quotedText '"' rest).2.2) := by
  rw [quotedText_escape _ (by decide) notNewline, escape_letter hex]
  rfl

theorem quotedText_writeQuotedChar (c : Char) (rest : List Char) :
    quotedText '"' (writeQuotedChar c ++ rest) =
      (c :: (quotedText '"' rest).1, (quotedText '"' rest).2.1,
        (writeQuotedChar c).length + (quotedText '"' rest).2.2) := by
  unfold writeQuotedChar
  split
  · exact (quotedText_escape _ (by decide) (by decide)).trans
      (by rw [escape_of_not_hex _ rfl]; rfl)
  · exact (quotedText_escape _ (by decide) (by decide)).trans
      (by rw [escape_of_not_hex _ rfl]; rfl)
  · exact quotedText_escape_letter rfl (by decide) rest
  · exact quotedText_escape_letter rfl (by decide) rest
  · exact quotedText_escape_letter rfl (by decide) rest
  · rename_i notQuote notBackslash notNewline notReturn notFeed
    rw [List.singleton_append, quotedText_char rest notQuote notNewline notBackslash, Nat.add_comm]
    rfl

theorem quotedText_write (value rest : List Char) :
    quotedText '"' (value.flatMap writeQuotedChar ++ '"' :: rest) =
      (value, .closed, (value.flatMap writeQuotedChar).length + 1) := by
  induction value with
  | nil => exact quotedText_quote rest
  | cons first more ih =>
      rw [List.flatMap_cons, List.append_assoc, quotedText_writeQuotedChar, ih, List.length_append,
        Nat.add_assoc]

/-! Addresses -/

/-- Characters that break an address though they are written as they are. -/
def isUnprintable (c : Char) : Bool :=
  c == '\x0b' || c == '\x7f' || c ≤ '\x08' || ('\x0e' ≤ c && c ≤ '\x1f')

theorem addressText_escape_letter {letter : Char} (hex : isHexDigit letter = true)
    (notNewline : letter ≠ '\n') (rest : List Char) :
    addressText ('\\' :: letter :: ' ' :: rest) =
      (charOfNumber (hexNumber [letter]) :: (addressText rest).1, (addressText rest).2.1,
        3 + (addressText rest).2.2) := by
  rw [addressText_escape _ (by simp [startsEscape_cons, notNewline]), escape_letter hex]
  rfl

theorem addressText_escape_other {c : Char} (notHex : isHexDigit c = false) (notNewline : c ≠ '\n')
    (rest : List Char) :
    addressText ('\\' :: c :: rest) =
      (c :: (addressText rest).1, (addressText rest).2.1, 2 + (addressText rest).2.2) := by
  rw [addressText_escape _ (by simp [startsEscape_cons, notNewline]), escape_of_not_hex _ notHex]
  rfl

theorem addressText_writeAddressChar {c : Char} (printable : isUnprintable c = false)
    (rest : List Char) :
    addressText (writeAddressChar c ++ rest) =
      (c :: (addressText rest).1, (addressText rest).2.1,
        (writeAddressChar c).length + (addressText rest).2.2) := by
  unfold writeAddressChar
  split
  · exact addressText_escape_other rfl (by decide) rest
  · exact addressText_escape_other rfl (by decide) rest
  · exact addressText_escape_letter rfl (by decide) rest
  · exact addressText_escape_other rfl (by decide) rest
  · exact addressText_escape_other rfl (by decide) rest
  · rename_i notSingle notBlank notTab notOpening notClosing
    unfold writeQuotedChar
    split
    · exact addressText_escape_other rfl (by decide) rest
    · exact addressText_escape_other rfl (by decide) rest
    · exact addressText_escape_letter rfl (by decide) rest
    · exact addressText_escape_letter rfl (by decide) rest
    · exact addressText_escape_letter rfl (by decide) rest
    · rename_i notQuote notBackslash notNewline notReturn notFeed
      have dark : isBlankChar c = false := by simp_all [isBlankChar]
      have noEscape : startsEscape (c :: rest) = false := by simp_all [startsEscape_cons]
      have fits : breaksAddress c = false := by simp_all [breaksAddress, isUnprintable]
      rw [List.singleton_append, addressText_char rest notClosing dark noEscape fits, Nat.add_comm]
      rfl

theorem addressText_write {value : List Char} (printable : value.any isUnprintable = false)
    (rest : List Char) :
    addressText (value.flatMap writeAddressChar ++ ')' :: rest) =
      (value, .closed, (value.flatMap writeAddressChar).length + 1) := by
  induction value with
  | nil => exact addressText_close rest
  | cons first more ih =>
      rw [List.any_cons, Bool.or_eq_false_iff] at printable
      rw [List.flatMap_cons, List.append_assoc, addressText_writeAddressChar printable.1,
        ih printable.2, List.length_append, Nat.add_assoc]

end SheetScript.Css
