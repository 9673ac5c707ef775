import SheetScript.Proofs.Css.Tokens
import SheetScript.Proofs.Css.WrittenNames

/-! Leaves that are read again from what they are written as, if what follows does not merge. -/

namespace SheetScript.Css

open SheetScript.Text

/-! Which reader a text goes to -/

theorem startsRange_of_not_start {first : Char} {rest : List Char}
    (notStart : isNameStart first = false) : startsRange (first :: rest) = false := by
  unfold startsRange
  split
  · rename_i u c more same
    obtain ⟨rfl, -⟩ := List.cons.inj same
    have notCapital : first ≠ 'U' := by rintro rfl; cases notStart
    have notSmall : first ≠ 'u' := by rintro rfl; cases notStart
    simp [notCapital, notSmall]
  · rfl

theorem startsArrow_of_ne {first : Char} {rest : List Char} (notMinus : first ≠ '-') :
    "-->".toList.isPrefixOf (first :: rest) = false := by
  refine Bool.eq_false_iff.2 fun starts => ?_
  obtain ⟨more, same⟩ := List.isPrefixOf_iff_prefix.1 starts
  exact notMinus (List.cons.inj same).1.symm

theorem isNameStart_of_startsIdent {first : Char} {rest : List Char}
    (notIdent : startsIdent (first :: rest) = false) : isNameStart first = false := by
  rw [startsIdent_cons] at notIdent
  split at notIdent
  · rename_i minus
    rw [minus]
    rfl
  · exact (Bool.or_eq_false_iff.1 notIdent).1

theorem scan_nameToken {first : Char} {rest : List Char}
    (starts : startsIdent (first :: rest) = true) (noRange : startsRange (first :: rest) = false)
    (noArrow : "-->".toList.isPrefixOf (first :: rest) = false) :
    scan first rest = nameToken (first :: rest) := by
  have dark : isBlankChar first = false := by
    refine Bool.eq_false_iff.2 fun blank => ?_
    simp only [isBlankChar, Bool.or_eq_true, beq_iff_eq] at blank
    rcases blank with (rfl | rfl) | rfl <;> rw [startsIdent_cons] at starts <;> cases starts
  unfold scan
  dsimp only
  rw [dark, noRange, noArrow, starts]
  rfl

theorem scan_numberToken {first : Char} {rest : List Char} {count : Nat}
    (dark : isBlankChar first = false) (notIdent : startsIdent (first :: rest) = false)
    (noArrow : "-->".toList.isPrefixOf (first :: rest) = false)
    (number : numberLength (first :: rest) = count + 1) :
    scan first rest = numberToken (first :: rest) (count + 1) := by
  have noRange : startsRange (first :: rest) = false :=
    startsRange_of_not_start (isNameStart_of_startsIdent notIdent)
  unfold scan
  dsimp only
  rw [dark, noRange, noArrow, notIdent, number]
  rfl

theorem scan_markToken {first : Char} {rest : List Char} (dark : isBlankChar first = false)
    (notIdent : startsIdent (first :: rest) = false)
    (noArrow : "-->".toList.isPrefixOf (first :: rest) = false)
    (number : numberLength (first :: rest) = 0) : scan first rest = markToken first rest := by
  have noRange : startsRange (first :: rest) = false :=
    startsRange_of_not_start (isNameStart_of_startsIdent notIdent)
  unfold scan
  dsimp only
  rw [dark, noRange, noArrow, notIdent, number]
  rfl

/-- Characters that begin neither a blank, a name nor a number. -/
def beginsMark (c : Char) : Bool :=
  !isBlankChar c && !isNameStart c && !c.isDigit && !(['-', '+', '.', '\\'].contains c)

theorem mantissaLength_of_endsDigits {rest : List Char} (ends : endsDigits rest = true) :
    mantissaLength rest = 0 := by
  have none : AllDigits [] := nofun
  exact mantissaLength_append none (.inl rfl) ends

theorem numberLength_of_endsDigits {first : Char} {rest : List Char} (notPlus : first ≠ '+')
    (notMinus : first ≠ '-') (ends : endsDigits (first :: rest) = true) :
    numberLength (first :: rest) = 0 := by
  have noSign : signLength (first :: rest) = 0 := by simp [signLength, runLength, notPlus, notMinus]
  unfold numberLength
  dsimp only
  rw [noSign, List.drop_zero, if_pos (mantissaLength_of_endsDigits ends)]

theorem numberLength_of_sign {first : Char} {rest : List Char} (sign : first = '+' ∨ first = '-')
    (ends : endsDigits rest = true) : numberLength (first :: rest) = 0 := by
  have one : signLength (first :: rest) = 1 := by
    rcases sign with rfl | rfl <;> simp [signLength, runLength]
  unfold numberLength
  dsimp only
  rw [one, List.drop_succ_cons, List.drop_zero, if_pos (mantissaLength_of_endsDigits ends)]

theorem scan_beginsMark {first : Char} (begins : beginsMark first = true) (rest : List Char) :
    scan first rest = markToken first rest := by
  simp only [beginsMark, Bool.and_eq_true, Bool.not_eq_true', List.contains_eq_mem,
    decide_eq_false_iff_not, List.mem_cons, List.not_mem_nil, or_false, not_or] at begins
  obtain ⟨⟨⟨dark, notStart⟩, notDigit⟩, notMinus, notPlus, notPoint, notBackslash⟩ := begins
  have notIdent : startsIdent (first :: rest) = false := by
    simp [startsIdent_cons, startsEscape_cons, notMinus, notStart, notBackslash]
  have ends : endsDigits (first :: rest) = true := by
    simp [endsDigits, notDigit, notPoint]
  exact scan_markToken dark notIdent (startsArrow_of_ne notMinus)
    (numberLength_of_endsDigits notPlus notMinus ends)

/-! Names -/

theorem writeIdent_cons {found : List Char} (named : found ≠ []) :
    ∃ first more, writeIdent found = first :: more := by
  have starts := startsIdent_writeIdent named []
  cases written : writeIdent found with
  | nil =>
      rw [written] at starts
      cases starts
  | cons first more => exact ⟨first, more, rfl⟩

theorem writeIdent_cases {found : List Char} (named : found ≠ []) :
    (∃ more, writeIdent found = '\\' :: more) ∨ (∃ more, writeIdent found = '-' :: more) ∨
      ∃ first more, found = first :: more ∧ isNameStart first = true ∧
        writeIdent found = first :: writeName more := by
  unfold writeIdent
  split
  · exact absurd rfl named
  · exact .inl ⟨_, rfl⟩
  · exact .inr (.inl ⟨_, rfl⟩)
  · exact .inr (.inl ⟨_, rfl⟩)
  · rename_i first more _ _ _
    rcases writeNameStart_cons first with ⟨written, isStart⟩ | ⟨second, rest, written, -⟩
    · exact .inr (.inr ⟨first, more, rfl, isStart, by rw [written]; rfl⟩)
    · exact .inl ⟨_, by rw [written]; rfl⟩

theorem writeNameChar_cons (c : Char) :
    ∃ first more, writeNameChar c = first :: more ∧ (isNameChar first = true ∨ first = '\\') := by
  unfold writeNameChar
  split
  · rename_i isChar
    exact ⟨c, [], rfl, .inl isChar⟩
  · obtain ⟨second, more, same, -⟩ := escapeSpecial_cons c
    exact ⟨'\\', _, same, .inr rfl⟩

/-- Only the text behind a name can go on with a character that stands in no name. -/
theorem head?_writeName {found rest : List Char} {c : Char}
    (head : (writeName found ++ rest).head? = some c) (notChar : isNameChar c = false)
    (notBackslash : c ≠ '\\') : found = [] ∧ rest.head? = some c := by
  cases found with
  | nil => exact ⟨rfl, head⟩
  | cons first more =>
      obtain ⟨begin, behind, written, isName⟩ := writeNameChar_cons first
      rw [writeName, List.flatMap_cons, written] at head
      obtain rfl := Option.some.inj head
      rcases isName with isChar | backslash
      · rw [isChar] at notChar
        cases notChar
      · exact absurd backslash notBackslash

theorem startsRange_cons {first : Char} {rest : List Char}
    (range : startsRange (first :: rest) = true) :
    (first = 'u' ∨ first = 'U') ∧ rest.head? = some '+' := by
  unfold startsRange at range
  split at range
  · rename_i u c more same
    obtain ⟨rfl, rfl⟩ := List.cons.inj same
    simp only [Bool.and_eq_true, Bool.or_eq_true, beq_iff_eq] at range
    exact ⟨range.1.symm, rfl⟩
  · cases range

theorem startsRange_writeIdent {found rest : List Char} (named : found ≠ [])
    (range : startsRange (writeIdent found ++ rest) = true) :
    (found = ['u'] ∨ found = ['U']) ∧ startsRange (found ++ rest) = true := by
  unfold writeIdent at range
  split at range
  · exact absurd rfl named
  · rw [List.cons_append, startsRange_of_not_start rfl] at range
    cases range
  · rw [List.cons_append, startsRange_of_not_start rfl] at range
    cases range
  · rw [List.append_assoc, List.cons_append, startsRange_of_not_start rfl] at range
    cases range
  · rename_i first more _ _ _
    rcases writeNameStart_cons first with ⟨written, isStart⟩ | ⟨second, rest, written, -⟩
    · rw [written, List.append_assoc, List.singleton_append] at range
      obtain ⟨isU, plus⟩ := startsRange_cons range
      obtain ⟨rfl, -⟩ := head?_writeName plus rfl (by decide)
      refine ⟨?_, range⟩
      rcases isU with rfl | rfl
      · exact .inl rfl
      · exact .inr rfl
    · rw [written, List.cons_append, List.cons_append, startsRange_of_not_start rfl] at range
      cases range

theorem twoDashes_writeIdent {found rest behind : List Char} (named : found ≠ [])
    (same : writeIdent found ++ rest = '-' :: '-' :: behind) :
    ∃ more, found = '-' :: '-' :: more := by
  unfold writeIdent at same
  split at same
  · exact absurd rfl named
  · cases same
  · exact ⟨_, rfl⟩
  · rename_i second more notMinus
    injection same with _ same
    rcases writeNameStart_cons second with ⟨written, -⟩ | ⟨third, later, written, -⟩
    · rw [written] at same
      exact absurd (List.cons.inj same).1 notMinus
    · rw [written] at same
      cases same
  · rename_i first more _ _ _
    rcases writeNameStart_cons first with ⟨written, isStart⟩ | ⟨second, later, written, -⟩
    · rw [written] at same
      rw [(List.cons.inj same).1] at isStart
      cases isStart
    · rw [written] at same
      cases same

theorem startsArrow_writeIdent {found rest : List Char} (named : found ≠ [])
    (arrow : "-->".toList.isPrefixOf (writeIdent found ++ rest) = true) :
    found = ['-', '-'] ∧ rest.head? = some '>' := by
  obtain ⟨behind, same⟩ := List.isPrefixOf_iff_prefix.1 arrow
  obtain ⟨more, rfl⟩ := twoDashes_writeIdent named same.symm
  have inRest := (List.cons.inj (List.cons.inj same).2).2
  obtain ⟨rfl, close⟩ := head?_writeName (congrArg List.head? inRest.symm) rfl (by decide)
  exact ⟨rfl, close⟩

theorem tokens_of_written {written rest : List Char} {first : Char} {more : List Char} {token : Token}
    (cons : written = first :: more) (scanned : scan first (more ++ rest) = (token, written.length)) :
    tokens (written ++ rest) = ⟨token, written⟩ :: tokens rest := by
  subst cons
  exact tokens_of_scan scanned rfl

section

variable {found : List Char} (named : found ≠ []) {rest : List Char}

include named

theorem scan_writeIdent {first : Char} {more : List Char} (cons : writeIdent found = first :: more)
    (noRange : startsRange (writeIdent found ++ rest) = false)
    (noArrow : "-->".toList.isPrefixOf (writeIdent found ++ rest) = false) :
    scan first (more ++ rest) = nameToken (writeIdent found ++ rest) := by
  have starts := startsIdent_writeIdent named rest
  rw [cons] at starts noRange noArrow ⊢
  exact scan_nameToken starts noRange noArrow

theorem tokens_writeIdent (ends : endsName rest = true) (noParen : rest.head? ≠ some '(')
    (noRange : startsRange (writeIdent found ++ rest) = false)
    (noArrow : "-->".toList.isPrefixOf (writeIdent found ++ rest) = false) :
    tokens (writeIdent found ++ rest) =
      ⟨.leaf (.ident found), writeIdent found⟩ :: tokens rest := by
  obtain ⟨first, more, cons⟩ := writeIdent_cons named
  refine tokens_of_written cons ?_
  rw [scan_writeIdent named cons noRange noArrow, nameToken, name_writeIdent named ends]
  dsimp only
  rw [List.drop_left]
  split
  · rename_i behind
    exact absurd rfl noParen
  · rfl

theorem tokens_functionOpening (quoted : isUrlName found = true → quoteFollows rest = true) :
    tokens (writeIdent found ++ '(' :: rest) =
      ⟨.functionOpening found, writeIdent found ++ ['(']⟩ :: tokens rest := by
  obtain ⟨first, more, cons⟩ := writeIdent_cons named
  have noRange : startsRange (writeIdent found ++ '(' :: rest) = false := by
    refine Bool.eq_false_iff.2 fun range => ?_
    rcases (startsRange_writeIdent named range).1 with rfl | rfl
    · cases (startsRange_cons range).2
    · cases (startsRange_cons range).2
  have noArrow : "-->".toList.isPrefixOf (writeIdent found ++ '(' :: rest) = false :=
    Bool.eq_false_iff.2 fun arrow => nomatch (startsArrow_writeIdent named arrow).2
  have whole : writeIdent found ++ '(' :: rest = (writeIdent found ++ ['(']) ++ rest := by simp
  have scanned : scan first (more ++ ['('] ++ rest) =
      (.functionOpening found, (writeIdent found ++ ['(']).length) := by
    rw [List.append_assoc, List.singleton_append, scan_writeIdent named cons noRange noArrow,
      nameToken, name_writeIdent named rfl]
    dsimp only
    rw [List.drop_left]
    simp only
    rw [if_neg (by simpa using quoted), List.length_append]
    rfl
  rw [whole]
  exact tokens_of_written (by rw [cons]; rfl) scanned

end

/-- An address is written without a blank or a quote at its start. -/
theorem head?_writeAddress (value rest : List Char) :
    ∃ first more, value.flatMap writeAddressChar ++ ')' :: rest = first :: more ∧
      isBlankChar first = false ∧ first ≠ '"' ∧ first ≠ '\'' := by
  cases value with
  | nil => exact ⟨')', rest, rfl, rfl, by decide, by decide⟩
  | cons c more =>
      rw [List.flatMap_cons, List.append_assoc]
      generalize more.flatMap writeAddressChar ++ ')' :: rest = behind
      unfold writeAddressChar
      split
      · exact ⟨_, _, rfl, rfl, by decide, by decide⟩
      · exact ⟨_, _, rfl, rfl, by decide, by decide⟩
      · exact ⟨_, _, rfl, rfl, by decide, by decide⟩
      · exact ⟨_, _, rfl, rfl, by decide, by decide⟩
      · exact ⟨_, _, rfl, rfl, by decide, by decide⟩
      · rename_i notSingle notBlank notTab _ _
        unfold writeQuotedChar
        split
        · exact ⟨_, _, rfl, rfl, by decide, by decide⟩
        · exact ⟨_, _, rfl, rfl, by decide, by decide⟩
        · exact ⟨_, _, rfl, rfl, by decide, by decide⟩
        · exact ⟨_, _, rfl, rfl, by decide, by decide⟩
        · exact ⟨_, _, rfl, rfl, by decide, by decide⟩
        · rename_i notQuote _ notNewline _ _
          exact ⟨c, _, rfl, by simp_all [isBlankChar], notQuote, notSingle⟩

theorem tokens_address {value : List Char} (printable : value.any isUnprintable = false)
    (rest : List Char) :
    tokens (writeAddress value true ++ rest) =
      ⟨.leaf (.address value true), writeAddress value true⟩ :: tokens rest := by
  have cons : writeAddress value true =
      'u' :: 'r' :: 'l' :: '(' :: (value.flatMap writeAddressChar ++ [')']) := by
    simp [writeAddress]
  have behind : value.flatMap writeAddressChar ++ [')'] ++ rest =
      value.flatMap writeAddressChar ++ ')' :: rest := by simp
  have isName (rest : List Char) : name ('u' :: 'r' :: 'l' :: '(' :: rest) = (['u', 'r', 'l'], 3) :=
    name_writeIdent (List.cons_ne_nil 'u' ['r', 'l']) rfl
  have whole := addressText_write printable rest
  obtain ⟨first, more, written, dark, notDouble, notSingle⟩ := head?_writeAddress value rest
  have noBlanks : runLength isBlankChar (first :: more) = 0 := by simp [runLength, dark]
  have noQuote : quoteFollows (first :: more) = false := by
    simp [quoteFollows, dark, notDouble, notSingle]
  rw [written] at whole
  refine tokens_of_written cons ?_
  rw [List.cons_append, List.cons_append, List.cons_append, behind, written,
    scan_nameToken rfl rfl rfl, nameToken, isName]
  change (if (true && !quoteFollows (first :: more)) = true then _ else _) = _
  rw [noQuote, noBlanks, if_pos (by decide), cons]
  dsimp only
  rw [List.drop_zero, whole]
  refine Prod.ext rfl ?_
  simp only [List.length_cons, List.length_append, List.length_nil]
  omega

/-! Texts that begin with a mark -/

theorem tokens_atKeyword {found : List Char} (named : found ≠ []) {rest : List Char}
    (ends : endsName rest = true) :
    tokens ('@' :: writeIdent found ++ rest) =
      ⟨.leaf (.atKeyword found), '@' :: writeIdent found⟩ :: tokens rest := by
  refine tokens_of_written rfl ?_
  rw [scan_beginsMark rfl, markToken_at, if_pos (startsIdent_writeIdent named rest),
    name_writeIdent named ends, List.length_cons, Nat.add_comm]

theorem markToken_hash_name {text found : List Char} {count : Nat}
    (isName : name text = (found, count)) (named : found ≠ []) :
    markToken '#' text = (.leaf (.hash found (startsIdent text)), count + 1) := by
  have goesOn : (text.head?.any isNameChar || startsEscape text) = true := by
    cases ends : endsName text with
    | true =>
        rw [name_of_endsName ends] at isName
        exact absurd (Prod.mk.inj isName).1.symm named
    | false =>
        unfold endsName at ends
        cases isChar : text.head?.any isNameChar with
        | true => rfl
        | false => simpa [isChar] using ends
  rw [markToken_hash, if_pos goesOn, isName, Nat.add_comm]

theorem tokens_hash {found : List Char} {isIdent : Bool} (named : found ≠ [])
    (plain : isIdent = false → startsPlain found = true) {rest : List Char}
    (ends : endsName rest = true) :
    tokens (writeLeaf (.hash found isIdent) ++ rest) =
      ⟨.leaf (.hash found isIdent), writeLeaf (.hash found isIdent)⟩ :: tokens rest := by
  refine tokens_of_written rfl ?_
  rw [scan_beginsMark rfl]
  cases isIdent with
  | true =>
      have mark := markToken_hash_name (name_writeIdent named ends) named
      rw [startsIdent_writeIdent named rest] at mark
      exact mark
  | false =>
      have mark := markToken_hash_name (name_writeName found ends) named
      rw [startsIdent_writeName (plain rfl) ends] at mark
      exact mark

theorem tokens_quoted (value rest : List Char) :
    tokens (writeQuoted value true ++ rest) =
      ⟨.leaf (.quoted value true), writeQuoted value true⟩ :: tokens rest := by
  have cons : writeQuoted value true = '"' :: (value.flatMap writeQuotedChar ++ ['"']) := rfl
  have behind : value.flatMap writeQuotedChar ++ ['"'] ++ rest =
      value.flatMap writeQuotedChar ++ '"' :: rest := by simp
  refine tokens_of_written cons ?_
  rw [scan_beginsMark rfl, markToken_plain rfl, behind, plainMark, quotedText_write, cons]
  refine Prod.ext rfl ?_
  change 1 + ((value.flatMap writeQuotedChar).length + 1) = _
  simp only [List.length_cons, List.length_append, List.length_nil]
  omega

theorem tokens_characterRange {first last : Nat} (firstFits : first < 16 ^ 6)
    (lastFits : last < 16 ^ 6) {rest : List Char} (ends : endsRange rest = true) :
    tokens (writeLeaf (.characterRange first last) ++ rest) =
      ⟨.leaf (.characterRange first last), writeLeaf (.characterRange first last)⟩ ::
        tokens rest := by
  have scanned {behind : List Char} {count : Nat}
      (range : characterRange behind = (.characterRange first last, count)) (digit : Char)
      (more : List Char) (cons : behind = digit :: more) (hex : isHexDigit digit = true) :
      scan 'U' ('+' :: behind) = (.leaf (.characterRange first last), 2 + count) := by
    have starts : startsRange ('U' :: '+' :: behind) = true := by
      rw [cons]
      simp [startsRange, hex]
    unfold scan
    dsimp only
    rw [starts, List.drop_one, List.tail_cons, range]
    rfl
  obtain ⟨digit, digits, written⟩ := List.exists_cons_of_ne_nil (upperHex_ne_nil first)
  have hex : isHexDigit digit = true := isHexDigit_upperHex first digit (by rw [written]; simp)
  -- One code point is written once, a range with a hyphen between its ends.
  by_cases single : first = last
  · subst single
    have cons : writeLeaf (.characterRange first first) = 'U' :: '+' :: upperHex first := by
      simp [writeLeaf]
    refine tokens_of_written cons ?_
    rw [List.cons_append, cons, scanned (characterRange_single firstFits ends) digit
      (digits ++ rest) (by rw [written]; rfl) hex]
    simp only [List.length_cons, Prod.mk.injEq, true_and]
    omega
  · have cons : writeLeaf (.characterRange first last) =
        'U' :: '+' :: (upperHex first ++ '-' :: upperHex last) := by
      simp [writeLeaf, single]
    have whole : upperHex first ++ '-' :: upperHex last ++ rest =
        upperHex first ++ '-' :: (upperHex last ++ rest) := by simp
    refine tokens_of_written cons ?_
    rw [List.cons_append, whole, cons, scanned (characterRange_double firstFits lastFits ends) digit
      (digits ++ '-' :: (upperHex last ++ rest)) (by rw [written]; rfl) hex]
    simp only [List.length_cons, List.length_append, Prod.mk.injEq, true_and]
    omega

/-! Numbers -/

/-- What a number begins with behind its sign. -/
theorem mantissa_cons {whole fraction : List Char} (allDigits : AllDigits whole)
    (isFraction : IsFraction fraction) (some : whole ++ fraction ≠ []) :
    ∃ first more, whole ++ fraction = first :: more ∧ (first.isDigit = true ∨ first = '.') := by
  cases whole with
  | nil =>
      rcases isFraction with rfl | ⟨digits, -, -, rfl⟩
      · exact absurd rfl some
      · exact ⟨'.', digits, rfl, .inr rfl⟩
  | cons first more => exact ⟨first, _, rfl, .inl (allDigits first List.mem_cons_self)⟩

theorem number_cons {text sign whole fraction exponent : List Char}
    (parts : NumberParts text sign whole fraction exponent) :
    ∃ first more, text = first :: more ∧ isBlankChar first = false ∧
      (first = '-' → ∃ second rest, more = second :: rest ∧ second ≠ '-') := by
  obtain ⟨begin, behind, mantissa, isBegin⟩ :=
    mantissa_cons parts.allDigits parts.isFraction parts.some
  have dark : isBlankChar begin = false := by
    refine Bool.eq_false_iff.2 fun blank => ?_
    simp only [isBlankChar, Bool.or_eq_true, beq_iff_eq] at blank
    rcases blank with (rfl | rfl) | rfl <;> rcases isBegin with digit | point <;>
      first | cases digit | cases point
  have notMinus : begin ≠ '-' := by
    rintro rfl
    rcases isBegin with digit | point
    · cases digit
    · cases point
  rw [parts.joined, mantissa]
  rcases parts.isSign with rfl | rfl | rfl
  · exact ⟨begin, _, rfl, dark, fun minus => absurd minus notMinus⟩
  · exact ⟨'+', _, rfl, rfl, by simp⟩
  · exact ⟨'-', _, rfl, rfl, fun _ => ⟨begin, _, rfl, notMinus⟩⟩

theorem startsIdent_number {text : List Char} (isNumber : NumberText text) (rest : List Char) :
    startsIdent (text ++ rest) = false := by
  obtain ⟨⟨sign, whole, fraction, exponent, parts⟩, notIdent, -⟩ := isNumber
  obtain ⟨first, more, rfl, -, behindMinus⟩ := number_cons parts
  have noBackslash := not_mem_backslash_of_parts parts
  have noEscape {c : Char} (here : c ∈ first :: more) (rest : List Char) :
      startsEscape (c :: rest) = false := by
    have other : c ≠ '\\' := fun same => noBackslash (same ▸ here)
    simp [startsEscape_cons, other]
  rw [List.cons_append]
  by_cases minus : first = '-'
  · obtain ⟨second, behind, rfl, -⟩ := behindMinus minus
    subst minus
    rw [startsIdent_cons, if_pos rfl, Bool.or_eq_false_iff] at notIdent ⊢
    exact ⟨notIdent.1, noEscape (by simp) _⟩
  · rw [startsIdent_cons, if_neg minus, Bool.or_eq_false_iff] at notIdent ⊢
    exact ⟨notIdent.1, noEscape List.mem_cons_self _⟩

theorem scan_number {text : List Char} (isNumber : NumberText text) {rest : List Char}
    (number : numberLength (text ++ rest) = text.length) :
    ∃ first more, text = first :: more ∧
      scan first (more ++ rest) = numberToken (text ++ rest) text.length := by
  have notIdent := startsIdent_number isNumber rest
  obtain ⟨sign, whole, fraction, exponent, parts⟩ := isNumber.1
  obtain ⟨first, more, rfl, dark, behindMinus⟩ := number_cons parts
  refine ⟨first, more, rfl, scan_numberToken dark notIdent ?_ number⟩
  by_cases minus : first = '-'
  · obtain ⟨second, behind, rfl, notMinus⟩ := behindMinus minus
    refine Bool.eq_false_iff.2 fun arrow => ?_
    obtain ⟨tail, same⟩ := List.isPrefixOf_iff_prefix.1 arrow
    injection same with _ same
    injection same with same _
    exact notMinus same.symm
  · exact startsArrow_of_ne minus

theorem tokens_number {text : List Char} (isNumber : NumberText text) {rest : List Char}
    (ends : endsDigits rest = true) (noExponent : exponentLength rest = 0)
    (notIdent : startsIdent rest = false) (notPercent : rest.head? ≠ some '%') :
    tokens (text ++ rest) = ⟨.leaf (.number text), text⟩ :: tokens rest := by
  obtain ⟨sign, whole, fraction, exponent, parts⟩ := isNumber.1
  have number := numberLength_append parts ends fun _ => noExponent
  obtain ⟨first, more, cons, scanned⟩ := scan_number isNumber number
  refine tokens_of_written cons ?_
  rw [scanned, numberToken, List.take_left, List.drop_left, notIdent, if_neg (by simp),
    if_neg (by simpa using notPercent)]

theorem tokens_percentage {text : List Char} (isNumber : NumberText text) (rest : List Char) :
    tokens (text ++ ['%'] ++ rest) = ⟨.leaf (.percentage text), text ++ ['%']⟩ :: tokens rest := by
  obtain ⟨sign, whole, fraction, exponent, parts⟩ := isNumber.1
  have number : numberLength (text ++ '%' :: rest) = text.length :=
    numberLength_append parts rfl fun _ => rfl
  obtain ⟨first, more, cons, scanned⟩ := scan_number isNumber number
  have notIdent : startsIdent ('%' :: rest) = false := by
    rw [startsIdent_cons]
    rfl
  have consPercent : text ++ ['%'] = first :: (more ++ ['%']) := by
    rw [cons]
    rfl
  refine tokens_of_written consPercent ?_
  rw [List.append_assoc, List.singleton_append, scanned, numberToken, List.take_left, List.drop_left,
    notIdent, if_neg (by simp), if_pos (by simp), List.length_append]
  rfl

/-- Units that would be read into their number. -/
def unitMerges (text unit : List Char) : Bool :=
  match unit with
  | first :: rest =>
    first == 'E' && (rest.isEmpty || rest.head? == some '-') ||
      (first == 'e' || first == 'E') && rest.head?.any Char.isDigit && !text.any (fun c => c == 'e' || c == 'E')
  | [] => false

theorem exponentLength_of_other {first : Char} {rest : List Char} (notSmall : first ≠ 'e')
    (notCapital : first ≠ 'E') : exponentLength (first :: rest) = 0 := by
  simp [exponentLength, notSmall, notCapital]

theorem exponentLength_of_noDigits {first second : Char} {rest : List Char} (notPlus : second ≠ '+')
    (notMinus : second ≠ '-') (notDigit : second.isDigit = false) :
    exponentLength (first :: second :: rest) = 0 := by
  have noSign : signLength (second :: rest) = 0 := by
    simp [signLength, runLength, notPlus, notMinus]
  have noDigits : runLength Char.isDigit (second :: rest) = 0 := by simp [runLength, notDigit]
  unfold exponentLength
  dsimp only
  rw [noSign, List.drop_zero, noDigits]
  simp

theorem no_exponent_mark {text sign whole fraction : List Char}
    (parts : NumberParts text sign whole fraction []) :
    text.any (fun c => c == 'e' || c == 'E') = false := by
  have noMark {digits : List Char} (allDigits : AllDigits digits) :
      digits.any (fun c => c == 'e' || c == 'E') = false := by
    refine List.any_eq_false.2 fun c here => ?_
    have digit := allDigits c here
    simp only [Bool.or_eq_true, beq_iff_eq]
    rintro (rfl | rfl) <;> cases digit
  have inSign : sign.any (fun c => c == 'e' || c == 'E') = false := by
    rcases parts.isSign with rfl | rfl | rfl <;> rfl
  have inFraction : fraction.any (fun c => c == 'e' || c == 'E') = false := by
    rcases parts.isFraction with rfl | ⟨digits, -, allDigits, rfl⟩
    · rfl
    · rw [List.any_cons, noMark allDigits]
      rfl
  rw [parts.joined]
  simp only [List.any_append, inSign, noMark parts.allDigits, inFraction]
  rfl

theorem writeUnit_cons (first : Char) (more : List Char) :
    writeUnit (first :: more) =
      if (first == 'e' || first == 'E') && (more.isEmpty || more.head? == some '-') then
        "\\65 ".toList ++ writeName more
      else writeIdent (first :: more) := rfl

/-- A unit is not read into the number before it. -/
theorem unit_behind_number {text unit sign whole fraction exponent : List Char}
    (parts : NumberParts text sign whole fraction exponent) (named : unit ≠ [])
    (apart : unitMerges text unit = false) (rest : List Char) :
    endsDigits (writeUnit unit ++ rest) = true ∧
      (exponent = [] → exponentLength (writeUnit unit ++ rest) = 0) := by
  obtain ⟨first, more, rfl⟩ := List.exists_cons_of_ne_nil named
  simp only [unitMerges, Bool.or_eq_false_iff] at apart
  obtain ⟨-, noDigits⟩ := apart
  rw [writeUnit_cons]
  split
  · exact ⟨rfl, fun _ => rfl⟩
  · rename_i notEscaped
    rcases writeIdent_cases named with ⟨behind, written⟩ | ⟨behind, written⟩ | named
    · rw [written]
      exact ⟨rfl, fun _ => rfl⟩
    · rw [written]
      exact ⟨rfl, fun _ => rfl⟩
    · obtain ⟨begin, behind, same, isStart, written⟩ := named
      obtain ⟨rfl, rfl⟩ := List.cons.inj same
      have notPoint : first ≠ '.' := by rintro rfl; cases isStart
      rw [written]
      refine ⟨by simp [endsDigits, isDigit_of_isNameStart isStart, notPoint], ?_⟩
      rintro rfl
      have noMark := no_exponent_mark parts
      -- A unit that begins with `e` could be the exponent of a number without one.
      by_cases isMark : first = 'e' ∨ first = 'E'
      · have marked : (first == 'e' || first == 'E') = true := by simpa using isMark
        rw [marked, noMark] at noDigits
        rw [marked] at notEscaped
        cases more with
        | nil => exact absurd rfl notEscaped
        | cons second more =>
            have whole : writeName (second :: more) = writeNameChar second ++ writeName more := rfl
            rw [whole, writeNameChar]
            split
            · rename_i isChar
              have notPlus : second ≠ '+' := by rintro rfl; cases isChar
              have notMinus : second ≠ '-' := fun minus => notEscaped (by simp [minus])
              have notDigit : second.isDigit = false := by simpa using noDigits
              exact exponentLength_of_noDigits notPlus notMinus notDigit
            · obtain ⟨third, behind, escaped, -⟩ := escapeSpecial_cons second
              rw [escaped]
              exact exponentLength_of_noDigits (by decide) (by decide) rfl
      · rw [not_or] at isMark
        exact exponentLength_of_other isMark.1 isMark.2

theorem name_writeUnit {text unit : List Char} (named : unit ≠ [])
    (apart : unitMerges text unit = false) {rest : List Char} (ends : endsName rest = true) :
    name (writeUnit unit ++ rest) = (unit, (writeUnit unit).length) ∧
      startsIdent (writeUnit unit ++ rest) = true := by
  obtain ⟨first, more, rfl⟩ := List.exists_cons_of_ne_nil named
  rw [writeUnit_cons]
  split
  · rename_i escaped
    simp only [unitMerges, Bool.or_eq_false_iff] at apart
    obtain ⟨notCapital, -⟩ := apart
    have small : first = 'e' := by
      rw [Bool.and_eq_true] at escaped
      rw [escaped.2, Bool.and_true] at notCapital
      simpa [notCapital] using escaped.1
    subst small
    refine ⟨?_, rfl⟩
    rw [List.append_assoc]
    change name ('\\' :: '6' :: '5' :: ' ' :: (writeName more ++ rest)) = _
    have isEscape : escape ('6' :: '5' :: ' ' :: (writeName more ++ rest)) = ('e', 3) := by
      rw [escape_of_hex _ rfl]
      rfl
    rw [name_backslash _ (by decide), isEscape]
    change (_ :: (name (writeName more ++ rest)).1, 4 + (name (writeName more ++ rest)).2) = _
    rw [name_writeName more ends, List.length_append]
    rfl
  · exact ⟨name_writeIdent named ends, startsIdent_writeIdent named rest⟩

theorem tokens_dimension {text unit : List Char} (isNumber : NumberText text) (named : unit ≠ [])
    (apart : unitMerges text unit = false) {rest : List Char} (ends : endsName rest = true) :
    tokens (text ++ writeUnit unit ++ rest) =
      ⟨.leaf (.dimension text unit), text ++ writeUnit unit⟩ :: tokens rest := by
  obtain ⟨sign, whole, fraction, exponent, parts⟩ := isNumber.1
  obtain ⟨endsNumber, noExponent⟩ := unit_behind_number parts named apart rest
  obtain ⟨isName, starts⟩ := name_writeUnit named apart ends
  have number := numberLength_append parts endsNumber noExponent
  obtain ⟨first, more, cons, scanned⟩ := scan_number isNumber number
  have consUnit : text ++ writeUnit unit = first :: (more ++ writeUnit unit) := by
    rw [cons]
    rfl
  refine tokens_of_written consUnit ?_
  rw [List.append_assoc, scanned, numberToken, List.take_left, List.drop_left, if_pos starts, isName,
    List.length_append]

end SheetScript.Css
