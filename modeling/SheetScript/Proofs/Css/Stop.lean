import SheetScript.Proofs.Css.Readers

/-!
How far the readers of tokens look ahead. None looks past a semicolon or a curly bracket that it does
not take, so what stands behind one has no influence on the tokens before it.
-/

namespace SheetScript.Css

open SheetScript.Text

def isStop (c : Char) : Bool :=
  c == ';' || c == '\x7b' || c == '\x7d'

section

variable {c : Char}

theorem stop_cases (stop : isStop c = true) : c = ';' ∨ c = '\x7b' ∨ c = '\x7d' := by
  simpa [isStop, or_assoc] using stop

theorem isBlankChar_stop (stop : isStop c = true) : isBlankChar c = false := by
  rcases stop_cases stop with rfl | rfl | rfl <;> decide

theorem isDigit_stop (stop : isStop c = true) : c.isDigit = false := by
  rcases stop_cases stop with rfl | rfl | rfl <;> decide

theorem isNameChar_stop (stop : isStop c = true) : isNameChar c = false := by
  rcases stop_cases stop with rfl | rfl | rfl <;> decide

theorem isHexDigit_stop (stop : isStop c = true) : isHexDigit c = false := by
  rcases stop_cases stop with rfl | rfl | rfl <;> decide

theorem stop_ne {other : Char} (stop : isStop c = true) (notStop : isStop other = false) :
    c ≠ other := by
  rintro rfl
  rw [stop] at notStop
  cases notStop

end

/-! Readers that stop where the source could as well have ended -/

section

variable {c : Char} {condition : Char → Bool}

theorem takeWhile_append_cons (before rest : List Char) (fails : condition c = false) :
    (before ++ c :: rest).takeWhile condition = before.takeWhile condition := by
  induction before with
  | nil => simp [fails]
  | cons first before ih =>
      rw [List.cons_append, List.takeWhile_cons, List.takeWhile_cons, ih]

theorem takeWhile_take_append_cons (count : Nat) (before rest : List Char)
    (fails : condition c = false) :
    ((before ++ c :: rest).take count).takeWhile condition =
      (before.take count).takeWhile condition := by
  induction before generalizing count with
  | nil => cases count <;> simp [fails]
  | cons first before ih =>
      cases count with
      | zero => rfl
      | succ count =>
          rw [List.cons_append, List.take_succ_cons, List.take_succ_cons, List.takeWhile_cons,
            List.takeWhile_cons, ih]

theorem dropWhile_append_cons (before rest : List Char)
    (fails : condition c = false) :
    (before ++ c :: rest).dropWhile condition = before.dropWhile condition ++ c :: rest := by
  induction before with
  | nil => simp [fails]
  | cons first before ih =>
      rw [List.cons_append, List.dropWhile_cons, List.dropWhile_cons, ih]
      split <;> rfl

theorem runLength_append_cons (before rest : List Char) (fails : condition c = false) :
    runLength condition (before ++ c :: rest) = runLength condition before := by
  unfold runLength
  rw [takeWhile_append_cons before rest fails]

theorem runLength_take_append_cons (count : Nat) (before rest : List Char)
    (fails : condition c = false) :
    runLength condition ((before ++ c :: rest).take count) =
      runLength condition (before.take count) := by
  unfold runLength
  rw [takeWhile_take_append_cons count before rest fails]

end

theorem drop_append_cons {c : Char} {count : Nat} {before : List Char} (rest : List Char)
    (within : count ≤ before.length) :
    (before ++ c :: rest).drop count = before.drop count ++ c :: rest :=
  List.drop_append_of_le_length within

section

variable {c : Char} (stop : isStop c = true)

include stop

theorem head?_stop_ne {other : Char} (notStop : isStop other = false) (before rest : List Char) :
    ((before ++ c :: rest).head? == some other) = (before.head? == some other) := by
  have different : c ≠ other := stop_ne stop notStop
  cases before with
  | nil => simp [different]
  | cons first before => rfl

theorem startsEscape_stop (before rest : List Char) :
    startsEscape (before ++ c :: rest) = startsEscape before := by
  cases before with
  | nil =>
      rw [List.nil_append, startsEscape_cons]
      rcases stop_cases stop with rfl | rfl | rfl <;> rfl
  | cons first before =>
      rw [List.cons_append, startsEscape_cons, startsEscape_cons, bne, bne,
        head?_stop_ne stop (by decide)]

theorem startsIdent_stop (before rest : List Char) :
    startsIdent (before ++ c :: rest) = startsIdent before := by
  cases before with
  | nil =>
      rw [List.nil_append, startsIdent_cons, startsEscape_cons]
      rcases stop_cases stop with rfl | rfl | rfl <;> rfl
  | cons first before =>
      have behind := startsEscape_stop stop before rest
      have all := startsEscape_stop stop (first :: before) rest
      rw [List.cons_append] at all ⊢
      rw [startsIdent_cons, startsIdent_cons, behind, all]
      cases before with
      | nil => rcases stop_cases stop with rfl | rfl | rfl <;> rfl
      | cons second before => rfl

theorem signLength_stop (before rest : List Char) :
    signLength (before ++ c :: rest) = signLength before := by
  unfold signLength
  refine runLength_take_append_cons 1 before rest ?_
  rcases stop_cases stop with rfl | rfl | rfl <;> rfl

theorem mantissaLength_stop (before rest : List Char) :
    mantissaLength (before ++ c :: rest) = mantissaLength before := by
  have notDigit := isDigit_stop stop
  have notPoint : c ≠ '.' := stop_ne stop (by decide)
  have whole := runLength_append_cons before rest notDigit
  unfold mantissaLength
  dsimp only
  rw [whole, drop_append_cons rest (runLength_le _ before)]
  cases inside : before.drop (runLength Char.isDigit before) with
  | nil => simp [notPoint]
  | cons first more =>
      by_cases point : first = '.'
      · subst point
        simp only [List.cons_append]
        rw [runLength_append_cons more rest notDigit]
      · simp [point]

theorem exponentLength_stop (before rest : List Char) :
    exponentLength (before ++ c :: rest) = exponentLength before := by
  cases before with
  | nil => rcases stop_cases stop with rfl | rfl | rfl <;> rfl
  | cons first before =>
      have sign := signLength_stop stop before rest
      rw [List.cons_append]
      unfold exponentLength
      dsimp only
      rw [sign, drop_append_cons rest (signLength_le before),
        runLength_append_cons _ rest (isDigit_stop stop)]

theorem numberLength_stop (before rest : List Char) :
    numberLength (before ++ c :: rest) = numberLength before := by
  have sign := signLength_le before
  have mantissa := mantissaLength_le (before.drop (signLength before))
  rw [List.length_drop] at mantissa
  unfold numberLength
  dsimp only
  rw [signLength_stop stop, drop_append_cons rest sign, mantissaLength_stop stop,
    drop_append_cons rest (by omega), exponentLength_stop stop]

theorem startsRange_stop (before rest : List Char) :
    startsRange (before ++ c :: rest) = startsRange before := by
  have notHex := isHexDigit_stop stop
  have notPlus : c ≠ '+' := stop_ne stop (by decide)
  have notMark : c ≠ '?' := stop_ne stop (by decide)
  have notUpper : c ≠ 'U' := stop_ne stop (by decide)
  have notLower : c ≠ 'u' := stop_ne stop (by decide)
  rcases before with _ | ⟨first, _ | ⟨second, _ | ⟨third, before⟩⟩⟩
  · unfold startsRange
    split
    · rename_i same
      obtain ⟨rfl, -⟩ := List.cons.inj same
      simp [notUpper, notLower]
    · rfl
  · simp [startsRange, notPlus]
  · by_cases plus : second = '+'
    · subst plus
      simp [startsRange, notHex, notMark]
    · simp [startsRange, plus]
  · by_cases plus : second = '+'
    · subst plus
      simp [startsRange]
    · simp [startsRange, plus]

theorem escapeDigits_stop (before rest : List Char) :
    escapeDigits (before ++ c :: rest) = escapeDigits before :=
  takeWhile_take_append_cons 6 before rest (isHexDigit_stop stop)

theorem characterRange_stop (before rest : List Char) :
    characterRange (before ++ c :: rest) = characterRange before := by
  have notMinus : c ≠ '-' := stop_ne stop (by decide)
  have notMark : (c == '?') = false := beq_eq_false_iff_ne.2 (stop_ne stop (by decide))
  have digits := escapeDigits_stop stop before rest
  have fits := length_escapeDigits_le before
  have marks : runLength (· == '?') (((before ++ c :: rest).take 6).drop (escapeDigits before).length) =
      runLength (· == '?') ((before.take 6).drop (escapeDigits before).length) := by
    rw [List.drop_take, List.drop_take, drop_append_cons rest fits]
    exact runLength_take_append_cons _ _ _ notMark
  unfold escapeDigits at digits fits marks
  unfold characterRange
  dsimp only
  rw [digits, marks, drop_append_cons rest fits]
  cases before.drop ((before.take 6).takeWhile isHexDigit).length with
  | nil => simp [notMinus]
  | cons first more =>
      by_cases minus : first = '-'
      · subst minus
        have last := escapeDigits_stop stop more rest
        unfold escapeDigits at last
        simp only [List.cons_append]
        rw [last]
      · simp [minus]

theorem escape_stop {before : List Char} (rest : List Char) (notEmpty : before ≠ []) :
    escape (before ++ c :: rest) = escape before := by
  cases before with
  | nil => exact absurd rfl notEmpty
  | cons first before =>
      have digits := escapeDigits_stop stop (first :: before) rest
      have fits := length_escapeDigits_le (first :: before)
      rw [List.cons_append] at digits ⊢
      cases hex : isHexDigit first with
      | false => rw [escape_of_not_hex _ hex, escape_of_not_hex _ hex]
      | true =>
          rw [escape_of_hex _ hex, escape_of_hex _ hex, digits, ← List.cons_append,
            drop_append_cons rest fits,
            runLength_take_append_cons 1 _ rest (isBlankChar_stop stop)]

theorem endsName_stop (rest : List Char) : endsName (c :: rest) = true := by
  have noEscape : startsEscape (c :: rest) = false := startsEscape_stop stop [] rest
  simp [endsName, isNameChar_stop stop, noEscape]

/-- A name that does not take the stop is the same whatever stands behind it. -/
theorem name_stop {before rest : List Char} (other : List Char)
    (within : (name (before ++ c :: rest)).2 ≤ before.length) :
    name (before ++ c :: other) = name (before ++ c :: rest) := by
  -- An escape takes several characters at once, so the induction is on the length.
  induction length : before.length using Nat.strongRecOn generalizing before with
  | _ n ih =>
    cases before with
    | nil =>
        rw [List.nil_append, List.nil_append, name_of_endsName (endsName_stop stop other),
          name_of_endsName (endsName_stop stop rest)]
    | cons first before =>
        have escapes (rest : List Char) : startsEscape (first :: (before ++ c :: rest)) =
            startsEscape (first :: before) := startsEscape_stop stop (first :: before) rest
        simp only [List.cons_append, List.length_cons] at within length ⊢
        cases isChar : isNameChar first with
        | true =>
            rw [name_char _ isChar] at within ⊢
            rw [name_char _ isChar]
            rw [ih before.length (by omega) (by omega) rfl]
        | false =>
            cases starts : startsEscape (first :: before) with
            | false =>
                have ends (rest : List Char) : endsName (first :: (before ++ c :: rest)) = true := by
                  simp [endsName, isChar, escapes, starts]
                rw [name_of_endsName (ends _), name_of_endsName (ends _)]
            | true =>
                rw [name_escape _ isChar ((escapes rest).trans starts)] at within ⊢
                rw [name_escape _ isChar ((escapes other).trans starts)]
                by_cases empty : before = []
                · subst empty
                  have taken := escape_pos c rest
                  simp only [List.nil_append, List.length_nil] at within
                  omega
                · have fits := escape_le before
                  rw [escape_stop stop _ empty, drop_append_cons _ fits] at within ⊢
                  rw [escape_stop stop _ empty, drop_append_cons _ fits]
                  dsimp only at within
                  have shorter := List.length_drop (i := (escape before).2) (l := before)
                  have taken : 0 < (escape before).2 := by
                    obtain ⟨second, more, rfl⟩ := List.exists_cons_of_ne_nil empty
                    exact escape_pos second more
                  rw [ih (before.drop (escape before).2).length (by omega) (by omega) rfl]

/-- So is what an escape takes, unless it takes the stop. -/
theorem escape_behind {before : List Char} (rest : List Char) (notEmpty : before ≠ []) :
    escape (before ++ c :: rest) = escape before ∧
      (before ++ c :: rest).drop (escape before).2 = before.drop (escape before).2 ++ c :: rest ∧
      (before.drop (escape before).2).length < before.length := by
  have fits := escape_le before
  refine ⟨escape_stop stop rest notEmpty, drop_append_cons rest fits, ?_⟩
  obtain ⟨first, more, rfl⟩ := List.exists_cons_of_ne_nil notEmpty
  have taken := escape_pos first more
  rw [List.length_drop]
  simp only [List.length_cons]
  omega

theorem quotedText_stop {quote : Char} (notStop : isStop quote = false) {before rest : List Char}
    (other : List Char) (within : (quotedText quote (before ++ c :: rest)).2.2 ≤ before.length) :
    quotedText quote (before ++ c :: other) = quotedText quote (before ++ c :: rest) := by
  have notNewline : c ≠ '\n' := stop_ne stop (by decide)
  have notBackslash : c ≠ '\\' := stop_ne stop (by decide)
  induction length : before.length using Nat.strongRecOn generalizing before with
  | _ n ih =>
    cases before with
    | nil =>
        rw [List.nil_append, quotedText_char rest (stop_ne stop notStop) notNewline notBackslash]
          at within
        -- The stop itself would be taken, which is more than what stands before it.
        exact absurd within (by simp)
    | cons first before =>
        simp only [List.cons_append, List.length_cons] at within length ⊢
        by_cases isQuote : first = quote
        · subst isQuote
          rw [quotedText_quote, quotedText_quote]
        · by_cases newline : first = '\n'
          · subst newline
            rw [quotedText_newline _ isQuote, quotedText_newline _ isQuote]
          · by_cases backslash : first = '\\'
            · subst backslash
              rcases before with _ | ⟨second, before⟩
              · rw [List.nil_append, quotedText_escape rest isQuote notNewline] at within
                have taken := escape_pos c rest
                simp only [List.length_nil] at within
                omega
              · by_cases continued : second = '\n'
                · subst continued
                  rw [List.cons_append, quotedText_continued _ isQuote] at within
                  rw [List.cons_append, List.cons_append, quotedText_continued _ isQuote,
                    quotedText_continued _ isQuote]
                  simp only [List.length_cons] at within length
                  rw [ih before.length (by omega) (by omega) rfl]
                · have notEmpty : second :: before ≠ [] := List.cons_ne_nil _ _
                  obtain ⟨sameRest, restBehind, shorter⟩ := escape_behind stop rest notEmpty
                  obtain ⟨sameOther, otherBehind, _⟩ := escape_behind stop other notEmpty
                  simp only [List.cons_append] at *
                  rw [quotedText_escape _ isQuote continued, sameRest, restBehind] at within
                  rw [quotedText_escape _ isQuote continued, quotedText_escape _ isQuote continued,
                    sameRest, sameOther, restBehind, otherBehind]
                  have fits := escape_le (second :: before)
                  have left := List.length_drop (i := (escape (second :: before)).2)
                    (l := second :: before)
                  dsimp only at within
                  rw [ih _ (by omega) (by omega) rfl]
            · rw [quotedText_char _ isQuote newline backslash] at within
              rw [quotedText_char _ isQuote newline backslash,
                quotedText_char _ isQuote newline backslash,
                ih before.length (by omega) (by dsimp only at within; omega) rfl]

theorem brokenLength_stop {before rest : List Char} (other : List Char)
    (within : brokenLength (before ++ c :: rest) ≤ before.length) :
    brokenLength (before ++ c :: other) = brokenLength (before ++ c :: rest) := by
  have notClose : c ≠ ')' := stop_ne stop (by decide)
  have notBackslash : c ≠ '\\' := stop_ne stop (by decide)
  -- An escaped parenthesis is taken with its backslash, so the induction is on the length.
  induction length : before.length using Nat.strongRecOn generalizing before with
  | _ n ih =>
    cases before with
    | nil =>
        rw [List.nil_append, brokenLength_char rest notClose (.inl notBackslash)] at within
        exact absurd within (by simp)
    | cons first before =>
        simp only [List.cons_append, List.length_cons] at within length ⊢
        by_cases close : first = ')'
        · subst close
          rfl
        · by_cases escaped : first = '\\' ∧ before.head? = some ')'
          · obtain ⟨rfl, isClose⟩ := escaped
            obtain ⟨more, rfl⟩ : ∃ more, before = ')' :: more := by
              cases before with
              | nil => cases isClose
              | cons second more => exact ⟨more, by rw [Option.some.inj isClose]⟩
            simp only [List.cons_append, List.length_cons] at within length ⊢
            rw [brokenLength_escaped] at within
            rw [brokenLength_escaped, brokenLength_escaped, ih more.length (by omega) (by omega) rfl]
          · have plain (rest : List Char) :
                first ≠ '\\' ∨ (before ++ c :: rest).head? ≠ some ')' := by
              rcases Decidable.not_and_iff_or_not.1 escaped with other | other
              · exact .inl other
              · right
                cases before with
                | nil => simpa using notClose
                | cons second more => exact other
            rw [brokenLength_char _ close (plain rest)] at within
            rw [brokenLength_char _ close (plain rest), brokenLength_char _ close (plain other),
              ih before.length (by omega) (by omega) rfl]

theorem addressEnd_stop {before rest : List Char} (other : List Char)
    (within : (addressEnd (before ++ c :: rest)).2 ≤ before.length) :
    addressEnd (before ++ c :: other) = addressEnd (before ++ c :: rest) := by
  have notClose : c ≠ ')' := stop_ne stop (by decide)
  cases before with
  | nil =>
      rw [List.nil_append, addressEnd_char rest notClose,
        brokenLength_char rest notClose (.inl (stop_ne stop (by decide)))] at within
      exact absurd within (by simp)
  | cons first before =>
      rw [List.cons_append] at within ⊢
      by_cases close : first = ')'
      · subst close
        rfl
      · rw [addressEnd_char _ close] at within
        have same : brokenLength (first :: before ++ c :: other) = _ :=
          brokenLength_stop stop other within
        simp only [List.cons_append] at same ⊢
        rw [addressEnd_char _ close, addressEnd_char _ close, same]

theorem addressText_stop {before rest : List Char} (other : List Char)
    (within : (addressText (before ++ c :: rest)).2.2 ≤ before.length) :
    addressText (before ++ c :: other) = addressText (before ++ c :: rest) := by
  have notClose : c ≠ ')' := stop_ne stop (by decide)
  have notBlank := isBlankChar_stop stop
  have fits : breaksAddress c = false := by
    rcases stop_cases stop with rfl | rfl | rfl <;> decide
  -- What is read up to the stop is taken piece by piece, so the induction is on the length.
  induction length : before.length using Nat.strongRecOn generalizing before with
  | _ n ih =>
    cases before with
    | nil =>
        have noEscape : startsEscape (c :: rest) = false := startsEscape_stop stop [] rest
        rw [List.nil_append, addressText_char rest notClose notBlank noEscape fits] at within
        exact absurd within (by simp)
    | cons first before =>
        have escapes (rest : List Char) : startsEscape (first :: (before ++ c :: rest)) =
            startsEscape (first :: before) := startsEscape_stop stop (first :: before) rest
        have run (rest : List Char) : runLength isBlankChar (first :: (before ++ c :: rest)) =
            runLength isBlankChar (first :: before) :=
          runLength_append_cons (first :: before) rest notBlank
        have runFits := runLength_le isBlankChar (first :: before)
        simp only [List.cons_append, List.length_cons] at within length ⊢
        by_cases close : first = ')'
        · subst close
          rw [addressText_close, addressText_close]
        · cases blank : isBlankChar first with
          | true =>
              have behind (rest : List Char) :
                  (first :: (before ++ c :: rest)).drop (runLength isBlankChar (first :: before)) =
                    (first :: before).drop (runLength isBlankChar (first :: before)) ++ c :: rest :=
                drop_append_cons rest runFits
              rw [addressText_blank _ blank, run, behind] at within
              have left := List.length_drop (i := runLength isBlankChar (first :: before))
                (l := first :: before)
              simp only [List.length_cons] at left runFits
              have ending := addressEnd_stop stop other
                (Nat.le_of_add_le_add_left (Nat.le_trans within (by omega)))
              rw [addressText_blank _ blank, addressText_blank _ blank, run, run, behind, behind,
                ending]
          | false =>
              cases starts : startsEscape (first :: before) with
              | true =>
                  rw [addressText_escape _ ((escapes rest).trans starts)] at within
                  rw [addressText_escape _ ((escapes rest).trans starts),
                    addressText_escape _ ((escapes other).trans starts)]
                  by_cases empty : before = []
                  · subst empty
                    have taken := escape_pos c rest
                    simp only [List.nil_append, List.length_nil] at within
                    omega
                  · obtain ⟨sameRest, restBehind, shorter⟩ := escape_behind stop rest empty
                    obtain ⟨sameOther, otherBehind, _⟩ := escape_behind stop other empty
                    have left := List.length_drop (i := (escape before).2) (l := before)
                    have taken := escape_le before
                    rw [sameRest, restBehind] at within
                    dsimp only at within
                    rw [sameRest, sameOther, restBehind, otherBehind,
                      ih _ (by omega) (by omega) rfl]
              | false =>
                  cases breaks : breaksAddress first with
                  | true =>
                      rw [addressText_break _ close blank ((escapes rest).trans starts) breaks]
                        at within
                      have broken := brokenLength_stop stop other
                        (Nat.le_of_add_le_add_left (Nat.le_trans within (by omega)))
                      rw [addressText_break _ close blank ((escapes rest).trans starts) breaks,
                        addressText_break _ close blank ((escapes other).trans starts) breaks,
                        broken]
                  | false =>
                      rw [addressText_char _ close blank ((escapes rest).trans starts) breaks]
                        at within
                      rw [addressText_char _ close blank ((escapes rest).trans starts) breaks,
                        addressText_char _ close blank ((escapes other).trans starts) breaks,
                        ih before.length (by omega) (by dsimp only at within; omega) rfl]

theorem quoteFollows_stop (before rest : List Char) :
    quoteFollows (before ++ c :: rest) = quoteFollows before := by
  unfold quoteFollows
  rw [dropWhile_append_cons before rest (isBlankChar_stop stop)]
  cases before.dropWhile isBlankChar with
  | nil => rcases stop_cases stop with rfl | rfl | rfl <;> rfl
  | cons first more => rfl

theorem nameToken_stop {before rest : List Char} (other : List Char)
    (within : (nameToken (before ++ c :: rest)).2 ≤ before.length) :
    nameToken (before ++ c :: other) = nameToken (before ++ c :: rest) := by
  have notOpening : c ≠ '(' := stop_ne stop (by decide)
  have nameFits : (name (before ++ c :: rest)).2 ≤ before.length :=
    Nat.le_trans (name_le_nameToken _) within
  have sameName := name_stop stop other nameFits
  unfold nameToken at within ⊢
  dsimp only at within ⊢
  rw [sameName, drop_append_cons _ nameFits]
  rw [drop_append_cons _ nameFits] at within ⊢
  -- The name ends at the stop, which is no parenthesis, or before it.
  cases atEnd : before.drop (name (before ++ c :: rest)).2 with
  | nil =>
      simp only [List.nil_append]
      split
      · rename_i same
        exact absurd (List.cons.inj same).1 notOpening
      · split
        · rename_i same
          exact absurd (List.cons.inj same).1 notOpening
        · rfl
  | cons first more =>
      rw [atEnd] at within
      by_cases opening : first = '('
      · subst opening
        simp only [List.cons_append] at within ⊢
        rw [quoteFollows_stop stop] at within ⊢
        rw [quoteFollows_stop stop]
        have run (rest : List Char) := runLength_append_cons more rest (isBlankChar_stop stop)
        have runFits := runLength_le isBlankChar more
        rw [run, drop_append_cons _ runFits] at within
        rw [run, run, drop_append_cons _ runFits, drop_append_cons _ runFits]
        split
        · rename_i isUrl
          rw [if_pos isUrl] at within
          have lengths := congrArg List.length atEnd
          rw [List.length_drop, List.length_cons] at lengths
          have left := List.length_drop (i := runLength isBlankChar more) (l := more)
          have address := addressText_stop stop other
            (Nat.le_of_add_le_add_left (Nat.le_trans within (by omega)))
          rw [address]
        · rfl
      · simp [opening]

theorem numberToken_stop {before rest : List Char} (other : List Char) {count : Nat}
    (fits : count ≤ before.length)
    (within : (numberToken (before ++ c :: rest) count).2 ≤ before.length) :
    numberToken (before ++ c :: other) count = numberToken (before ++ c :: rest) count := by
  unfold numberToken at within ⊢
  dsimp only at within ⊢
  rw [drop_append_cons _ fits, startsIdent_stop stop, List.take_append_of_le_length fits] at *
  rw [drop_append_cons _ fits, startsIdent_stop stop, List.take_append_of_le_length fits]
  have percent (rest : List Char) :
      ((before.drop count ++ c :: rest).head? == some '%') =
        ((before.drop count).head? == some '%') :=
    head?_stop_ne stop (by decide) _ _
  rw [percent, percent]
  split
  · rename_i isIdent
    rw [if_pos isIdent] at within
    have left := List.length_drop (i := count) (l := before)
    have unit := name_stop stop other
      (Nat.le_of_add_le_add_left (Nat.le_trans within (by omega)))
    rw [unit]
  · rfl

theorem commentBody?_stop {before rest : List Char} (other : List Char) {body after : List Char}
    (found : commentBody? (before ++ c :: rest) = some (body, after))
    (within : body.length ≤ before.length) :
    ∃ left, commentBody? (before ++ c :: other) = some (body, left) := by
  have notSlash : c ≠ '/' := stop_ne stop (by decide)
  -- No `*/` lies across the stop, so the body ends before it or goes past it.
  induction before generalizing body after with
  | nil =>
      rw [List.nil_append, commentBody?_char rest (.inl (stop_ne stop (by decide))),
        Option.map_eq_some_iff] at found
      obtain ⟨⟨inside, _⟩, -, same⟩ := found
      obtain ⟨rfl, -⟩ := Prod.mk.inj same
      cases within
  | cons first before ih =>
      rw [List.cons_append] at found ⊢
      by_cases close : first = '*' ∧ before.head? = some '/'
      · obtain ⟨rfl, isSlash⟩ := close
        cases before with
        | nil => cases isSlash
        | cons second more =>
            obtain rfl := Option.some.inj isSlash
            obtain ⟨rfl, -⟩ := Prod.mk.inj (Option.some.inj found)
            exact ⟨_, rfl⟩
      · have plain (rest : List Char) : first ≠ '*' ∨ (before ++ c :: rest).head? ≠ some '/' := by
          rcases Decidable.not_and_iff_or_not.1 close with other | other
          · exact .inl other
          · right
            cases before with
            | nil => simpa using notSlash
            | cons second more => exact other
        rw [commentBody?_char _ (plain rest), Option.map_eq_some_iff] at found
        obtain ⟨⟨inside, behind⟩, found, same⟩ := found
        obtain ⟨rfl, -⟩ := Prod.mk.inj same
        obtain ⟨left, same⟩ := ih found (Nat.le_of_succ_le_succ within)
        exact ⟨left, by rw [commentBody?_char _ (plain other), same]; rfl⟩

theorem matchMark_stop (first : Char) (before rest : List Char) :
    matchMark first (before ++ c :: rest) = matchMark first before := by
  unfold matchMark
  rw [head?_stop_ne stop (by decide)]

theorem isPrefixOf_stop {pattern : List Char} (noStop : ∀ other ∈ pattern, isStop other = false)
    (before rest : List Char) :
    pattern.isPrefixOf (before ++ c :: rest) = pattern.isPrefixOf before := by
  induction pattern generalizing before with
  | nil => rfl
  | cons first pattern ih =>
      cases before with
      | nil =>
          have different : first ≠ c := (stop_ne stop (noStop first List.mem_cons_self)).symm
          simp [List.isPrefixOf, different]
      | cons second before =>
          have more := ih (fun other inside => noStop other (List.mem_cons_of_mem _ inside)) before
          rw [List.cons_append]
          simp only [List.isPrefixOf, more]

theorem isLongMark_stop (first : Char) (before rest : List Char) :
    isLongMark first (before ++ c :: rest) = isLongMark first before := by
  unfold isLongMark
  rw [head?_stop_ne stop (by decide), head?_stop_ne stop (by decide),
    isPrefixOf_stop stop (forall_of_all (by decide))]

theorem plainMark_stop {first : Char} {before rest : List Char} (other : List Char)
    (within : (plainMark first (before ++ c :: rest)).2 ≤ before.length + 1) :
    plainMark first (before ++ c :: other) = plainMark first (before ++ c :: rest) := by
  unfold plainMark at within ⊢
  rw [matchMark_stop stop, matchMark_stop stop]
  split
  · rename_i isQuote
    rw [if_pos isQuote] at within
    have notStop : isStop first = false := by
      rw [Bool.or_eq_true, beq_iff_eq, beq_iff_eq] at isQuote
      rcases isQuote with rfl | rfl <;> decide
    have text := quotedText_stop stop notStop other
      (Nat.le_of_add_le_add_left (Nat.le_trans within (Nat.le_of_eq (Nat.add_comm _ _))))
    dsimp only
    rw [text]
  · rfl

theorem markToken_comment_stop {before rest : List Char} (other : List Char)
    (within : (markToken '/' ('*' :: (before ++ c :: rest))).2 ≤ before.length + 2) :
    markToken '/' ('*' :: (before ++ c :: other)) = markToken '/' ('*' :: (before ++ c :: rest)) := by
  rw [markToken_comment] at within
  rw [markToken_comment, markToken_comment]
  cases found : commentBody? (before ++ c :: rest) with
  | none =>
      rw [found] at within
      simp only [Option.elim_none, List.length_append, List.length_cons] at within
      omega
  | some pair =>
      obtain ⟨body, after⟩ := pair
      rw [found] at within
      simp only [Option.elim_some] at within
      obtain ⟨left, same⟩ := commentBody?_stop stop other found (by omega)
      rw [same]
      rfl

theorem markToken_stop (first : Char) {before rest : List Char} (other : List Char)
    (within : (markToken first (before ++ c :: rest)).2 ≤ before.length + 1) :
    markToken first (before ++ c :: other) = markToken first (before ++ c :: rest) := by
  have long := isLongMark_stop stop first before
  cases isLong : isLongMark first before with
  | false =>
      rw [markToken_plain ((long rest).trans isLong)] at within ⊢
      rw [markToken_plain ((long other).trans isLong)]
      exact plainMark_stop stop other within
  | true =>
      simp only [isLongMark, Bool.or_eq_true, Bool.and_eq_true, beq_iff_eq] at isLong
      -- The marks whose kind depends on what follows: `@`, `#`, `/*`, `<!--` and `||`.
      rcases isLong with (((rfl | rfl) | ⟨rfl, star⟩) | ⟨rfl, dashes⟩) | ⟨rfl, bar⟩
      · rw [markToken_at] at within ⊢
        rw [markToken_at, startsIdent_stop stop, startsIdent_stop stop]
        rw [startsIdent_stop stop] at within
        split
        · rename_i isIdent
          rw [if_pos isIdent] at within
          have keyword := name_stop stop other
            (Nat.le_of_add_le_add_left (Nat.le_trans within (Nat.le_of_eq (Nat.add_comm _ _))))
          rw [keyword]
        · rfl
      · rw [markToken_hash] at within ⊢
        have head (rest : List Char) : (before ++ c :: rest).head?.any isNameChar =
            before.head?.any isNameChar := by
          cases before with
          | nil => simp [isNameChar_stop stop]
          | cons second more => rfl
        rw [markToken_hash, startsIdent_stop stop, startsIdent_stop stop, startsEscape_stop stop,
          startsEscape_stop stop, head, head]
        rw [startsIdent_stop stop, startsEscape_stop stop, head] at within
        split
        · rename_i isHash
          rw [if_pos isHash] at within
          have found := name_stop stop other
            (Nat.le_of_add_le_add_left (Nat.le_trans within (Nat.le_of_eq (Nat.add_comm _ _))))
          rw [found]
        · rfl
      · obtain ⟨more, rfl⟩ := List.head?_eq_some_iff.1 star
        exact markToken_comment_stop stop other within
      · obtain ⟨more, rfl⟩ := List.isPrefixOf_iff_prefix.1 dashes
        rfl
      · obtain ⟨more, rfl⟩ := List.head?_eq_some_iff.1 bar
        rfl

theorem scan_stop (first : Char) {before rest : List Char} (other : List Char)
    (within : (scan first (before ++ c :: rest)).2 ≤ before.length + 1) :
    scan first (before ++ c :: other) = scan first (before ++ c :: rest) := by
  -- Every test that `scan` makes has its answer before the stop, whatever stands behind that.
  have blanks (rest : List Char) : runLength isBlankChar (first :: (before ++ c :: rest)) =
      runLength isBlankChar (first :: before) :=
    runLength_append_cons (first :: before) rest (isBlankChar_stop stop)
  have blanksFit := runLength_le isBlankChar (first :: before)
  have front (rest : List Char) :
      (first :: (before ++ c :: rest)).take (runLength isBlankChar (first :: before)) =
        (first :: before).take (runLength isBlankChar (first :: before)) :=
    List.take_append_of_le_length blanksFit
  have range (rest : List Char) : startsRange (first :: (before ++ c :: rest)) =
      startsRange (first :: before) := startsRange_stop stop (first :: before) rest
  have closing (rest : List Char) :
      "-->".toList.isPrefixOf (first :: (before ++ c :: rest)) =
        "-->".toList.isPrefixOf (first :: before) :=
    isPrefixOf_stop stop (forall_of_all (by decide)) (first :: before) rest
  have ident (rest : List Char) : startsIdent (first :: (before ++ c :: rest)) =
      startsIdent (first :: before) := startsIdent_stop stop (first :: before) rest
  have number (rest : List Char) : numberLength (first :: (before ++ c :: rest)) =
      numberLength (first :: before) := numberLength_stop stop (first :: before) rest
  unfold scan at within ⊢
  dsimp only at within ⊢
  rw [blanks, front, range, closing, ident, number] at within ⊢
  rw [blanks, front, range, closing, ident, number]
  split
  · rfl
  · rename_i notBlank
    rw [if_neg notBlank] at within
    split
    · rename_i isRange
      cases before with
      | nil => cases isRange
      | cons second before =>
          simp only [List.cons_append, List.drop_succ_cons, List.drop_zero]
          rw [characterRange_stop stop, characterRange_stop stop]
    · rename_i notRange
      rw [if_neg notRange] at within
      split
      · rfl
      · rename_i notClosing
        rw [if_neg notClosing] at within
        split
        · rename_i isIdent
          rw [if_pos isIdent] at within
          have token : nameToken (first :: before ++ c :: other) = _ :=
            nameToken_stop stop other within
          exact token
        · rename_i notIdent
          rw [if_neg notIdent] at within
          have numberFits := numberLength_le (first :: before)
          cases length : numberLength (first :: before) with
          | zero =>
              rw [length] at within
              exact markToken_stop stop first other within
          | succ count =>
              rw [length] at within numberFits
              have token : numberToken (first :: before ++ c :: other) (count + 1) = _ :=
                numberToken_stop stop other numberFits within
              exact token

end

end SheetScript.Css
