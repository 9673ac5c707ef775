import Mathlib
import SheetScript.Css.Token

/-! The readers of tokens, one equation for each shape of the text, and how much they take. -/

namespace SheetScript.Css

open SheetScript.Text

theorem forall_of_all {α : Type} {condition : α → Prop} [DecidablePred condition] {list : List α}
    (all : (list.all fun x => decide (condition x)) = true) : ∀ x ∈ list, condition x := by
  simpa using all

section

variable (condition : Char → Bool)

theorem runLength_le (text : List Char) : runLength condition text ≤ text.length :=
  (List.takeWhile_sublist _).length_le

theorem runLength_take_le (count : Nat) (text : List Char) :
    runLength condition (text.take count) ≤ text.length :=
  Nat.le_trans (runLength_le _ _) (List.length_take_le' _ _)

end

/-! Escapes and names -/

theorem startsEscape_cons (first : Char) (rest : List Char) :
    startsEscape (first :: rest) = (first == '\\' && rest.head? != some '\n') := by
  by_cases backslash : first = '\\'
  · subst backslash
    cases rest with
    | nil => rfl
    | cons second rest =>
        by_cases newline : second = '\n'
        · subst newline
          rfl
        · simp [startsEscape, newline]
  · simp [startsEscape, backslash]

theorem startsIdent_cons (first : Char) (rest : List Char) :
    startsIdent (first :: rest) =
      if first = '-' then
        rest.head?.any (fun second => isNameStart second || second == '-') || startsEscape rest
      else isNameStart first || startsEscape (first :: rest) := by
  by_cases minus : first = '-'
  · subst minus
    cases rest with
    | nil => rfl
    | cons second rest => simp [startsIdent]
  · simp [startsIdent, minus]

def escapeDigits (text : List Char) : List Char :=
  (text.take 6).takeWhile isHexDigit

theorem length_escapeDigits_le (text : List Char) : (escapeDigits text).length ≤ text.length :=
  Nat.le_trans (List.takeWhile_sublist _).length_le (List.length_take_le' _ _)

theorem escape_of_not_hex {first : Char} (rest : List Char) (notHex : isHexDigit first = false) :
    escape (first :: rest) = (first, 1) := by
  simp [escape, notHex]

theorem escape_of_hex {first : Char} (rest : List Char) (hex : isHexDigit first = true) :
    escape (first :: rest) =
      (charOfNumber (hexNumber (escapeDigits (first :: rest))),
        (escapeDigits (first :: rest)).length +
          runLength isBlankChar
            (((first :: rest).drop (escapeDigits (first :: rest)).length).take 1)) := by
  have some : (escapeDigits (first :: rest)).isEmpty = false := by
    simp [escapeDigits, hex]
  unfold escape
  dsimp only
  rw [← escapeDigits, if_neg (by simp [some])]

theorem escape_pos (first : Char) (rest : List Char) : 0 < (escape (first :: rest)).2 := by
  cases hex : isHexDigit first with
  | false =>
      rw [escape_of_not_hex rest hex]
      exact Nat.one_pos
  | true =>
      have digits : 0 < (escapeDigits (first :: rest)).length := by simp [escapeDigits, hex]
      rw [escape_of_hex rest hex]
      dsimp only
      omega

theorem escape_le (text : List Char) : (escape text).2 ≤ text.length := by
  cases text with
  | nil => exact Nat.le_refl _
  | cons first rest =>
      cases hex : isHexDigit first with
      | false =>
          rw [escape_of_not_hex rest hex]
          simp
      | true =>
          have digits := length_escapeDigits_le (first :: rest)
          have blanks := runLength_take_le isBlankChar 1
            ((first :: rest).drop (escapeDigits (first :: rest)).length)
          rw [List.length_drop] at blanks
          rw [escape_of_hex rest hex]
          dsimp only
          omega

theorem name_nil : name [] = ([], 0) := by
  rw [name]

theorem name_char {first : Char} (rest : List Char) (isChar : isNameChar first = true) :
    name (first :: rest) = (first :: (name rest).1, (name rest).2 + 1) := by
  rw [name, if_pos isChar]

theorem name_escape {first : Char} (rest : List Char) (notChar : isNameChar first = false)
    (escapes : startsEscape (first :: rest) = true) :
    name (first :: rest) =
      ((escape rest).1 :: (name (rest.drop (escape rest).2)).1,
        1 + (escape rest).2 + (name (rest.drop (escape rest).2)).2) := by
  rw [name, if_neg (by simp [notChar]), if_pos escapes]

def endsName (text : List Char) : Bool :=
  !text.head?.any isNameChar && !startsEscape text

theorem name_of_endsName {text : List Char} (ends : endsName text = true) : name text = ([], 0) := by
  cases text with
  | nil => exact name_nil
  | cons first rest =>
      simp only [endsName, List.head?_cons, Option.any_some, Bool.and_eq_true,
        Bool.not_eq_true'] at ends
      rw [name, if_neg (by simp [ends.1]), if_neg (by simp [ends.2])]

theorem name_cases (text : List Char) :
    endsName text = true ∨ ∃ first rest, text = first :: rest ∧
      (isNameChar first = true ∨
        isNameChar first = false ∧ startsEscape (first :: rest) = true) := by
  cases text with
  | nil => exact .inl rfl
  | cons first rest =>
      cases isChar : isNameChar first with
      | true => exact .inr ⟨first, rest, rfl, .inl isChar⟩
      | false =>
          cases escapes : startsEscape (first :: rest) with
          | true => exact .inr ⟨first, rest, rfl, .inr ⟨isChar, escapes⟩⟩
          | false =>
              left
              simp [endsName, isChar, escapes]

/-! Quoted texts and addresses -/

section

variable {quote : Char}

theorem quotedText_quote (rest : List Char) : quotedText quote (quote :: rest) = ([], .closed, 1) := by
  rw [quotedText.eq_def]
  dsimp only
  rw [if_pos (beq_self_eq_true quote)]

theorem quotedText_newline (rest : List Char) (notQuote : '\n' ≠ quote) :
    quotedText quote ('\n' :: rest) = ([], .broken, 0) := by
  rw [quotedText.eq_def]
  dsimp only
  rw [if_neg (by simpa using notQuote)]
  rfl

theorem quotedText_continued (rest : List Char) (notQuote : '\\' ≠ quote) :
    quotedText quote ('\\' :: '\n' :: rest) =
      ((quotedText quote rest).1, (quotedText quote rest).2.1, (quotedText quote rest).2.2 + 2) := by
  rw [quotedText.eq_def]
  dsimp only
  rw [if_neg (by simpa using notQuote)]
  rfl

theorem quotedText_escape {first : Char} (rest : List Char) (notQuote : '\\' ≠ quote)
    (notNewline : first ≠ '\n') :
    quotedText quote ('\\' :: first :: rest) =
      ((escape (first :: rest)).1 ::
          (quotedText quote ((first :: rest).drop (escape (first :: rest)).2)).1,
        (quotedText quote ((first :: rest).drop (escape (first :: rest)).2)).2.1,
        1 + (escape (first :: rest)).2 +
          (quotedText quote ((first :: rest).drop (escape (first :: rest)).2)).2.2) := by
  rw [quotedText.eq_def]
  dsimp only
  rw [if_neg (by simpa using notQuote)]
  simp [notNewline]

theorem quotedText_char {first : Char} (rest : List Char) (notQuote : first ≠ quote)
    (notNewline : first ≠ '\n') (notBackslash : first ≠ '\\') :
    quotedText quote (first :: rest) =
      (first :: (quotedText quote rest).1, (quotedText quote rest).2.1,
        (quotedText quote rest).2.2 + 1) := by
  rw [quotedText.eq_def]
  dsimp only
  rw [if_neg (by simpa using notQuote), if_neg (by simpa using notNewline),
    if_neg (by simpa using notBackslash)]

end

theorem brokenLength_escaped (rest : List Char) :
    brokenLength ('\\' :: ')' :: rest) = brokenLength rest + 2 := rfl

theorem brokenLength_char {first : Char} (rest : List Char) (notClose : first ≠ ')')
    (notEscape : first ≠ '\\' ∨ rest.head? ≠ some ')') :
    brokenLength (first :: rest) = brokenLength rest + 1 := by
  rw [brokenLength]
  · rintro more rfl rfl
    rcases notEscape with other | other <;> exact other rfl
  · exact notClose

theorem addressEnd_char {first : Char} (rest : List Char) (notClose : first ≠ ')') :
    addressEnd (first :: rest) = (.broken, brokenLength (first :: rest)) := by
  unfold addressEnd
  split
  · rename_i empty
    cases empty
  · rename_i same
    exact absurd (List.cons.inj same).1 notClose
  · rfl

theorem addressText_close (rest : List Char) : addressText (')' :: rest) = ([], .closed, 1) := by
  rw [addressText]
  rfl

theorem addressText_blank {first : Char} (rest : List Char) (blank : isBlankChar first = true) :
    addressText (first :: rest) =
      ([], (addressEnd ((first :: rest).drop (runLength isBlankChar (first :: rest)))).1,
        runLength isBlankChar (first :: rest) +
          (addressEnd ((first :: rest).drop (runLength isBlankChar (first :: rest)))).2) := by
  have notClose : first ≠ ')' := by
    rintro rfl
    cases blank
  rw [addressText, if_neg (by simpa using notClose), if_pos blank]

theorem addressText_escape {first : Char} (rest : List Char)
    (escapes : startsEscape (first :: rest) = true) :
    addressText (first :: rest) =
      ((escape rest).1 :: (addressText (rest.drop (escape rest).2)).1,
        (addressText (rest.drop (escape rest).2)).2.1,
        1 + (escape rest).2 + (addressText (rest.drop (escape rest).2)).2.2) := by
  have backslash : first = '\\' := by
    rw [startsEscape_cons, Bool.and_eq_true] at escapes
    exact eq_of_beq escapes.1
  subst backslash
  rw [addressText, if_neg (by decide), if_neg (by decide), if_pos escapes]

theorem addressText_break {first : Char} (rest : List Char) (notClose : first ≠ ')')
    (notBlank : isBlankChar first = false) (noEscape : startsEscape (first :: rest) = false)
    (breaks : breaksAddress first = true) :
    addressText (first :: rest) = ([], .broken, 1 + brokenLength rest) := by
  rw [addressText, if_neg (by simpa using notClose), if_neg (by simp [notBlank]),
    if_neg (by simp [noEscape]), if_pos breaks]

theorem addressText_char {first : Char} (rest : List Char) (notClose : first ≠ ')')
    (notBlank : isBlankChar first = false) (noEscape : startsEscape (first :: rest) = false)
    (fits : breaksAddress first = false) :
    addressText (first :: rest) =
      (first :: (addressText rest).1, (addressText rest).2.1, (addressText rest).2.2 + 1) := by
  rw [addressText, if_neg (by simpa using notClose), if_neg (by simp [notBlank]),
    if_neg (by simp [noEscape]), if_neg (by simp [fits])]

/-! Numbers -/

theorem signLength_le (text : List Char) : signLength text ≤ text.length :=
  runLength_take_le _ 1 text

theorem mantissaLength_le (text : List Char) : mantissaLength text ≤ text.length := by
  unfold mantissaLength
  have whole := runLength_le Char.isDigit text
  dsimp only
  split
  · rename_i fraction same
    have rest := runLength_le Char.isDigit fraction
    have lengths := congrArg List.length same
    rw [List.length_drop, List.length_cons] at lengths
    split
    · exact whole
    · omega
  · exact whole

theorem exponentLength_le (text : List Char) : exponentLength text ≤ text.length := by
  cases text with
  | nil => exact Nat.le_refl _
  | cons first rest =>
      have sign := signLength_le rest
      have digits := runLength_le Char.isDigit (rest.drop (signLength rest))
      rw [List.length_drop] at digits
      unfold exponentLength
      dsimp only
      split
      · split
        · exact Nat.zero_le _
        · simp only [List.length_cons]
          omega
      · exact Nat.zero_le _

theorem numberLength_le (text : List Char) : numberLength text ≤ text.length := by
  have sign := signLength_le text
  have mantissa := mantissaLength_le (text.drop (signLength text))
  have exponent := exponentLength_le
    (text.drop (signLength text + mantissaLength (text.drop (signLength text))))
  rw [List.length_drop] at mantissa exponent
  unfold numberLength
  dsimp only
  split
  · exact Nat.zero_le _
  · omega

/-! Comments -/

theorem commentBody?_char {first : Char} (rest : List Char)
    (notClose : first ≠ '*' ∨ rest.head? ≠ some '/') :
    commentBody? (first :: rest) =
      (commentBody? rest).map fun (body, after) => (first :: body, after) := by
  rw [commentBody?]
  rintro more rfl rfl
  rcases notClose with other | other <;> exact other rfl

/-! Tokens -/

theorem name_le_nameToken (text : List Char) : (name text).2 ≤ (nameToken text).2 := by
  unfold nameToken
  dsimp only
  split
  · split
    · dsimp only
      omega
    · exact Nat.le_succ _
  · exact Nat.le_refl _

theorem markToken_at (rest : List Char) :
    markToken '@' rest =
      if startsIdent rest then (.leaf (.atKeyword (name rest).1), 1 + (name rest).2)
      else (.leaf (.mark ['@']), 1) := rfl

theorem markToken_hash (rest : List Char) :
    markToken '#' rest =
      if (rest.head?.any isNameChar) || startsEscape rest then
        (.leaf (.hash (name rest).1 (startsIdent rest)), 1 + (name rest).2)
      else (.leaf (.mark ['#']), 1) := rfl

theorem markToken_comment (rest : List Char) :
    markToken '/' ('*' :: rest) =
      (.comment, 2 + ((commentBody? rest).elim rest.length fun (body, _) => body.length)) := rfl

/-- A quoted text, a bracket, or a mark that does not depend on more than one character behind it. -/
def plainMark (first : Char) (rest : List Char) : Token × Nat :=
  if first == '"' || first == '\'' then
    let (value, ending, count) := quotedText first rest
    let token :=
      match ending with
      | .closed => .leaf (.quoted value true)
      | .atEnd => .leaf (.quoted value false)
      | .broken => .brokenQuoted
    (token, 1 + count)
  else
    match Bracket.ofOpening? first, Bracket.ofClosing? first with
    | some bracket, _ => (.opening bracket, 1)
    | none, some bracket => (.closing bracket, 1)
    | none, none => matchMark first rest

def isLongMark (first : Char) (rest : List Char) : Bool :=
  first == '@' || first == '#' || first == '/' && rest.head? == some '*' ||
    first == '<' && "!--".toList.isPrefixOf rest || first == '|' && rest.head? == some '|'

theorem markToken_plain {first : Char} {rest : List Char} (short : isLongMark first rest = false) :
    markToken first rest = plainMark first rest := by
  unfold markToken
  split
  · cases short
  · cases short
  · cases short
  · cases short
  · cases short
  · rfl

end SheetScript.Css
