import SheetScript.Proofs.Css.Slips

/-!
The tokens of rows of components as they are written: each leaf is one token, and a block or a
function is its brackets around the tokens of what it holds.
-/

namespace SheetScript.Css

open SheetScript.Text

/-! Names -/

section

variable {offset : Nat} {found : List Char} {rest : List Component} {after : List Char}
  (fits : RowFits (.leaf offset (.ident found) :: rest)) (edge : startsEdge after = true)

include fits edge

theorem no_parenthesis_behind_ident :
    (textBehind (.leaf offset (.ident found)) rest after).head? ≠ some '(' := by
  intro head
  obtain ⟨right, more, rfl, apart, opens, -⟩ := opens_behind fits edge head rfl
  cases opens with
  | name other isName begins => simp [isNameStart] at begins
  | letter shape begins => simp at begins
  | number shape begins => rcases begins with begins | begins | begins | begins <;> cases begins
  | mark text isMark =>
      have sound := fits.tail.head.1
      obtain ⟨place, rfl⟩ := eq_mark_of_shape isMark
      rw [Component.Sound] at sound
      have noLong : ∀ text ∈ longMarks, text.head? ≠ some '(' := by decide
      rcases sound with long | ⟨c, isMarkChar, same⟩
      · exact noLong _ long rfl
      · obtain ⟨rfl, rfl⟩ := List.cons.inj same
        cases isMarkChar
  | plain isOpening round =>
      rw [round rfl] at apart
      cases apart

theorem no_arrow_behind_ident :
    "-->".toList.isPrefixOf (writeIdent found ++ textBehind (.leaf offset (.ident found)) rest after) =
      false := by
  refine Bool.eq_false_iff.2 fun startsArrow => ?_
  have sound := fits.head.1
  rw [Component.Sound] at sound
  obtain ⟨rfl, close⟩ := startsArrow_writeIdent sound.1 startsArrow
  obtain ⟨place, text, more, rfl, -, isMark, -⟩ := sigil_behind fits edge close (by decide)
  have noLong : ∀ text ∈ longMarks, text.head? ≠ some '>' := by decide
  rcases isMark with rfl | long
  · exact absurd fits.head.2.2 (by simp [slips])
  · exact noLong _ long rfl

end

theorem startsRange_cases {first : Char} {rest : List Char}
    (range : startsRange (first :: rest) = true) :
    ∃ digit more, rest = '+' :: digit :: more ∧ (isHexDigit digit = true ∨ digit = '?') := by
  unfold startsRange at range
  split at range
  · rename_i u digit more same
    obtain ⟨-, rfl⟩ := List.cons.inj same
    simp only [Bool.and_eq_true, Bool.or_eq_true, beq_iff_eq] at range
    exact ⟨digit, more, rfl, range.2⟩
  · cases range

theorem isNameStart_of_hex {c : Char} (hex : isHexDigit c = true) (notDigit : c.isDigit = false) :
    isNameStart c = true := by
  have isChar := isNameChar_of_isHexDigit hex
  have notMinus : c ≠ '-' := by
    rintro rfl
    cases hex
  simpa [isNameChar, notDigit, notMinus] using isChar

theorem rangeDigitFirst_of_opens {right : Component} (more : List Component) {digit : Char}
    (sound : right.Sound) (opens : Opens right digit)
    (isRangeDigit : isHexDigit digit = true ∨ digit = '?') (notNumber : right.shape ∉ numberShapes) :
    rangeDigitFirst (right :: more) = true := by
  -- Apart from numbers, only names and question marks begin with what a range could take.
  cases opens with
  | name found isName begins =>
      rcases begins with rfl | rfl | ⟨isStart, first⟩
      · rcases isRangeDigit with hex | question <;> contradiction
      · rcases isRangeDigit with hex | question <;> contradiction
      · rcases isRangeDigit with hex | rfl
        · simp [rangeDigitFirst, nameFirst, isName, first, isStart, hex]
        · cases isStart
  | letter shape begins =>
      rcases begins with rfl | rfl <;> rcases isRangeDigit with hex | question <;> contradiction
  | number shape => exact absurd shape notNumber
  | mark text isMark =>
      obtain ⟨place, rfl⟩ := eq_mark_of_shape isMark
      rcases isRangeDigit with hex | rfl
      · obtain ⟨notStart, notDigit, -⟩ := mark_first sound
        rw [isNameStart_of_hex hex notDigit] at notStart
        cases notStart
      · have noLong : ∀ text ∈ longMarks, text.head? ≠ some '?' := by decide
        rcases mark_cases sound with rfl | long
        · rfl
        · exact absurd rfl (noLong _ long)
  | plain isOpening =>
      have others : ∀ c ∈ openings, isHexDigit c = false ∧ c ≠ '?' :=
        forall_of_all (by decide)
      obtain ⟨notHex, notQuestion⟩ := others _ isOpening
      rcases isRangeDigit with hex | question
      · rw [hex] at notHex
        cases notHex
      · exact absurd question notQuestion

theorem no_range_behind_ident {offset : Nat} {found : List Char} {rest : List Component}
    {after : List Char} (fits : RowFits (.leaf offset (.ident found) :: rest))
    (edge : startsEdge after = true) :
    startsRange (writeIdent found ++ textBehind (.leaf offset (.ident found)) rest after) = false := by
  -- The plus sign is a component of its own; `slips` rules out a digit of a range behind it.
  refine Bool.eq_false_iff.2 fun range => ?_
  have sound := fits.head.1
  rw [Component.Sound] at sound
  obtain ⟨isU, starts⟩ := startsRange_writeIdent sound.1 range
  obtain ⟨u, rfl⟩ : ∃ u, found = [u] := isU.elim (fun same => ⟨_, same⟩) fun same => ⟨_, same⟩
  obtain ⟨digit, later, plus, isRangeDigit⟩ := startsRange_cases starts
  have plus : textBehind (.leaf offset (.ident [u])) rest after = '+' :: digit :: later := plus
  have head : (textBehind (.leaf offset (.ident [u])) rest after).head? = some '+' :=
    congrArg List.head? plus
  obtain ⟨right, more, rfl, apart, opens, behind⟩ := opens_behind fits edge head rfl
  have clear := fits.head.2.2
  cases opens with
  | name other isName begins => simp [isNameStart] at begins
  | letter shape begins => simp at begins
  | number isNumber =>
      have merges : ∀ right ∈ numberShapes, Shape.ident.merges right = true := by decide
      cases (merges _ isNumber).symm.trans apart
  | mark text isMark =>
      obtain ⟨place, rfl⟩ := eq_mark_of_shape isMark
      have noLong : ∀ text ∈ longMarks, text.head? ≠ some '+' := by decide
      rcases mark_cases fits.tail.head.1 with rfl | long
      · rw [plus] at behind
        have digitHead : (textBehind (.leaf place (.mark ['+'])) more after).head? = some digit :=
          (congrArg (fun text => text.tail.head?) behind).symm
        have none : ∀ c ∈ edges, isHexDigit c = false ∧ c ≠ '?' := forall_of_all (by decide)
        have notEdge : edges.contains digit = false := by
          refine Bool.eq_false_iff.2 fun isEdge => ?_
          obtain ⟨notHex, notQuestion⟩ := none _ (List.contains_iff_mem.1 isEdge)
          rcases isRangeDigit with hex | question
          · cases hex.symm.trans notHex
          · exact notQuestion question
        obtain ⟨second, later, rfl, apart, opens, -⟩ := opens_behind fits.tail edge digitHead notEdge
        have notNumber : second.shape ∉ numberShapes := by
          intro isNumber
          have together := merges_number (.char '+') (by decide) _ isNumber
          cases together.symm.trans apart
        have digitFirst := rangeDigitFirst_of_opens later fits.tail.tail.head.1 opens
          isRangeDigit notNumber
        rcases isU with same | same
        · simp [slips, same, digitFirst] at clear
        · simp [slips, same, digitFirst] at clear
      · exact noLong _ long rfl
  | plain isOpening => exact absurd isOpening (by decide)

/-! Marks -/

/-- What a component with a number is written as begins with its number. -/
theorem writeComponent_number {component : Component} (sound : component.Sound)
    (isNumber : component.shape ∈ numberShapes) :
    ∃ text more, NumberText text ∧ writeComponent component = text ++ more := by
  cases component with
  | leaf offset leaf =>
      rw [Component.Sound] at sound
      cases leaf with
      | number text => exact ⟨text, [], sound, (List.append_nil _).symm⟩
      | percentage text => exact ⟨text, ['%'], sound, rfl⟩
      | dimension text unit => exact ⟨text, writeUnit unit, sound.1, rfl⟩
      | _ => simp [Component.shape, Leaf.shape, numberShapes] at isNumber
  | _ => simp [Component.shape, numberShapes] at isNumber

section

variable {offset : Nat} {rest : List Component} {after : List Char}

theorem no_ident_behind_at (fits : RowFits (.leaf offset (.mark ['@']) :: rest))
    (edge : startsEdge after = true) :
    startsIdent (textBehind (.leaf offset (.mark ['@'])) rest after) = false := by
  have clear := fits.head.2.2
  rcases textBehind_cases clear edge with atEdge | ⟨right, more, rfl, apart, behind⟩
  · exact (startsIdent_of_endsName (endsName_of_edge atEdge)).1
  · rw [behind]
    rcases fits.tail.word_or_endsName after with isWord | dash | ends
    · by_cases isNumber : right.shape ∈ numberShapes
      · obtain ⟨text, unit, isText, written⟩ := writeComponent_number fits.tail.head.1 isNumber
        rw [written, List.append_assoc]
        exact startsIdent_number isText _
      · have merges : ∀ right ∈ wordShapes, right ∉ numberShapes →
            (Shape.char '@').merges right = true := by
          decide
        cases (merges _ isWord isNumber).symm.trans apart
    · simp only [List.mem_cons, List.not_mem_nil, or_false] at dash
      rcases dash with isMinus | isArrow
      · rw [isMinus] at apart
        cases apart
      · obtain ⟨place, rfl⟩ := eq_mark_of_shape isArrow
        simp [slips, markSlips] at clear
    · exact (startsIdent_of_endsName ends).1

/-- Behind a mark that goes on with an equals sign, no such sign stands. -/
theorem no_equals_behind {c : Char} (goesOn : c ∈ ['~', '|', '^', '$', '*'])
    (fits : RowFits (.leaf offset (.mark [c]) :: rest)) (edge : startsEdge after = true) :
    (textBehind (.leaf offset (.mark [c])) rest after).head? ≠ some '=' := by
  intro equals
  obtain ⟨place, text, more, rfl, apart, isMark, -⟩ := sigil_behind fits edge equals (by decide)
  have noLong : ∀ text ∈ longMarks, text.head? ≠ some '=' := by decide
  rcases isMark with rfl | long
  · have merges : ∀ c ∈ ['~', '|', '^', '$', '*'],
        (Shape.char c).merges (.char '=') = true :=
      forall_of_all (by decide)
    cases (merges c goesOn).symm.trans apart
  · exact noLong _ long rfl

theorem no_bar_behind (fits : RowFits (.leaf offset (.mark ['|']) :: rest))
    (edge : startsEdge after = true) :
    (textBehind (.leaf offset (.mark ['|'])) rest after).head? ≠ some '|' := by
  intro bar
  have clear := fits.head.2.2
  obtain ⟨place, text, more, rfl, apart, isMark, -⟩ := sigil_behind fits edge bar (by decide)
  have long : ∀ text ∈ longMarks, text.head? = some '|' → text = "||".toList ∨ text = ['|', '='] := by
    decide
  rcases isMark with rfl | isLong
  · cases apart
  · rcases long _ isLong rfl with same | same <;> simp [slips, markSlips, same] at clear

theorem no_star_behind (fits : RowFits (.leaf offset (.mark ['/']) :: rest))
    (edge : startsEdge after = true) :
    (textBehind (.leaf offset (.mark ['/'])) rest after).head? ≠ some '*' := by
  intro star
  have clear := fits.head.2.2
  obtain ⟨place, text, more, rfl, apart, isMark, -⟩ := sigil_behind fits edge star (by decide)
  have long : ∀ text ∈ longMarks, text.head? = some '*' → text = ['*', '='] := by decide
  rcases isMark with rfl | isLong
  · cases apart
  · simp [slips, markSlips, long _ isLong rfl] at clear

end

/-- What a component with a name is written as begins with its name. -/
theorem writeComponent_name {component : Component} {found : List Char}
    (isName : component.name? = some found) :
    ∃ more, writeComponent component = writeIdent found ++ more := by
  cases component with
  | leaf offset leaf =>
      cases leaf with
      | ident name =>
          obtain rfl := Option.some.inj isName
          exact ⟨[], (List.append_nil _).symm⟩
      | _ => cases isName
  | function offset name arguments =>
      obtain rfl := Option.some.inj isName
      exact ⟨_, by rw [writeComponent, List.append_assoc]⟩
  | _ => cases isName

theorem name?_ne_nil {component : Component} {found : List Char} (sound : component.Sound)
    (isName : component.name? = some found) : found ≠ [] := by
  cases component with
  | leaf offset leaf =>
      cases leaf with
      | ident name =>
          obtain rfl := Option.some.inj isName
          rw [Component.Sound] at sound
          exact sound.1
      | _ => cases isName
  | function offset name arguments =>
      obtain rfl := Option.some.inj isName
      rw [Component.Sound] at sound
      exact sound.1.1
  | _ => cases isName

theorem not_comment_opening_behind {offset : Nat} {rest : List Component} {after : List Char}
    (fits : RowFits (.leaf offset (.mark ['<']) :: rest)) (edge : startsEdge after = true) :
    "!--".toList.isPrefixOf (textBehind (.leaf offset (.mark ['<'])) rest after) = false := by
  -- The exclamation mark is a component of its own; `slips` rules out two dashes behind it.
  refine Bool.eq_false_iff.2 fun opening => ?_
  have clear := fits.head.2.2
  obtain ⟨later, whole⟩ := List.isPrefixOf_iff_prefix.1 opening
  have head : (textBehind (.leaf offset (.mark ['<'])) rest after).head? = some '!' := by
    rw [← whole]
    rfl
  obtain ⟨place, text, more, rfl, -, isMark, behind⟩ := sigil_behind fits edge head (by decide)
  have noLong : ∀ text ∈ longMarks, text.head? ≠ some '!' := by decide
  rcases isMark with rfl | long
  · have dashes : textBehind (.leaf place (.mark ['!'])) more after = '-' :: '-' :: later := by
      rw [behind] at whole
      exact (List.cons.inj whole).2.symm
    have first : (textBehind (.leaf place (.mark ['!'])) more after).head? = some '-' :=
      congrArg List.head? dashes
    obtain ⟨right, row, rfl, -, opens, behindBang⟩ := opens_behind fits.tail edge first rfl
    rw [behindBang] at dashes
    have notTwo : twoDashesFirst (right :: row) = false := by
      simp only [slips, markSlips, Bool.or_eq_false_iff, Bool.and_eq_false_iff] at clear
      exact clear.2.2.resolve_left (by simp)
    cases opens with
    | name found isName begins =>
        obtain ⟨inside, written⟩ := writeComponent_name isName
        rw [written, List.append_assoc] at dashes
        obtain ⟨tail, rfl⟩ := twoDashes_writeIdent (name?_ne_nil fits.tail.tail.head.1 isName) dashes
        simp [twoDashesFirst, nameFirst, isName] at notTwo
    | letter shape begins => rcases begins with begins | begins <;> cases begins
    | number isNumber =>
        obtain ⟨text, unit, ⟨⟨sign, whole, fraction, exponent, parts⟩, -⟩, written⟩ :=
          writeComponent_number fits.tail.tail.head.1 isNumber
        obtain ⟨c, tail, rfl, -, behindMinus⟩ := number_cons parts
        rw [written] at dashes
        obtain ⟨second, rest, rfl, notMinus⟩ := behindMinus (List.cons.inj dashes).1
        exact notMinus (List.cons.inj (List.cons.inj dashes).2).1
    | mark text shape =>
        obtain ⟨spot, rfl⟩ := eq_mark_of_shape shape
        have long : ∀ text ∈ longMarks, text.head? = some '-' → text = arrow := by decide
        rcases mark_cases fits.tail.tail.head.1 with rfl | isLong
        · have ends := endsName_behind fits.tail.tail edge
            (show Shape.char '-' ∈ nameEnds ++ nameMarks by decide)
          have same : textBehind (.leaf spot (.mark ['-'])) row after = '-' :: later :=
            (List.cons.inj dashes).2
          rw [same] at ends
          cases ends
        · have isArrow := long _ isLong rfl
          rw [isArrow] at notTwo
          cases notTwo
    | plain isOpening => exact absurd isOpening (by decide)
  · exact noLong _ long rfl

/-- A mark that is written by itself, in front of nothing that it could be read with. -/
theorem scan_mark {c : Char} (isMark : isMarkChar c = true) {rest : List Char}
    (notIdent : startsIdent (c :: rest) = false)
    (noArrow : "-->".toList.isPrefixOf (c :: rest) = false)
    (noNumber : numberLength (c :: rest) = 0) (short : isLongMark c rest = false)
    (noEquals : c ∈ ['~', '|', '^', '$', '*'] → rest.head? ≠ some '=') :
    scan c rest = (.leaf (.mark [c]), 1) := by
  simp only [isMarkChar, Bool.and_eq_true, Bool.not_eq_true', List.contains_eq_mem,
    decide_eq_false_iff_not, List.mem_cons, List.not_mem_nil, or_false, not_or] at isMark
  obtain ⟨⟨⟨⟨-, dark⟩, -⟩, -⟩, notDouble, notSingle, notBracket⟩ := isMark
  rw [scan_markToken dark notIdent noArrow noNumber, markToken_plain short]
  have noOpening : Bracket.ofOpening? c = none := by
    refine Option.eq_none_iff_forall_ne_some.2 fun bracket found => ?_
    obtain rfl := ofOpening?_eq_some.1 found
    cases bracket <;> simp [Bracket.opening] at notBracket
  have noClosing : Bracket.ofClosing? c = none := by
    refine Option.eq_none_iff_forall_ne_some.2 fun bracket found => ?_
    obtain rfl := ofClosing?_eq_some.1 found
    cases bracket <;> simp [Bracket.closing] at notBracket
  have noQuote : (c == '"' || c == '\'') = false := by simp [notDouble, notSingle]
  simpa [plainMark, noQuote, noOpening, noClosing, matchMark] using noEquals

section

variable {offset : Nat} {c : Char} {rest : List Component} {after : List Char}
  (fits : RowFits (.leaf offset (.mark [c]) :: rest)) (edge : startsEdge after = true)

include fits

theorem isMarkChar_of_fits : isMarkChar c = true := by
  have sound := fits.head.1
  rw [Component.Sound] at sound
  rcases sound with long | ⟨d, isMark, same⟩
  · have none : ∀ text ∈ longMarks, text.length ≠ 1 := by decide
    exact absurd rfl (none _ long)
  · rwa [(List.cons.inj same).1]

include edge

theorem startsIdent_mark :
    startsIdent (c :: textBehind (.leaf offset (.mark [c])) rest after) = false := by
  have notStart := (mark_first fits.head.1).1
  by_cases dash : c = '-'
  · subst dash
    have ends := endsName_behind fits edge (show Shape.char '-' ∈ nameEnds ++ nameMarks by decide)
    exact (startsIdent_of_endsName ends).2
  · rw [startsIdent_cons, if_neg dash, notStart, Bool.false_or, startsEscape_cons]
    by_cases backslash : c = '\\'
    · subst backslash
      obtain ⟨later, newline⟩ := newline_behind_backslash fits rfl after
      rw [newline]
      rfl
    · rw [beq_eq_false_iff_ne.2 backslash, Bool.false_and]

theorem startsArrow_mark :
    "-->".toList.isPrefixOf (c :: textBehind (.leaf offset (.mark [c])) rest after) = false := by
  by_cases dash : c = '-'
  · subst dash
    have ends := endsName_behind fits edge (show Shape.char '-' ∈ nameEnds ++ nameMarks by decide)
    refine Bool.eq_false_iff.2 fun arrow => ?_
    obtain ⟨later, same⟩ := List.isPrefixOf_iff_prefix.1 arrow
    rw [← (List.cons.inj same).2] at ends
    cases ends
  · exact startsArrow_of_ne dash

theorem numberLength_mark :
    numberLength (c :: textBehind (.leaf offset (.mark [c])) rest after) = 0 := by
  by_cases sign : c = '+' ∨ c = '-'
  · refine numberLength_of_sign sign (endsDigits_behind fits edge ?_)
    rcases sign with rfl | rfl
    · exact show Shape.char '+' ∈ [.char '+', .char '-', .number] by decide
    · exact show Shape.char '-' ∈ [.char '+', .char '-', .number] by decide
  · rw [not_or] at sign
    refine numberLength_of_endsDigits sign.1 sign.2 ?_
    have notDigit := (mark_first fits.head.1).2.1
    unfold endsDigits
    rw [List.head?_cons, Option.any_some, notDigit, Bool.not_false, Bool.true_and, List.tail_cons,
      Bool.not_eq_true', Bool.and_eq_false_iff]
    by_cases point : c = '.'
    · subst point
      exact .inr (no_digit_behind fits edge (show Shape.char '.' ∈ pointMarks ++ digitEnds by decide))
    · exact .inl (by simpa using point)

theorem isLongMark_mark (notAt : c ≠ '@') (notHash : c ≠ '#') :
    isLongMark c (textBehind (.leaf offset (.mark [c])) rest after) = false := by
  refine Bool.eq_false_iff.2 fun long => ?_
  simp only [isLongMark, Bool.or_eq_true, Bool.and_eq_true, beq_iff_eq] at long
  rcases long with (((isAt | isHash) | ⟨rfl, star⟩) | ⟨rfl, opening⟩) | ⟨rfl, bar⟩
  · exact notAt isAt
  · exact notHash isHash
  · exact no_star_behind fits edge star
  · cases (not_comment_opening_behind fits edge).symm.trans opening
  · exact no_bar_behind fits edge bar

theorem scan_singleMark :
    scan c (textBehind (.leaf offset (.mark [c])) rest after) = (.leaf (.mark [c]), 1) := by
  by_cases isAt : c = '@'
  · subst isAt
    rw [scan_beginsMark rfl, markToken_at, no_ident_behind_at fits edge, if_neg (by decide)]
  · by_cases isHash : c = '#'
    · subst isHash
      have ends := endsName_behind fits edge (show Shape.char '#' ∈ nameEnds ++ nameMarks by decide)
      simp only [endsName, Bool.and_eq_true, Bool.not_eq_true'] at ends
      rw [scan_beginsMark rfl, markToken_hash, ends.1, ends.2, if_neg (by decide)]
    · exact scan_mark (isMarkChar_of_fits fits) (startsIdent_mark fits edge)
        (startsArrow_mark fits edge) (numberLength_mark fits edge)
        (isLongMark_mark fits edge isAt isHash) fun goesOn => no_equals_behind goesOn fits edge

end

theorem scan_longMark {c : Char} {text : List Char} (long : c :: text ∈ longMarks)
    (rest : List Char) : scan c (text ++ rest) = (.leaf (.mark (c :: text)), text.length + 1) := by
  simp only [longMarks, List.map_cons, List.map_nil, List.mem_cons, List.not_mem_nil, or_false] at long
  rcases long with same | same | same | same | same | same | same | same <;>
    obtain ⟨rfl, rfl⟩ := List.cons.inj same <;> rfl

theorem tokens_mark {offset : Nat} {text : List Char} {rest : List Component} {after : List Char}
    (fits : RowFits (.leaf offset (.mark text) :: rest)) (edge : startsEdge after = true) :
    tokens (text ++ textBehind (.leaf offset (.mark text)) rest after) =
      ⟨.leaf (.mark text), text⟩ :: tokens (textBehind (.leaf offset (.mark text)) rest after) := by
  have sound := fits.head.1
  rw [Component.Sound] at sound
  rcases sound with long | ⟨c, isMark, rfl⟩
  · obtain ⟨c, more, rfl⟩ := List.exists_cons_of_ne_nil (longMarks_ne_nil text long)
    exact tokens_of_written rfl (scan_longMark long _)
  · exact tokens_of_written rfl (scan_singleMark fits edge)

/-! Rows -/

theorem tokens_leaf {offset : Nat} {leaf : Leaf} {rest : List Component} {after : List Char}
    (fits : RowFits (.leaf offset leaf :: rest)) (edge : startsEdge after = true) :
    tokens (writeLeaf leaf ++ textBehind (.leaf offset leaf) rest after) =
      ⟨.leaf leaf, writeLeaf leaf⟩ :: tokens (textBehind (.leaf offset leaf) rest after) := by
  obtain ⟨sound, clear, -⟩ := fits.head
  rw [Component.Sound] at sound
  rw [Component.isClear] at clear
  -- What can stand behind a leaf is known from `fits`, for each kind as far as it matters there.
  cases leaf with
  | blank text =>
      obtain ⟨first, more, rfl⟩ := List.exists_cons_of_ne_nil sound.1
      exact tokens_blank sound.2 (startsDark_behind fits edge)
  | mark text => exact tokens_mark fits edge
  | ident name =>
      have ends := endsName_behind fits edge (show Shape.ident ∈ nameEnds ++ nameMarks by decide)
      exact tokens_writeIdent sound.1 ends (no_parenthesis_behind_ident fits edge)
        (no_range_behind_ident fits edge) (no_arrow_behind_ident fits edge)
  | atKeyword name =>
      exact tokens_atKeyword sound.1
        (endsName_behind fits edge (show Shape.atKeyword ∈ nameEnds ++ nameMarks by decide))
  | hash name isIdent =>
      exact tokens_hash sound.1.1 sound.2
        (endsName_behind fits edge (show Shape.hash ∈ nameEnds ++ nameMarks by decide))
  | quoted value closed =>
      obtain rfl : closed = true := clear
      exact tokens_quoted value _
  | address value closed =>
      simp only [Leaf.isClear, Bool.and_eq_true, Bool.not_eq_true'] at clear
      obtain ⟨rfl, printable⟩ := clear
      exact tokens_address printable _
  | characterRange first last =>
      exact tokens_characterRange sound.1 sound.2 (endsRange_behind fits edge)
  | number text =>
      have ends := endsDigits_behind fits edge
        (show Shape.number ∈ [.char '+', .char '-', .number] by decide)
      obtain ⟨noExponent, notIdent, notPercent⟩ := number_behind fits edge
      exact tokens_number sound ends noExponent notIdent notPercent
  | percentage text => exact tokens_percentage sound _
  | dimension text unit =>
      have apart : unitMerges text unit = false := by simpa [Leaf.isClear] using clear
      exact tokens_dimension sound.1 sound.2.1 apart
        (endsName_behind fits edge (show Shape.dimension ∈ nameEnds ++ nameMarks by decide))

mutual

def Component.spelled : Component → List Scanned
  | .leaf _ leaf => [⟨.leaf leaf, writeLeaf leaf⟩]
  | .fault _ _ => []
  | .block _ bracket content =>
    ⟨.opening bracket, [bracket.opening]⟩ ::
      (spelledAfter none content ++ [⟨.closing bracket, [bracket.closing]⟩])
  | .function _ name arguments =>
    ⟨.functionOpening name, writeIdent name ++ ['(']⟩ ::
      (spelledAfter none arguments ++ [⟨.closing .round, [')']⟩])

def spelledAfter (previous : Option Shape) : List Component → List Scanned
  | [] => []
  | component :: rest =>
    (if previous.any (·.merges component.shape) then [⟨.comment, "/**/".toList⟩] else []) ++
      (component.spelled ++ spelledAfter (some component.shape) rest)

end

theorem startsEdge_closing (bracket : Bracket) (rest : List Char) :
    startsEdge (bracket.closing :: rest) = true := by
  cases bracket <;> rfl

theorem tokens_bracket {c : Char} {token : Token} (begins : beginsMark c = true)
    (short : ∀ rest, isLongMark c rest = false) (isBracket : ∀ rest, plainMark c rest = (token, 1))
    (rest : List Char) : tokens (c :: rest) = ⟨token, [c]⟩ :: tokens rest := by
  rw [← List.singleton_append]
  refine tokens_of_written rfl ?_
  rw [scan_beginsMark begins, markToken_plain (short _)]
  exact isBracket _

theorem tokens_opening (bracket : Bracket) (rest : List Char) :
    tokens (bracket.opening :: rest) = ⟨.opening bracket, [bracket.opening]⟩ :: tokens rest := by
  cases bracket <;> exact tokens_bracket rfl (fun _ => rfl) (fun _ => rfl) rest

theorem tokens_closing (bracket : Bracket) (rest : List Char) :
    tokens (bracket.closing :: rest) = ⟨.closing bracket, [bracket.closing]⟩ :: tokens rest := by
  cases bracket <;> exact tokens_bracket rfl (fun _ => rfl) (fun _ => rfl) rest

theorem tokens_emptyComment (rest : List Char) :
    tokens ("/**/".toList ++ rest) = ⟨.comment, "/**/".toList⟩ :: tokens rest :=
  tokens_of_written rfl rfl

mutual

theorem endsInQuote_of_isClear (component : Component) (clear : component.isClear = true) :
    endsInQuote component = false := by
  cases component with
  | leaf offset leaf => rw [endsInQuote] <;> nofun
  | fault offset fault =>
      rw [Component.isClear] at clear
      cases clear
  | block offset bracket content => rw [endsInQuote] <;> nofun
  | function offset name arguments =>
      rw [Component.isClear, Bool.and_eq_true] at clear
      rw [endsInQuote]
      exact lastEndsInQuote_of_rowIsClear arguments clear.2

theorem lastEndsInQuote_of_rowIsClear (row : List Component) (clear : rowIsClear row = true) :
    lastEndsInQuote row = false := by
  cases row with
  | nil => rfl
  | cons component rest =>
      simp only [rowIsClear_cons, Bool.and_eq_true] at clear
      cases rest with
      | nil =>
          rw [lastEndsInQuote]
          exact endsInQuote_of_isClear component clear.1.1
      | cons second more =>
          rw [lastEndsInQuote]
          · exact lastEndsInQuote_of_rowIsClear (second :: more) clear.2
          · nofun

end

theorem quoteFollows_blank {text : List Char} (blank : ∀ c ∈ text, isBlankChar c = true)
    (rest : List Char) : quoteFollows (text ++ rest) = quoteFollows rest := by
  unfold quoteFollows
  rw [List.dropWhile_append_of_pos blank]

theorem eq_blank_of_isBlank {component : Component} (blank : component.isBlank = true) :
    ∃ offset text, component = .leaf offset (.blank text) := by
  cases component with
  | leaf offset leaf =>
      cases leaf with
      | blank text => exact ⟨offset, text, rfl⟩
      | _ => cases blank
  | _ => cases blank

theorem eq_quoted_of_quoteFirst {component : Component} {rest : List Component}
    (dark : component.isBlank = false) (quote : quoteFirst (component :: rest) = true) :
    ∃ offset value closed, component = .leaf offset (.quoted value closed) := by
  unfold quoteFirst at quote
  rw [List.dropWhile_cons, if_neg (by simp [dark])] at quote
  cases component with
  | leaf offset leaf =>
      cases leaf with
      | quoted value closed => exact ⟨offset, value, closed, rfl⟩
      | _ => cases quote
  | _ => cases quote

theorem quoteFollows_write {arguments : List Component} (sound : RowSound arguments)
    (quote : quoteFirst arguments = true) {previous : Option Shape}
    (blankBefore : previous = none ∨ previous = some .blank) (after : List Char) :
    quoteFollows (writeAfter previous arguments ++ after) = true := by
  induction arguments generalizing previous with
  | nil => cases quote
  | cons component rest ih =>
      have apart : separator previous component = [] := by
        rcases blankBefore with rfl | rfl
        · rfl
        · exact separator_of_apart rest rfl nofun
      rw [RowSound] at sound
      rw [writeAfter, apart, List.nil_append, List.append_assoc]
      cases blank : component.isBlank with
      | true =>
          obtain ⟨offset, text, rfl⟩ := eq_blank_of_isBlank blank
          have behind : quoteFirst rest = true := quote
          have isBlank := sound.1
          rw [Component.Sound] at isBlank
          rw [writeComponent, writeLeaf, quoteFollows_blank isBlank.2]
          exact ih sound.2 behind (.inr rfl)
      | false =>
          obtain ⟨offset, value, closed, rfl⟩ := eq_quoted_of_quoteFirst blank quote
          rfl

theorem RowFits.content {offset : Nat} {bracket : Bracket} {content rest : List Component}
    (fits : RowFits (.block offset bracket content :: rest)) : RowFits content := by
  obtain ⟨sound, clear, -⟩ := fits.head
  rw [Component.Sound] at sound
  rw [Component.isClear] at clear
  exact ⟨sound, clear⟩

theorem RowFits.arguments {offset : Nat} {name : List Char} {arguments rest : List Component}
    (fits : RowFits (.function offset name arguments :: rest)) :
    RowFits arguments ∧ NameText name ∧ (isUrlName name = true → quoteFirst arguments = true) := by
  obtain ⟨sound, clear, -⟩ := fits.head
  rw [Component.Sound] at sound
  rw [Component.isClear, Bool.and_eq_true, Bool.or_eq_true, Bool.not_eq_true'] at clear
  refine ⟨⟨sound.2, clear.2⟩, sound.1, fun isUrl => clear.1.resolve_left fun notUrl => ?_⟩
  cases isUrl.symm.trans notUrl

mutual

theorem tokens_component (component : Component) (rest : List Component) {after : List Char}
    (fits : RowFits (component :: rest)) (edge : startsEdge after = true) :
    tokens (writeComponent component ++ textBehind component rest after) =
      component.spelled ++ tokens (textBehind component rest after) := by
  cases component with
  | leaf offset leaf =>
      rw [writeComponent, Component.spelled]
      exact tokens_leaf fits edge
  | fault offset fault =>
      have clear := fits.head.2.1
      rw [Component.isClear] at clear
      cases clear
  | block offset bracket content =>
      have whole : writeComponent (.block offset bracket content) ++
          textBehind (.block offset bracket content) rest after =
          bracket.opening :: (writeAfter none content ++
            bracket.closing :: textBehind (.block offset bracket content) rest after) := by
        simp [writeComponent]
      -- The row inside is read up to the bracket that closes it.
      rw [whole, Component.spelled, tokens_opening,
        tokens_write content fits.content (startsEdge_closing bracket _), tokens_closing]
      simp
  | function offset name arguments =>
      obtain ⟨fitsArguments, isName, quoted⟩ := fits.arguments
      have closed := lastEndsInQuote_of_rowIsClear arguments fitsArguments.clear
      have whole : writeComponent (.function offset name arguments) ++
          textBehind (.function offset name arguments) rest after =
          writeIdent name ++ '(' :: (writeAfter none arguments ++
            Bracket.round.closing :: textBehind (.function offset name arguments) rest after) := by
        simp [writeComponent, closed, Bracket.closing]
      rw [whole, Component.spelled, tokens_functionOpening isName.1 fun isUrl =>
          quoteFollows_write fitsArguments.sound (quoted isUrl) (.inl rfl) _,
        tokens_write arguments fitsArguments (startsEdge_closing .round _), tokens_closing]
      simp [Bracket.closing]

theorem tokens_textBehind (component : Component) (rest : List Component) {after : List Char}
    (fits : RowFits (component :: rest)) (edge : startsEdge after = true) :
    tokens (textBehind component rest after) =
      spelledAfter (some component.shape) rest ++ tokens after := by
  cases rest with
  | nil =>
      rw [textBehind_nil, spelledAfter]
      rfl
  | cons right more =>
      have onward := tokens_component right more fits.tail edge
      rw [tokens_textBehind right more fits.tail edge] at onward
      rw [textBehind_cons fits.head.2.2, spelledAfter, Option.any_some, List.append_assoc,
        List.append_assoc, ← onward]
      split
      · exact tokens_emptyComment _
      · rfl

theorem tokens_write (row : List Component) {after : List Char} (fits : RowFits row)
    (edge : startsEdge after = true) :
    tokens (writeAfter none row ++ after) = spelledAfter none row ++ tokens after := by
  cases row with
  | nil =>
      rw [writeAfter, spelledAfter]
      rfl
  | cons component rest =>
      have whole : writeAfter none (component :: rest) ++ after =
          writeComponent component ++ textBehind component rest after := by
        rw [writeAfter, textBehind, List.append_assoc]
        rfl
      rw [whole, tokens_component component rest fits edge, tokens_textBehind component rest fits edge,
        spelledAfter]
      simp

end

end SheetScript.Css
