import SheetScript.Script.Lexeme
import SheetScript.Text.Split

/-! Rows of lexemes are read again from their texts, as long as no two of them run together. -/

namespace SheetScript.Script

open SheetScript.Text

/-! Bodies -/

/-- What stands between quotes: characters of one line, with escapes. -/
inductive QuotedBody (quote : Char) : List Char → Prop
  | nil : QuotedBody quote []
  | plain {c : Char} {rest : List Char} (notQuote : c ≠ quote) (notBackslash : c ≠ '\\')
    (notNewline : c ≠ '\n') (behind : QuotedBody quote rest) : QuotedBody quote (c :: rest)
  | escaped {c : Char} {rest : List Char} (notNewline : c ≠ '\n')
    (behind : QuotedBody quote rest) : QuotedBody quote ('\\' :: c :: rest)

/-- What stands between backticks: any characters, with escapes. -/
inductive TemplateBody : List Char → Prop
  | nil : TemplateBody []
  | plain {c : Char} {rest : List Char} (notBacktick : c ≠ '`') (notBackslash : c ≠ '\\')
    (behind : TemplateBody rest) : TemplateBody (c :: rest)
  | escaped (c : Char) {rest : List Char} (behind : TemplateBody rest) :
    TemplateBody ('\\' :: c :: rest)

theorem TemplateBody.append {front rest : List Char} (here : TemplateBody front)
    (behind : TemplateBody rest) : TemplateBody (front ++ rest) := by
  induction here with
  | nil => exact behind
  | plain notBacktick notBackslash _ ih => exact .plain notBacktick notBackslash ih
  | escaped c _ ih => exact .escaped c ih

theorem TemplateBody.of_plain {text : List Char}
    (plain : ∀ c ∈ text, c ≠ '`' ∧ c ≠ '\\') : TemplateBody text := by
  induction text with
  | nil => exact .nil
  | cons c rest ih =>
      obtain ⟨notBacktick, notBackslash⟩ := plain c List.mem_cons_self
      exact .plain notBacktick notBackslash (ih fun d here => plain d (List.mem_cons_of_mem _ here))

theorem quotedBody?_of_body {quote : Char} (isQuote : quote = '\'' ∨ quote = '"')
    {body : List Char} (isBody : QuotedBody quote body) (rest : List Char) :
    quotedBody? quote (body ++ quote :: rest) = some (body, rest) := by
  induction isBody with
  | nil => rcases isQuote with rfl | rfl <;> rfl
  | @plain c behind notQuote notBackslash notNewline _ ih =>
      rw [List.cons_append]
      unfold quotedBody?
      split
      · rename_i same
        cases same
      · rename_i same
        exact absurd (List.cons.inj same).1 notBackslash
      · rename_i same
        exact absurd (List.cons.inj same).1 notBackslash
      · rename_i same
        obtain ⟨rfl, rfl⟩ := List.cons.inj same
        simp [notQuote, notNewline, ih]
  | @escaped c behind notNewline _ ih =>
      rw [List.cons_append, List.cons_append, quotedBody?, ih]
      simp [notNewline]

theorem templateBody?_of_body {body : List Char} (isBody : TemplateBody body) (rest : List Char) :
    templateBody? (body ++ '`' :: rest) = some (body, rest) := by
  induction isBody with
  | nil => rfl
  | @plain c behind notBacktick notBackslash _ ih =>
      rw [List.cons_append]
      unfold templateBody?
      split
      · rename_i same
        cases same
      · rename_i same
        exact absurd (List.cons.inj same).1 notBackslash
      · rename_i same
        exact absurd (List.cons.inj same).1 notBackslash
      · rename_i same
        obtain ⟨rfl, rfl⟩ := List.cons.inj same
        simp [notBacktick, ih]
  | @escaped c behind _ ih =>
      rw [List.cons_append, List.cons_append, templateBody?, ih]
      rfl

namespace Lexeme

/-- A lexeme that is read as it is. Of numbers only those of digits are considered. -/
def Sound : Lexeme → Prop
  | word name => name.head?.any isWordStart = true ∧ name.all isWordChar = true
  | number text => text ≠ [] ∧ ∀ c ∈ text, c.isDigit = true
  | quoted quote body => (quote = '\'' ∨ quote = '"') ∧ QuotedBody quote body
  | template body => TemplateBody body
  | mark _ => True
  | blank c => isBlankChar c = true
  | comment _ => False

def endsBefore (next : Option Char) : Lexeme → Bool
  | word _ => !next.any isWordChar
  | number _ => !next.any fun c => isDigit c || c == '.' || c == 'e' || c == 'E'
  | mark .dot => !next.any isDigit
  | _ => true

end Lexeme

/-! Single lexemes -/

theorem not_blank_of_wordStart {c : Char} (start : isWordStart c = true) : isBlankChar c = false := by
  refine Bool.eq_false_iff.2 fun blank => ?_
  simp only [isBlankChar, Bool.or_eq_true, beq_iff_eq] at blank
  rcases blank with (((rfl | rfl) | rfl) | rfl) | rfl <;> cases start

def beginsOther (c : Char) : Bool :=
  isBlankChar c || isWordStart c || c == '\'' || c == '"' || c == '`' || c == '/'

theorem lexeme?_of_plain {c : Char} (plain : beginsOther c = false) (rest : List Char) :
    lexeme? (c :: rest) = ((numberPart? (c :: rest)).map fun part => (.number part.1, part.2)).or
      ((Mark.ofChar? c).map fun mark => (.mark mark, rest)) := by
  simp only [beginsOther, Bool.or_eq_false_iff] at plain
  obtain ⟨⟨⟨⟨⟨blank, start⟩, single⟩, double⟩, back⟩, slash⟩ := plain
  unfold lexeme?
  simp only [blank, start, single, double, back, slash, Bool.or_self, Bool.false_eq_true, if_false]
  cases numberPart? (c :: rest) <;> rfl

theorem digit_bounds {c : Char} (digit : c.isDigit = true) : 48 ≤ c.toNat ∧ c.toNat ≤ 57 := by
  simpa [Char.isDigit, UInt32.le_iff_toNat_le] using digit

theorem isDigit_of_ascii {c : Char} (digit : c.isDigit = true) : isDigit c = true := by
  obtain ⟨low, high⟩ := digit_bounds digit
  have first : (0x30 ≤ c.toNat && c.toNat < 0x30 + 10) = true := by
    simp only [Bool.and_eq_true, decide_eq_true_eq]
    omega
  simp only [isDigit, digitValue?, digitZeros, List.find?_cons, first, Option.map_some,
    Option.isSome_some]

theorem plain_of_digit {c : Char} (digit : c.isDigit = true) : beginsOther c = false := by
  obtain ⟨low, high⟩ := digit_bounds digit
  obtain ⟨n, rfl⟩ : ∃ n : Fin 10, c = Char.ofNat (48 + n) := by
    refine ⟨⟨c.toNat - 48, by omega⟩, ?_⟩
    have same : 48 + (c.toNat - 48) = c.toNat := by omega
    simp only [same, Char.ofNat_toNat]
  revert n
  decide

theorem numberPart?_digits {text rest : List Char} (some : text ≠ [])
    (digits : ∀ c ∈ text, c.isDigit = true)
    (ends : rest.head?.any (fun c => isDigit c || c == '.' || c == 'e' || c == 'E') = false) :
    numberPart? (text ++ rest) = .some (text, rest) := by
  have noDigit : rest.head?.any isDigit = false := by
    cases rest with
    | nil => rfl
    | cons c rest =>
        simp only [List.head?_cons, Option.any_some, Bool.or_eq_false_iff] at ends ⊢
        exact ends.1.1.1
  obtain ⟨whole, after⟩ :=
    takeWhile_append_of_ends (fun c here => isDigit_of_ascii (digits c here)) noDigit
  have point : pointPart text rest = ([], rest) := by
    unfold pointPart
    split
    · cases ends
    · rfl
  have exponent : exponentPart rest = ([], rest) := by
    cases rest with
    | nil => rfl
    | cons c rest =>
        simp only [List.head?_cons, Option.any_some, Bool.or_eq_false_iff] at ends
        simp [exponentPart, ends.1.2, ends.2]
  unfold numberPart?
  simp [whole, after, point, exponent, some]

theorem numberPart?_mark {c : Char} (notDigit : isDigit c = false) (notExponent : c ≠ 'e' ∧ c ≠ 'E')
    {rest : List Char} (notPoint : c = '.' → rest.head?.any isDigit = false) :
    numberPart? (c :: rest) = none := by
  have whole : (c :: rest).takeWhile isDigit = [] := by rw [List.takeWhile_cons, notDigit]; rfl
  have after : (c :: rest).dropWhile isDigit = c :: rest := by
    rw [List.dropWhile_cons, notDigit]
    rfl
  have point : pointPart [] (c :: rest) = ([], c :: rest) := by
    by_cases isPoint : c = '.'
    · subst isPoint
      have none : rest.takeWhile isDigit = [] := by
        cases rest with
        | nil => rfl
        | cons d rest =>
            have dark : isDigit d = false := notPoint rfl
            rw [List.takeWhile_cons, dark]
            rfl
      simp [pointPart, none]
    · unfold pointPart
      split
      · rename_i same
        exact absurd (List.cons.inj same).1 isPoint
      · rfl
  unfold numberPart?
  simp [whole, after, point]

theorem ofChar?_char (mark : Mark) : Mark.ofChar? mark.char = some mark := by
  cases mark <;> decide

/-- A sound lexeme is read from its text as soon as it ends there. -/
theorem lexeme?_text {lexeme : Lexeme} (sound : lexeme.Sound) {rest : List Char}
    (ends : lexeme.endsBefore rest.head? = true) :
    lexeme? (lexeme.text ++ rest) = some (lexeme, rest) := by
  -- Each kind is tried only if no kind before it begins with the same character.
  cases lexeme with
  | word name =>
      obtain ⟨starts, chars⟩ := sound
      cases name with
      | nil => cases starts
      | cons first more =>
          have isStart : isWordStart first = true := starts
          have all : ∀ c ∈ more, isWordChar c = true := fun c here =>
            List.all_eq_true.1 chars c (List.mem_cons_of_mem _ here)
          have stop : rest.head?.any isWordChar = false := by simpa [Lexeme.endsBefore] using ends
          obtain ⟨front, behind⟩ := takeWhile_append_of_ends all stop
          unfold Lexeme.text
          rw [List.cons_append, lexeme?]
          simp [not_blank_of_wordStart isStart, isStart, front, behind]
  | number text =>
      obtain ⟨some, digits⟩ := sound
      have stop : rest.head?.any (fun c => isDigit c || c == '.' || c == 'e' || c == 'E') = false := by
        simpa [Lexeme.endsBefore] using ends
      have read := numberPart?_digits some digits stop
      obtain ⟨first, more, rfl⟩ := List.exists_cons_of_ne_nil some
      unfold Lexeme.text
      rw [List.cons_append] at read ⊢
      rw [lexeme?_of_plain (plain_of_digit (digits first List.mem_cons_self)), read]
      rfl
  | quoted quote body =>
      obtain ⟨isQuote, isBody⟩ := sound
      have read := quotedBody?_of_body isQuote isBody rest
      change lexeme? (quote :: (body ++ [quote]) ++ rest) = _
      rw [List.cons_append, List.append_assoc, List.singleton_append]
      rcases isQuote with rfl | rfl
      · simp [lexeme?, isBlankChar, isWordStart, read]
      · simp [lexeme?, isBlankChar, isWordStart, read]
  | template body =>
      change lexeme? ('`' :: (body ++ ['`']) ++ rest) = _
      rw [List.cons_append, List.append_assoc, List.singleton_append]
      simp [lexeme?, isBlankChar, isWordStart, templateBody?_of_body sound rest]
  | mark mark =>
      have plain : beginsOther mark.char = false := by cases mark <;> decide
      have notDigit : isDigit mark.char = false := by cases mark <;> decide
      have notExponent : mark.char ≠ 'e' ∧ mark.char ≠ 'E' := by cases mark <;> decide
      have notPoint : mark.char = '.' → rest.head?.any isDigit = false := by
        intro isPoint
        have isDot : mark = .dot := by
          have same := ofChar?_char mark
          rw [isPoint] at same
          exact (Option.some.inj same).symm
        rw [isDot] at ends
        simpa [Lexeme.endsBefore] using ends
      unfold Lexeme.text
      rw [List.singleton_append, lexeme?_of_plain plain,
        numberPart?_mark notDigit notExponent notPoint, ofChar?_char]
      rfl
  | blank c =>
      have isBlank : isBlankChar c = true := sound
      simp [Lexeme.text, lexeme?, isBlank]
  | comment text => cases sound

/-! Rows -/

def RowSound : List Lexeme → List Char → Prop
  | [], _ => True
  | lexeme :: rest, after => lexeme.Sound ∧
    lexeme.endsBefore (rest.flatMap Lexeme.text ++ after).head? = true ∧ RowSound rest after

theorem rowSound_append {front rest : List Lexeme} {after : List Char}
    (here : RowSound front (rest.flatMap Lexeme.text ++ after)) (behind : RowSound rest after) :
    RowSound (front ++ rest) after := by
  induction front with
  | nil => exact behind
  | cons lexeme front ih =>
      obtain ⟨sound, ends, later⟩ := here
      have whole : (front ++ rest).flatMap Lexeme.text ++ after =
          front.flatMap Lexeme.text ++ (rest.flatMap Lexeme.text ++ after) := by
        rw [List.flatMap_append, List.append_assoc]
      exact ⟨sound, whole ▸ ends, ih later⟩

theorem lexemes_nil : lexemes [] = ([], []) := by
  rw [lexemes]
  rfl

theorem lexemes_text {row : List Lexeme} {after : List Char} (sound : RowSound row after) :
    lexemes (row.flatMap Lexeme.text ++ after) = (row ++ (lexemes after).1, (lexemes after).2) := by
  induction row with
  | nil => rfl
  | cons lexeme rest ih =>
      obtain ⟨isSound, ends, later⟩ := sound
      have read := lexeme?_text isSound ends
      rw [List.flatMap_cons, List.append_assoc, lexemes]
      split
      · rename_i found behind same
        rw [read] at same
        obtain ⟨rfl, rfl⟩ := Prod.mk.inj (Option.some.inj same)
        rw [ih later]
        rfl
      · rename_i none
        rw [read] at none
        cases none

theorem lexemes_source {row : List Lexeme} (sound : RowSound row []) :
    lexemes (row.flatMap Lexeme.text) = (row, []) := by
  have read := lexemes_text sound
  rw [List.append_nil, lexemes_nil, List.append_nil] at read
  exact read

end SheetScript.Script
