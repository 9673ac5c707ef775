import SheetScript.Proofs.Script.Lexing
import SheetScript.Proofs.Script.Writing

/-! An expression in writing is a row of lexemes that is read again from its text. -/

namespace SheetScript.Script

open SheetScript.Number SheetScript.Text

/-! Texts -/

theorem escapeBetween_cases (quote c : Char) :
    (escapeBetween quote c = ['\\', c] ∧ (c = '\\' ∨ c = quote)) ∨
      (escapeBetween quote c = ['\\', 'n'] ∧ c = '\n') ∨
      (escapeBetween quote c = [c] ∧ c ≠ quote ∧ c ≠ '\\' ∧ c ≠ '\n') := by
  unfold escapeBetween
  split
  · rename_i special
    exact .inl ⟨rfl, by simpa using special⟩
  · rename_i notSpecial
    simp only [Bool.or_eq_true, beq_iff_eq, not_or] at notSpecial
    split
    · rename_i newline
      exact .inr (.inl ⟨rfl, by simpa using newline⟩)
    · rename_i notNewline
      exact .inr (.inr ⟨rfl, notSpecial.2, notSpecial.1, by simpa using notNewline⟩)

theorem quotedBody_between {quote : Char} (isQuote : quote = '\'' ∨ quote = '"')
    (text : List Char) : QuotedBody quote (text.flatMap (escapeBetween quote)) := by
  induction text with
  | nil => exact .nil
  | cons c rest ih =>
      rw [List.flatMap_cons]
      rcases escapeBetween_cases quote c with ⟨same, special⟩ | ⟨same, -⟩ |
        ⟨same, notQuote, notBackslash, notNewline⟩
      · rw [same]
        refine .escaped ?_ ih
        rintro rfl
        rcases isQuote with rfl | rfl <;> exact absurd special (by decide)
      · rw [same]
        exact .escaped (by decide) ih
      · rw [same]
        exact .plain notQuote notBackslash notNewline ih

theorem quotedBody_escaped (text : List Char) : QuotedBody '"' (text.flatMap escapeQuoted) :=
  quotedBody_between (.inr rfl) text

theorem escapeTemplate_cases (c : Char) :
    (escapeTemplate c = ['\\', c] ∧ (c = '\\' ∨ c = '`' ∨ c = '$')) ∨
      (escapeTemplate c = [c] ∧ c ≠ '`' ∧ c ≠ '\\' ∧ c ≠ '$') := by
  unfold escapeTemplate
  split
  · rename_i special
    exact .inl ⟨rfl, by simpa [or_assoc] using special⟩
  · rename_i notSpecial
    simp only [Bool.or_eq_true, beq_iff_eq, not_or] at notSpecial
    exact .inr ⟨rfl, notSpecial.1.2, notSpecial.1.1, notSpecial.2⟩

theorem templateBody_escaped (text : List Char) : TemplateBody (text.flatMap escapeTemplate) := by
  induction text with
  | nil => exact .nil
  | cons c rest ih =>
      rw [List.flatMap_cons]
      rcases escapeTemplate_cases c with ⟨same, -⟩ | ⟨same, notBacktick, notBackslash, -⟩
      · rw [same]
        exact .escaped c ih
      · rw [same]
        exact .plain notBacktick notBackslash ih

/-! Lexemes -/

theorem sound_quotedLexeme (text : String) : (quotedLexeme text).Sound :=
  ⟨.inr rfl, quotedBody_escaped text.toList⟩

theorem sound_word {name : String} (identifier : isIdentifier name = true) :
    (Lexeme.word name.toList).Sound := by
  rw [isIdentifier, Bool.and_eq_true] at identifier
  exact identifier

theorem sound_keyLexeme (key : String) : (keyLexeme key).Sound := by
  unfold keyLexeme
  split
  · rename_i identifier
    exact sound_word identifier
  · exact sound_quotedLexeme key

theorem sound_number (value : Nat) : (Lexeme.number (decimalDigits value)).Sound :=
  ⟨Nat.toDigits_ne_nil, fun _ here => Nat.isDigit_of_mem_toDigits (by decide) (by decide) here⟩

theorem sound_constant {constant : Constant} (exact : constant.isFloat = false) :
    constant.lexeme.Sound := by
  cases constant with
  | text value => exact sound_quotedLexeme value
  | int value => exact sound_number value
  | float value => cases exact
  | bool value => cases value <;> exact ⟨by decide, by decide⟩
  | null => exact ⟨by decide, by decide⟩
  | undefined => exact ⟨by decide, by decide⟩

/-- A lexeme without a backtick can stand between backticks. -/
theorem templateBody_text {lexeme : Lexeme} (sound : lexeme.Sound)
    (noBacktick : '`' ∉ lexeme.text) : TemplateBody lexeme.text := by
  have notBackslash {condition : Char → Bool} (dark : condition '\\' = false) {c : Char}
      (holds : condition c = true) : c ≠ '\\' := by
    rintro rfl
    rw [dark] at holds
    cases holds
  have notBacktick {c : Char} (here : c ∈ lexeme.text) : c ≠ '`' := by
    rintro rfl
    exact noBacktick here
  -- A backslash stands only in a quoted text, where a character follows it.
  cases lexeme with
  | word name =>
      exact .of_plain fun c here =>
        ⟨notBacktick here, notBackslash rfl (List.all_eq_true.1 sound.2 c here)⟩
  | number text => exact .of_plain fun c here => ⟨notBacktick here, notBackslash rfl (sound.2 c here)⟩
  | quoted quote body =>
      obtain ⟨isQuote, isBody⟩ := sound
      have plain : quote ≠ '`' ∧ quote ≠ '\\' := by rcases isQuote with rfl | rfl <;> decide
      have inside : TemplateBody body := by
        have none : '`' ∉ body := fun here =>
          noBacktick (List.mem_cons_of_mem _ (List.mem_append_left _ here))
        clear notBacktick noBacktick
        induction isBody with
        | nil => exact .nil
        | plain _ notBackslash _ _ ih =>
            refine .plain ?_ notBackslash (ih fun here => none (List.mem_cons_of_mem _ here))
            rintro rfl
            exact none List.mem_cons_self
        | escaped _ _ ih =>
            exact .escaped _ (ih fun here =>
              none (List.mem_cons_of_mem _ (List.mem_cons_of_mem _ here)))
      exact .plain plain.1 plain.2 (inside.append (.plain plain.1 plain.2 .nil))
  | template body => exact absurd List.mem_cons_self noBacktick
  | mark mark =>
      refine .of_plain fun c here => ?_
      rw [List.mem_singleton.1 here]
      cases mark <;> decide
  | blank c =>
      have isBlank : isBlankChar c = true := sound
      exact .plain (notBacktick List.mem_cons_self) (notBackslash rfl isBlank) .nil
  | comment text => cases sound

theorem templateBody_row {row : List Lexeme} {after : List Char} (sound : RowSound row after)
    (noBacktick : '`' ∉ row.flatMap Lexeme.text) : TemplateBody (row.flatMap Lexeme.text) := by
  induction row with
  | nil => exact .nil
  | cons lexeme rest ih =>
      obtain ⟨isSound, -, behind⟩ := sound
      rw [List.flatMap_cons, List.mem_append, not_or] at noBacktick
      rw [List.flatMap_cons]
      exact (templateBody_text isSound noBacktick.1).append (ih behind noBacktick.2)

/-! What follows -/

/-- What can stand behind any expression. -/
def stopsOperand (c : Char) : Bool :=
  c == ' ' || c == ';' || c == ',' || c == ')' || c == ']' || c == '\x7d'

def goesOn (c : Char) : Bool :=
  c == '.' || c == '[' || c == '('

def Expr.EndsBefore (expr : Expr) (after : List Char) : Prop :=
  after.head?.all (fun c => stopsOperand c || (expr.isPostfix && goesOn c)) = true

def Stops (after : List Char) : Prop :=
  after.head?.all stopsOperand = true

theorem Stops.endsBefore {after : List Char} (stops : Stops after) (expr : Expr) :
    expr.EndsBefore after := by
  cases after with
  | nil => rfl
  | cons c rest =>
      have isStop : stopsOperand c = true := stops
      simp [Expr.EndsBefore, isStop]

theorem not_wordChar_of_stops {c : Char} (stops : (stopsOperand c || goesOn c) = true) :
    isWordChar c = false := by
  simp only [stopsOperand, goesOn, Bool.or_eq_true, beq_iff_eq] at stops
  rcases stops with (((((rfl | rfl) | rfl) | rfl) | rfl) | rfl) | ((rfl | rfl) | rfl) <;> rfl

theorem word_endsBefore {expr : Expr} {after : List Char} (ends : expr.EndsBefore after)
    (name : List Char) : (Lexeme.word name).endsBefore after.head? = true := by
  cases after with
  | nil => rfl
  | cons c rest =>
      have stops : (stopsOperand c || goesOn c) = true := by
        have follows : (stopsOperand c || (expr.isPostfix && goesOn c)) = true := ends
        simp only [Bool.or_eq_true, Bool.and_eq_true] at follows ⊢
        exact follows.imp_right And.right
      simp [Lexeme.endsBefore, not_wordChar_of_stops stops]

theorem number_endsBefore {after : List Char} (stops : Stops after) (text : List Char) :
    (Lexeme.number text).endsBefore after.head? = true := by
  cases after with
  | nil => rfl
  | cons c rest =>
      have isStop : stopsOperand c = true := stops
      simp only [stopsOperand, Bool.or_eq_true, beq_iff_eq] at isStop
      rcases isStop with ((((rfl | rfl) | rfl) | rfl) | rfl) | rfl <;> rfl

theorem not_digit_of_wordStart {c : Char} (start : isWordStart c = true) : isDigit c = false := by
  have ascii : c.toNat < 128 := by
    simp only [isWordStart, Bool.or_eq_true, Bool.and_eq_true, decide_eq_true_eq, beq_iff_eq,
      Char.le_def, UInt32.le_iff_toNat_le] at start
    rcases start with ((upper | lower) | rfl) | rfl
    · change 65 ≤ c.toNat ∧ c.toNat ≤ 90 at upper
      omega
    · change 97 ≤ c.toNat ∧ c.toNat ≤ 122 at lower
      omega
    · decide
    · decide
  have all : ∀ n : Fin 128, isWordStart (Char.ofNat n) = true → isDigit (Char.ofNat n) = false := by
    decide +kernel
  have same : Char.ofNat c.toNat = c := Char.ofNat_toNat c
  exact same ▸ all ⟨c.toNat, ascii⟩ (same.symm ▸ start)

theorem dot_endsBefore {field : String} (identifier : isIdentifier field = true)
    (after : List Char) : (Lexeme.mark .dot).endsBefore
      ([Lexeme.word field.toList].flatMap Lexeme.text ++ after).head? = true := by
  obtain ⟨starts, -⟩ := sound_word identifier
  rw [List.flatMap_singleton, Lexeme.text]
  generalize field.toList = name at starts
  cases name with
  | nil => cases starts
  | cons c rest =>
      have dark := not_digit_of_wordStart starts
      simp [Lexeme.endsBefore, dark]

/-! Rows -/

theorem rowSound_inParens {row : List Lexeme} (sound : ∀ after, Stops after → RowSound row after)
    (after : List Char) : RowSound (inParens row) after := by
  refine ⟨trivial, rfl, ?_⟩
  exact rowSound_append (sound _ rfl) ⟨trivial, rfl, trivial⟩

theorem rowSound_commas {rows : List (List Lexeme)}
    (sound : ∀ row ∈ rows, ∀ after, Stops after → RowSound row after) {after : List Char}
    (stops : Stops after) : RowSound (commas rows) after := by
  cases rows with
  | nil => trivial
  | cons first rest =>
      have behind : RowSound (rest.flatMap fun row => .mark .comma :: .blank ' ' :: row) after ∧
          Stops ((rest.flatMap fun row => .mark .comma :: .blank ' ' :: row).flatMap Lexeme.text ++
            after) := by
        have later : ∀ row ∈ rest, ∀ after, Stops after → RowSound row after :=
          fun row here => sound row (List.mem_cons_of_mem _ here)
        clear sound
        induction rest with
        | nil => exact ⟨trivial, stops⟩
        | cons row rest ih =>
            obtain ⟨soundRest, stopsRest⟩ := ih fun row here => later row (List.mem_cons_of_mem _ here)
            refine ⟨?_, rfl⟩
            rw [List.flatMap_cons]
            refine rowSound_append ?_ soundRest
            exact ⟨trivial, rfl, rfl, rfl, later row List.mem_cons_self _ stopsRest⟩
      exact rowSound_append (sound first List.mem_cons_self _ behind.2) behind.1

namespace Expr

/-- An expression that can have something behind it, or one in parentheses. -/
theorem rowSound_owner {owner : Expr}
    (sound : ∀ after, owner.EndsBefore after → RowSound owner.written after) {after : List Char}
    (goes : after.head?.all goesOn = true) :
    RowSound (if owner.isPostfix then owner.written else inParens owner.written) after := by
  split
  · rename_i isPostfix
    refine sound after ?_
    cases after with
    | nil => rfl
    | cons c rest =>
        have isGoing : goesOn c = true := goes
        simp [EndsBefore, isPostfix, isGoing]
  · exact rowSound_inParens (fun after stops => sound after (stops.endsBefore owner)) after

/-- An operand, in parentheses if it is a sum. -/
theorem rowSound_operand {operand : Expr}
    (sound : ∀ after, operand.EndsBefore after → RowSound operand.written after)
    {after : List Char} (stops : Stops after) :
    RowSound (if operand.isSum then inParens operand.written else operand.written) after := by
  split
  · exact rowSound_inParens (fun after stops => sound after (stops.endsBefore operand)) after
  · exact sound after (stops.endsBefore operand)

theorem EndsBefore.stops {expr : Expr} {after : List Char} (ends : expr.EndsBefore after)
    (notPostfix : expr.isPostfix = false) : Stops after := by
  cases after with
  | nil => rfl
  | cons c rest =>
      have isStop : stopsOperand c = true := by simpa [EndsBefore, notPostfix] using ends
      exact isStop

theorem templateBody_writtenParts {parts : List (Part Expr)}
    (writable : partsWritable parts = true)
    (sound : ∀ hole, .hole hole ∈ parts → RowSound hole.written []) :
    TemplateBody (writtenParts parts) := by
  induction parts with
  | nil => exact .nil
  | cons first rest ih =>
      have behind : ∀ hole, .hole hole ∈ rest → RowSound hole.written [] :=
        fun hole here => sound hole (List.mem_cons_of_mem _ here)
      cases first with
      | text value =>
          simp only [partsWritable, Bool.and_eq_true] at writable
          exact (templateBody_escaped _).append (ih writable.2 behind)
      | hole expr =>
          simp only [partsWritable, Bool.and_eq_true, Bool.not_eq_true'] at writable
          have noBacktick : '`' ∉ expr.written.flatMap Lexeme.text := by
            have none := writable.1.2
            rw [source] at none
            simpa using none
          have inside := templateBody_row (sound expr List.mem_cons_self) noBacktick
          exact .plain (by decide) (by decide) (.plain (by decide) (by decide)
            (inside.append (.plain (by decide) (by decide) (ih writable.2 behind))))

/-- An expression that can be written is read as it is written where it ends. -/
theorem rowSound_written {expr : Expr} (writable : expr.isWritable = true) {after : List Char}
    (ends : expr.EndsBefore after) : RowSound expr.written after := by
  -- What follows is free: each part is read in front of the rest of the whole.
  induction expr using Expr.ind generalizing after with
  | literal constant =>
      have sound : constant.lexeme.Sound := sound_constant (by simpa [isWritable] using writable)
      refine ⟨sound, ?_, trivial⟩
      rw [List.flatMap_nil, List.nil_append]
      cases constant with
      | text value => rfl
      | int value => exact number_endsBefore (ends.stops rfl) _
      | float value => cases writable
      | bool value => cases value <;> exact word_endsBefore ends _
      | null => exact word_endsBefore ends _
      | undefined => exact word_endsBefore ends _
  | template parts ih =>
      have isBody : TemplateBody (writtenParts parts) :=
        templateBody_writtenParts writable fun hole here =>
          ih hole here (hole_of_partsWritable writable here).1 rfl
      exact ⟨isBody, rfl, trivial⟩
  | name id line =>
      rw [isWritable, Bool.and_eq_true] at writable
      refine ⟨sound_word writable.1, ?_, trivial⟩
      exact word_endsBefore ends _
  | member owner field line ih =>
      rw [isWritable, Bool.and_eq_true] at writable
      have word := sound_word writable.2
      rw [written]
      refine rowSound_append (rowSound_owner (fun after => ih writable.1) rfl) ?_
      exact ⟨trivial, dot_endsBefore writable.2 after, word, word_endsBefore ends _, trivial⟩
  | index owner key line ihOwner ihKey =>
      rw [isWritable, Bool.and_eq_true] at writable
      rw [written, List.append_assoc]
      refine rowSound_append (rowSound_owner (fun after => ihOwner writable.1) rfl) ?_
      refine ⟨trivial, rfl, ?_⟩
      have stops : Stops ([Lexeme.mark .closeBracket].flatMap Lexeme.text ++ after) := rfl
      exact rowSound_append (ihKey writable.2 (stops.endsBefore key)) ⟨trivial, rfl, trivial⟩
  | call function arguments line ihFunction ihArguments =>
      rw [isWritable, Bool.and_eq_true, eachWritable_eq_all, List.all_eq_true] at writable
      rw [written, writtenEach_eq_map, List.append_assoc]
      refine rowSound_append (rowSound_owner (fun after => ihFunction writable.1) rfl) ?_
      refine ⟨trivial, rfl, rowSound_append (rowSound_commas ?_ rfl) ⟨trivial, rfl, trivial⟩⟩
      intro row isRow after stops
      obtain ⟨item, here, rfl⟩ := List.mem_map.1 isRow
      exact ihArguments item here (writable.2 item here) (stops.endsBefore item)
  | object fields ih =>
      rw [isWritable, fieldsWritable_eq_all, List.all_eq_true] at writable
      rw [written, writtenFields_eq_map]
      refine ⟨trivial, rfl, rowSound_append (rowSound_commas ?_ rfl) ⟨trivial, rfl, trivial⟩⟩
      intro row isRow after stops
      obtain ⟨field, here, rfl⟩ := List.mem_map.1 isRow
      have value := ih field here (writable field here) (stops.endsBefore field.2)
      refine ⟨sound_keyLexeme field.1, ?_, trivial, rfl, rfl, rfl, value⟩
      unfold keyLexeme
      split <;> rfl
  | array items ih =>
      rw [isWritable, eachWritable_eq_all, List.all_eq_true] at writable
      rw [written, writtenEach_eq_map]
      refine ⟨trivial, rfl, rowSound_append (rowSound_commas ?_ rfl) ⟨trivial, rfl, trivial⟩⟩
      intro row isRow after stops
      obtain ⟨item, here, rfl⟩ := List.mem_map.1 isRow
      exact ih item here (writable item here) (stops.endsBefore item)
  | sum left right ihLeft ihRight =>
      rw [isWritable, Bool.and_eq_true] at writable
      have stops := ends.stops rfl
      rw [written, List.append_assoc]
      refine rowSound_append (ihLeft writable.1 (Stops.endsBefore ?_ left)) ?_
      · rfl
      exact ⟨rfl, rfl, trivial, rfl, rfl, rfl,
        rowSound_operand (fun after => ihRight writable.2) stops⟩
  | negation operand ih =>
      have stops := ends.stops rfl
      rw [written]
      exact ⟨trivial, rfl, rowSound_operand (fun after => ih writable) stops⟩

end Expr

/-- A statement ends in its semicolon, so anything can stand behind it. -/
theorem Statement.rowSound_written {statement : Statement} (writable : statement.isWritable = true)
    (after : List Char) : RowSound statement.written after := by
  have value {expr : Expr} (isWritable : expr.isWritable = true) :
      RowSound (expr.written ++ [.mark .semicolon]) after :=
    rowSound_append (Expr.rowSound_written isWritable (Stops.endsBefore (by rfl) expr))
      ⟨trivial, rfl, trivial⟩
  cases statement with
  | declare name expr =>
      rw [isWritable, Bool.and_eq_true] at writable
      have isConst : (Lexeme.word "const".toList).Sound := ⟨by decide, by decide⟩
      rw [written, List.append_assoc]
      exact rowSound_append ⟨isConst, rfl, rfl, rfl, sound_word writable.1, rfl, rfl, rfl, trivial,
        rfl, rfl, rfl, trivial⟩ (value writable.2)
  | assign target expr =>
      rw [isWritable, Bool.and_eq_true] at writable
      rw [written, List.append_assoc, List.append_assoc]
      refine rowSound_append (Expr.rowSound_written writable.1 (Stops.endsBefore ?_ _)) ?_
      · rfl
      · exact ⟨rfl, rfl, trivial, rfl, rfl, rfl, value writable.2⟩
  | expression expr => exact value writable

theorem rowSound_script {script : List Statement} (writable : script.all Statement.isWritable = true) :
    RowSound (script.flatMap Statement.written) [] := by
  induction script with
  | nil => trivial
  | cons statement rest ih =>
      rw [List.all_cons, Bool.and_eq_true] at writable
      rw [List.flatMap_cons]
      exact rowSound_append (Statement.rowSound_written writable.1 _) (ih writable.2)

end SheetScript.Script
