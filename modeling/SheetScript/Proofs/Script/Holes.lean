import Mathlib.Tactic.ByContra
import SheetScript.Proofs.Script.Spelling

/-! Templates in writing: their bodies are cut into the texts and the holes that they were made of. -/

namespace SheetScript.Script

open SheetScript.Text

/-! Escapes -/

theorem unescape_escaped {c : Char} (notUnit : c ≠ 'u') (rest : List Char) :
    unescape ('\\' :: c :: rest) = escapeValue c ++ unescape rest := by
  rw [unescape]
  rintro _ _ _ _ _ rfl
  exact absurd rfl notUnit

theorem unescape_plain {c : Char} (notBackslash : c ≠ '\\') (rest : List Char) :
    unescape (c :: rest) = c :: unescape rest := by
  rw [unescape]
  · rintro _ _ _ _ _ rfl
    exact absurd rfl notBackslash
  · rintro _ _ rfl
    exact absurd rfl notBackslash

theorem unescape_between {quote : Char} (isQuote : quote = '\'' ∨ quote = '"')
    (text : List Char) : unescape (text.flatMap (escapeBetween quote)) = text := by
  induction text with
  | nil => rfl
  | cons c rest ih =>
      rw [List.flatMap_cons]
      rcases escapeBetween_cases quote c with ⟨same, special⟩ | ⟨same, rfl⟩ |
        ⟨same, -, notBackslash, -⟩
      · have itself : c = '\\' ∨ c = '\'' ∨ c = '"' := by
          rcases special with isBackslash | rfl
          · exact .inl isBackslash
          · exact .inr isQuote
        rw [same, List.cons_append, List.singleton_append]
        rcases itself with rfl | rfl | rfl <;>
        · rw [unescape_escaped (by decide), ih]
          rfl
      · rw [same, List.cons_append, List.singleton_append, unescape_escaped (by decide), ih]
        rfl
      · rw [same, List.singleton_append, unescape_plain notBackslash, ih]

theorem unescape_quoted (text : List Char) : unescape (text.flatMap escapeQuoted) = text :=
  unescape_between (.inr rfl) text

theorem unescape_template (text : List Char) : unescape (text.flatMap escapeTemplate) = text := by
  induction text with
  | nil => rfl
  | cons c rest ih =>
      rw [List.flatMap_cons]
      rcases escapeTemplate_cases c with ⟨same, rfl | rfl | rfl⟩ | ⟨same, -, notBackslash, -⟩
      · rw [same, List.cons_append, List.singleton_append, unescape_escaped (by decide), ih]
        rfl
      · rw [same, List.cons_append, List.singleton_append, unescape_escaped (by decide), ih]
        rfl
      · rw [same, List.cons_append, List.singleton_append, unescape_escaped (by decide), ih]
        rfl
      · rw [same, List.singleton_append, unescape_plain notBackslash, ih]

/-! Holes -/

def isInert (c : Char) : Bool :=
  !(c == '\x7b' || c == '\x7d' || c == '\'' || c == '"')

section

variable (depth : Nat) (rest : List Char)

theorem closeHole?_end : closeHole? 0 none ('\x7d' :: rest) = some ([], rest) := by
  rw [closeHole?]
  rfl

theorem closeHole?_inert {c : Char} (inert : isInert c = true) :
    closeHole? depth none (c :: rest) =
      (closeHole? depth none rest).map fun found => (c :: found.1, found.2) := by
  simp only [isInert, Bool.not_eq_true', Bool.or_eq_false_iff, beq_eq_false_iff_ne] at inert
  obtain ⟨⟨⟨notOpen, notClose⟩, notSingle⟩, notDouble⟩ := inert
  rw [closeHole?]
  simp only [notOpen, notClose, notSingle, notDouble, beq_iff_eq, Bool.and_eq_true, false_and,
    Bool.or_eq_true, or_self, if_false]

theorem closeHole?_open :
    closeHole? depth none ('\x7b' :: rest) =
      (closeHole? (depth + 1) none rest).map fun found => ('\x7b' :: found.1, found.2) := by
  rw [closeHole?]
  rfl

theorem closeHole?_close :
    closeHole? (depth + 1) none ('\x7d' :: rest) =
      (closeHole? depth none rest).map fun found => ('\x7d' :: found.1, found.2) := by
  rw [closeHole?]
  rfl

theorem closeHole?_quote {quote : Char} (isQuote : quote = '\'' ∨ quote = '"') :
    closeHole? depth none (quote :: rest) =
      (closeHole? depth (some quote) rest).map fun found => (quote :: found.1, found.2) := by
  rcases isQuote with rfl | rfl
  · rw [closeHole?.eq_def]
    rfl
  · rw [closeHole?.eq_def]
    rfl

end

/-- A text inside a hole that opens and closes its own quotes and braces. -/
def Closed (text : List Char) : Prop :=
  ∀ depth more, closeHole? depth none (text ++ more) =
    (closeHole? depth none more).map fun found => (text ++ found.1, found.2)

theorem Closed.nil : Closed [] := by
  intro depth more
  cases found : closeHole? depth none more <;> rw [List.nil_append, found] <;> rfl

theorem Closed.append {front rest : List Char} (here : Closed front) (behind : Closed rest) :
    Closed (front ++ rest) := by
  intro depth more
  rw [List.append_assoc, here, behind]
  cases closeHole? depth none more with
  | none => rfl
  | some found => simp

theorem Closed.cons {c : Char} {rest : List Char} (inert : isInert c = true)
    (behind : Closed rest) : Closed (c :: rest) := by
  intro depth more
  rw [List.cons_append, closeHole?_inert depth _ inert, behind]
  cases closeHole? depth none more <;> rfl

theorem Closed.of_inert {text : List Char} (inert : ∀ c ∈ text, isInert c = true) : Closed text := by
  induction text with
  | nil => exact .nil
  | cons c rest ih =>
      exact .cons (inert c List.mem_cons_self)
        (ih fun d here => inert d (List.mem_cons_of_mem _ here))

/-- What stands between quotes in a hole: any characters, with escapes. -/
inductive Quotation (quote : Char) : List Char → Prop
  | nil : Quotation quote []
  | plain {c : Char} {rest : List Char} (notQuote : c ≠ quote) (notBackslash : c ≠ '\\')
    (behind : Quotation quote rest) : Quotation quote (c :: rest)
  | escaped (c : Char) {rest : List Char} (behind : Quotation quote rest) :
    Quotation quote ('\\' :: c :: rest)

theorem QuotedBody.quotation {quote : Char} {body : List Char} (isBody : QuotedBody quote body) :
    Quotation quote body := by
  induction isBody with
  | nil => exact .nil
  | plain notQuote notBackslash _ _ ih => exact .plain notQuote notBackslash ih
  | escaped _ _ ih => exact .escaped _ ih

theorem closeHole?_quotation {quote : Char} (isQuote : quote = '\'' ∨ quote = '"')
    {body : List Char} (isBody : Quotation quote body) (depth : Nat) (more : List Char) :
    closeHole? depth (some quote) (body ++ quote :: more) =
      (closeHole? depth none more).map fun found => (body ++ quote :: found.1, found.2) := by
  induction isBody with
  | nil =>
      rw [List.nil_append, closeHole?.eq_def]
      rcases isQuote with rfl | rfl
      · simp
      · simp
  | plain notQuote notBackslash _ ih =>
      rw [List.cons_append, closeHole?.eq_def]
      simp only [notQuote, notBackslash, beq_iff_eq, if_false]
      rw [ih]
      cases closeHole? depth none more <;> rfl
  | escaped _ _ ih =>
      rw [List.cons_append, List.cons_append, closeHole?.eq_def]
      simp only [beq_self_eq_true, if_true]
      rw [ih]
      cases closeHole? depth none more <;> rfl

theorem Closed.quoted {quote : Char} (isQuote : quote = '\'' ∨ quote = '"') {body : List Char}
    (isBody : Quotation quote body) : Closed (quote :: body ++ [quote]) := by
  intro depth more
  rw [List.append_assoc, List.singleton_append, List.cons_append, closeHole?_quote depth _ isQuote,
    closeHole?_quotation isQuote isBody]
  cases closeHole? depth none more <;> simp

theorem Closed.braces {text : List Char} (inside : Closed text) :
    Closed ('\x7b' :: text ++ ['\x7d']) := by
  intro depth more
  rw [List.append_assoc, List.singleton_append, List.cons_append, closeHole?_open, inside,
    closeHole?_close]
  cases closeHole? depth none more <;> simp

theorem isInert_of_condition {condition : Char → Bool}
    (dark : ['\x7b', '\x7d', '\'', '"'].any condition = false) {c : Char}
    (holds : condition c = true) : isInert c = true := by
  by_contra special
  simp only [isInert, Bool.not_eq_true', Bool.not_eq_false, Bool.or_eq_true, beq_iff_eq] at special
  simp only [List.any_cons, List.any_nil, Bool.or_false, Bool.or_eq_false_iff] at dark
  rcases special with ((rfl | rfl) | rfl) | rfl
  · rw [dark.1] at holds
    cases holds
  · rw [dark.2.1] at holds
    cases holds
  · rw [dark.2.2.1] at holds
    cases holds
  · rw [dark.2.2.2] at holds
    cases holds

theorem isInert_char {mark : Mark} (noBrace : mark ≠ .openBrace ∧ mark ≠ .closeBrace) :
    isInert mark.char = true := by
  cases mark with
  | openBrace => exact absurd rfl noBrace.1
  | closeBrace => exact absurd rfl noBrace.2
  | _ => rfl

/-- A lexeme is closed unless it is a brace or has a body between backticks. -/
theorem closed_text {lexeme : Lexeme} (sound : lexeme.Sound) (noBacktick : '`' ∉ lexeme.text)
    (noBrace : lexeme ≠ .mark .openBrace ∧ lexeme ≠ .mark .closeBrace) : Closed lexeme.text := by
  cases lexeme with
  | word name =>
      exact .of_inert fun c here =>
        isInert_of_condition (by decide) (List.all_eq_true.1 sound.2 c here)
  | number text => exact .of_inert fun c here => isInert_of_condition (by decide) (sound.2 c here)
  | quoted quote body => exact .quoted sound.1 sound.2.quotation
  | template body => exact absurd List.mem_cons_self noBacktick
  | mark mark =>
      exact .cons (isInert_char ⟨fun same => noBrace.1 (congrArg _ same),
        fun same => noBrace.2 (congrArg _ same)⟩) .nil
  | blank c =>
      have isBlank : isBlankChar c = true := sound
      exact .cons (isInert_of_condition (by decide) isBlank) .nil
  | comment text => cases sound

/-! Rows in holes -/

/-- A row that, without backticks, opens and closes its own quotes and braces. -/
def Encloses (row : List Lexeme) : Prop :=
  '`' ∉ row.flatMap Lexeme.text → Closed (row.flatMap Lexeme.text)

namespace Encloses

theorem nil : Encloses [] :=
  fun _ => .nil

theorem append {front rest : List Lexeme} (here : Encloses front) (behind : Encloses rest) :
    Encloses (front ++ rest) := by
  intro noBacktick
  rw [List.flatMap_append, List.mem_append, not_or] at noBacktick
  rw [List.flatMap_append]
  exact (here noBacktick.1).append (behind noBacktick.2)

theorem cons {lexeme : Lexeme} {rest : List Lexeme} (sound : lexeme.Sound)
    (noBrace : lexeme ≠ .mark .openBrace ∧ lexeme ≠ .mark .closeBrace) (behind : Encloses rest) :
    Encloses (lexeme :: rest) := by
  intro noBacktick
  rw [List.flatMap_cons, List.mem_append, not_or] at noBacktick
  rw [List.flatMap_cons]
  exact (closed_text sound noBacktick.1 noBrace).append (behind noBacktick.2)

theorem mark {mark : Mark} {rest : List Lexeme} (noBrace : mark ≠ .openBrace ∧ mark ≠ .closeBrace)
    (behind : Encloses rest) : Encloses (.mark mark :: rest) :=
  cons trivial ⟨fun same => noBrace.1 (Lexeme.mark.inj same),
    fun same => noBrace.2 (Lexeme.mark.inj same)⟩ behind

theorem blank {rest : List Lexeme} (behind : Encloses rest) : Encloses (.blank ' ' :: rest) :=
  cons rfl (by simp) behind

theorem braces {row : List Lexeme} (inside : Encloses row) :
    Encloses (.mark .openBrace :: row ++ [.mark .closeBrace]) := by
  intro noBacktick
  have text : (Lexeme.mark .openBrace :: row ++ [Lexeme.mark .closeBrace]).flatMap Lexeme.text =
      '\x7b' :: row.flatMap Lexeme.text ++ ['\x7d'] := by
    simp [Lexeme.text, Mark.char]
  rw [text] at noBacktick ⊢
  refine (inside fun here => noBacktick ?_).braces
  exact List.mem_cons_of_mem _ (List.mem_append_left _ here)

theorem inParens {row : List Lexeme} (inside : Encloses row) : Encloses (inParens row) :=
  mark (by decide) (inside.append (mark (by decide) nil))

theorem commas {rows : List (List Lexeme)} (each : ∀ row ∈ rows, Encloses row) :
    Encloses (commas rows) := by
  cases rows with
  | nil => exact nil
  | cons first rest =>
      refine append (each first List.mem_cons_self) ?_
      have later : ∀ row ∈ rest, Encloses row := fun row here => each row (List.mem_cons_of_mem _ here)
      clear each
      induction rest with
      | nil => exact nil
      | cons row rest ih =>
          rw [List.flatMap_cons]
          refine append (mark (by decide) (blank (later row List.mem_cons_self))) (ih ?_)
          exact fun row here => later row (List.mem_cons_of_mem _ here)

theorem constant {constant : Constant} (exact : constant.isFloat = false) :
    Encloses [constant.lexeme] := by
  refine cons (sound_constant exact) ?_ nil
  cases constant with
  | bool value => cases value <;> simp [Constant.lexeme]
  | _ => simp [Constant.lexeme, quotedLexeme]

theorem key (key : String) {rest : List Lexeme} (behind : Encloses rest) :
    Encloses (keyLexeme key :: rest) := by
  refine cons (sound_keyLexeme key) ?_ behind
  unfold keyLexeme
  split <;> simp [quotedLexeme]

theorem word {name : String} (identifier : isIdentifier name = true) :
    Encloses [.word name.toList] :=
  cons (sound_word identifier) (by simp) nil

theorem parenthesised {row : List Lexeme} (condition : Bool) (inside : Encloses row) :
    Encloses (if condition then Script.inParens row else row) := by
  split
  · exact inside.inParens
  · exact inside

end Encloses

theorem Expr.encloses_written {expr : Expr} (writable : expr.isWritable = true) :
    Encloses expr.written := by
  have owner {owner : Expr} (inside : Encloses owner.written) :
      Encloses (if owner.isPostfix then owner.written else inParens owner.written) := by
    split
    · exact inside
    · exact inside.inParens
  -- A template has a backtick in it and so is exempt; all else is put together from parts.
  induction expr using Expr.ind with
  | literal constant => exact .constant (by simpa [isWritable] using writable)
  | template parts => exact fun noBacktick => absurd List.mem_cons_self noBacktick
  | name id line =>
      rw [isWritable, Bool.and_eq_true] at writable
      exact .word writable.1
  | member object field line ih =>
      rw [isWritable, Bool.and_eq_true] at writable
      rw [written]
      exact (owner (ih writable.1)).append (.mark (by decide) (.word writable.2))
  | index object key line ihObject ihKey =>
      rw [isWritable, Bool.and_eq_true] at writable
      rw [written, List.append_assoc]
      exact (owner (ihObject writable.1)).append
        (.mark (by decide) ((ihKey writable.2).append (.mark (by decide) .nil)))
  | call function arguments line ihFunction ihArguments =>
      rw [isWritable, Bool.and_eq_true, eachWritable_eq_all, List.all_eq_true] at writable
      rw [written, writtenEach_eq_map, List.append_assoc]
      refine (owner (ihFunction writable.1)).append
        (.mark (by decide) (.append (.commas fun row isRow => ?_) (.mark (by decide) .nil)))
      obtain ⟨item, here, rfl⟩ := List.mem_map.1 isRow
      exact ihArguments item here (writable.2 item here)
  | object fields ih =>
      rw [isWritable, fieldsWritable_eq_all, List.all_eq_true] at writable
      rw [written, writtenFields_eq_map]
      refine .braces (.commas fun row isRow => ?_)
      obtain ⟨field, here, rfl⟩ := List.mem_map.1 isRow
      exact .key field.1 (.mark (by decide) (.blank (ih field here (writable field here))))
  | array items ih =>
      rw [isWritable, eachWritable_eq_all, List.all_eq_true] at writable
      rw [written, writtenEach_eq_map]
      refine .mark (by decide) (.append (.commas fun row isRow => ?_) (.mark (by decide) .nil))
      obtain ⟨item, here, rfl⟩ := List.mem_map.1 isRow
      exact ih item here (writable item here)
  | sum left right ihLeft ihRight =>
      rw [isWritable, Bool.and_eq_true] at writable
      rw [written, List.append_assoc]
      exact (ihLeft writable.1).append (.blank (.mark (by decide) (.blank
        (.parenthesised right.isSum (ihRight writable.2)))))
  | negation operand ih =>
      rw [written]
      exact .mark (by decide) (.parenthesised operand.isSum (ih writable))

theorem Expr.closed_source {expr : Expr} (writable : expr.isWritable = true)
    (noBacktick : expr.source.contains '`' = false) : Closed expr.source :=
  encloses_written writable (by simpa [source] using noBacktick)

/-! Pieces -/

theorem pieces_plain {c : Char} (notBackslash : c ≠ '\\') (notDollar : c ≠ '$')
    (rest : List Char) : pieces (c :: rest) = (pieces rest).map (·.prepend [c]) := by
  rw [pieces]
  · rintro _ _ rfl
    exact absurd rfl notBackslash
  · rintro _ rfl
    exact absurd rfl notDollar

theorem prepend_prepend (front rest : List Char) (pieces : Pieces) :
    (pieces.prepend rest).prepend front = pieces.prepend (front ++ rest) := by
  obtain ⟨holes, last⟩ := pieces
  cases holes <;> simp [Pieces.prepend]

theorem prepend_nil (pieces : Pieces) : pieces.prepend [] = pieces := by
  obtain ⟨holes, last⟩ := pieces
  cases holes <;> simp [Pieces.prepend]

theorem pieces_escaped (text rest : List Char) :
    pieces (text.flatMap escapeTemplate ++ rest) =
      (pieces rest).map (·.prepend (text.flatMap escapeTemplate)) := by
  induction text with
  | nil =>
      cases found : pieces rest with
      | error stray => rw [List.flatMap_nil, List.nil_append, found]; rfl
      | ok found => simp [found, prepend_nil, Except.map]
  | cons c text ih =>
      have step : pieces (escapeTemplate c ++ (text.flatMap escapeTemplate ++ rest)) =
          (pieces (text.flatMap escapeTemplate ++ rest)).map (·.prepend (escapeTemplate c)) := by
        rcases escapeTemplate_cases c with ⟨same, -⟩ | ⟨same, -, notBackslash, notDollar⟩
        · rw [same, List.cons_append, List.singleton_append, pieces]
        · rw [same, List.singleton_append, pieces_plain notBackslash notDollar]
      rw [List.flatMap_cons, List.append_assoc, step, ih]
      cases pieces rest with
      | error stray => rfl
      | ok found => simp [Except.map, prepend_prepend]

theorem pieces_hole {source : List Char} (closed : Closed source) (rest : List Char) :
    pieces ('$' :: '\x7b' :: (source ++ '\x7d' :: rest)) =
      (pieces rest).map fun found => ⟨([], source) :: found.holes, found.last⟩ := by
  have closes : closeHole? 0 none (source ++ '\x7d' :: rest) = some (source, rest) := by
    rw [closed, closeHole?_end]
    simp
  rw [pieces]
  split
  · rename_i none
    rw [closes] at none
    cases none
  · rename_i found after same
    rw [closes] at same
    obtain ⟨rfl, rfl⟩ := Prod.mk.inj (Option.some.inj same)
    rfl

/-! Parts -/

section

variable (hole : List Char → Except SyntaxFault Expr) (position : SheetScript.Text.Position)

def textPart (raw : List Char) : List (Part Expr) :=
  if raw.isEmpty then [] else [.text (String.ofList (unescape raw))]

def pieceParts (piece : List Char × List Char) : Except SyntaxFault (List (Part Expr)) :=
  match hole piece.2 with
  | .ok expr => .ok (textPart piece.1 ++ [.hole expr])
  | .error fault => .error (.faultyHole piece.2 fault position)

theorem templateParts_eq {body : List Char} {found : Pieces} (cut : pieces body = .ok found) :
    templateParts hole body position =
      (found.holes.mapM (pieceParts hole position)).map fun parts =>
        parts.flatten ++ textPart found.last := by
  unfold templateParts
  rw [cut]
  rfl

end

theorem unlinedParts_append (front rest : List (Part Expr)) :
    Expr.unlinedParts (front ++ rest) = Expr.unlinedParts front ++ Expr.unlinedParts rest := by
  induction front with
  | nil => rfl
  | cons first front ih =>
      cases first with
      | text value => rw [List.cons_append, Expr.unlinedParts, ih]; rfl
      | hole expr => rw [List.cons_append, Expr.unlinedParts, ih]; rfl

theorem unlinedParts_textPart (text : List Char) :
    Expr.unlinedParts (textPart (text.flatMap escapeTemplate)) =
      if text = [] then [] else [.text (String.ofList text)] := by
  unfold textPart
  cases text with
  | nil => rfl
  | cons c rest =>
      have some : ((c :: rest).flatMap escapeTemplate).isEmpty = false := by
        rw [List.flatMap_cons]
        rcases escapeTemplate_cases c with ⟨same, -⟩ | ⟨same, -⟩ <;> rw [same] <;> rfl
      rw [some, unescape_template]
      rfl

/-- What a hole is read as, apart from its line numbers. -/
def ReadsHoles (hole : List Char → Except SyntaxFault Expr) (parts : List (Part Expr)) : Prop :=
  ∀ expr, .hole expr ∈ parts → ∃ read, hole expr.source = .ok read ∧ read.unlined = expr.unlined

variable {hole : List Char → Except SyntaxFault Expr}

/-- A body, with a text before it that no other text follows, is cut into what it was made of. -/
theorem pieces_written (position : SheetScript.Text.Position) {parts : List (Part Expr)}
    (writable : Expr.partsWritable parts = true) (reads : ReadsHoles hole parts)
    (text : List Char) (apart : text ≠ [] → Expr.startsWithText parts = false) :
    ∃ found holes, pieces (text.flatMap escapeTemplate ++ Expr.writtenParts parts) = .ok found ∧
      found.holes.mapM (pieceParts hole position) = .ok holes ∧
      Expr.unlinedParts (holes.flatten ++ textPart found.last) =
        (if text = [] then [] else [.text (String.ofList text)]) ++ Expr.unlinedParts parts := by
  -- `text` is the part just passed: it ends at the next hole, or at the end of the body.
  induction parts generalizing text with
  | nil =>
      refine ⟨⟨[], text.flatMap escapeTemplate⟩, [], ?_, rfl, ?_⟩
      · rw [pieces_escaped, Expr.writtenParts, pieces]
        simp [Except.map, Pieces.prepend]
      · rw [List.flatten_nil, List.nil_append, unlinedParts_textPart, Expr.unlinedParts,
          List.append_nil]
  | cons first rest ih =>
      have behind : ReadsHoles hole rest := fun expr here => reads expr (List.mem_cons_of_mem _ here)
      cases first with
      | text value =>
          simp only [Expr.partsWritable, Bool.and_eq_true, Bool.not_eq_true', decide_eq_true_eq]
            at writable
          obtain ⟨⟨some, alone⟩, writableRest⟩ := writable
          have empty : text = [] := by
            by_contra notEmpty
            cases apart notEmpty
          have notNil : value.toList ≠ [] := by simpa using some
          obtain ⟨found, holes, cut, ran, same⟩ := ih writableRest behind value.toList fun _ => alone
          refine ⟨found, holes, ?_, ran, ?_⟩
          · rw [empty, Expr.writtenParts]
            exact cut
          · rw [same, if_neg notNil, if_pos empty, String.ofList_toList]
            rfl
      | hole expr =>
          simp only [Expr.partsWritable, Bool.and_eq_true, Bool.not_eq_true'] at writable
          obtain ⟨⟨writableHole, noBacktick⟩, writableRest⟩ := writable
          obtain ⟨read, readHole, sameHole⟩ := reads expr List.mem_cons_self
          obtain ⟨found, holes, cut, ran, same⟩ :=
            ih writableRest behind [] fun notEmpty => absurd rfl notEmpty
          rw [List.flatMap_nil, List.nil_append] at cut
          refine ⟨⟨(text.flatMap escapeTemplate, expr.source) :: found.holes, found.last⟩,
            (textPart (text.flatMap escapeTemplate) ++ [.hole read]) :: holes, ?_, ?_, ?_⟩
          · have body : Expr.writtenParts (.hole expr :: rest) =
                '$' :: '\x7b' :: (expr.source ++ '\x7d' :: Expr.writtenParts rest) := by
              rw [Expr.writtenParts]
              rfl
            rw [pieces_escaped, body, pieces_hole (Expr.closed_source writableHole noBacktick), cut]
            simp [Except.map, Pieces.prepend]
          · have piece : pieceParts hole position (text.flatMap escapeTemplate, expr.source) =
                .ok (textPart (text.flatMap escapeTemplate) ++ [.hole read]) := by
              unfold pieceParts
              rw [readHole]
            rw [List.mapM_cons, piece, ran]
            rfl
          · rw [List.flatten_cons, List.append_assoc, List.append_assoc, unlinedParts_append,
              unlinedParts_textPart, List.singleton_append, Expr.unlinedParts, same, sameHole,
              Expr.unlinedParts]
            rfl

/-- A template in writing has the parts that it was made of. -/
theorem templateParts_written (position : SheetScript.Text.Position) {parts : List (Part Expr)}
    (writable : Expr.partsWritable parts = true) (reads : ReadsHoles hole parts) :
    ∃ found, templateParts hole (Expr.writtenParts parts) position = .ok found ∧
      Expr.unlinedParts found = Expr.unlinedParts parts := by
  obtain ⟨found, holes, cut, ran, same⟩ :=
    pieces_written position writable reads [] fun notEmpty => absurd rfl notEmpty
  rw [List.flatMap_nil, List.nil_append] at cut
  refine ⟨_, ?_, same⟩
  rw [templateParts_eq hole position cut, ran]
  rfl

end SheetScript.Script
