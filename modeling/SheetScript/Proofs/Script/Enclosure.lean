import Mathlib.Data.List.Induction
import SheetScript.Proofs.Script.Cutting
import SheetScript.Proofs.Script.Joining

/-!
Expressions inside of templates. The parser matches the braces of an expression, so outside of
comments they match for the scanner of holes too, and so does every quote.
-/

namespace SheetScript.Script

open SheetScript.Text (Position isDigit)

/-! Lexemes that are found -/

theorem isInert_digits (text : List Char) : ∀ c ∈ text.takeWhile isDigit, isInert c = true :=
  fun c here => isInert_of_condition (by decide) (List.all_eq_true.1 List.all_takeWhile c here)

theorem isInert_pointPart (whole text : List Char) :
    ∀ c ∈ (pointPart whole text).1, isInert c = true := by
  unfold pointPart
  split
  · split
    · exact nofun
    · exact List.forall_mem_cons.2 ⟨rfl, isInert_digits _⟩
  · exact nofun

theorem isInert_exponentPart (text : List Char) : ∀ c ∈ (exponentPart text).1, isInert c = true := by
  cases text with
  | nil => exact nofun
  | cons mark rest =>
      by_cases isMark : (mark == 'e' || mark == 'E') = true
      · obtain ⟨sign, digits, rfl, isSign⟩ := exists_sign rest
        have inertMark : isInert mark = true :=
          @isInert_of_condition (fun c => c == 'e' || c == 'E') (by decide) mark isMark
        have inertSign : ∀ c ∈ sign, isInert c = true := by
          rcases isSign with rfl | rfl | ⟨rfl, -⟩
          · exact List.forall_mem_singleton.2 rfl
          · exact List.forall_mem_singleton.2 rfl
          · exact nofun
        rw [exponentPart_sign isMark isSign]
        split
        · exact nofun
        · rw [List.cons_append]
          exact List.forall_mem_cons.2
            ⟨inertMark, List.forall_mem_append.2 ⟨inertSign, isInert_digits digits⟩⟩
      · have none : exponentPart (mark :: rest) = ([], mark :: rest) := if_neg isMark
        rw [none]
        exact nofun

theorem isInert_numberPart {text number after : List Char}
    (found : numberPart? text = some (number, after)) : ∀ c ∈ number, isInert c = true := by
  simp only [numberPart?, Option.ite_none_left_eq_some, Option.some.injEq, Prod.mk.injEq] at found
  obtain ⟨-, rfl, -⟩ := found
  exact List.forall_mem_append.2 ⟨List.forall_mem_append.2
    ⟨isInert_digits text, isInert_pointPart _ _⟩, isInert_exponentPart _⟩

/-- Whether a lexeme is no comment with a brace or a quote in it. -/
def Lexeme.isHarmless : Lexeme → Bool
  | comment text => text.all isInert
  | _ => true

/-- What is found is closed unless it is a brace, a template or a comment with such characters. -/
theorem closed_of_lexeme? {text after : List Char} {lexeme : Lexeme}
    (found : lexeme? text = some (lexeme, after)) (noBacktick : '`' ∉ lexeme.text)
    (noBrace : lexeme ≠ .mark .openBrace ∧ lexeme ≠ .mark .closeBrace)
    (harmless : lexeme.isHarmless = true) : Closed lexeme.text := by
  cases text with
  | nil => cases found
  | cons c rest =>
      -- One case for each kind of lexeme, in the order in which they are tried.
      rw [lexeme?] at found
      split at found
      next blank =>
        obtain ⟨rfl, rfl⟩ := Prod.mk.inj (Option.some.inj found)
        exact .cons (isInert_of_condition (by decide) blank) .nil
      next notBlank =>
      split at found
      next start =>
        obtain ⟨rfl, rfl⟩ := Prod.mk.inj (Option.some.inj found)
        have name : ∀ d ∈ rest.takeWhile isWordChar, isInert d = true := fun d here =>
          isInert_of_condition (by decide) (List.all_eq_true.1 List.all_takeWhile d here)
        exact .cons (isInert_of_condition (by decide) start) (.of_inert name)
      next notStart =>
      split at found
      next quote =>
        obtain ⟨⟨body, left⟩, inBody, same⟩ := Option.map_eq_some_iff.1 found
        obtain ⟨rfl, rfl⟩ := Prod.mk.inj same
        have isQuote : c = '\'' ∨ c = '"' := by simpa using quote
        exact .quoted isQuote (quotedBody_of_found inBody).quotation
      next notQuote =>
      split at found
      next backtick =>
        obtain ⟨⟨body, left⟩, inBody, same⟩ := Option.map_eq_some_iff.1 found
        obtain ⟨rfl, rfl⟩ := Prod.mk.inj same
        exact absurd List.mem_cons_self noBacktick
      next notBacktick =>
      split at found
      next slash =>
        obtain ⟨⟨comment, left⟩, inComment, same⟩ := Option.map_eq_some_iff.1 found
        obtain ⟨rfl, rfl⟩ := Prod.mk.inj same
        exact .of_inert (List.all_eq_true.1 harmless)
      next notSlash =>
      split at found
      next number left isNumber =>
        obtain ⟨rfl, rfl⟩ := Prod.mk.inj (Option.some.inj found)
        exact .of_inert (isInert_numberPart isNumber)
      next noNumber =>
        obtain ⟨mark, isMark, same⟩ := Option.map_eq_some_iff.1 found
        obtain ⟨rfl, rfl⟩ := Prod.mk.inj same
        exact .cons (isInert_char ⟨fun same => noBrace.1 (congrArg _ same),
          fun same => noBrace.2 (congrArg _ same)⟩) .nil

theorem exists_lexeme?_of_mem {text : List Char} {lexeme : Lexeme}
    (here : lexeme ∈ (lexemes text).1) : ∃ rest after, lexeme? rest = some (lexeme, after) := by
  fun_induction lexemes text with
  | case1 text first after found rest stray atAfter ih =>
      rw [atAfter] at ih
      rcases List.mem_cons.1 here with rfl | inRest
      · exact ⟨text, after, found⟩
      · exact ih inRest
  | case2 => cases here

/-! Braces that are open -/

namespace Lexeme

@[simp]
def bracesOpened (lexeme : Lexeme) : Nat :=
  if lexeme = mark .openBrace then 1 else 0

@[simp]
def bracesClosed (lexeme : Lexeme) : Nat :=
  if lexeme = mark .closeBrace then 1 else 0

end Lexeme

@[simp]
def Frame.isField : Frame → Bool
  | field _ _ => true
  | _ => false

namespace Focus

/-- In front of a key, the brace is open that no frame stands for yet. -/
@[simp]
def braces : Focus → Nat
  | key _ => 1
  | afterKey _ _ _ => 1
  | _ => 0

def isOutside : Focus → Bool
  | statement => true
  | declaredName => true
  | declaredEqual _ => true
  | _ => false

end Focus

namespace ParseState

variable {hole : List Char → Except SyntaxFault Expr} {state next ended : ParseState}
  {token : Token}

def openBraces (state : ParseState) : Nat :=
  state.frames.countP Frame.isField + state.focus.braces

/-- Outside of expressions no brace is open. -/
def Grounded (state : ParseState) : Prop :=
  state.focus.isOutside = true → state.frames.countP Frame.isField = 0

structure Counts (braces : Nat) (token : Token) (next : ParseState) : Prop where
  grounded : next.Grounded
  count : next.openBraces + token.lexeme.bracesClosed = braces + token.lexeme.bracesOpened

theorem counts_operandStep? (step : state.operandStep? hole token = some next) :
    Counts (state.frames.countP Frame.isField) token next := by
  unfold operandStep? at step
  split at step
  case h_2 same | h_4 same =>
    -- A number or a template, which may be refused.
    split at step <;>
    · obtain rfl := Option.some.inj step
      refine ⟨nofun, ?_⟩
      simp [openBraces, withFault, same]
  case h_9 => cases step
  all_goals
    rename_i same
    obtain rfl := Option.some.inj step
    refine ⟨nofun, ?_⟩
    simp [openBraces, same]

theorem counts_statementStep? (nothing : state.frames.countP Frame.isField = 0)
    (step : state.statementStep? hole token = some next) : Counts 0 token next := by
  unfold statementStep? at step
  split at step
  · rename_i same
    obtain rfl := Option.some.inj step
    refine ⟨fun _ => nothing, ?_⟩
    simp [openBraces, same, nothing]
  · split at step
    · rename_i same _
      obtain rfl := Option.some.inj step
      refine ⟨fun _ => nothing, ?_⟩
      simp [openBraces, same, nothing]
    · exact nothing ▸ counts_operandStep? step
  · exact nothing ▸ counts_operandStep? step

theorem countP_closeSums (operand : Expr) (frames : List Frame) :
    (closeSums operand frames).2.countP Frame.isField = frames.countP Frame.isField := by
  fun_induction closeSums operand frames with
  | case1 operand frames ih => rw [ih, List.countP_cons_of_neg (by decide)]
  | case2 operand left frames ih => rw [ih, List.countP_cons_of_neg (by simp [Frame.isField])]
  | case3 => rfl

theorem countP_of_endStatement? {value : Expr} {frames : List Frame}
    (ends : state.endStatement? value frames = some ended) : frames.countP Frame.isField = 0 := by
  unfold endStatement? at ends
  split at ends
  · rfl
  · rfl
  · rfl
  · cases ends

theorem counts_closingStep? {value : Expr} {frames : List Frame}
    (step : state.closingStep? hole value frames token = some next) :
    Counts (frames.countP Frame.isField) token next := by
  unfold closingStep? at step
  split at step
  case h_10 =>
    -- What continues no frame ends the statement, which leaves no frame, and begins another one.
    obtain ⟨between, ends, starts⟩ := Option.bind_eq_some_iff.1 step
    rw [countP_of_endStatement? ends]
    refine counts_statementStep? ?_ starts
    rw [(endStatement?_between ends).2]
    rfl
  all_goals
    rename_i same
    obtain rfl := Option.some.inj step
    refine ⟨nofun, ?_⟩
    simp [openBraces, List.countP_cons, same]

theorem counts_afterStep? {operand : Expr} (step : state.afterStep? hole operand token = some next) :
    Counts (state.frames.countP Frame.isField) token next := by
  unfold afterStep? at step
  split at step
  case h_4 isEqual nothing =>
    obtain rfl := Option.some.inj step
    refine ⟨nofun, ?_⟩
    simp [openBraces, isEqual, nothing]
  -- Sums are closed before the token is looked at; no brace is open because of them.
  case h_5 => exact countP_closeSums operand state.frames ▸ counts_closingStep? step
  all_goals
    rename_i same
    obtain rfl := Option.some.inj step
    refine ⟨nofun, ?_⟩
    simp [openBraces, same]

theorem counts_itemStep? (step : state.itemStep? hole token = some next) :
    Counts (state.frames.countP Frame.isField) token next := by
  unfold itemStep? at step
  split at step
  case h_3 => exact counts_operandStep? step
  all_goals
    rename_i top same
    obtain rfl := Option.some.inj step
    refine ⟨nofun, ?_⟩
    simp [openBraces, same, top]

theorem counts_keyStep? {before : List (String × Expr)}
    (step : state.keyStep? before token = some next) :
    Counts (state.frames.countP Frame.isField + 1) token next := by
  unfold keyStep? at step
  split at step
  case h_4 => cases step
  all_goals
    rename_i same
    obtain rfl := Option.some.inj step
    refine ⟨nofun, ?_⟩
    simp [openBraces, same]

theorem counts_afterKeyStep? {before : List (String × Expr)} {key : String} {line : Option Nat}
    (step : state.afterKeyStep? before key line token = some next) :
    Counts (state.frames.countP Frame.isField + 1) token next := by
  unfold afterKeyStep? at step
  split at step
  case h_4 => cases step
  all_goals
    rename_i same
    obtain rfl := Option.some.inj step
    refine ⟨nofun, ?_⟩
    simp [openBraces, List.countP_cons, same]

/-- A token opens or closes the brace that it is, and no other. -/
theorem counts_step? (grounded : state.Grounded) (step : state.step? hole token = some next) :
    Counts state.openBraces token next := by
  obtain ⟨focus, frames, done, fault⟩ := state
  -- Between statements no brace is open; elsewhere one is for each object literal not yet closed.
  cases focus with
  | statement =>
      have nothing : frames.countP Frame.isField = 0 := grounded rfl
      have none : openBraces ⟨.statement, frames, done, fault⟩ = 0 := nothing
      rw [none]
      exact counts_statementStep? nothing step
  | operand => exact counts_operandStep? step
  | item => exact counts_itemStep? step
  | after operand => exact counts_afterStep? step
  | memberName object =>
      unfold step? at step
      dsimp only at step
      split at step
      · rename_i same
        obtain rfl := Option.some.inj step
        refine ⟨nofun, ?_⟩
        simp [openBraces, same]
      · cases step
  | declaredName =>
      have nothing : frames.countP Frame.isField = 0 := grounded rfl
      unfold step? at step
      dsimp only at step
      split at step
      · rename_i same
        obtain rfl := Option.some.inj step
        refine ⟨fun _ => nothing, ?_⟩
        simp [openBraces, same]
      · cases step
  | declaredEqual name =>
      have nothing : frames.countP Frame.isField = 0 := grounded rfl
      unfold step? at step
      dsimp only at step
      split at step
      · rename_i same
        obtain rfl := Option.some.inj step
        refine ⟨nofun, ?_⟩
        simp [openBraces, same, nothing]
      · cases step
  | key before => exact counts_keyStep? step
  | afterKey before key line => exact counts_afterKeyStep? step

theorem grounded_expressionStart : expressionStart.Grounded := nofun

/-- Where no brace is open in the end, those that were open are the ones that the text closes. -/
theorem balanced_of_readTokens {position : Position} {row : List Lexeme}
    (closed : ∀ lexeme ∈ row, lexeme ≠ .mark .openBrace ∧ lexeme ≠ .mark .closeBrace →
      Closed lexeme.text)
    (grounded : state.Grounded) (reads : state.readTokens hole (place position row) = .ok ended)
    (ends : ended.openBraces = 0) : Balanced state.openBraces (row.flatMap Lexeme.text) := by
  induction row generalizing state position with
  | nil =>
      obtain rfl := Except.ok.inj reads
      rw [ends]
      exact .nil
  | cons lexeme rest ih =>
      have behind := fun other here => closed other (List.mem_cons_of_mem lexeme here)
      rw [List.flatMap_cons]
      rw [place] at reads
      split at reads
      · rename_i separator
        have noBrace : lexeme ≠ .mark .openBrace ∧ lexeme ≠ .mark .closeBrace := by
          constructor <;>
          · rintro rfl
            cases separator
        have here := closed lexeme List.mem_cons_self noBrace
        have whole := (closed_iff_balanced.1 here).append (ih behind grounded reads)
        rwa [Nat.zero_add] at whole
      · rw [readTokens] at reads
        cases step : state.step? hole ⟨lexeme, position⟩ with
        | none =>
            rw [step] at reads
            cases reads
        | some between =>
            rw [step] at reads
            obtain ⟨stillGrounded, count⟩ := counts_step? grounded step
            have later := ih behind stillGrounded reads
            by_cases isOpen : lexeme = .mark .openBrace
            · subst isOpen
              have deeper : between.openBraces = state.openBraces + 1 := count
              rw [deeper] at later
              exact .opened later
            by_cases isClose : lexeme = .mark .closeBrace
            · subst isClose
              have shallower : between.openBraces + 1 = state.openBraces := count
              rw [← shallower]
              exact .closed later
            · have same : between.openBraces = state.openBraces := by
                simpa [isOpen, isClose] using count
              have here := closed lexeme List.mem_cons_self ⟨isOpen, isClose⟩
              have whole := (closed_iff_balanced.1 here).append later
              rwa [Nat.zero_add, same] at whole

theorem openBraces_of_toExpression? {expr : Expr} (ends : ended.toExpression? = some expr) :
    ended.openBraces = 0 := by
  unfold toExpression? at ends
  split at ends
  · rename_i operand isAfter
    split at ends
    · rename_i value closes
      have same := countP_closeSums operand ended.frames
      rw [closes] at same
      rw [openBraces, isAfter, ← same]
      rfl
    · cases ends
  · cases ends

end ParseState

/-! Sources -/

/-- An expression matches its braces, as far as its comments do not interfere. -/
theorem balanced_of_parseExpressionWith {hole : List Char → Except SyntaxFault Expr}
    {source : List Char} {expr : Expr} (reads : parseExpressionWith hole source = .ok expr)
    (noBacktick : '`' ∉ source) (harmless : (lexemes source).1.all Lexeme.isHarmless = true) :
    Balanced 0 source := by
  obtain ⟨row, ended, cut, tokens, ends, -⟩ := parseExpressionWith_eq_ok.1 reads
  have text : row.flatMap Lexeme.text = source := by
    have joins := flatMap_text_lexemes source
    rwa [cut, List.append_nil] at joins
  have closed : ∀ lexeme ∈ row, lexeme ≠ .mark .openBrace ∧ lexeme ≠ .mark .closeBrace →
      Closed lexeme.text := by
    intro lexeme here noBrace
    have found : lexeme ∈ (lexemes source).1 := by rwa [cut]
    obtain ⟨rest, after, isFound⟩ := exists_lexeme?_of_mem found
    refine closed_of_lexeme? isFound (fun backtick => noBacktick ?_) noBrace
      (List.all_eq_true.1 harmless lexeme found)
    rw [← text]
    exact List.mem_flatMap.2 ⟨lexeme, here, backtick⟩
  rw [← text]
  exact ParseState.balanced_of_readTokens closed ParseState.grounded_expressionStart tokens
    (ParseState.openBraces_of_toExpression? ends)

/-! Templates of one hole -/

def holeBody (source : List Char) : List Char :=
  '$' :: '\x7b' :: (source ++ ['\x7d'])

def inTemplate (source : List Char) : List Char :=
  (Lexeme.template (holeBody source)).text

/-- A backslash at the end escapes the brace, which makes no difference to what the body is. -/
theorem templateBody_concat {text : List Char} (noBacktick : '`' ∉ text) :
    TemplateBody (text ++ ['\x7d']) := by
  have brace : TemplateBody ['\x7d'] := .plain (by decide) (by decide) .nil
  have notBacktick {c : Char} {rest : List Char} (none : '`' ∉ c :: rest) : c ≠ '`' := by
    rintro rfl
    exact none List.mem_cons_self
  induction text using List.twoStepInduction with
  | nil => exact brace
  | singleton c =>
      by_cases isBackslash : c = '\\'
      · rw [isBackslash]
        exact .escaped '\x7d' .nil
      · exact .plain (notBacktick noBacktick) isBackslash brace
  | cons_cons c d rest ihRest ih =>
      have behind : '`' ∉ d :: rest := fun here => noBacktick (List.mem_cons_of_mem c here)
      by_cases isBackslash : c = '\\'
      · rw [isBackslash]
        exact .escaped d (ihRest fun here => behind (List.mem_cons_of_mem d here))
      · exact .plain (notBacktick noBacktick) isBackslash (ih d behind)

theorem templateBody_holeBody {source : List Char} (noBacktick : '`' ∉ source) :
    TemplateBody (holeBody source) :=
  .plain (by decide) (by decide) (.plain (by decide) (by decide) (templateBody_concat noBacktick))

section

variable {hole : List Char → Except SyntaxFault Expr} {position : Position}

theorem hole_of_pieceParts {piece : List Char × List Char} {parts : List (Part Expr)}
    (read : pieceParts hole position piece = .ok parts) :
    ∃ expr, hole piece.2 = .ok expr ∧ parts = textPart piece.1 ++ [.hole expr] := by
  unfold pieceParts at read
  split at read
  · rename_i expr found
    exact ⟨expr, found, (Except.ok.inj read).symm⟩
  · cases read

theorem textPart_cases (text : List Char) :
    (textPart text = [] ∧ text = []) ∨ ∃ value, textPart text = [.text value] := by
  cases text with
  | nil => exact .inl ⟨rfl, rfl⟩
  | cons c rest => exact .inr ⟨_, rfl⟩

/-- Every piece has its hole and every text is a part, so one part is one piece and nothing else. -/
theorem eq_of_oneHole {found : Pieces} {parts : List (List (Part Expr))} {read : Expr}
    (ran : found.holes.mapM (pieceParts hole position) = .ok parts)
    (one : parts.flatten ++ textPart found.last = [.hole read]) :
    ∃ source, found = ⟨[([], source)], []⟩ ∧ hole source = .ok read := by
  obtain ⟨holes, last⟩ := found
  cases forall₂_of_mapM ran with
  | nil =>
      change textPart last = [.hole read] at one
      rcases textPart_cases last with ⟨none, -⟩ | ⟨value, some⟩
      · rw [none] at one
        cases one
      · rw [some] at one
        cases one
  | @cons piece _ others _ here behind =>
      obtain ⟨raw, source⟩ := piece
      obtain ⟨expr, isExpr, rfl⟩ := hole_of_pieceParts here
      rw [List.flatten_cons, List.append_assoc, List.append_assoc, List.singleton_append] at one
      rcases textPart_cases raw with ⟨none, rfl⟩ | ⟨value, some⟩
      · obtain ⟨same, nothing⟩ := List.cons.inj one
        obtain rfl := Part.hole.inj same
        obtain ⟨noOthers, noText⟩ := List.append_eq_nil_iff.1 nothing
        rcases textPart_cases last with ⟨-, rfl⟩ | ⟨value, some⟩
        · cases behind with
          | nil => exact ⟨source, rfl, isExpr⟩
          | cons second more =>
              obtain ⟨_, -, rfl⟩ := hole_of_pieceParts second
              simp at noOthers
        · change textPart last = [] at noText
          rw [some] at noText
          cases noText
      · rw [some] at one
        cases one

theorem templateParts_holeBody {source : List Char} {read : Expr} :
    templateParts hole (holeBody source) position = .ok [.hole read] ↔
      Balanced 0 source ∧ hole source = .ok read := by
  constructor
  · intro isRead
    cases cut : pieces (holeBody source) with
    | error rest =>
        unfold templateParts at isRead
        rw [cut] at isRead
        cases isRead
    | ok found =>
        rw [templateParts_eq hole position cut] at isRead
        obtain ⟨parts, ran, one⟩ := ok_of_map isRead
        obtain ⟨inner, rfl, isExpr⟩ := eq_of_oneHole ran one
        obtain ⟨sound, whole⟩ := pieces_eq_ok_iff.1 cut
        have same : inner = source := by simpa [Pieces.join, holeBody] using whole
        rw [← same]
        obtain ⟨-, -, balanced⟩ := sound.holes _ List.mem_cons_self
        exact ⟨balanced, isExpr⟩
  · rintro ⟨balanced, found⟩
    have cut := pieces_hole (closed_iff_balanced.2 balanced) []
    rw [pieces] at cut
    have piece : pieceParts hole position ([], source) = .ok [.hole read] := by
      unfold pieceParts
      rw [found]
      rfl
    rw [holeBody, templateParts_eq hole position cut, List.mapM_cons, piece]
    rfl

/-- A source that is one template is read as what the template's parts are read as. -/
theorem parseExpressionWith_template {body : List Char} (isBody : TemplateBody body) :
    parseExpressionWith hole (Lexeme.template body).text =
      (templateParts hole body .start).map .template := by
  have sound : RowSound [.template body] [] := ⟨isBody, rfl, trivial⟩
  have cut := lexemes_source sound
  rw [List.flatMap_singleton] at cut
  have reads {next : ParseState}
      (step : ParseState.expressionStart.operandStep? hole ⟨.template body, .start⟩ = some next) :
      ParseState.expressionStart.readTokens hole (place .start [.template body]) = .ok next := by
    have first : ParseState.expressionStart.step? hole ⟨.template body, .start⟩ = some next := step
    simp only [place, Lexeme.isSeparator, Bool.false_eq_true, if_false, ParseState.readTokens, first]
  unfold ParseState.operandStep? at reads
  dsimp only at reads
  cases found : templateParts hole body .start with
  | ok parts =>
      rw [found] at reads
      exact parseExpressionWith_eq_ok.2 ⟨_, _, cut, reads rfl, rfl, rfl⟩
  | error fault =>
      rw [found] at reads
      unfold parseExpressionWith ParseState.readSource
      rw [cut]
      dsimp only
      rw [reads rfl]
      rfl

end

/-- A template of one hole is read if its source is balanced and read, as what that is read as. -/
theorem parseExpression_inTemplate {source : List Char} {read : Expr} (noBacktick : '`' ∉ source) :
    parseExpression (inTemplate source) = .ok (.template [.hole read]) ↔
      Balanced 0 source ∧ parseExpression source = .ok read := by
  have shorter : source.length < (inTemplate source).length := by
    simp only [inTemplate, holeBody, Lexeme.text, List.length_cons, List.length_append]
    omega
  rw [parseExpression]
  unfold inTemplate at shorter ⊢
  rw [parseExpressionWith_template (templateBody_holeBody noBacktick)]
  have holes := @templateParts_holeBody (fun hole =>
    if _shorter : hole.length < (Lexeme.template (holeBody source)).text.length then
      parseExpression hole else .error (.unexpectedEnd .start)) .start source read
  rw [dif_pos shorter] at holes
  rw [← holes]
  constructor
  · intro isRead
    obtain ⟨parts, isParts, same⟩ := ok_of_map isRead
    rw [isParts, Expr.template.inj same]
  · intro isRead
    rw [isRead]
    rfl

/--
An expression without backticks can be put into a template, where it is read as it is alone, if its
text is balanced, and only then. It is balanced unless a comment in it has a quote or a brace.
-/
theorem inTemplate_iff_balanced {source : List Char} {expr : Expr}
    (accepted : parseExpression source = .ok expr) (noBacktick : '`' ∉ source) :
    (∀ read, parseExpression (inTemplate source) = .ok (.template [.hole read]) ↔
        Balanced 0 source ∧ read = expr) ∧
      ((lexemes source).1.all Lexeme.isHarmless = true →
        parseExpression (inTemplate source) = .ok (.template [.hole expr])) := by
  constructor
  · intro read
    rw [parseExpression_inTemplate noBacktick, accepted, Except.ok.injEq, @eq_comm _ expr]
  · intro harmless
    refine (parseExpression_inTemplate noBacktick).2 ⟨?_, accepted⟩
    rw [parseExpression] at accepted
    exact balanced_of_parseExpressionWith accepted noBacktick harmless

theorem inTemplate_iff_balanced_object :
    parseExpression "\x7ba: \"\x7d'\", b /* c */\x7d".toList =
        .ok (.object [("a", .literal (.text "\x7d'")), ("b", .name "b" 1)]) ∧
      parseExpression (inTemplate "\x7ba: \"\x7d'\", b /* c */\x7d".toList) =
        .ok (.template [.hole (.object [("a", .literal (.text "\x7d'")), ("b", .name "b" 1)])]) := by
  have accepted : parseExpression "\x7ba: \"\x7d'\", b /* c */\x7d".toList =
      .ok (.object [("a", .literal (.text "\x7d'")), ("b", .name "b" 1)]) := by
    rw [parseExpression]
    exact parseExpressionWith_eq_ok.2 ⟨[.mark .openBrace, .word ['a'], .mark .colon, .blank ' ',
      .quoted '"' ['\x7d', '\''], .mark .comma, .blank ' ', .word ['b'], .blank ' ',
      .comment "/* c */".toList, .mark .closeBrace], _, by decide +kernel, rfl, rfl, rfl⟩
  exact ⟨accepted, (inTemplate_iff_balanced accepted (by decide)).2 (by decide +kernel)⟩

/-- The scanner of holes takes a quote in a comment for one that opens a text. -/
theorem inTemplate_quote_in_comment :
    parseExpression "1 /* ' */".toList = .ok (.literal (.int 1)) ∧ '`' ∉ "1 /* ' */".toList ∧
      parseExpression (inTemplate "1 /* ' */".toList) =
        .error (.openHole "$\x7b1 /* ' */\x7d".toList .start) := by
  refine ⟨?_, by decide, ?_⟩
  · rw [parseExpression]
    exact parseExpressionWith_eq_ok.2 ⟨[.number ['1'], .blank ' ', .comment "/* ' */".toList], _,
      by decide +kernel, rfl, rfl, rfl⟩
  · rw [parseExpression, inTemplate, parseExpressionWith_template (templateBody_holeBody (by decide))]
    have cut : pieces (holeBody "1 /* ' */".toList) = .error "$\x7b1 /* ' */\x7d".toList := by
      decide +kernel
    unfold templateParts
    rw [cut]
    rfl

end SheetScript.Script
