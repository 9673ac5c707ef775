import SheetScript.Proofs.Script.LineBreak
import SheetScript.Proofs.Script.Lowering
import SheetScript.Proofs.Script.RoundTrip

/-!
Scripts behind one another. A semicolon on a line of its own ends whatever the first script has left
open, so the second one is read as if it began a source.
-/

namespace SheetScript.Script

open SheetScript.Text (Position)

namespace ParseState

variable {hole : List Char → Except SyntaxFault Expr} {state next ended : ParseState}
  {token : Token}

/-- Between two statements nothing is open. -/
def Outermost (state : ParseState) : Prop :=
  state.focus = .statement → state.frames = []

theorem outermost_of_focus (inside : state.focus ≠ .statement) : state.Outermost :=
  fun between => absurd between inside

theorem outermost_operandStep? (step : state.operandStep? hole token = some next) :
    next.Outermost := by
  refine outermost_of_focus ?_
  unfold operandStep? at step
  split at step
  case h_2 | h_4 =>
    split at step <;>
    · obtain rfl := Option.some.inj step
      exact nofun
  case h_9 => cases step
  all_goals
    obtain rfl := Option.some.inj step
    exact nofun

theorem outermost_statementStep? (nothing : state.frames = [])
    (step : state.statementStep? hole token = some next) : next.Outermost := by
  unfold statementStep? at step
  split at step
  · obtain rfl := Option.some.inj step
    exact fun _ => nothing
  · split at step
    · obtain rfl := Option.some.inj step
      exact outermost_of_focus nofun
    · exact outermost_operandStep? step
  · exact outermost_operandStep? step

theorem endStatement?_between {value : Expr} {frames : List Frame}
    (ends : state.endStatement? value frames = some ended) :
    ended.focus = .statement ∧ ended.frames = [] := by
  unfold endStatement? at ends
  split at ends
  · obtain rfl := Option.some.inj ends
    exact ⟨rfl, rfl⟩
  · obtain rfl := Option.some.inj ends
    exact ⟨rfl, rfl⟩
  · split at ends <;>
    · obtain rfl := Option.some.inj ends
      exact ⟨rfl, rfl⟩
  · cases ends

theorem outermost_closingStep? {value : Expr} {frames : List Frame}
    (step : state.closingStep? hole value frames token = some next) : next.Outermost := by
  unfold closingStep? at step
  split at step
  case h_10 =>
    obtain ⟨between, ends, starts⟩ := Option.bind_eq_some_iff.1 step
    exact outermost_statementStep? (endStatement?_between ends).2 starts
  all_goals
    obtain rfl := Option.some.inj step
    exact outermost_of_focus nofun

theorem outermost_step? (outermost : state.Outermost) (step : state.step? hole token = some next) :
    next.Outermost := by
  unfold step? at step
  split at step
  · rename_i between
    exact outermost_statementStep? (outermost between) step
  · exact outermost_operandStep? step
  · unfold itemStep? at step
    split at step
    · obtain rfl := Option.some.inj step
      exact outermost_of_focus nofun
    · obtain rfl := Option.some.inj step
      exact outermost_of_focus nofun
    · exact outermost_operandStep? step
  · unfold afterStep? at step
    split at step
    case h_5 => exact outermost_closingStep? step
    all_goals
      obtain rfl := Option.some.inj step
      exact outermost_of_focus nofun
  · split at step
    · obtain rfl := Option.some.inj step
      exact outermost_of_focus nofun
    · cases step
  · split at step
    · obtain rfl := Option.some.inj step
      exact outermost_of_focus nofun
    · cases step
  · split at step
    · obtain rfl := Option.some.inj step
      exact outermost_of_focus nofun
    · cases step
  · unfold keyStep? at step
    split at step
    case h_4 => cases step
    all_goals
      obtain rfl := Option.some.inj step
      exact outermost_of_focus nofun
  · unfold afterKeyStep? at step
    split at step
    case h_4 => cases step
    all_goals
      obtain rfl := Option.some.inj step
      exact outermost_of_focus nofun

theorem outermost_readTokens {tokens : List Token} (outermost : state.Outermost)
    (reads : state.readTokens hole tokens = .ok next) : next.Outermost := by
  induction tokens generalizing state with
  | nil =>
      obtain rfl := Except.ok.inj reads
      exact outermost
  | cons token rest ih =>
      rw [readTokens] at reads
      cases step : state.step? hole token with
      | none =>
          rw [step] at reads
          cases reads
      | some between =>
          rw [step] at reads
          exact ih (outermost_step? outermost step) reads

/-- Where a script can end, a semicolon ends it. -/
theorem step?_semicolon (outermost : state.Outermost) (ends : state.toProgram? = some ended)
    (position : Position) :
    state.step? hole ⟨.mark .semicolon, position⟩ = some ended ∧ ended.focus = .statement ∧
      ended.frames = [] := by
  obtain ⟨focus, frames, done, fault⟩ := state
  cases focus with
  | statement =>
      obtain rfl := Option.some.inj ends
      exact ⟨rfl, rfl, outermost rfl⟩
  | after operand =>
      obtain ⟨between, nothing⟩ := endStatement?_between ends
      refine ⟨?_, between, nothing⟩
      -- An operand is complete: the semicolon closes its sums and the statement, as the end would.
      have closes := @afterStep?_of_ends hole ⟨.after operand, frames, done, fault⟩
        ⟨.mark .semicolon, position⟩ rfl operand
      refine closes.trans ?_
      rw [closingStep?_semicolon]
      change (endStatement? _ _ (closeSums operand frames).2).map _ = _
      change endStatement? _ (closeSums operand frames).1 (closeSums operand frames).2 = _ at ends
      rw [ends, Option.map_some, ← between]
  | _ => cases ends

end ParseState

/-! Sources -/

/-- What it means that a source is read: it is cut up, and its tokens lead to a state. -/
theorem readSource_eq_ok {hole : List Char → Except SyntaxFault Expr} {state next : ParseState}
    {source : List Char} :
    (∃ last, state.readSource hole source = .ok (next, last)) ↔
      ∃ row, lexemes source = (row, []) ∧ state.readTokens hole (place .start row) = .ok next := by
  unfold ParseState.readSource
  generalize lexemes source = cut
  obtain ⟨row, rest⟩ := cut
  dsimp only
  constructor
  · rintro ⟨last, reads⟩
    cases tokens : state.readTokens hole (place .start row) with
    | error fault =>
        rw [tokens] at reads
        cases reads
    | ok reached =>
        rw [tokens] at reads
        cases rest with
        | cons c rest => cases reads
        | nil =>
            obtain ⟨rfl, -⟩ := Prod.mk.inj (Except.ok.inj reads)
            exact ⟨row, rfl, tokens⟩
  · rintro ⟨found, cut, tokens⟩
    obtain ⟨rfl, rfl⟩ := Prod.mk.inj cut
    rw [tokens]
    exact ⟨_, rfl⟩

/-- What it means that a script is read: it is cut up, and its tokens lead to an end. -/
theorem parseScript_eq_ok {source : List Char} {script : List Statement} :
    parseScript source = .ok script ↔ ∃ row state ended,
      lexemes source = (row, []) ∧
      ParseState.programStart.readTokens parseExpression (place .start row) = .ok state ∧
      state.toProgram? = some ended ∧ ended.fault = none ∧ script = ended.done.reverse := by
  unfold parseScript
  constructor
  · intro reads
    cases isRead : ParseState.programStart.readSource parseExpression source with
    | error fault =>
        rw [isRead] at reads
        cases reads
    | ok found =>
        obtain ⟨state, last⟩ := found
        obtain ⟨row, cut, tokens⟩ := readSource_eq_ok.1 ⟨last, isRead⟩
        rw [isRead] at reads
        dsimp only [bind, Except.bind, pure, Except.pure] at reads
        -- All tokens were taken; what is left to see is that the script may end there.
        cases ends : state.toProgram? with
        | none =>
            rw [ends] at reads
            cases reads
        | some ended =>
            rw [ends] at reads
            dsimp only at reads
            cases sane : ended.fault with
            | some fault =>
                rw [sane] at reads
                cases reads
            | none =>
                rw [sane] at reads
                exact ⟨row, state, ended, cut, tokens, ends, sane, (Except.ok.inj reads).symm⟩
  · rintro ⟨row, state, ended, cut, tokens, ends, sane, rfl⟩
    obtain ⟨last, isRead⟩ := readSource_eq_ok.2 ⟨row, cut, tokens⟩
    rw [isRead]
    dsimp only [bind, Except.bind, pure, Except.pure]
    rw [ends]
    dsimp only
    rw [sane]

/-- What it means that an expression is read. -/
theorem parseExpressionWith_eq_ok {hole : List Char → Except SyntaxFault Expr} {source : List Char}
    {expr : Expr} :
    parseExpressionWith hole source = .ok expr ↔ ∃ row state,
      lexemes source = (row, []) ∧
      ParseState.expressionStart.readTokens hole (place .start row) = .ok state ∧
      state.toExpression? = some expr ∧ state.fault = none := by
  unfold parseExpressionWith
  constructor
  · intro reads
    cases isRead : ParseState.expressionStart.readSource hole source with
    | error fault =>
        rw [isRead] at reads
        cases reads
    | ok found =>
        obtain ⟨state, last⟩ := found
        obtain ⟨row, cut, tokens⟩ := readSource_eq_ok.1 ⟨last, isRead⟩
        rw [isRead] at reads
        dsimp only [bind, Except.bind] at reads
        cases ends : state.toExpression? with
        | none =>
            rw [ends] at reads
            cases reads
        | some value =>
            rw [ends] at reads
            cases sane : state.fault with
            | some fault =>
                rw [sane] at reads
                cases reads
            | none =>
                rw [sane] at reads
                exact ⟨row, state, cut, tokens, ends.trans (congrArg some (Except.ok.inj reads)), sane⟩
  · rintro ⟨row, state, cut, tokens, ends, sane⟩
    obtain ⟨last, isRead⟩ := readSource_eq_ok.2 ⟨row, cut, tokens⟩
    exact parseExpressionWith_ok isRead ends sane

def separator : List Char :=
  ['\n', ';', '\n']

theorem lexemes_separator {first second : List Char} {firstRow secondRow : List Lexeme}
    (cutFirst : lexemes first = (firstRow, [])) (cutSecond : lexemes second = (secondRow, [])) :
    lexemes (first ++ separator ++ second) =
      (firstRow ++ .blank '\n' :: .mark .semicolon :: .blank '\n' :: secondRow, []) := by
  have mark : lexemes [';'] = ([.mark .semicolon], []) := by decide +kernel
  have behind := lexemes_newline mark second
  rw [List.append_assoc]
  change lexemes (first ++ '\n' :: ([';'] ++ '\n' :: second)) = _
  rw [lexemes_newline cutFirst, behind, cutSecond]
  rfl

theorem line_advance (position : Position) (text : List Char) :
    (position.advance text).line = position.line + text.count '\n' := by
  induction text generalizing position with
  | nil => rfl
  | cons c rest ih =>
      rw [Position.advance_cons, ih, List.count_cons]
      split
      · dsimp only
        omega
      · rfl

def linesBefore (first : List Char) : Nat :=
  first.count '\n' + 2

theorem advance_separator (first : List Char) :
    Position.start.advance (first ++ separator) = loweredPosition (linesBefore first) .start := by
  have line := line_advance .start first
  rw [Position.advance_append]
  refine (congrArg (Position.mk · 1) ?_ : (⟨_ + 1 + 1, 1⟩ : Position) = ⟨1 + linesBefore first, 1⟩)
  rw [line]
  exact Nat.add_assoc 1 _ 2

theorem place_separator {first : List Char} {firstRow : List Lexeme} (secondRow : List Lexeme)
    (cutFirst : lexemes first = (firstRow, [])) :
    ∃ position, place .start
        (firstRow ++ .blank '\n' :: .mark .semicolon :: .blank '\n' :: secondRow) =
      place .start firstRow ++ ⟨.mark .semicolon, position⟩ ::
        (place .start secondRow).map (Token.lowered (linesBefore first)) := by
  have text : firstRow.flatMap Lexeme.text = first := by
    have joins := flatMap_text_lexemes first
    rw [cutFirst, List.append_nil] at joins
    exact joins
  refine ⟨(Position.start.advance first).advance ['\n'], ?_⟩
  rw [place_append, text, ← place_lowered, ← advance_separator, Position.advance_append]
  rfl

/--
Two scripts with a semicolon on a line between them are read as the statements of the first and then
those of the second, which only stand on later lines.
-/
theorem parseScript_append {first second : List Char} {one two : List Statement}
    (readsFirst : parseScript first = .ok one) (readsSecond : parseScript second = .ok two) :
    parseScript (first ++ separator ++ second) =
        .ok (one ++ two.map (Statement.lowered (linesBefore first))) ∧
      (one ++ two.map (Statement.lowered (linesBefore first))).map Statement.unlined =
        (one ++ two).map Statement.unlined := by
  constructor
  · obtain ⟨firstRow, state, ended, cutFirst, reads, ends, sane, rfl⟩ :=
      parseScript_eq_ok.1 readsFirst
    obtain ⟨secondRow, last, finished, cutSecond, readsOn, endsToo, saneToo, rfl⟩ :=
      parseScript_eq_ok.1 readsSecond
    obtain ⟨position, tokens⟩ := place_separator secondRow cutFirst
    have outermost := ParseState.outermost_readTokens (fun _ => rfl) reads
    obtain ⟨closes, between, nothing⟩ :=
      @ParseState.step?_semicolon parseExpression _ _ outermost ends position
    -- Behind the semicolon the parser stands where it starts, with the first script already done.
    have starts : ended =
        ParseState.programStart.lowered (linesBefore first) ended.done := by
      obtain ⟨focus, frames, done, fault⟩ := ended
      cases between
      cases nothing
      cases sane
      rfl
    have readsBehind := ParseState.readTokens_lowered (linesBefore first) ended.done readsOn
    rw [← starts] at readsBehind
    refine parseScript_eq_ok.2 ⟨_, last.lowered (linesBefore first) ended.done,
      finished.lowered (linesBefore first) ended.done,
      lexemes_separator cutFirst cutSecond, ?_, ?_, ?_, ?_⟩
    · rw [tokens, ParseState.readTokens_append reads, ParseState.readTokens, closes]
      exact readsBehind
    · rw [ParseState.toProgram?_lowered, endsToo, Option.map_some]
    · exact congrArg (Option.map _) saneToo
    · change _ = (finished.done.map _ ++ ended.done).reverse
      rw [List.reverse_append, List.map_reverse]
  · rw [List.map_append, List.map_append, List.map_map]
    refine congrArg _ (List.map_congr_left fun statement _ => ?_)
    exact Statement.unlined_lowered _ statement

/-- The first script ends in a name that would be called with the second one, and in a comment. -/
theorem parseScript_append_call :
    parseScript ("const a = b // c".toList ++ separator ++ "(\ng)".toList) =
      .ok [.declare "a" (.name "b" 1), .expression (.name "g" 4)] := by
  have readsFirst : parseScript "const a = b // c".toList = .ok [.declare "a" (.name "b" 1)] :=
    parseScript_eq_ok.2 ⟨[.word ['c', 'o', 'n', 's', 't'], .blank ' ', .word ['a'], .blank ' ',
      .mark .equal, .blank ' ', .word ['b'], .blank ' ', .comment ['/', '/', ' ', 'c']], _, _,
      by decide +kernel, rfl, rfl, rfl, rfl⟩
  have readsSecond : parseScript "(\ng)".toList = .ok [.expression (.name "g" 2)] :=
    parseScript_eq_ok.2 ⟨[.mark .openParen, .blank '\n', .word ['g'], .mark .closeParen], _, _,
      by decide +kernel, rfl, rfl, rfl, rfl⟩
  exact (parseScript_append readsFirst readsSecond).1

end SheetScript.Script
