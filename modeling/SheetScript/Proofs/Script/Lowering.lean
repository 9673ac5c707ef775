import SheetScript.Proofs.Script.Steps

/-!
A script further down in a source. It is read there as it is read by itself: its lines count on, and
the statements in front of it stay as they are.
-/

namespace SheetScript.Script

open SheetScript.Number
open SheetScript.Text (Position)

namespace Expr

mutual

/-- An expression some lines further down. The lines of a hole count from its own start. -/
def lowered (lines : Nat) : Expr → Expr
  | .literal constant => .literal constant
  | .template parts => .template parts
  | .name id line => .name id (line + lines)
  | .member owner field line => .member (lowered lines owner) field (line + lines)
  | .index owner key line =>
    .index (lowered lines owner) (lowered lines key) (line.map (· + lines))
  | .call function arguments line =>
    .call (lowered lines function) (loweredEach lines arguments) (line.map (· + lines))
  | .object fields => .object (loweredFields lines fields)
  | .array items => .array (loweredEach lines items)
  | .sum left right => .sum (lowered lines left) (lowered lines right)
  | .negation operand => .negation (lowered lines operand)

def loweredEach (lines : Nat) : List Expr → List Expr
  | [] => []
  | first :: rest => lowered lines first :: loweredEach lines rest

def loweredFields (lines : Nat) : List (String × Expr) → List (String × Expr)
  | [] => []
  | (key, value) :: rest => (key, lowered lines value) :: loweredFields lines rest

end

variable (lines : Nat)

theorem loweredEach_eq_map (items : List Expr) :
    loweredEach lines items = items.map (lowered lines) := by
  induction items with
  | nil => rfl
  | cons first rest ih => rw [loweredEach, ih, List.map_cons]

def loweredField (field : String × Expr) : String × Expr :=
  (field.1, field.2.lowered lines)

theorem loweredFields_eq_map (fields : List (String × Expr)) :
    loweredFields lines fields = fields.map (loweredField lines) := by
  induction fields with
  | nil => rfl
  | cons first rest ih =>
      rw [loweredFields, ih, List.map_cons]
      rfl

theorem line?_lowered (expr : Expr) : (expr.lowered lines).line? = expr.line?.map (· + lines) := by
  cases expr <;> rfl

/-- Only line numbers change. -/
theorem unlined_lowered (expr : Expr) : (expr.lowered lines).unlined = expr.unlined := by
  induction expr using Expr.ind with
  | literal constant => rfl
  | template parts _ => rfl
  | name id line => rfl
  | member owner field line ih => rw [lowered, unlined, unlined, ih]
  | index owner key line ihOwner ihKey => rw [lowered, unlined, unlined, ihOwner, ihKey]
  | call function arguments line ihFunction ih =>
      rw [lowered, unlined, unlined, ihFunction, loweredEach_eq_map, unlinedEach_eq_map,
        unlinedEach_eq_map, List.map_map]
      exact congrArg (Expr.call function.unlined · none) (List.map_congr_left ih)
  | object fields ih =>
      rw [lowered, unlined, unlined, loweredFields_eq_map, unlinedFields_eq_map,
        unlinedFields_eq_map, List.map_map]
      exact congrArg Expr.object
        (List.map_congr_left fun field here => congrArg (Prod.mk field.1) (ih field here))
  | array items ih =>
      rw [lowered, unlined, unlined, loweredEach_eq_map, unlinedEach_eq_map, unlinedEach_eq_map,
        List.map_map]
      exact congrArg Expr.array (List.map_congr_left ih)
  | sum left right ihLeft ihRight => rw [lowered, unlined_sum, unlined_sum, ihLeft, ihRight]
  | negation operand ih => rw [lowered, unlined, unlined, ih]

end Expr

namespace Target

def lowered (lines : Nat) : Target → Target
  | name id line => .name id (line + lines)
  | member owner field line => .member (owner.lowered lines) field (line + lines)

theorem ofExpr?_lowered (lines : Nat) (expr : Expr) :
    ofExpr? (expr.lowered lines) = (ofExpr? expr).map (lowered lines) := by
  cases expr <;> rfl

theorem unlined_lowered (lines : Nat) (target : Target) :
    (target.lowered lines).unlined = target.unlined := by
  cases target with
  | name id line => rfl
  | member owner field line => rw [lowered, unlined, unlined, Expr.unlined_lowered]

end Target

namespace Statement

def lowered (lines : Nat) : Statement → Statement
  | declare name value => .declare name (value.lowered lines)
  | assign target value => .assign (target.lowered lines) (value.lowered lines)
  | expression value => .expression (value.lowered lines)

theorem unlined_lowered (lines : Nat) (statement : Statement) :
    (statement.lowered lines).unlined = statement.unlined := by
  cases statement with
  | declare name value => rw [lowered, unlined, unlined, Expr.unlined_lowered]
  | assign target value =>
      rw [lowered, unlined, unlined, Target.unlined_lowered, Expr.unlined_lowered]
  | expression value => rw [lowered, unlined, unlined, Expr.unlined_lowered]

end Statement

/-! Tokens and faults -/

def loweredPosition (lines : Nat) (position : Position) : Position :=
  ⟨position.line + lines, position.column⟩

def Token.lowered (lines : Nat) (token : Token) : Token :=
  { token with position := loweredPosition lines token.position }

theorem advance_lowered (lines : Nat) (position : Position) (text : List Char) :
    (loweredPosition lines position).advance text =
      loweredPosition lines (position.advance text) := by
  induction text generalizing position with
  | nil => rfl
  | cons c rest ih =>
      have next : (if c == '\n' then (⟨position.line + lines + 1, 1⟩ : Position)
          else ⟨position.line + lines, position.column + 1⟩) =
          loweredPosition lines (if c == '\n' then ⟨position.line + 1, 1⟩
            else ⟨position.line, position.column + 1⟩) := by
        split
        · exact congrArg (Position.mk · 1) (Nat.add_right_comm ..)
        · rfl
      rw [Position.advance_cons, Position.advance_cons, ← ih, ← next]
      rfl

theorem place_lowered (lines : Nat) (position : Position) (row : List Lexeme) :
    place (loweredPosition lines position) row =
      (place position row).map (Token.lowered lines) := by
  induction row generalizing position with
  | nil => rfl
  | cons lexeme rest ih =>
      rw [place, place, advance_lowered, ih]
      split <;> rfl

theorem place_append (position : Position) (front rest : List Lexeme) :
    place position (front ++ rest) =
      place position front ++ place (position.advance (front.flatMap Lexeme.text)) rest := by
  induction front generalizing position with
  | nil => rfl
  | cons lexeme front ih =>
      rw [List.cons_append, place, place, ih, List.flatMap_cons, Position.advance_append]
      split <;> rfl

namespace SyntaxFault

/-- A fault some lines further down. What is wrong inside of a hole stays where it is. -/
def lowered (lines : Nat) : SyntaxFault → SyntaxFault
  | unexpected token => unexpected (token.lowered lines)
  | unexpectedEnd last => unexpectedEnd (loweredPosition lines last)
  | stray c position => stray c (loweredPosition lines position)
  | assignmentTarget line => assignmentTarget (line.map (· + lines))
  | openHole rest position => openHole rest (loweredPosition lines position)
  | faultyHole source fault position => faultyHole source fault (loweredPosition lines position)
  | longInteger => longInteger

end SyntaxFault

/-! States of the parser -/

def Frame.lowered (lines : Nat) : Frame → Frame
  | .negation => .negation
  | .sum left => .sum (left.lowered lines)
  | .paren => .paren
  | .index object => .index (object.lowered lines)
  | .arguments function before =>
    .arguments (function.lowered lines) (before.map (Expr.lowered lines))
  | .items before => .items (before.map (Expr.lowered lines))
  | .field before key => .field (before.map (Expr.loweredField lines)) key
  | .declaration name => .declaration name
  | .assignment target => .assignment (target.lowered lines)
  | .whole => .whole

def Focus.lowered (lines : Nat) : Focus → Focus
  | .statement => .statement
  | .operand => .operand
  | .item => .item
  | .after value => .after (value.lowered lines)
  | .memberName owner => .memberName (owner.lowered lines)
  | .declaredName => .declaredName
  | .declaredEqual name => .declaredEqual name
  | .key before => .key (before.map (Expr.loweredField lines))
  | .afterKey before word line =>
    .afterKey (before.map (Expr.loweredField lines)) word (line.map (· + lines))

/-- The lexemes that go on with what is open around an operand, or close it. -/
def Lexeme.closes : Lexeme → Bool
  | .mark sign => [Mark.plus, .comma, .closeParen, .closeBracket, .closeBrace].contains sign
  | _ => false

namespace ParseState

def lowered (lines : Nat) (earlier : List Statement) (state : ParseState) : ParseState where
  focus := state.focus.lowered lines
  frames := state.frames.map (Frame.lowered lines)
  done := state.done.map (Statement.lowered lines) ++ earlier
  fault := state.fault.map (SyntaxFault.lowered lines)

variable {hole : List Char → Except SyntaxFault Expr} (lines : Nat) (earlier : List Statement)

theorem withFault_lowered (state : ParseState) (fault : SyntaxFault) :
    (state.lowered lines earlier).withFault (fault.lowered lines) =
      (state.withFault fault).lowered lines earlier := by
  unfold withFault lowered
  cases state.fault <;> rfl

theorem closeSums_lowered (operand : Expr) (frames : List Frame) :
    closeSums (operand.lowered lines) (frames.map (Frame.lowered lines)) =
      ((closeSums operand frames).1.lowered lines,
        (closeSums operand frames).2.map (Frame.lowered lines)) := by
  induction frames generalizing operand with
  | nil => rfl
  | cons frame frames ih =>
      cases frame with
      | negation => exact ih (.negation operand)
      | sum left => exact ih (.sum left operand)
      | _ => rfl

theorem endStatement?_target {target : Expr} {found : Target}
    (isTarget : Target.ofExpr? target = some found) (state : ParseState) (value : Expr) :
    state.endStatement? value [.assignment target] = some (state.finish (.assign found value)) := by
  rw [endStatement?, isTarget]

theorem endStatement?_notTarget {target : Expr} (notTarget : Target.ofExpr? target = none)
    (state : ParseState) (value : Expr) :
    state.endStatement? value [.assignment target] =
      some ((state.finish (.expression value)).withFault (.assignmentTarget target.line?)) := by
  rw [endStatement?, notTarget]

theorem endStatement?_lowered (state : ParseState) (value : Expr) (frames : List Frame) :
    (state.lowered lines earlier).endStatement? (value.lowered lines)
        (frames.map (Frame.lowered lines)) =
      (state.endStatement? value frames).map (lowered lines earlier) := by
  rcases frames with _ | ⟨frame, _ | ⟨next, rest⟩⟩
  · rfl
  · cases frame with
    | assignment target =>
        have moved := Target.ofExpr?_lowered lines target
        cases isTarget : Target.ofExpr? target with
        | some found =>
            rw [isTarget] at moved
            rw [endStatement?_target isTarget]
            exact endStatement?_target moved _ _
        | none =>
            rw [isTarget] at moved
            rw [endStatement?_notTarget isTarget]
            refine (endStatement?_notTarget moved _ _).trans ?_
            rw [Expr.line?_lowered]
            exact congrArg some (withFault_lowered lines earlier (state.finish (.expression value))
              (.assignmentTarget target.line?))
    | _ => rfl
  · cases frame <;> rfl

/-! Errors -/

section

variable {ε δ α β : Type} {change : ε → δ}

theorem mapError_bind (first : Except ε α) (next : α → Except ε β) :
    (first >>= next).mapError change =
      first.mapError change >>= fun value => (next value).mapError change := by
  cases first <;> rfl

theorem mapM_mapError {each : α → Except ε β} {other : α → Except δ β} (items : List α)
    (same : ∀ item, other item = (each item).mapError change) :
    items.mapM other = (items.mapM each).mapError change := by
  induction items with
  | nil => rfl
  | cons first rest ih =>
      rw [List.mapM_cons, List.mapM_cons, mapError_bind, same, ih]
      refine congrArg _ (funext fun value => ?_)
      rw [mapError_bind]
      rfl

end

theorem templateParts_lowered (body : List Char) (position : Position) :
    templateParts hole body (loweredPosition lines position) =
      (templateParts hole body position).mapError (SyntaxFault.lowered lines) := by
  unfold templateParts
  split
  · rfl
  · rw [mapError_bind]
    refine congrArg (· >>= _) (mapM_mapError _ fun piece => ?_)
    dsimp only
    cases hole piece.2 <;> rfl

/-! Steps -/

theorem operandStep?_lowered (state : ParseState) (token : Token) :
    (state.lowered lines earlier).operandStep? hole (token.lowered lines) =
      (state.operandStep? hole token).map (lowered lines earlier) := by
  obtain ⟨lexeme, position⟩ := token
  cases lexeme with
  | word name =>
      unfold operandStep? wordOperand
      dsimp only [Token.lowered]
      cases namedConstant? (String.ofList name) <;> rfl
  | number text =>
      unfold operandStep?
      dsimp only [Token.lowered]
      cases numberConstant? text with
      | some constant => rfl
      | none =>
          exact congrArg some (withFault_lowered lines earlier
            { state with focus := .after (.literal (.int 0)) } .longInteger)
  | quoted quote body => rfl
  | template body =>
      unfold operandStep?
      dsimp only [Token.lowered]
      rw [templateParts_lowered]
      cases templateParts hole body position with
      | ok parts => rfl
      | error fault =>
          exact congrArg some (withFault_lowered lines earlier
            { state with focus := .after (.template []) } fault)
  | mark sign => cases sign <;> rfl
  | blank c => rfl
  | comment text => rfl

theorem statementStep?_lowered (state : ParseState) (token : Token) :
    (state.lowered lines earlier).statementStep? hole (token.lowered lines) =
      (state.statementStep? hole token).map (lowered lines earlier) := by
  have operand := @operandStep?_lowered hole lines earlier state token
  obtain ⟨lexeme, position⟩ := token
  cases lexeme with
  | word name =>
      unfold statementStep?
      dsimp only [Token.lowered]
      split
      · rfl
      · exact operand
  | mark sign =>
      cases sign with
      | semicolon => rfl
      | _ => exact operand
  | _ => exact operand

/-- Only two marks can close a list before its first item or after a comma. -/
theorem itemStep?_of_other {token : Token} (notParen : token.lexeme ≠ .mark .closeParen)
    (notBracket : token.lexeme ≠ .mark .closeBracket) (state : ParseState) :
    state.itemStep? hole token = state.operandStep? hole token := by
  unfold itemStep?
  split
  · rename_i isParen
    exact absurd isParen notParen
  · rename_i isBracket
    exact absurd isBracket notBracket
  · rfl

theorem itemStep?_lowered (state : ParseState) (token : Token) :
    (state.lowered lines earlier).itemStep? hole (token.lowered lines) =
      (state.itemStep? hole token).map (lowered lines earlier) := by
  have operand := @operandStep?_lowered hole lines earlier state token
  by_cases isParen : token.lexeme = .mark .closeParen
  · obtain ⟨lexeme, position⟩ := token
    obtain rfl : lexeme = .mark .closeParen := isParen
    obtain ⟨focus, frames, done, fault⟩ := state
    rcases frames with _ | ⟨frame, frames⟩
    · exact operand
    · cases frame with
      | arguments function before =>
          simp [itemStep?, lowered, Token.lowered, Frame.lowered, Focus.lowered, Expr.lowered,
            Expr.loweredEach_eq_map, Expr.line?_lowered]
      | _ => exact operand
  · by_cases isBracket : token.lexeme = .mark .closeBracket
    · obtain ⟨lexeme, position⟩ := token
      obtain rfl : lexeme = .mark .closeBracket := isBracket
      obtain ⟨focus, frames, done, fault⟩ := state
      rcases frames with _ | ⟨frame, frames⟩
      · exact operand
      · cases frame with
        | items before =>
            simp [itemStep?, lowered, Token.lowered, Frame.lowered, Focus.lowered, Expr.lowered,
              Expr.loweredEach_eq_map]
        | _ => exact operand
    · have other : (token.lowered lines).lexeme = token.lexeme := rfl
      rw [itemStep?_of_other isParen isBracket, itemStep?_of_other (other ▸ isParen)
        (other ▸ isBracket), operand]

theorem keyStep?_lowered (state : ParseState) (before : List (String × Expr)) (token : Token) :
    (state.lowered lines earlier).keyStep? (before.map (Expr.loweredField lines))
        (token.lowered lines) =
      (state.keyStep? before token).map (lowered lines earlier) := by
  obtain ⟨lexeme, position⟩ := token
  cases lexeme with
  | mark sign =>
      cases sign with
      | closeBrace =>
          simp [keyStep?, lowered, Token.lowered, Focus.lowered, Expr.lowered,
            Expr.loweredFields_eq_map]
      | _ => rfl
  | _ => rfl

theorem afterKeyStep?_lowered (state : ParseState) (before : List (String × Expr)) (key : String)
    (line : Option Nat) (token : Token) :
    (state.lowered lines earlier).afterKeyStep? (before.map (Expr.loweredField lines)) key
        (line.map (· + lines)) (token.lowered lines) =
      (state.afterKeyStep? before key line token).map (lowered lines earlier) := by
  obtain ⟨lexeme, position⟩ := token
  cases lexeme with
  | mark sign =>
      cases sign with
      | colon => rfl
      | comma => cases line <;> rfl
      | closeBrace =>
          cases line with
          | none => rfl
          | some line =>
              simp [afterKeyStep?, lowered, Token.lowered, Focus.lowered, Expr.lowered,
                Expr.loweredFields_eq_map, Expr.loweredField]
      | _ => rfl
  | _ => rfl

theorem closingStep?_of_ends {token : Token} (ends : token.lexeme.closes = false)
    (state : ParseState) (value : Expr) (frames : List Frame) :
    state.closingStep? hole value frames token =
      (state.endStatement? value frames).bind fun next => next.statementStep? hole token := by
  unfold closingStep?
  split
  all_goals first
    | rfl
    | (rename_i isMark; rw [isMark] at ends; cases ends)

theorem closingStep?_lowered (state : ParseState) (value : Expr) (frames : List Frame)
    (token : Token) :
    (state.lowered lines earlier).closingStep? hole (value.lowered lines)
        (frames.map (Frame.lowered lines)) (token.lowered lines) =
      (state.closingStep? hole value frames token).map (lowered lines earlier) := by
  have last : ((state.lowered lines earlier).endStatement? (value.lowered lines)
        (frames.map (Frame.lowered lines))).bind
          (fun next => next.statementStep? hole (token.lowered lines)) =
      ((state.endStatement? value frames).bind fun next => next.statementStep? hole token).map
        (lowered lines earlier) := by
    rw [endStatement?_lowered]
    cases state.endStatement? value frames with
    | none => rfl
    | some next => exact statementStep?_lowered lines earlier next token
  -- A token that closes nothing starts a statement, and that is `last`.
  by_cases closes : token.lexeme.closes = true
  · obtain ⟨lexeme, position⟩ := token
    cases lexeme with
    | mark sign =>
        rcases frames with _ | ⟨frame, frames⟩
        · cases sign <;> rfl
        · cases frame with
          | index object =>
              cases sign with
              | closeBracket =>
                  simp [closingStep?, lowered, Token.lowered, Frame.lowered, Focus.lowered,
                    Expr.lowered, Expr.line?_lowered]
              | _ => rfl
          | arguments function before =>
              cases sign with
              | closeParen =>
                  simp [closingStep?, lowered, Token.lowered, Frame.lowered, Focus.lowered,
                    Expr.lowered, Expr.loweredEach_eq_map, Expr.line?_lowered]
              | _ => rfl
          | items before =>
              cases sign with
              | closeBracket =>
                  simp [closingStep?, lowered, Token.lowered, Frame.lowered, Focus.lowered,
                    Expr.lowered, Expr.loweredEach_eq_map]
              | _ => rfl
          | field before key =>
              cases sign with
              | closeBrace =>
                  simp [closingStep?, lowered, Token.lowered, Frame.lowered, Focus.lowered,
                    Expr.lowered, Expr.loweredFields_eq_map, Expr.loweredField]
              | _ => rfl
          | _ => cases sign <;> first | rfl | exact last
    | _ => cases closes
  · have ends : token.lexeme.closes = false := Bool.eq_false_iff.2 closes
    have endsLowered : (token.lowered lines).lexeme.closes = false := ends
    rw [closingStep?_of_ends ends, closingStep?_of_ends endsLowered, last]

theorem afterStep?_lowered (state : ParseState) (operand : Expr) (token : Token) :
    (state.lowered lines earlier).afterStep? hole (operand.lowered lines) (token.lowered lines) =
      (state.afterStep? hole operand token).map (lowered lines earlier) := by
  have closes : (state.lowered lines earlier).closingStep? hole
        (closeSums (operand.lowered lines) (state.lowered lines earlier).frames).1
        (closeSums (operand.lowered lines) (state.lowered lines earlier).frames).2
        (token.lowered lines) =
      (state.closingStep? hole (closeSums operand state.frames).1
        (closeSums operand state.frames).2 token).map (lowered lines earlier) := by
    have sums := closeSums_lowered lines operand state.frames
    change closeSums (operand.lowered lines) (state.lowered lines earlier).frames = _ at sums
    rw [sums]
    exact closingStep?_lowered lines earlier state _ _ token
  -- A token that goes on with the operand only moves the focus; any other one closes sums first.
  by_cases ends : token.lexeme.endsOperand = true
  · have endsLowered : (token.lowered lines).lexeme.endsOperand = true := ends
    rw [afterStep?_of_ends ends, afterStep?_of_ends endsLowered]
    exact closes
  · obtain ⟨lexeme, position⟩ := token
    obtain ⟨focus, frames, done, fault⟩ := state
    cases lexeme with
    | mark sign =>
        cases sign with
        | dot => rfl
        | openBracket => rfl
        | openParen => rfl
        | equal =>
            cases frames with
            | nil => rfl
            | cons frame frames => exact closes
        | _ => exact absurd rfl ends
    | _ => exact absurd rfl ends

/-- A token is read further down as it is read by itself. -/
theorem step?_lowered (state : ParseState) (token : Token) :
    (state.lowered lines earlier).step? hole (token.lowered lines) =
      (state.step? hole token).map (lowered lines earlier) := by
  obtain ⟨focus, frames, done, fault⟩ := state
  cases focus with
  | statement => exact statementStep?_lowered lines earlier _ token
  | operand => exact operandStep?_lowered lines earlier _ token
  | item => exact itemStep?_lowered lines earlier _ token
  | after operand => exact afterStep?_lowered lines earlier _ operand token
  | memberName object =>
      obtain ⟨lexeme, position⟩ := token
      cases lexeme <;> rfl
  | declaredName =>
      obtain ⟨lexeme, position⟩ := token
      cases lexeme <;> rfl
  | declaredEqual name =>
      obtain ⟨lexeme, position⟩ := token
      cases lexeme with
      | mark sign => cases sign <;> rfl
      | _ => rfl
  | key before => exact keyStep?_lowered lines earlier _ before token
  | afterKey before key line => exact afterKeyStep?_lowered lines earlier _ before key line token

theorem readTokens_lowered {state last : ParseState} {tokens : List Token}
    (reads : state.readTokens hole tokens = .ok last) :
    (state.lowered lines earlier).readTokens hole (tokens.map (Token.lowered lines)) =
      .ok (last.lowered lines earlier) := by
  induction tokens generalizing state with
  | nil =>
      obtain rfl := Except.ok.inj reads
      rfl
  | cons token rest ih =>
      rw [readTokens] at reads
      rw [List.map_cons, readTokens, step?_lowered]
      cases next : state.step? hole token with
      | none =>
          rw [next] at reads
          cases reads
      | some next' =>
          rw [next] at reads
          exact ih reads

theorem readTokens_append {state between : ParseState} {tokens : List Token}
    (reads : state.readTokens hole tokens = .ok between) (more : List Token) :
    state.readTokens hole (tokens ++ more) = between.readTokens hole more := by
  induction tokens generalizing state with
  | nil =>
      obtain rfl := Except.ok.inj reads
      rfl
  | cons token rest ih =>
      rw [readTokens] at reads
      rw [List.cons_append, readTokens]
      cases next : state.step? hole token with
      | none =>
          rw [next] at reads
          cases reads
      | some next' =>
          rw [next] at reads
          exact ih reads

theorem toProgram?_lowered (state : ParseState) :
    (state.lowered lines earlier).toProgram? = state.toProgram?.map (lowered lines earlier) := by
  obtain ⟨focus, frames, done, fault⟩ := state
  cases focus with
  | after operand =>
      have sums := closeSums_lowered lines operand frames
      have ends := endStatement?_lowered lines earlier ⟨.after operand, frames, done, fault⟩
        (closeSums operand frames).1 (closeSums operand frames).2
      unfold toProgram? lowered
      dsimp only [Focus.lowered]
      rw [sums]
      exact ends
  | _ => rfl

end ParseState

end SheetScript.Script
