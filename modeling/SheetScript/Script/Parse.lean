import SheetScript.Number.Decimal
import SheetScript.Script.Expr
import SheetScript.Script.Template
import SheetScript.Script.Token
import SheetScript.Script.Value

/-!
From source text to syntax trees.

The parser takes one token at a time. Its state is what the next token may be (`Focus`) under a stack
of the constructs still open (`Frame`), so it stops at the first token that no program can have
there. An operand swallows every `.`, `[` and `(` after it; any other token ends it, and at the
outermost level starts a new statement.
-/

namespace SheetScript.Script

open SheetScript.Number
open SheetScript.Text (Position)

/-- A construct that is open around the point of reading, with its finished parts, newest first. -/
inductive Frame
  | negation
  | sum (left : Expr)
  | paren
  | index (object : Expr)
  | arguments (function : Expr) (before : List Expr)
  | items (before : List Expr)
  | field (before : List (String × Expr)) (key : String)
  | declaration (name : String)
  | assignment (target : Expr)
  /-- The whole source is one expression. -/
  | whole

inductive Focus
  | statement
  | operand
  /-- An operand, or the mark that closes the list in the top frame. -/
  | item
  /-- An operand has just ended. -/
  | after (operand : Expr)
  | memberName (object : Expr)
  | declaredName
  | declaredEqual (name : String)
  | key (before : List (String × Expr))
  /-- After a key; a word may stand for the field of its own name, and then has a line. -/
  | afterKey (before : List (String × Expr)) (key : String) (line : Option Nat)

structure ParseState where
  focus : Focus
  frames : List Frame
  /-- The finished statements, newest first. -/
  done : List Statement
  /-- The first fault in a source whose tokens are in order so far. -/
  fault : Option SyntaxFault

namespace ParseState

def programStart : ParseState := ⟨.statement, [], [], none⟩

def expressionStart : ParseState := ⟨.operand, [.whole], [], none⟩

def closeSums (operand : Expr) : List Frame → Expr × List Frame
  | .negation :: frames => closeSums (.negation operand) frames
  | .sum left :: frames => closeSums (.sum left operand) frames
  | frames => (operand, frames)

def withFault (state : ParseState) (fault : SyntaxFault) : ParseState :=
  { state with fault := state.fault.or (some fault) }

def finish (state : ParseState) (statement : Statement) : ParseState :=
  { state with focus := .statement, frames := [], done := statement :: state.done }

/-- Ends the statement that an operand closes, if the frames left are those of a statement. -/
def endStatement? (state : ParseState) (value : Expr) : List Frame → Option ParseState
  | [] => some (state.finish (.expression value))
  | [.declaration name] => some (state.finish (.declare name value))
  | [.assignment target] =>
    match Target.ofExpr? target with
    | some target => some (state.finish (.assign target value))
    | none => some ((state.finish (.expression value)).withFault (.assignmentTarget target.line?))
  | _ => none

end ParseState

def namedConstant? : String → Option Constant
  | "true" => some (.bool true)
  | "false" => some (.bool false)
  | "null" => some .null
  | "undefined" => some .undefined
  | _ => none

/-- An integer if there are only digits, and not too many, else a binary number. -/
def numberConstant? (text : List Char) : Option Constant :=
  if text.all Text.isDigit then
    if digitLimit < text.length then none else some (.int (Text.digitsValue text))
  else some (.float ((Decimal.readUnsigned? false text).elim .zero Decimal.toBinary64))

def wordOperand (name : String) (line : Nat) : Expr :=
  match namedConstant? name with
  | some value => .literal value
  | none => .name name line

section

-- How the source of a template's hole is read.
variable (hole : List Char → Except SyntaxFault Expr)

def templateParts (body : List Char) (position : Position) :
    Except SyntaxFault (List (Part Expr)) := do
  match pieces body with
  | .error rest => throw (.openHole rest position)
  | .ok found =>
    let text (raw : List Char) : List (Part Expr) :=
      if raw.isEmpty then [] else [.text (String.ofList (unescape raw))]
    let parts ← found.holes.mapM fun (raw, source) =>
      match hole source with
      | .ok expr => pure (text raw ++ [.hole expr])
      | .error fault => throw (.faultyHole source fault position)
    return parts.flatten ++ text found.last

namespace ParseState

def operandStep? (state : ParseState) (token : Token) : Option ParseState :=
  match token.lexeme with
  | .word name =>
    some { state with focus := .after (wordOperand (String.ofList name) token.position.line) }
  | .number text =>
    match numberConstant? text with
    | some constant => some { state with focus := .after (.literal constant) }
    | none => some ({ state with focus := .after (.literal (.int 0)) }.withFault .longInteger)
  | .quoted _ body =>
    some { state with focus := .after (.literal (.text (String.ofList (unescape body)))) }
  | .template body =>
    match templateParts hole body token.position with
    | .ok parts => some { state with focus := .after (.template parts) }
    | .error fault => some ({ state with focus := .after (.template []) }.withFault fault)
  | .mark .minus => some { state with focus := .operand, frames := .negation :: state.frames }
  | .mark .openParen => some { state with focus := .operand, frames := .paren :: state.frames }
  | .mark .openBracket => some { state with focus := .item, frames := .items [] :: state.frames }
  | .mark .openBrace => some { state with focus := .key [] }
  | _ => none

def statementStep? (state : ParseState) (token : Token) : Option ParseState :=
  match token.lexeme with
  | .mark .semicolon => some { state with focus := .statement }
  | .word name =>
    if ["const", "let", "var"].contains (String.ofList name) then
      some { state with focus := .declaredName }
    else state.operandStep? hole token
  | _ => state.operandStep? hole token

/-- Reads a token after an operand and the sums it closes; `frames` are those around the sums. -/
def closingStep? (state : ParseState) (value : Expr) (frames : List Frame) (token : Token) :
    Option ParseState :=
  match frames, token.lexeme with
  | frames, .mark .plus => some { state with focus := .operand, frames := .sum value :: frames }
  | .paren :: frames, .mark .closeParen =>
    some { state with focus := .after value, frames := frames }
  | .index object :: frames, .mark .closeBracket =>
    some { state with focus := .after (.index object value object.line?), frames := frames }
  | .arguments function before :: frames, .mark .comma =>
    some { state with focus := .item, frames := .arguments function (value :: before) :: frames }
  | .arguments function before :: frames, .mark .closeParen =>
    some { state with
      focus := .after (.call function (value :: before).reverse function.line?), frames := frames }
  | .items before :: frames, .mark .comma =>
    some { state with focus := .item, frames := .items (value :: before) :: frames }
  | .items before :: frames, .mark .closeBracket =>
    some { state with focus := .after (.array (value :: before).reverse), frames := frames }
  | .field before key :: frames, .mark .comma =>
    some { state with focus := .key ((key, value) :: before), frames := frames }
  | .field before key :: frames, .mark .closeBrace =>
    some { state with focus := .after (.object ((key, value) :: before).reverse), frames := frames }
  | frames, _ => do (← state.endStatement? value frames).statementStep? hole token

def afterStep? (state : ParseState) (operand : Expr) (token : Token) : Option ParseState :=
  match token.lexeme, state.frames with
  | .mark .dot, _ => some { state with focus := .memberName operand }
  | .mark .openBracket, frames =>
    some { state with focus := .operand, frames := .index operand :: frames }
  | .mark .openParen, frames =>
    some { state with focus := .item, frames := .arguments operand [] :: frames }
  | .mark .equal, [] => some { state with focus := .operand, frames := [.assignment operand] }
  | _, frames =>
    let (value, around) := closeSums operand frames
    state.closingStep? hole value around token

def itemStep? (state : ParseState) (token : Token) : Option ParseState :=
  match state.frames, token.lexeme with
  | .arguments function before :: frames, .mark .closeParen =>
    some { state with
      focus := .after (.call function before.reverse function.line?), frames := frames }
  | .items before :: frames, .mark .closeBracket =>
    some { state with focus := .after (.array before.reverse), frames := frames }
  | _, _ => state.operandStep? hole token

def keyStep? (state : ParseState) (before : List (String × Expr)) (token : Token) :
    Option ParseState :=
  match token.lexeme with
  | .word name =>
    some { state with focus := .afterKey before (String.ofList name) (some token.position.line) }
  | .quoted _ body =>
    some { state with focus := .afterKey before (String.ofList (unescape body)) none }
  | .mark .closeBrace => some { state with focus := .after (.object before.reverse) }
  | _ => none

def afterKeyStep? (state : ParseState) (before : List (String × Expr)) (key : String)
    (line : Option Nat) (token : Token) : Option ParseState :=
  match token.lexeme, line with
  | .mark .colon, _ =>
    some { state with focus := .operand, frames := .field before key :: state.frames }
  | .mark .comma, some line =>
    some { state with focus := .key ((key, .name key line) :: before) }
  | .mark .closeBrace, some line =>
    some { state with focus := .after (.object ((key, .name key line) :: before).reverse) }
  | _, _ => none

def step? (state : ParseState) (token : Token) : Option ParseState :=
  match state.focus with
  | .statement => state.statementStep? hole token
  | .operand => state.operandStep? hole token
  | .item => state.itemStep? hole token
  | .after operand => state.afterStep? hole operand token
  | .memberName object =>
    match token.lexeme with
    | .word name =>
      some { state with focus := .after (.member object (String.ofList name) token.position.line) }
    | _ => none
  | .declaredName =>
    match token.lexeme with
    | .word name => some { state with focus := .declaredEqual (String.ofList name) }
    | _ => none
  | .declaredEqual name =>
    match token.lexeme with
    | .mark .equal => some { state with focus := .operand, frames := [.declaration name] }
    | _ => none
  | .key before => state.keyStep? before token
  | .afterKey before key line => state.afterKeyStep? before key line token

def readTokens (state : ParseState) : List Token → Except SyntaxFault ParseState
  | [] => .ok state
  | token :: rest =>
    match state.step? hole token with
    | some next => next.readTokens rest
    | none => .error (.unexpected token)

def readSource (state : ParseState) (source : List Char) :
    Except SyntaxFault (ParseState × Position) := do
  let (found, rest) := lexemes source
  let tokens := place .start found
  let state ← state.readTokens hole tokens
  match rest with
  | [] => return (state, (tokens.getLast?.map Token.position).getD .start)
  | c :: _ => throw (.stray c (Position.start.advance (found.flatMap Lexeme.text)))

end ParseState

end

def ParseState.toProgram? (state : ParseState) : Option ParseState :=
  match state.focus with
  | .statement => some state
  | .after operand =>
    let (value, around) := closeSums operand state.frames
    state.endStatement? value around
  | _ => none

def ParseState.toExpression? (state : ParseState) : Option Expr :=
  match state.focus with
  | .after operand =>
    match closeSums operand state.frames with
    | (value, [.whole]) => some value
    | _ => none
  | _ => none

/-- Reads one expression with a given way to read the holes of its templates. -/
def parseExpressionWith (hole : List Char → Except SyntaxFault Expr) (source : List Char) :
    Except SyntaxFault Expr := do
  let (state, last) ← ParseState.expressionStart.readSource hole source
  match state.toExpression?, state.fault with
  | none, _ => throw (.unexpectedEnd last)
  | some _, some fault => throw fault
  | some value, none => return value

/-- Reads a source that is one expression. A hole is shorter than the template it stands in. -/
def parseExpression (source : List Char) : Except SyntaxFault Expr :=
  parseExpressionWith
    (fun hole =>
      if _shorter : hole.length < source.length then parseExpression hole
      else .error (.unexpectedEnd .start))
    source
termination_by source.length

/-- Reads a script: statements, with semicolons between them where the writer likes. -/
def parseScript (source : List Char) : Except SyntaxFault (List Statement) := do
  let (state, last) ← ParseState.programStart.readSource parseExpression source
  match state.toProgram? with
  | none => throw (.unexpectedEnd last)
  | some ended =>
    match ended.fault with
    | some fault => throw fault
    | none => return ended.done.reverse

end SheetScript.Script
