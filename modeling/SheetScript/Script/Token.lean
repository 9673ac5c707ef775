import SheetScript.Script.Lexeme
import SheetScript.Text.Position
import SheetScript.Text.Quoted

/-! Lexemes with their places in the source, and what can be wrong with a source. -/

namespace SheetScript.Script

open SheetScript.Text (Position)

structure Token where
  lexeme : Lexeme
  position : Position
  deriving DecidableEq, Repr

/-- The tokens of a row of lexemes that starts at a position; separators are left out. -/
def place (position : Position) : List Lexeme → List Token
  | [] => []
  | lexeme :: rest =>
    let placed := place (position.advance lexeme.text) rest
    if lexeme.isSeparator then placed else ⟨lexeme, position⟩ :: placed

def wordClass (name : String) : String :=
  match name with
  | "const" => "CONST"
  | "let" => "LET"
  | "var" => "VAR"
  | "true" => "TRUE"
  | "false" => "FALSE"
  | "null" => "NULL"
  | "undefined" => "UNDEFINED"
  | _ => "NAME"

namespace Lexeme

def className : Lexeme → String
  | word name => wordClass (String.ofList name)
  | number _ => "NUMBER"
  | quoted _ _ => "STRING"
  | template _ => "TEMPLATE"
  | mark .semicolon => "_SEMI"
  | mark .equal => "EQUAL"
  | mark .plus => "PLUS"
  | mark .minus => "MINUS"
  | mark .dot => "DOT"
  | mark .comma => "COMMA"
  | mark .colon => "COLON"
  | mark .openBracket => "LSQB"
  | mark .closeBracket => "RSQB"
  | mark .openParen => "LPAR"
  | mark .closeParen => "RPAR"
  | mark .openBrace => "LBRACE"
  | mark .closeBrace => "RBRACE"
  | blank _ => "WS"
  | comment _ => "COMMENT"

end Lexeme

inductive SyntaxFault
  /-- A token that cannot stand where it does. -/
  | unexpected (token : Token)
  /-- The source ends too early; the position is that of its last token. -/
  | unexpectedEnd (last : Position)
  /-- No lexeme begins with this character here. -/
  | stray (c : Char) (position : Position)
  /-- Only names and members can be assigned to. -/
  | assignmentTarget (line : Option Nat)
  /-- A hole of a template is never closed; `rest` is the template from there on. -/
  | openHole (rest : List Char) (position : Position)
  /-- The source of a hole is itself faulty. -/
  | faultyHole (source : List Char) (fault : SyntaxFault) (position : Position)
  /-- An integer is written with too many digits. -/
  | longInteger
  deriving DecidableEq, Repr

namespace SyntaxFault

def unexpectedMessage (className : String) (text : List Char) (position : Position) : String :=
  s!"Unexpected token Token('{className}', {Text.quoted (String.ofList text)}) " ++
    s!"at line {position.line}, column {position.column}."

def message : SyntaxFault → String
  | unexpected token =>
    unexpectedMessage token.lexeme.className token.lexeme.text token.position
  | unexpectedEnd last => unexpectedMessage "$END" [] last
  | stray c position =>
    s!"No terminal matches '{c}' in the current parser context, " ++
      s!"at line {position.line} col {position.column}"
  | assignmentTarget _ => "Invalid assignment target"
  | openHole rest _ => s!"Unterminated template expression {Text.quoted (String.ofList rest)}"
  | faultyHole source fault _ =>
    "Invalid template expression $\x7b" ++ String.ofList source ++ "\x7d: " ++ fault.message
  | longInteger => "Error trying to process rule \"number\":"

def line? : SyntaxFault → Option Nat
  | unexpected token => some token.position.line
  | unexpectedEnd last => some last.line
  | stray _ position => some position.line
  | assignmentTarget line => line
  | openHole _ position => some position.line
  | faultyHole _ _ position => some position.line
  | longInteger => none

def column? : SyntaxFault → Option Nat
  | unexpected token => some token.position.column
  | unexpectedEnd last => some last.column
  | stray _ position => some position.column
  | assignmentTarget _ => none
  | openHole _ position => some position.column
  | faultyHole _ _ position => some position.column
  | longInteger => none

def place? (fault : SyntaxFault) : Option String :=
  match fault.line?, fault.column? with
  | none, _ => none
  | some line, none => some s!"line {line}"
  | some line, some column => some s!"line {line}, column {column}"

end SyntaxFault

end SheetScript.Script
