import SheetScript.Text.Comment
import SheetScript.Text.Digit

/-!
Lexemes of scripts: words, numbers, quoted texts, templates, marks, and the blanks and comments
between them.

Cutting a text into lexemes needs no context: which words are keywords is decided later. The
lexemes of a text are its parts, so their texts join to the text again.
-/

namespace SheetScript.Script

open SheetScript.Text

inductive Mark
  | semicolon
  | equal
  | plus
  | minus
  | dot
  | comma
  | colon
  | openBracket
  | closeBracket
  | openParen
  | closeParen
  | openBrace
  | closeBrace
  deriving DecidableEq, Repr

namespace Mark

def char : Mark → Char
  | semicolon => ';'
  | equal => '='
  | plus => '+'
  | minus => '-'
  | dot => '.'
  | comma => ','
  | colon => ':'
  | openBracket => '['
  | closeBracket => ']'
  | openParen => '('
  | closeParen => ')'
  | openBrace => '\x7b'
  | closeBrace => '\x7d'

def ofChar? (c : Char) : Option Mark :=
  [semicolon, equal, plus, minus, dot, comma, colon, openBracket, closeBracket, openParen,
    closeParen, openBrace, closeBrace].find? (·.char == c)

end Mark

inductive Lexeme
  | word (name : List Char)
  | number (text : List Char)
  /-- The text between quotes, escapes as written. -/
  | quoted (quote : Char) (body : List Char)
  /-- The text between backticks, escapes as written. -/
  | template (body : List Char)
  | mark (mark : Mark)
  | blank (c : Char)
  | comment (text : List Char)
  deriving DecidableEq, Repr

namespace Lexeme

def text : Lexeme → List Char
  | word name => name
  | number text => text
  | quoted quote body => quote :: body ++ [quote]
  | template body => '`' :: body ++ ['`']
  | mark m => [m.char]
  | blank c => [c]
  | comment text => text

def isSeparator : Lexeme → Bool
  | blank _ => true
  | comment _ => true
  | _ => false

end Lexeme

def isWordStart (c : Char) : Bool :=
  ('A' ≤ c && c ≤ 'Z') || ('a' ≤ c && c ≤ 'z') || c == '_' || c == '$'

def isWordChar (c : Char) : Bool :=
  isWordStart c || ('0' ≤ c && c ≤ '9')

def isBlankChar (c : Char) : Bool :=
  c == ' ' || c == '\t' || c == '\x0c' || c == '\r' || c == '\n'

/-- The body of a quoted text up to its closing quote, which stands on the same line. -/
def quotedBody? (quote : Char) : List Char → Option (List Char × List Char)
  | [] => none
  | ['\\'] => none
  | '\\' :: c :: rest =>
    if c == '\n' then none
    else (quotedBody? quote rest).map fun (body, after) => ('\\' :: c :: body, after)
  | c :: rest =>
    if c == quote then some ([], rest)
    else if c == '\n' then none
    else (quotedBody? quote rest).map fun (body, after) => (c :: body, after)

/-- The body of a template up to the first backtick that is not escaped. -/
def templateBody? : List Char → Option (List Char × List Char)
  | [] => none
  | ['\\'] => none
  | '\\' :: c :: rest => (templateBody? rest).map fun (body, after) => ('\\' :: c :: body, after)
  | c :: rest =>
    if c == '`' then some ([], rest)
    else (templateBody? rest).map fun (body, after) => (c :: body, after)

def exponentPart : List Char → List Char × List Char
  | mark :: rest =>
    if mark == 'e' || mark == 'E' then
      let (sign, digits) :=
        match rest with
        | '+' :: digits => (['+'], digits)
        | '-' :: digits => (['-'], digits)
        | digits => ([], digits)
      if (digits.takeWhile isDigit).isEmpty then ([], mark :: rest)
      else (mark :: sign ++ digits.takeWhile isDigit, digits.dropWhile isDigit)
    else ([], mark :: rest)
  | [] => ([], [])

/-- A point and the digits after it, empty if there is no point or no digit on either side. -/
def pointPart (whole : List Char) : List Char → List Char × List Char
  | '.' :: rest =>
    if whole.isEmpty && (rest.takeWhile isDigit).isEmpty then ([], '.' :: rest)
    else ('.' :: rest.takeWhile isDigit, rest.dropWhile isDigit)
  | text => ([], text)

/-- A number at the start of a text: digits, a point with or without digits, an exponent. -/
def numberPart? (text : List Char) : Option (List Char × List Char) :=
  let whole := text.takeWhile isDigit
  let point := pointPart whole (text.dropWhile isDigit)
  let exponent := exponentPart point.2
  if whole ++ point.1 = [] then none
  else some (whole ++ point.1 ++ exponent.1, exponent.2)

/-- The comment whose first slash has been read: to the end of the line, or to `*/`. -/
def comment? : List Char → Option (List Char × List Char)
  | '/' :: line => some ('/' :: line.takeWhile (· != '\n'), line.dropWhile (· != '\n'))
  | '*' :: body => (commentBody? body).map fun (text, after) => ('*' :: text, after)
  | _ => none

def lexeme? : List Char → Option (Lexeme × List Char)
  | [] => none
  | c :: rest =>
    if isBlankChar c then some (.blank c, rest)
    else if isWordStart c then
      some (.word (c :: rest.takeWhile isWordChar), rest.dropWhile isWordChar)
    else if c == '\'' || c == '"' then
      (quotedBody? c rest).map fun (body, after) => (.quoted c body, after)
    else if c == '`' then
      (templateBody? rest).map fun (body, after) => (.template body, after)
    else if c == '/' then
      (comment? rest).map fun (text, after) => (.comment ('/' :: text), after)
    else
      match numberPart? (c :: rest) with
      | some (text, after) => some (.number text, after)
      | none => (Mark.ofChar? c).map fun mark => (.mark mark, rest)

theorem eq_append_of_quotedBody? {quote : Char} {text body after : List Char}
    (found : quotedBody? quote text = some (body, after)) : text = body ++ quote :: after := by
  fun_induction quotedBody? quote text generalizing body <;>
    grind [Option.map_eq_some_iff]

theorem eq_append_of_templateBody? {text body after : List Char}
    (found : templateBody? text = some (body, after)) : text = body ++ '`' :: after := by
  fun_induction templateBody? text generalizing body <;>
    grind [Option.map_eq_some_iff]

theorem eq_append_of_comment? {text comment after : List Char}
    (found : comment? text = some (comment, after)) : text = comment ++ after := by
  fun_cases comment? text <;>
    grind [comment?, eq_append_of_commentBody?, List.takeWhile_append_dropWhile,
      Option.map_eq_some_iff]

theorem exponentPart_append (text : List Char) :
    (exponentPart text).1 ++ (exponentPart text).2 = text := by
  fun_cases exponentPart text <;> grind [List.takeWhile_append_dropWhile]

theorem pointPart_append (whole text : List Char) :
    (pointPart whole text).1 ++ (pointPart whole text).2 = text := by
  fun_cases pointPart whole text <;> grind [List.takeWhile_append_dropWhile]

theorem eq_append_of_numberPart? {text number after : List Char}
    (found : numberPart? text = some (number, after)) : text = number ++ after := by
  simp only [numberPart?, Option.ite_none_left_eq_some, Option.some.injEq, Prod.mk.injEq] at found
  obtain ⟨_, rfl, rfl⟩ := found
  rw [List.append_assoc, exponentPart_append, List.append_assoc, pointPart_append,
    List.takeWhile_append_dropWhile]

theorem char_of_ofChar? {c : Char} {mark : Mark} (found : Mark.ofChar? c = some mark) :
    mark.char = c := by
  simpa using List.find?_some found

/-- A lexeme is what it takes away from the text. -/
theorem eq_append_of_lexeme? {text after : List Char} {lexeme : Lexeme}
    (found : lexeme? text = some (lexeme, after)) : text = lexeme.text ++ after := by
  fun_cases lexeme? text <;>
    grind [lexeme?, Lexeme.text, eq_append_of_quotedBody?, eq_append_of_templateBody?,
      eq_append_of_comment?, eq_append_of_numberPart?, char_of_ofChar?,
      List.takeWhile_append_dropWhile, Option.map_eq_some_iff]

theorem numberPart?_ne_nil {text number after : List Char}
    (found : numberPart? text = some (number, after)) : number ≠ [] := by
  simp only [numberPart?, Option.ite_none_left_eq_some, Option.some.injEq, Prod.mk.injEq] at found
  obtain ⟨nonempty, rfl, _⟩ := found
  exact fun empty => nonempty (List.append_eq_nil_iff.1 empty).1

theorem text_ne_nil_of_lexeme? {text after : List Char} {lexeme : Lexeme}
    (found : lexeme? text = some (lexeme, after)) : lexeme.text ≠ [] := by
  fun_cases lexeme? text <;>
    grind [lexeme?, Lexeme.text, numberPart?_ne_nil, Option.map_eq_some_iff]

theorem length_lexeme? {text after : List Char} {lexeme : Lexeme}
    (found : lexeme? text = some (lexeme, after)) : after.length < text.length := by
  rw [eq_append_of_lexeme? found, List.length_append]
  have := List.length_pos_iff.2 (text_ne_nil_of_lexeme? found)
  omega

/-- The lexemes of a text, up to the first place where none begins, and the text from there on. -/
def lexemes (text : List Char) : List Lexeme × List Char :=
  match _found : lexeme? text with
  | some (lexeme, after) =>
    let (rest, stray) := lexemes after
    (lexeme :: rest, stray)
  | none => ([], text)
termination_by text.length
decreasing_by exact length_lexeme? _found

theorem flatMap_text_lexemes (text : List Char) :
    (lexemes text).1.flatMap Lexeme.text ++ (lexemes text).2 = text := by
  fun_induction lexemes text with
  | case1 text lexeme after found rest stray inner ih =>
    rw [inner] at ih
    simp only [List.flatMap_cons, List.append_assoc, ih]
    exact (eq_append_of_lexeme? found).symm
  | case2 text none => simp

end SheetScript.Script
