import SheetScript.Css.Source
import SheetScript.Text.Digit
import SheetScript.Text.Hexadecimal

/-!
Names in style sheets and the escapes in them, as read and as written.

Readers answer with what they read and how many characters it takes.
-/

namespace SheetScript.Css

open SheetScript.Text

def isNameStart (c : Char) : Bool :=
  ('a' ≤ c && c ≤ 'z') || ('A' ≤ c && c ≤ 'Z') || c == '_' || '\x7f' < c

def isNameChar (c : Char) : Bool :=
  isNameStart c || c.isDigit || c == '-'

def isHexDigit (c : Char) : Bool :=
  (hexValue? c).isSome

def hexNumber (digits : List Char) : Nat :=
  digits.foldl (fun value c => value * 16 + (hexValue? c).getD 0) 0

/-- The character with a number; U+FFFD for zero and for numbers without a character. -/
def charOfNumber (n : Nat) : Char :=
  if n ≠ 0 ∧ n.isValidChar then Char.ofNat n else '\ufffd'

/-- An escape, read after its backslash: up to six digits and one blank, or one character. -/
def escape : List Char → Char × Nat
  | [] => ('\ufffd', 0)
  | c :: rest =>
    let digits := ((c :: rest).take 6).takeWhile isHexDigit
    if digits.isEmpty then (c, 1)
    else
      let blanks := runLength isBlankChar (((c :: rest).drop digits.length).take 1)
      (charOfNumber (hexNumber digits), digits.length + blanks)

def startsEscape : List Char → Bool
  | '\\' :: '\n' :: _ => false
  | '\\' :: _ => true
  | _ => false

def startsIdent : List Char → Bool
  | [] => false
  | ['-'] => false
  | '-' :: c :: rest => isNameStart c || c == '-' || startsEscape (c :: rest)
  | c :: rest => isNameStart c || startsEscape (c :: rest)

def name (text : List Char) : List Char × Nat :=
  match text with
  | [] => ([], 0)
  | c :: rest =>
    if isNameChar c then
      let (more, count) := name rest
      (c :: more, count + 1)
    else if startsEscape (c :: rest) then
      let (escaped, taken) := escape rest
      let (more, count) := name (rest.drop taken)
      (escaped :: more, 1 + taken + count)
    else ([], 0)
termination_by text.length

def escapeSpecial (c : Char) : List Char :=
  match c with
  | '\n' => ['\\', 'A', ' ']
  | '\r' => ['\\', 'D', ' ']
  | '\x0c' => ['\\', 'C', ' ']
  | c => ['\\', c]

def writeNameChar (c : Char) : List Char :=
  if isNameChar c then [c] else escapeSpecial c

def writeName (name : List Char) : List Char :=
  name.flatMap writeNameChar

/-- The first character of an identifier; a digit there needs its number. -/
def writeNameStart (c : Char) : List Char :=
  if isNameStart c then [c]
  else if c.isDigit then '\\' :: '3' :: c :: [' ']
  else escapeSpecial c

def writeIdent : List Char → List Char
  | [] => []
  | ['-'] => ['\\', '-']
  | '-' :: '-' :: rest => '-' :: '-' :: writeName rest
  | '-' :: c :: rest => '-' :: writeNameStart c ++ writeName rest
  | c :: rest => writeNameStart c ++ writeName rest

end SheetScript.Css
