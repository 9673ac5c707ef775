import SheetScript.Css.Quoted
import SheetScript.Text.Comment

/-!
Tokens of style sheets.

Every character belongs to exactly one token, so the texts of the tokens join to the source
(`flatMap_text_tokens`).
-/

namespace SheetScript.Css

open SheetScript.Text

inductive Bracket
  | round
  | square
  | curly
  deriving DecidableEq, Repr

namespace Bracket

def opening : Bracket → Char
  | round => '('
  | square => '['
  | curly => '\x7b'

def closing : Bracket → Char
  | round => ')'
  | square => ']'
  | curly => '\x7d'

def ofOpening? (c : Char) : Option Bracket :=
  [round, square, curly].find? (·.opening == c)

def ofClosing? (c : Char) : Option Bracket :=
  [round, square, curly].find? (·.closing == c)

end Bracket

inductive Leaf
  | blank (text : List Char)
  /-- A mark of one or more characters that stands for itself. -/
  | mark (text : List Char)
  | ident (name : List Char)
  | atKeyword (name : List Char)
  /-- A name after `#`, which may also be an identifier. -/
  | hash (name : List Char) (isIdent : Bool)
  | quoted (value : List Char) (closed : Bool)
  | address (value : List Char) (closed : Bool)
  | characterRange (first last : Nat)
  | number (text : List Char)
  | percentage (text : List Char)
  | dimension (text unit : List Char)
  deriving DecidableEq, Repr

inductive Token
  | leaf (leaf : Leaf)
  | comment
  /-- A name and the parenthesis behind it. -/
  | functionOpening (name : List Char)
  | opening (bracket : Bracket)
  | closing (bracket : Bracket)
  | brokenQuoted
  | brokenAddress
  deriving DecidableEq, Repr

/-! Numbers -/

def signLength (text : List Char) : Nat :=
  runLength (fun c => c == '+' || c == '-') (text.take 1)

/-- Digits with at most one point, and at least one digit after a point. -/
def mantissaLength (text : List Char) : Nat :=
  let whole := runLength Char.isDigit text
  match text.drop whole with
  | '.' :: rest =>
    let fraction := runLength Char.isDigit rest
    if fraction = 0 then whole else whole + 1 + fraction
  | _ => whole

def exponentLength : List Char → Nat
  | [] => 0
  | c :: rest =>
    if c == 'e' || c == 'E' then
      let sign := signLength rest
      let digits := runLength Char.isDigit (rest.drop sign)
      if digits = 0 then 0 else 1 + sign + digits
    else 0

def numberLength (text : List Char) : Nat :=
  let sign := signLength text
  let mantissa := mantissaLength (text.drop sign)
  if mantissa = 0 then 0
  else sign + mantissa + exponentLength (text.drop (sign + mantissa))

/-! Ranges of characters -/

/-- A range of characters begins here: `U+` and a hexadecimal digit or a question mark. -/
def startsRange : List Char → Bool
  | u :: '+' :: c :: _ => (u == 'U' || u == 'u') && (isHexDigit c || c == '?')
  | _ => false

/-- A range, read after `U+`. Question marks stand for any digit. -/
def characterRange (text : List Char) : Leaf × Nat :=
  let digits := (text.take 6).takeWhile isHexDigit
  let marks := runLength (· == '?') ((text.take 6).drop digits.length)
  let single := (Leaf.characterRange (hexNumber digits) (hexNumber digits), digits.length)
  if marks ≠ 0 then
    (.characterRange (hexNumber (digits ++ List.replicate marks '0'))
      (hexNumber (digits ++ List.replicate marks 'F')), digits.length + marks)
  else
    match text.drop digits.length with
    | '-' :: rest =>
      let last := (rest.take 6).takeWhile isHexDigit
      if last.isEmpty then single
      else (.characterRange (hexNumber digits) (hexNumber last), digits.length + 1 + last.length)
    | _ => single

/-! One token -/

def isUrlName (name : List Char) : Bool :=
  name.map Char.toLower == "url".toList

def quoteFollows (text : List Char) : Bool :=
  match text.dropWhile isBlankChar with
  | c :: _ => c == '"' || c == '\''
  | [] => false

def nameToken (text : List Char) : Token × Nat :=
  let (found, count) := name text
  match text.drop count with
  | '(' :: rest =>
    if isUrlName found && !quoteFollows rest then
      let blanks := runLength isBlankChar rest
      let (value, ending, length) := addressText (rest.drop blanks)
      let token :=
        match ending with
        | .closed => .leaf (.address value true)
        | .atEnd => .leaf (.address value false)
        | .broken => .brokenAddress
      (token, count + 1 + blanks + length)
    else (.functionOpening found, count + 1)
  | _ => (.leaf (.ident found), count)

def numberToken (text : List Char) (count : Nat) : Token × Nat :=
  let number := text.take count
  let rest := text.drop count
  if startsIdent rest then
    let (unit, length) := name rest
    (.leaf (.dimension number unit), count + length)
  else if rest.head? == some '%' then (.leaf (.percentage number), count + 1)
  else (.leaf (.number number), count)

def matchMark (c : Char) (rest : List Char) : Token × Nat :=
  if ['~', '|', '^', '$', '*'].contains c && rest.head? == some '=' then
    (.leaf (.mark [c, '=']), 2)
  else (.leaf (.mark [c]), 1)

def markToken (c : Char) (rest : List Char) : Token × Nat :=
  match c, rest with
  | '@', rest =>
    if startsIdent rest then
      let (keyword, count) := name rest
      (.leaf (.atKeyword keyword), 1 + count)
    else (.leaf (.mark ['@']), 1)
  | '#', rest =>
    if (rest.head?.any isNameChar) || startsEscape rest then
      let (found, count) := name rest
      (.leaf (.hash found (startsIdent rest)), 1 + count)
    else (.leaf (.mark ['#']), 1)
  | '/', '*' :: rest =>
    (.comment, 2 + ((commentBody? rest).elim rest.length fun (body, _) => body.length))
  | '<', '!' :: '-' :: '-' :: _ => (.leaf (.mark "<!--".toList), 4)
  | '|', '|' :: _ => (.leaf (.mark "||".toList), 2)
  | c, rest =>
    if c == '"' || c == '\'' then
      let (value, ending, count) := quotedText c rest
      let token :=
        match ending with
        | .closed => .leaf (.quoted value true)
        | .atEnd => .leaf (.quoted value false)
        | .broken => .brokenQuoted
      (token, 1 + count)
    else
      match Bracket.ofOpening? c, Bracket.ofClosing? c with
      | some bracket, _ => (.opening bracket, 1)
      | none, some bracket => (.closing bracket, 1)
      | none, none => matchMark c rest

def scan (c : Char) (rest : List Char) : Token × Nat :=
  let text := c :: rest
  if isBlankChar c then
    let count := runLength isBlankChar text
    (.leaf (.blank (text.take count)), count)
  else if startsRange text then
    let (range, count) := characterRange (rest.drop 1)
    (.leaf range, 2 + count)
  else if "-->".toList.isPrefixOf text then (.leaf (.mark "-->".toList), 3)
  else if startsIdent text then nameToken text
  else
    match numberLength text with
    | 0 => markToken c rest
    | count => numberToken text count

structure Scanned where
  token : Token
  text : List Char
  deriving DecidableEq, Repr

def tokens (source : List Char) : List Scanned :=
  match source with
  | [] => []
  | c :: rest =>
    let (token, count) := scan c rest
    ⟨token, c :: rest.take (count - 1)⟩ :: tokens (rest.drop (count - 1))
termination_by source.length
decreasing_by simp only [List.length_cons, List.length_drop]; omega

theorem flatMap_text_tokens (source : List Char) :
    (tokens source).flatMap Scanned.text = source := by
  fun_induction tokens source with
  | case1 => rfl
  | case2 c rest token count found ih => simp [ih]

end SheetScript.Css
