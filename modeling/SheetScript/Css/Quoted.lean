import SheetScript.Css.Name

/-!
Quoted texts and addresses in style sheets, as read and as written.

Readers answer with what they read, how it ended, and how many characters it takes.
-/

namespace SheetScript.Css

inductive Ending
  | closed
  /-- The source ended first. -/
  | atEnd
  /-- Something stood inside that cannot. -/
  | broken
  deriving DecidableEq, Repr

/-- A quoted text, read after its opening quote. A line break inside is left to be read again. -/
def quotedText (quote : Char) (text : List Char) : List Char × Ending × Nat :=
  match text with
  | [] => ([], .atEnd, 0)
  | c :: rest =>
    if c == quote then ([], .closed, 1)
    else if c == '\n' then ([], .broken, 0)
    else if c == '\\' then
      match rest with
      | [] => ([], .atEnd, 1)
      | '\n' :: rest =>
        let (more, ending, count) := quotedText quote rest
        (more, ending, count + 2)
      | rest =>
        let (escaped, taken) := escape rest
        let (more, ending, count) := quotedText quote (rest.drop taken)
        (escaped :: more, ending, 1 + taken + count)
    else
      let (more, ending, count) := quotedText quote rest
      (c :: more, ending, count + 1)
termination_by text.length

def breaksAddress (c : Char) : Bool :=
  c == '"' || c == '\'' || c == '(' || c == '\x0b' || c == '\x7f' ||
    c ≤ '\x08' || ('\x0e' ≤ c && c ≤ '\x1f')

def brokenLength : List Char → Nat
  | [] => 0
  | '\\' :: ')' :: rest => brokenLength rest + 2
  | ')' :: _ => 1
  | _ :: rest => brokenLength rest + 1

/-- After the blanks behind an address only its end can follow. -/
def addressEnd (text : List Char) : Ending × Nat :=
  match text with
  | [] => (.atEnd, 0)
  | ')' :: _ => (.closed, 1)
  | text => (.broken, brokenLength text)

def addressText (text : List Char) : List Char × Ending × Nat :=
  match text with
  | [] => ([], .atEnd, 0)
  | c :: rest =>
    if c == ')' then ([], .closed, 1)
    else if isBlankChar c then
      let blanks := runLength isBlankChar (c :: rest)
      let (ending, count) := addressEnd ((c :: rest).drop blanks)
      ([], ending, blanks + count)
    else if startsEscape (c :: rest) then
      let (escaped, taken) := escape rest
      let (more, ending, count) := addressText (rest.drop taken)
      (escaped :: more, ending, 1 + taken + count)
    else if breaksAddress c then ([], .broken, 1 + brokenLength rest)
    else
      let (more, ending, count) := addressText rest
      (c :: more, ending, count + 1)
termination_by text.length

def writeQuotedChar (c : Char) : List Char :=
  match c with
  | '"' => ['\\', '"']
  | '\\' => ['\\', '\\']
  | '\n' => ['\\', 'A', ' ']
  | '\r' => ['\\', 'D', ' ']
  | '\x0c' => ['\\', 'C', ' ']
  | c => [c]

def writeAddressChar (c : Char) : List Char :=
  match c with
  | '\'' => ['\\', '\'']
  | ' ' => ['\\', ' ']
  | '\t' => ['\\', '9', ' ']
  | '(' => ['\\', '(']
  | ')' => ['\\', ')']
  | c => writeQuotedChar c

/-- A quoted text in double quotes; one that the source did not close stays open. -/
def writeQuoted (value : List Char) (closed : Bool) : List Char :=
  '"' :: value.flatMap writeQuotedChar ++ if closed then ['"'] else []

def writeAddress (value : List Char) (closed : Bool) : List Char :=
  "url(".toList ++ value.flatMap writeAddressChar ++ if closed then [')'] else []

end SheetScript.Css
