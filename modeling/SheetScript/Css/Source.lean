/-! The characters of a style sheet as they are read. -/

namespace SheetScript.Css

/-- Every line ends in a newline, a form feed counts as one, and NUL reads as U+FFFD. -/
def normalise : List Char → List Char
  | [] => []
  | '\r' :: '\n' :: rest => '\n' :: normalise rest
  | c :: rest =>
    (if c == '\r' || c == '\x0c' then '\n' else if c == '\x00' then '\ufffd' else c) ::
      normalise rest

def isBlankChar (c : Char) : Bool :=
  c == ' ' || c == '\n' || c == '\t'

def runLength (condition : Char → Bool) (text : List Char) : Nat :=
  (text.takeWhile condition).length

end SheetScript.Css
