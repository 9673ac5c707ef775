import SheetScript.Text.Range

/-! Blank characters, trimming, and cutting at blanks. -/

namespace SheetScript.Text

/-- White space of every script, and the information separators U+001C to U+001F. -/
def blankRanges : List (Nat × Nat) :=
  [
   (0x9, 0xd), (0x1c, 0x20), (0x85, 0x85), (0xa0, 0xa0), (0x1680, 0x1680), (0x2000, 0x200a),
   (0x2028, 0x2029), (0x202f, 0x202f), (0x205f, 0x205f), (0x3000, 0x3000)]

def isBlank (c : Char) : Bool :=
  inRanges blankRanges c

def trimStart (text : List Char) : List Char :=
  text.dropWhile isBlank

def trimEnd (text : List Char) : List Char :=
  (text.reverse.dropWhile isBlank).reverse

def trimChars (text : List Char) : List Char :=
  trimEnd (trimStart text)

def trim (text : String) : String :=
  String.ofList (trimChars text.toList)

/-- The longest runs without blanks, in order; `word` is the run being read, last character first. -/
def fieldsAfter (word : List Char) : List Char → List String
  | [] => if word.isEmpty then [] else [String.ofList word.reverse]
  | c :: rest =>
    if isBlank c then
      if word.isEmpty then fieldsAfter [] rest
      else String.ofList word.reverse :: fieldsAfter [] rest
    else fieldsAfter (c :: word) rest

def fields (text : String) : List String :=
  fieldsAfter [] text.toList

end SheetScript.Text
