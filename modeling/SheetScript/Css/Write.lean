import SheetScript.Css.Component

/-!
Components written as text.

Two neighbours that would be read as one are kept apart by an empty comment.
-/

namespace SheetScript.Css

/-- What about a component decides whether its neighbours can be told from it. -/
inductive Shape
  | blank
  | mark (text : List Char)
  | ident
  | atKeyword
  | hash
  | quoted
  | address
  | characterRange
  | number
  | percentage
  | dimension
  | function
  | block (bracket : Bracket)
  | fault
  deriving DecidableEq, Repr

def Leaf.shape : Leaf → Shape
  | blank _ => .blank
  | mark text => .mark text
  | ident _ => .ident
  | atKeyword _ => .atKeyword
  | hash _ _ => .hash
  | quoted _ _ => .quoted
  | address _ _ => .address
  | characterRange _ _ => .characterRange
  | number _ => .number
  | percentage _ => .percentage
  | dimension _ _ => .dimension

def Component.shape : Component → Shape
  | leaf _ found => found.shape
  | fault _ _ => .fault
  | block _ bracket _ => .block bracket
  | function _ _ _ => .function

namespace Shape

def char (c : Char) : Shape := .mark [c]

def mergingPairs : List (List Shape × List Shape) :=
  [([ident, atKeyword, hash, dimension, char '#', char '-', number],
     [ident, function, address, number, percentage, dimension, characterRange]),
   ([ident, atKeyword, hash, dimension], [char '-', .mark "-->".toList]),
   ([char '#', char '-', number, char '@'], [ident, function, address]),
   ([characterRange, char '.', char '+'], [number, percentage, dimension]),
   ([char '@'], [ident, function, address, characterRange, char '-']),
   ([characterRange], [ident, function, char '?']),
   ([char '$', char '*', char '^', char '~', char '|'], [char '=']),
   ([ident], [.block .round]),
   ([char '|'], [char '|']),
   ([char '/'], [char '*'])]

def merges (left right : Shape) : Bool :=
  mergingPairs.any fun (lefts, rights) => lefts.contains left && rights.contains right

end Shape

def upperHex (n : Nat) : List Char :=
  (Nat.toDigits 16 n).map Char.toUpper

/-- A unit; one that would read as an exponent begins with an escape. -/
def writeUnit (unit : List Char) : List Char :=
  match unit with
  | e :: rest =>
    if (e == 'e' || e == 'E') && (rest.isEmpty || rest.head? == some '-') then
      "\\65 ".toList ++ writeName rest
    else writeIdent unit
  | [] => []

def writeLeaf : Leaf → List Char
  | .blank text => text
  | .mark text => text
  | .ident name => writeIdent name
  | .atKeyword name => '@' :: writeIdent name
  | .hash name isIdent => '#' :: if isIdent then writeIdent name else writeName name
  | .quoted value closed => writeQuoted value closed
  | .address value closed => writeAddress value closed
  | .characterRange first last =>
    if first = last then "U+".toList ++ upperHex first
    else "U+".toList ++ upperHex first ++ '-' :: upperHex last
  | .number text => text
  | .percentage text => text ++ ['%']
  | .dimension text unit => text ++ writeUnit unit

def writeFault : Fault → List Char
  | .unmatched bracket => [bracket.closing]
  | .brokenQuoted => "\"[bad string]\n".toList
  | .brokenAddress => "url([bad url])".toList
  | .openQuoted => []
  | .openAddress => []

mutual

def endsInQuote : Component → Bool
  | .fault _ .openQuoted => true
  | .function _ _ arguments => lastEndsInQuote arguments
  | _ => false

def lastEndsInQuote : List Component → Bool
  | [] => false
  | [component] => endsInQuote component
  | _ :: rest => lastEndsInQuote rest

end

def separator (previous : Option Shape) (component : Component) : List Char :=
  match previous with
  | none => []
  | some previous =>
    if previous.merges component.shape then "/**/".toList
    else if previous = .char '\\' then
      match component with
      | .leaf _ (.blank ('\n' :: _)) => []
      | _ => ['\n']
    else []

mutual

def writeComponent : Component → List Char
  | .leaf _ leaf => writeLeaf leaf
  | .fault _ fault => writeFault fault
  | .block _ bracket content => bracket.opening :: writeAfter none content ++ [bracket.closing]
  | .function _ name arguments =>
    writeIdent name ++ '(' :: writeAfter none arguments ++
      if lastEndsInQuote arguments then [] else [')']

def writeAfter (previous : Option Shape) : List Component → List Char
  | [] => []
  | component :: rest =>
    separator previous component ++ writeComponent component ++
      writeAfter (some component.shape) rest

end

def write (components : List Component) : List Char :=
  writeAfter none components

end SheetScript.Css
