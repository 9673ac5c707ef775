import SheetScript.Css.Declaration
import SheetScript.Css.Write
import SheetScript.Prefix.Vendor
import SheetScript.Text.Position

/-! Putting prefixed declarations into a style sheet, each before the one that it goes with. -/

namespace SheetScript.Prefix

open SheetScript.Css SheetScript.Text

structure Insertion where
  offset : Nat
  text : List Char
  deriving DecidableEq, Repr

/-- What separates declarations at an offset: a line break and the same indent, or one blank. -/
def separatorAt (source : List Char) (lineStart offset : Nat) : List Char :=
  let lead := (source.take offset).drop lineStart
  if (trimChars lead).isEmpty then '\n' :: lead else [' ']

def declarationsText (separator : List Char) (important : Bool)
    (declarations : List (String × String)) : List Char :=
  declarations.flatMap fun (property, value) =>
    property.toList ++ ": ".toList ++ value.toList ++
      (if important then " !important".toList else []) ++ ';' :: separator

def valueText (declaration : Declaration) : String :=
  String.ofList (trimChars (write declaration.value))

def prefixed (tables : Tables) (declaration : Declaration) :
    Except TargetFault (List (String × String)) :=
  tables.prefixedDeclarations (asciiLowercase (String.ofList declaration.name))
    (valueText declaration)

def position (source : List Char) (declaration : Declaration) : Position :=
  Position.start.advance (source.take declaration.offset)

def insertion? (tables : Tables) (source : List Char) (declaration : Declaration) :
    Except TargetFault (Option Insertion) := do
  match ← prefixed tables declaration with
  | [] => return none
  | added =>
    let position := position source declaration
    let offset := position.offset source
    let separator := separatorAt source (position.lineStart source) offset
    return some ⟨offset, declarationsText separator declaration.important added⟩

def insertions (tables : Tables) (source : List Char) : Except TargetFault (List Insertion) :=
  (sheetDeclarations (components source)).filterMapM (insertion? tables source)

/-- The order in which texts are put in, the last one first; at one offset the greater text. -/
def Insertion.precedes (left right : Insertion) : Bool :=
  if left.offset ≠ right.offset then right.offset < left.offset else !(left.text < right.text)

def Insertion.putInto (source : List Char) (insertion : Insertion) : List Char :=
  source.take insertion.offset ++ insertion.text ++ source.drop insertion.offset

/-- Puts in texts, the last one first, so that the others keep their places. -/
def insertAll (source : List Char) (added : List Insertion) : List Char :=
  (added.mergeSort Insertion.precedes).foldl Insertion.putInto source

/-- A style sheet with prefixed declarations. Without data it stays as it is. -/
def Tables.apply (tables : Tables) (css : String) : Except TargetFault String :=
  match tables.dataset with
  | none => .ok css
  | some _ =>
    let source := normalise css.toList
    (insertions tables source).map fun added => String.ofList (insertAll source added)

end SheetScript.Prefix
