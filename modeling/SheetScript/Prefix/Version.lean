import SheetScript.Number.Decimal
import SheetScript.Text.Split

/-! Browser versions: texts, most of which have a number to compare them by. -/

namespace SheetScript.Prefix

open SheetScript.Number SheetScript.Text

def leadingNumber (text : List Char) : List Char :=
  let whole := text.takeWhile isDigit
  match text.drop whole.length with
  | '.' :: rest =>
    let fraction := rest.takeWhile isDigit
    if whole.isEmpty || fraction.isEmpty then whole else whole ++ '.' :: fraction
  | _ => whole

/-- The number of a version; of a range of versions, that of its first one. -/
def versionNumber? (version : String) : Option Binary64 :=
  let head := ((splitAt '-' version.toList).head?).getD []
  match leadingNumber head with
  | [] => none
  | digits => (Decimal.readUnsigned? false digits).map Decimal.toBinary64

def isVersionText (text : List Char) : Bool :=
  (splitAt '.' text).all fun part => !part.isEmpty && part.all isDigit

end SheetScript.Prefix
