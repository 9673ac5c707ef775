import SheetScript.Assoc

/-! Property bags and style blocks. -/

namespace SheetScript.Style

/-- Property identifiers with their texts, in the order of first assignment. -/
abbrev Bag := Assoc String

/-- Properties and the selectors they apply to. Without selectors they only serve to be mixed in. -/
structure Block where
  selectors : List String
  properties : Bag
  deriving DecidableEq, Repr

namespace Block

def isRaw (block : Block) : Bool :=
  block.selectors.isEmpty

def selectorText (block : Block) : String :=
  ",".intercalate block.selectors

end Block

namespace Bag

def assign (bag : Bag) (properties : List (String × String)) : Bag :=
  Assoc.setAll bag properties

def sideStyle? : String → Option String
  | "top" => some "borderTopStyle"
  | "right" => some "borderRightStyle"
  | "bottom" => some "borderBottomStyle"
  | "left" => some "borderLeftStyle"
  | _ => none

end Bag

structure NavPart where
  name : String
  selector : String
  properties : List (String × String)

def navParts (container list item link : String) : List NavPart :=
  [
   ⟨"navUl", s!"{container} {list}",
    [("display", "flex"), ("listStyle", "none"), ("margin", "0"), ("padding", "0")]⟩,
   ⟨"navLi", s!"{container} {list} {item}", [("margin", "0 10px")]⟩,
   ⟨"navA", s!"{container} {list} {item} {link}",
    [("color", "#fff"), ("textDecoration", "none"), ("fontWeight", "bold"), ("borderRadius", "3px")]⟩,
   ⟨"navAhover", s!"{container} {list} {item} {link}:hover",
    [("textDecoration", "underline"), ("backgroundColor", "#555")]⟩]

end SheetScript.Style
