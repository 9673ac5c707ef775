import SheetScript.Css.Token

/-!
Components: the tokens of a style sheet with brackets and functions closed around their contents.

Comments leave no component. The end of the source closes whatever is open, and what is wrong with a
token becomes a component of its own.
-/

namespace SheetScript.Css

inductive Fault
  | unmatched (bracket : Bracket)
  | brokenQuoted
  | brokenAddress
  | openQuoted
  | openAddress
  deriving DecidableEq, Repr

def Fault.message : Fault → String
  | unmatched bracket => s!"Unmatched {bracket.closing}"
  | brokenQuoted => "Bad string token"
  | brokenAddress => "bad URL token"
  | openQuoted => "EOF in string"
  | openAddress => "EOF in URL"

/-- A part of a style sheet, with the offset of its first character. -/
inductive Component
  | leaf (offset : Nat) (leaf : Leaf)
  | fault (offset : Nat) (fault : Fault)
  | block (offset : Nat) (bracket : Bracket) (content : List Component)
  | function (offset : Nat) (name : List Char) (arguments : List Component)
  deriving Inhabited

namespace Component

def offset : Component → Nat
  | leaf offset _ | fault offset _ | block offset _ _ | function offset _ _ => offset

def isBlank : Component → Bool
  | leaf _ (.blank _) => true
  | _ => false

def isMark (text : String) : Component → Bool
  | leaf _ (.mark found) => found == text.toList
  | _ => false

end Component

inductive Opener
  | bracket (bracket : Bracket)
  | function (name : List Char)

/-- Something open: where it starts, and the components before it, newest first. -/
structure Frame where
  offset : Nat
  opener : Opener
  before : List Component

namespace Frame

def bracket (frame : Frame) : Bracket :=
  match frame.opener with
  | .bracket bracket => bracket
  | .function _ => .round

/-- The component that a frame becomes around its contents, which are given newest first. -/
def close (frame : Frame) (inner : List Component) : Component :=
  match frame.opener with
  | .bracket bracket => .block frame.offset bracket inner.reverse
  | .function name => .function frame.offset name inner.reverse

end Frame

/-- A row of tokens read so far; components are kept newest first. -/
structure Nest where
  offset : Nat
  inner : List Component
  frames : List Frame

namespace Nest

def start : Nest := ⟨0, [], []⟩

def add (nest : Nest) (component : Component) : Nest :=
  { nest with inner := component :: nest.inner }

def addFault (nest : Nest) (fault : Fault) : Nest :=
  nest.add (.fault nest.offset fault)

def openFrame (nest : Nest) (opener : Opener) : Nest :=
  { nest with inner := [], frames := ⟨nest.offset, opener, nest.inner⟩ :: nest.frames }

def closeFrame (nest : Nest) (bracket : Bracket) : Nest :=
  match nest.frames with
  | frame :: frames =>
    if frame.bracket = bracket then
      { nest with inner := frame.close nest.inner :: frame.before, frames := frames }
    else nest.addFault (.unmatched bracket)
  | [] => nest.addFault (.unmatched bracket)

def readToken (nest : Nest) : Token → Nest
  | .leaf leaf =>
    let next := nest.add (.leaf nest.offset leaf)
    match leaf with
    | .quoted _ false => next.addFault .openQuoted
    | .address _ false => next.addFault .openAddress
    | _ => next
  | .comment => nest
  | .functionOpening name => nest.openFrame (.function name)
  | .opening bracket => nest.openFrame (.bracket bracket)
  | .closing bracket => nest.closeFrame bracket
  | .brokenQuoted => nest.addFault .brokenQuoted
  | .brokenAddress => nest.addFault .brokenAddress

def read (nest : Nest) (scanned : Scanned) : Nest :=
  { nest.readToken scanned.token with offset := nest.offset + scanned.text.length }

def closeAll (inner : List Component) : List Frame → List Component
  | [] => inner.reverse
  | frame :: frames => closeAll (frame.close inner :: frame.before) frames

end Nest

def components (source : List Char) : List Component :=
  let nest := (tokens source).foldl Nest.read .start
  Nest.closeAll nest.inner nest.frames

end SheetScript.Css
