import SheetScript.Style.Block
import SheetScript.Style.Property
import SheetScript.Text.Quoted

/-! The members of the style builder: its operations by name, and wrong names. -/

namespace SheetScript.Style

inductive Operation
  | block
  | navBar
  | borderSideStyle
  | textDecoration
  | mixin
  | setter (property : String)
  deriving DecidableEq, Repr

inductive Member
  /-- The text emitted so far. -/
  | output
  | operation (operation : Operation)
  deriving DecidableEq, Repr

inductive MemberFault
  | unknown (name : String)
  | notAssignable (name : String)
  /-- A name that the builder does not have for its host either. -/
  | unknownAttribute (name : String)
  deriving DecidableEq, Repr

def MemberFault.message : MemberFault → String
  | unknown name => s!"chain has no member {Text.quoted name}"
  | notAssignable name => s!"chain.{name} cannot be assigned"
  | unknownAttribute name => s!"'StyleBuilder' object has no attribute {Text.quoted name}"

namespace Member

def ofName (name : String) : Except MemberFault Member :=
  match name with
  | "cssOutput" => .ok .output
  | "block" => .ok (.operation .block)
  | "navBar" => .ok (.operation .navBar)
  | "borderSideStyle" => .ok (.operation .borderSideStyle)
  | "textDecoration" => .ok (.operation .textDecoration)
  | "mixin" => .ok (.operation .mixin)
  | name =>
    match setterProperty? name with
    | some property => .ok (.operation (.setter property))
    | none => .error (.unknown name)

/-- Only the output can be assigned to. -/
def checkAssignable (name : String) : Except MemberFault Unit :=
  if name = "cssOutput" then .ok () else .error (.notAssignable name)

end Member

/-- The operation that a host program finds under a name, where setters have two spellings. -/
def Operation.ofAttribute (name : String) : Except MemberFault Operation :=
  match name with
  | "block" => .ok .block
  | "nav_bar" => .ok .navBar
  | "border_side_style" => .ok .borderSideStyle
  | "text_decoration" => .ok .textDecoration
  | "mixin" => .ok .mixin
  | name =>
    match anySetterProperty? name with
    | some property => .ok (.setter property)
    | none => .error (.unknownAttribute name)

end SheetScript.Style
