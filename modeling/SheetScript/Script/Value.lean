import SheetScript.Number.Shortest
import SheetScript.Style.Builder
import SheetScript.Style.Store
import SheetScript.Text.Hexadecimal
import SheetScript.Text.Quoted

/-!
Values of scripts. Objects and the storages of style blocks are shared and can change, so a value only
refers to them; lists never change. The builder and functions have their place in memory as text.
-/

namespace SheetScript.Script

open SheetScript.Number SheetScript.Style

inductive Function
  | run
  | compile
  | get
  | operation (operation : Operation)
  deriving DecidableEq, Repr

inductive Value
  | text (value : String)
  | int (value : Int)
  | float (value : Binary64)
  | bool (value : Bool)
  | null
  | undefined
  /-- Lists made at different times differ in their stamps. -/
  | list (stamp : Nat) (items : List Value)
  | object (reference : Nat)
  | block (selectors : List String) (storage : Nat)
  | builder (address : Nat)
  /-- A function, with the address of its owner, or with its own if it is a setter. -/
  | function (function : Function) (address : Nat)
  deriving Inhabited

/-! Texts -/

def addressText (address : Nat) : String :=
  "0x" ++ String.ofList (Text.hexDigits 0 address)

def builderText (address : Nat) : String :=
  s!"<chaincss.builder.builder.StyleBuilder object at {addressText address}>"

def contextText (address : Nat) : String :=
  s!"<chaincss.script.context.BuilderContext object at {addressText address}>"

/-- A setter is a function that is made anew whenever it is read, all others belong to an owner. -/
def Function.text (address : Nat) : Function → String
  | run => s!"<bound method BuilderContext.run of {contextText address}>"
  | compile => s!"<bound method BuilderContext.compile of {contextText address}>"
  | get => s!"<bound method BuilderContext.get of {contextText address}>"
  | operation (.setter _) =>
    s!"<function StyleBuilder._setter.<locals>.setter at {addressText address}>"
  | operation .block => s!"<bound method StyleBuilder.block of {builderText address}>"
  | operation .navBar => s!"<bound method StyleBuilder.nav_bar of {builderText address}>"
  | operation .borderSideStyle =>
    s!"<bound method StyleBuilder.border_side_style of {builderText address}>"
  | operation .textDecoration =>
    s!"<bound method StyleBuilder.text_decoration of {builderText address}>"
  | operation .mixin => s!"<bound method StyleBuilder.mixin of {builderText address}>"

/-- Integers of more digits have no text, and none is read from more digits. -/
def digitLimit : Nat := 4300

def intText? (n : Int) : Option String :=
  if decimalLength n.natAbs > digitLimit then none else some (toString n)

namespace Value

def floatText (x : Binary64) : String :=
  match x.toInt? with
  | some n => toString n
  | none => x.text

mutual

/-- The text of a value in a style sheet. Only an integer of too many digits has none. -/
def text? : Value → Option String
  | text value => some value
  | int n => intText? n
  | float x => some (floatText x)
  | bool value => some (if value then "true" else "false")
  | null => some "null"
  | undefined => some "undefined"
  | list _ items => (itemTexts? items).map (",".intercalate ·)
  | object _ => some "[object Object]"
  | block _ _ => some "[object Object]"
  | builder address => some (builderText address)
  | function callee address => some (callee.text address)

/-- The texts of list items; null and undefined items are empty. -/
def itemTexts? : List Value → Option (List String)
  | [] => some []
  | null :: rest => (itemTexts? rest).map ("" :: ·)
  | undefined :: rest => (itemTexts? rest).map ("" :: ·)
  | item :: rest => do
    let first ← text? item
    let others ← itemTexts? rest
    return first :: others

end

/-- Objects never contribute text of their own. -/
def isObject : Value → Bool
  | null | list _ _ | object _ | block _ _ => true
  | _ => false

def kind : Value → String
  | text _ => "str"
  | int _ => "int"
  | float _ => "float"
  | bool _ => "bool"
  | null => "NoneType"
  | undefined => "_Undefined"
  | list _ _ => "list"
  | object _ => "dict"
  | block _ _ => "StyleBlock"
  | builder _ => "StyleBuilder"
  | function (.operation (.setter _)) _ => "function"
  | function _ _ => "method"

def scriptKind : Value → String
  | null => "null"
  | undefined => "undefined"
  | value => value.kind

/-- Two values are numbers of this language's arithmetic; truth values are not. -/
def isNumber : Value → Bool
  | int _ | float _ => true
  | _ => false

end Value

abbrev Objects := List (Assoc Value)

namespace Value

/-- What is being shown around a value: the stamps of lists and the references of objects. -/
structure Enclosing where
  lists : List Nat
  objects : List Nat

def blockDisplay (block : Block) : String :=
  let selectors := block.selectors.map Text.quoted
  let tuple :=
    match selectors with
    | [one] => s!"({one},)"
    | _ => "(" ++ ", ".intercalate selectors ++ ")"
  let properties := block.properties.map fun (key, value) =>
    s!"{Text.quoted key}: {Text.quoted value}"
  "StyleBlock(selectors=" ++ tuple ++ ", properties=\x7b" ++ ", ".intercalate properties ++ "\x7d)"

section

variable (store : Store) (showObject : Enclosing → Nat → Option String)

mutual

def displayPart? (around : Enclosing) : Value → Option String
  | text value => some (Text.quoted value)
  | int n => intText? n
  | float x => some x.text
  | bool value => some (if value then "True" else "False")
  | null => some "None"
  | undefined => some "undefined"
  | list stamp items =>
    if around.lists.contains stamp then some "[...]"
    else (displayItems? { around with lists := stamp :: around.lists } items).map fun items =>
      "[" ++ ", ".intercalate items ++ "]"
  | object reference =>
    if around.objects.contains reference then some "\x7b...\x7d"
    else showObject { around with objects := reference :: around.objects } reference
  | block selectors storage => some (blockDisplay (store.block selectors storage))
  | builder address => some (builderText address)
  | function callee address => some (callee.text address)

def displayItems? (around : Enclosing) : List Value → Option (List String)
  | [] => some []
  | item :: rest => do
    let first ← displayPart? around item
    let others ← displayItems? around rest
    return first :: others

end

end

/-- An object with its fields; each object is shown at most once along a path. -/
def displayObject? (store : Store) (objects : Objects) : Nat → Enclosing → Nat → Option String
  | 0, _, _ => some "\x7b...\x7d"
  | depth + 1, around, reference => do
    let fields ← ((objects[reference]?).getD []).mapM fun (key, value) => do
      let shown ← displayPart? store (displayObject? store objects depth) around value
      return s!"{Text.quoted key}: {shown}"
    return "\x7b" ++ ", ".intercalate fields ++ "\x7d"

/-- The text that names a file when a value is given for one: a text itself, others as shown. -/
def display? (store : Store) (objects : Objects) : Value → Option String
  | text value => some value
  | value =>
    displayPart? store (displayObject? store objects (objects.length + 1)) ⟨[], []⟩ value

end Value

end SheetScript.Script
