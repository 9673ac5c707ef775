import SheetScript.Script.World
import SheetScript.Style.Sheet

/-! The builder's operations, and the functions that print blocks. -/

namespace SheetScript.Script

open SheetScript.Style

namespace Builder

def self : Step Value := do
  return .builder (← get).memory.builder

def assign (properties : List (String × String)) : Step Unit :=
  modify fun world => { world with store := world.store.assign properties }

/-- Hands over the storage of the pending properties to a block, and goes on with a new one. -/
def finish (selectors : List String) : Step Value := fun world =>
  .ok (.block selectors world.store.current) { world with store := world.store.renew }

def setProperty (property : String) (value : Value) : Step Value := do
  let text ← Step.textOf value
  assign [(property, text)]
  self

def block (selectors : List Value) : Step Value := do
  finish (← Step.textsOf selectors)

/-- Copies the properties of blocks into the bag, up to the first value that is no block. -/
def mixin : List Value → Step Value
  | [] => self
  | .block _ storage :: rest => do
    assign ((← get).store.read storage)
    mixin rest
  | value :: _ => throw (.mixinNotBlock value.kind)

/-- The blocks of a navigation bar, one after another; only the first sees the pending bag. -/
def navBlocks : List NavPart → Step (Assoc Value)
  | [] => pure []
  | part :: rest => do
    assign part.properties
    let first ← finish [part.selector]
    let others ← navBlocks rest
    return (part.name, first) :: others

/-- Selectors after the container default to common elements. -/
def navBar (selectors : List Value) : Step (Assoc Value) := do
  match ← Step.textsOf (selectors.take 4) with
  | [] => throw .navBarWithoutSelector
  | container :: inner =>
    let part (index : Nat) (default : String) : String := inner[index]?.getD default
    navBlocks (navParts container (part 0 "ul") (part 1 "li") (part 2 "a"))

def borderSideStyle (side value : Value) : Step Value :=
  match side with
  | .text name =>
    match Bag.sideStyle? name with
    | some property => setProperty property value
    | none => self
  | _ => self

/-- With a second argument the value is that of the decoration's style. -/
def textDecoration (value style : Value) : Step Value :=
  match style with
  | .undefined => setProperty "textDecoration" value
  | _ => setProperty "textDecorationStyle" value

def apply (operation : Operation) (arguments : List Value) : Step Value :=
  match operation, arguments with
  | .block, _ => block arguments
  | .mixin, _ => mixin arguments
  | .navBar, _ => do Step.makeObject (← navBar arguments)
  | .borderSideStyle, [side] => borderSideStyle side .undefined
  | .borderSideStyle, [side, value] => borderSideStyle side value
  | .textDecoration, [value] => textDecoration value .undefined
  | .textDecoration, [value, style] => textDecoration value style
  | .setter property, [] => setProperty property .undefined
  | .setter property, [value] => setProperty property value
  | _, _ => throw .wrongArgumentCount

end Builder

namespace Printing

section

variable (store : Store)

def runBlocks : List Value → Except ScriptFault (List Block)
  | [] => .ok []
  | .block selectors storage :: rest =>
    let value := store.block selectors storage
    if value.isRaw then .error .runRawBlock else (runBlocks rest).map (value :: ·)
  | value :: _ => .error (.runNotBlock value.kind)

def fieldBlocks : Assoc Value → Except ScriptFault (List Block)
  | [] => .ok []
  | (_, .block selectors storage) :: rest =>
    (fieldBlocks rest).map (store.block selectors storage :: ·)
  | (name, value) :: _ => .error (.compileNotBlock name value.kind)

def runText (arguments : List Value) : Except ScriptFault String :=
  (runBlocks store arguments).map rules

def compileText (fields : Assoc Value) : Except ScriptFault String :=
  (fieldBlocks store fields).map compactRules

end

def emit (text : Except ScriptFault String) : Step Value :=
  match text with
  | .ok text => do
    modify fun world => { world with output := .text text }
    return .text text
  | .error fault => throw fault

def run (arguments : List Value) : Step Value := do
  emit (runText (← get).store arguments)

def compile : Value → Step Value
  | .object reference => do
    let fields ← Step.fieldsOf reference
    emit (compileText (← get).store fields)
  | value => throw (.compileNotObject value.kind)

end Printing

end SheetScript.Script
