import SheetScript.Files.Workspace
import SheetScript.Script.Fault
import SheetScript.Script.Value

/-! What the scripts of one run share, and computations on it that can stop with a fault. -/

namespace SheetScript.Script

open SheetScript.Files SheetScript.Style

/-- Where things are in memory: the builder, its context, and the setters still to be made. -/
structure Memory where
  builder : Nat
  context : Nat
  setters : Nat → Nat
  deriving Inhabited

structure World where
  store : Store
  /-- What has been emitted; null if nothing. -/
  output : Value
  objects : Objects
  /-- The stamp of the next list. -/
  nextStamp : Nat
  /-- The directory that imports start from; the working directory if there is none. -/
  base : Option Path
  /-- The files being imported, outermost first. -/
  importing : List Path
  memory : Memory
  deriving Inhabited

structure Setting where
  workspace : Workspace
  /-- The endings of importable files. -/
  extensions : List String

namespace World

def start (base : Option Path) (memory : Memory) : World :=
  ⟨.ofBag [], .null, [], 0, base, [], memory⟩

def bag (world : World) : Bag :=
  world.store.bag

end World

abbrev Step := EStateM ScriptFault World

namespace Step

def makeList (items : List Value) : Step Value := fun world =>
  .ok (.list world.nextStamp items) { world with nextStamp := world.nextStamp + 1 }

def makeObject (fields : Assoc Value) : Step Value := fun world =>
  .ok (.object world.objects.length) { world with objects := world.objects ++ [fields] }

def fieldsOf (reference : Nat) : Step (Assoc Value) := do
  return ((← get).objects[reference]?).getD []

def setterAddress : Step Nat := fun world =>
  .ok (world.memory.setters 0)
    { world with memory := { world.memory with setters := fun n => world.memory.setters (n + 1) } }

def setField (reference : Nat) (field : String) (value : Value) : Step Unit :=
  modify fun world => { world with objects := world.objects.modify reference (·.set field value) }

def textOf (value : Value) : Step String :=
  match value.text? with
  | some text => pure text
  | none => throw .integerTooLong

def textsOf : List Value → Step (List String)
  | [] => pure []
  | value :: rest => do
    let first ← textOf value
    let others ← textsOf rest
    return first :: others

end Step

end SheetScript.Script
