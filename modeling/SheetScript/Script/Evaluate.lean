import SheetScript.Script.Builtin
import SheetScript.Script.Parse

/-!
Evaluation of scripts. Only statements change the names of a script, so expressions are evaluated
under a fixed scope; all other effects are on the world.
-/

namespace SheetScript.Script

open SheetScript.Number SheetScript.Style

abbrev Scope := Assoc Value

def globals (memory : Memory) : Assoc Value :=
  [("chain", .builder memory.builder), ("run", .function .run memory.context),
    ("compile", .function .compile memory.context), ("get", .function .get memory.context)]

def isGlobal (name : String) : Bool :=
  ["chain", "run", "compile", "get"].contains name

def Constant.value : Constant → Value
  | text value => .text value
  | int value => .int value
  | float value => .float value
  | bool value => .bool value
  | null => .null
  | undefined => .undefined

/-- How an expression is named when it is called but is no function. -/
def Expr.description : Expr → String
  | name id _ => id
  | member owner field _ => s!"{owner.description}.{field}"
  | _ => "expression"

namespace Evaluate

def lookup (scope : Scope) (id : String) (line : Nat) : Step Value := do
  match scope.get? id, (globals (← get).memory).get? id with
  | some value, _ => pure value
  | none, some value => pure value
  | none, none => throw (.undefinedName id line)

def builderMember (name : String) (line : Option Nat) : Step Value :=
  match Member.ofName name with
  | .ok .output => do
    match (← get).output with
    | .null => return .undefined
    | value => return value
  | .ok (.operation (.setter property)) => do
    return .function (.operation (.setter property)) (← Step.setterAddress)
  | .ok (.operation operation) => do
    return .function (.operation operation) (← get).memory.builder
  | .error fault => throw (.badMember fault line)

def readField (value : Value) (field : String) (line : Option Nat) : Step Value :=
  match value with
  | .object reference => do return ((← Step.fieldsOf reference).get? field).getD .undefined
  | .block selectors storage =>
    if field = "selectors" then Step.makeList (selectors.map .text)
    else do return (((← get).store.read storage).get? field).elim .undefined .text
  | .list _ items => pure (if field = "length" then .int items.length else .undefined)
  | .text text => pure (if field = "length" then .int text.length else .undefined)
  | .builder _ => builderMember field line
  | .null => throw (.fieldNotReadable field "null" line)
  | .undefined => throw (.fieldNotReadable field "undefined" line)
  | _ => pure .undefined

def position? : Value → Step (Option Nat)
  | .int n => pure (if n < 0 then none else some n.toNat)
  | .float x =>
    match x with
    | .nan => throw .indexNotANumber
    | .infinity _ => throw .indexInfinite
    | .finite _ _ => pure (x.toInt?.bind fun n => if n < 0 then none else some n.toNat)
  | _ => pure none

/-- Reads an element of a list or text by a number, or a field by the text of any other key. -/
def readIndex (value key : Value) (line : Option Nat) : Step Value :=
  match value, key.isNumber with
  | .list _ items, true => do
    return ((← position? key).bind (items[·]?)).getD .undefined
  | .text text, true => do
    return ((← position? key).bind (text.toList[·]?)).elim .undefined fun c => .text c.toString
  | _, _ => do readField value (← Step.textOf key) line

def add (left right : Value) : Step Value :=
  match left, right with
  | .int l, .int r => pure (.int (l + r))
  | .float l, .float r => pure (.float (l.add r))
  | .int l, .float r =>
    match Binary64.ofInt? l with
    | some l => pure (.float (l.add r))
    | none => throw .integerTooLarge
  | .float l, .int r =>
    match Binary64.ofInt? r with
    | some r => pure (.float (l.add r))
    | none => throw .integerTooLarge
  | _, _ => do
    let l ← Step.textOf left
    let r ← Step.textOf right
    return .text (l ++ r)

def negate : Value → Step Value
  | .int n => pure (.int (-n))
  | .float x => pure (.float x.neg)
  | value => throw (.notNegatable value.scriptKind)

section

-- What `get` does with the value that names a file.
variable (importFile : Value → Step Value)

def applyFunction (function : Function) (arguments : List Value) : Step Value :=
  match function, arguments with
  | .run, _ => Printing.run arguments
  | .compile, [value] => Printing.compile value
  | .get, [value] => importFile value
  | .operation operation, _ => Builder.apply operation arguments
  | _, _ => throw .wrongArgumentCount

variable (scope : Scope)

mutual

def expr : Expr → Step Value
  | .literal constant => pure constant.value
  | .template parts => do return .text (← texts parts)
  | .name id line => lookup scope id line
  | .member object field line => do readField (← expr object) field line
  | .index object key line => do
    let value ← expr object
    let key ← expr key
    readIndex value key line
  | .call function arguments line => do
    match ← expr function with
    | .function builtin _ => do
      let values ← exprs arguments
      applyFunction importFile builtin values
    | _ => throw (.notFunction function.description line)
  | .object fields => do Step.makeObject (Assoc.ofPairs (← pairs fields))
  | .array items => do Step.makeList (← exprs items)
  | .sum left right => do
    let left ← expr left
    let right ← expr right
    add left right
  | .negation operand => do negate (← expr operand)

def exprs : List Expr → Step (List Value)
  | [] => pure []
  | first :: rest => do
    let value ← expr first
    let values ← exprs rest
    return value :: values

def pairs : List (String × Expr) → Step (List (String × Value))
  | [] => pure []
  | (key, first) :: rest => do
    let value ← expr first
    let values ← pairs rest
    return (key, value) :: values

def texts : List (Part Expr) → Step String
  | [] => pure ""
  | .text first :: rest => do return first ++ (← texts rest)
  | .hole hole :: rest => do
    let first ← Step.textOf (← expr hole)
    let others ← texts rest
    return first ++ others

end

def writeField (object : Value) (field : String) (value : Value) (line : Nat) : Step Unit :=
  match object with
  | .object reference => Step.setField reference field value
  | .builder _ =>
    match Member.checkAssignable field with
    | .ok () => modify fun world => { world with output := value }
    | .error fault => throw (.badMember fault line)
  | object => throw (.fieldNotSettable field object.scriptKind line)

end

section

variable (importFile : Value → Step Value)

def statement (scope : Scope) : Statement → Step Scope
  | .declare name value => do
    if isGlobal name then throw (.redeclaredName name)
    else return scope.set name (← expr importFile scope value)
  | .assign target value => do
    let value ← expr importFile scope value
    match target with
    | .name id line =>
      if (scope.get? id).isSome then return scope.set id value
      else throw (.undeclaredName id line)
    | .member object field line =>
      writeField (← expr importFile scope object) field value line
      return scope
  | .expression value => do
    let _ ← expr importFile scope value
    return scope

def statements (scope : Scope) : List Statement → Step Scope
  | [] => pure scope
  | first :: rest => do statements (← statement importFile scope first) rest

def script (source : String) : Step Scope :=
  match parseScript (Text.trimChars source.toList) with
  | .ok program => statements importFile [] program
  | .error fault => throw (.badSyntax fault)

end

end Evaluate

end SheetScript.Script
