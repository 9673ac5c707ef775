import SheetScript.Script.Token
import SheetScript.Style.Builder

/-! Why a script stops. -/

namespace SheetScript.Script

inductive ScriptFault
  | badSyntax (fault : SyntaxFault)
  | undefinedName (name : String) (line : Nat)
  | undeclaredName (name : String) (line : Nat)
  | redeclaredName (name : String)
  | badMember (fault : Style.MemberFault) (line : Option Nat)
  | fieldNotSettable (field kind : String) (line : Nat)
  /-- A field of null or undefined, named by `value`. -/
  | fieldNotReadable (field value : String) (line : Option Nat)
  | notNegatable (kind : String)
  | notFunction (description : String) (line : Option Nat)
  | wrongArgumentCount
  | integerTooLong
  | integerTooLarge
  | indexInfinite
  | indexNotANumber
  /-- `run` got something else than a block. -/
  | runNotBlock (kind : String)
  | runRawBlock
  | compileNotObject (kind : String)
  | compileNotBlock (name kind : String)
  | mixinNotBlock (kind : String)
  | navBarWithoutSelector
  | importSuffix (name : String) (extensions : List String)
  | importMissing (name resolved : String)
  | importCircle (paths : List String)
  | importUndecodable
  | importNameInvalid
  deriving DecidableEq, Repr

namespace ScriptFault

def className : ScriptFault → String
  | badSyntax _ => "ParseError"
  | undefinedName .. | undeclaredName .. | redeclaredName _ | fieldNotSettable ..
  | fieldNotReadable .. | notNegatable _ | notFunction .. | badMember .. => "ScriptRuntimeError"
  | wrongArgumentCount | mixinNotBlock _ => "TypeError"
  | integerTooLong | indexNotANumber | navBarWithoutSelector | importNameInvalid => "ValueError"
  | integerTooLarge | indexInfinite => "OverflowError"
  | runNotBlock _ | runRawBlock | compileNotObject _ | compileNotBlock .. => "StyleCompileError"
  | importSuffix .. | importMissing .. | importCircle _ => "DocumentImportError"
  | importUndecodable => "UnicodeDecodeError"

def line? : ScriptFault → Option Nat
  | badSyntax fault => fault.line?
  | undefinedName _ line | undeclaredName _ line | fieldNotSettable _ _ line => some line
  | badMember _ line | fieldNotReadable _ _ line | notFunction _ line => line
  | _ => none

def bareMessage? : ScriptFault → Option String
  | badSyntax fault => some fault.message
  | undefinedName name _ => some s!"{name} is not defined"
  | undeclaredName name _ => some s!"assignment to undeclared name {Text.quoted name}"
  | redeclaredName name => some s!"cannot redeclare builtin {Text.quoted name}"
  | badMember fault _ => some fault.message
  | fieldNotSettable field kind _ => some s!"cannot set {Text.quoted field} on {kind}"
  | fieldNotReadable field value _ => some s!"cannot read {Text.quoted field} of {value}"
  | notNegatable kind => some s!"cannot negate {kind}"
  | notFunction description _ => some s!"{description} is not a function"
  | runNotBlock kind => some s!"run() expects style blocks, got {kind}"
  | runRawBlock => some "run() cannot serialize a style block without selectors"
  | compileNotObject kind => some s!"compile() expects a mapping of style blocks, got {kind}"
  | compileNotBlock name kind =>
    some s!"compile() entry {Text.quoted name} is not a style block ({kind})"
  | mixinNotBlock kind => some s!"mixin() expects style blocks, got {kind}"
  | navBarWithoutSelector => some "navBar() requires selector argument."
  | importSuffix name extensions =>
    some (s!"Import error: {name} must have " ++ " or ".intercalate extensions ++ " extension")
  | importMissing name resolved => some s!"File not found: {name} (resolved to: {resolved})"
  | importCircle paths => some ("Circular import: " ++ " -> ".intercalate paths)
  | wrongArgumentCount | integerTooLong | integerTooLarge | indexInfinite | indexNotANumber
  | importUndecodable | importNameInvalid => none

def message? (fault : ScriptFault) : Option String :=
  match fault with
  | .badSyntax _ => fault.bareMessage?
  | _ =>
    match fault.line? with
    | some line => fault.bareMessage?.map (s!"line {line}: " ++ ·)
    | none => fault.bareMessage?

def message (fault : ScriptFault) : String :=
  fault.message?.getD s!"<{fault.className}>"

end ScriptFault

end SheetScript.Script
