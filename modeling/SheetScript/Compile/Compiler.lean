import SheetScript.Compile.Assembly
import SheetScript.Diagnostic
import SheetScript.Document.Expand
import SheetScript.Prefix.Engine

/-!
Compiling a document into a style sheet.

The stages follow one another: the document is read, its scripts are expanded, the style sheet is
checked, prefixed, squeezed and written. Files change only in the last stage.
-/

namespace SheetScript.Compile

open SheetScript.Document SheetScript.Files SheetScript.Prefix

inductive CompileFault
  | wrongEnding (ending : String) (allowed : List String)
  | inputMissing (path : Path)
  | inputUnreadable (path : Path) (fault : FileFault)
  | script (failure : ScriptFailure)
  | unsound (errors : List Diagnostic)
  | minification (errors : List String)
  | unwritable (path : Path) (fault : FileFault) (place : Path)
  /-- A path that no file can have. -/
  | impossiblePath

namespace CompileFault

def className : CompileFault → String
  | wrongEnding .. | inputMissing _ | inputUnreadable .. => "InputError"
  | script failure => failure.className
  | unsound _ => "SyntaxValidationError"
  | minification _ => "MinificationError"
  | unwritable .. => "OutputError"
  | impossiblePath => "ValueError"

def causeName? : CompileFault → Option String
  | inputMissing _ => some FileFault.missing.className
  | inputUnreadable _ fault => some fault.className
  | script failure => failure.causeName?
  | unwritable _ fault _ => some fault.className
  | _ => none

def reason : CompileFault → String
  | inputUnreadable path fault => fault.text path
  | unwritable _ fault place => fault.text place
  | _ => ""

def messageWith? (fault : CompileFault) (reason : String) : Option String :=
  match fault with
  | wrongEnding ending allowed =>
    some (s!"Invalid file extension: {ending}. Only " ++ ", ".intercalate allowed ++
      " files are allowed.")
  | inputMissing path => some s!"Input file not found: {path.toString}"
  | inputUnreadable path _ => some s!"Cannot read {path.toString}: {reason}"
  | script failure => failure.message?
  | unsound errors => some (Diagnostic.errorsMessage errors)
  | minification errors =>
    some (s!"CSS minification failed with {errors.length} error(s): " ++ "; ".intercalate errors)
  | unwritable path _ _ => some s!"Cannot write {path.toString}: {reason}"
  | impossiblePath => none

def message? (fault : CompileFault) : Option String :=
  fault.messageWith? fault.reason

def ofWriteFault (output : Path) : WriteFault → CompileFault
  | .file .invalidName _ => .impossiblePath
  | .file fault place => .unwritable output fault place
  | .failedResult | .namelessOutput => .impossiblePath

end CompileFault

structure Compiler where
  /-- The endings of documents. -/
  extensions : List String
  engine : Engine
  minifier : Minifier
  runner : Runner
  memory : Script.Memory

structure Trace where
  space : Workspace
  log : Log

abbrev Stage := EStateM CompileFault Trace

namespace Stage

def note (records : Log) : Stage Unit :=
  modify fun trace => { trace with log := trace.log ++ records }

def ofExcept {ε α : Type} (fault : ε → CompileFault) : Except ε α → Stage α
  | .ok value => pure value
  | .error found => throw (fault found)

end Stage

namespace Compiler

def readDocument (compiler : Compiler) (input : Path) : Stage String := do
  let ending := Text.lowercase input.suffix
  if !compiler.extensions.contains ending then throw (.wrongEnding ending compiler.extensions)
  Stage.ofExcept
    (fun
      | .missing => .inputMissing input
      | .invalidName => .impossiblePath
      | fault => .inputUnreadable input fault)
    ((← get).space.readText input)

def expandDocument (compiler : Compiler) (input : Path) (source : String) : Stage String := do
  let space := (← get).space
  let base := (Path.resolve space.current input).parent
  let start := Script.World.start (some base) compiler.memory
  let (expanded, log, _) := expand ⟨space, compiler.extensions⟩ source start
  Stage.note log
  Stage.ofExcept .script expanded

def checkStyles (input : Path) (css : String) : Stage Unit := do
  let found ← Stage.ofExcept .unsound (Diagnostic.check css [])
  Stage.note (found.map fun diagnostic => ⟨.info, s!"{input.toString}: {diagnostic.text}"⟩)

def prefixStyles (compiler : Compiler) (input output : Path) (css : String) : Stage Output := do
  let (found, log) := compiler.engine.apply compiler.runner css input.toString output.toString
  Stage.note log
  return found

def inlineMap (compiler : Compiler) : Bool :=
  compiler.engine.config.inlineMap

def assembleStyles (compiler : Compiler) (output : Path) (given : Output) : Stage Output := do
  let (assembled, log) := assemble given output compiler.inlineMap compiler.minifier
  Stage.note log
  Stage.ofExcept
    (fun
      | .minification errors => .minification errors
      | .namelessOutput => .impossiblePath)
    assembled

def writeStyles (compiler : Compiler) (output : Path) (made : Output) : Stage Unit := do
  let trace ← get
  let (written, space) := writeOutput trace.space made output compiler.inlineMap
  set { trace with space := space }
  Stage.ofExcept (.ofWriteFault output) written
  let size := (made.css.getD "").length
  Stage.note [⟨.info, s!"Wrote {output.toString} ({size} bytes)"⟩]

/-- Makes the style sheet for `output` from the document at `input`, without writing it. -/
def make (compiler : Compiler) (input output : Path) : Stage Output := do
  let source ← compiler.readDocument input
  let css ← compiler.expandDocument input source
  checkStyles input css
  let given ← compiler.prefixStyles input output css
  compiler.assembleStyles output given

def run (compiler : Compiler) (input output : Path) : Stage Output := do
  let made ← compiler.make input output
  compiler.writeStyles output made
  return made

def runOn (compiler : Compiler) (space : Workspace) (input output : Path) :
    Except CompileFault Output × Workspace × Log :=
  match compiler.run input output ⟨space, []⟩ with
  | .ok made trace => (.ok made, trace.space, trace.log)
  | .error fault trace => (.error fault, trace.space, trace.log)

end Compiler

end SheetScript.Compile
