import SheetScript.Document.Segment
import SheetScript.Script.Evaluate

/-!
Imports. `get` runs the scripts of another document and collects the names they declare. What the
importer has emitted, the directory that imports start from and the files being imported are the same
again afterwards, whether the import succeeds or fails.
-/

namespace SheetScript.Script

open SheetScript.Document SheetScript.Files

namespace Import

def resolve (setting : Setting) (base : Option Path) (name : String) : Path :=
  let path := Path.ofString name
  Path.resolve setting.workspace.current ((base.map (·.join path)).getD path)

/-- The file that a name stands for; it has to exist, and must not be being imported. -/
def locate (setting : Setting) (base : Option Path) (importing : List Path) (name : String) :
    Except ScriptFault Path :=
  let resolved := resolve setting base name
  if !setting.extensions.contains (Text.lowercase (Path.ofString name).suffix) then
    .error (.importSuffix name setting.extensions)
  else if resolved.parts.any (·.toList.contains '\x00') then .error .importNameInvalid
  else if !setting.workspace.isFile resolved then
    .error (.importMissing name resolved.toString)
  else if importing.contains resolved then
    .error (.importCircle ((importing ++ [resolved]).map Path.toString))
  else .ok resolved

def find (setting : Setting) (name : String) : Step Path := do
  let world ← get
  match locate setting world.base world.importing name with
  | .ok path => pure path
  | .error fault => throw fault

/--
Runs a step while a file is being imported. On either exit the file comes off the list of those being
imported, and the output and the base that were put aside come back.
-/
def during (path : Path) (step : Step Value) : Step Value := fun world =>
  let restore (after : World) : World :=
    { after with
      output := world.output
      base := world.base
      importing := after.importing.dropLast }
  match step { world with base := some path.parent, importing := world.importing ++ [path] } with
  | .ok value after => .ok value (restore after)
  | .error fault after => .error fault (restore after)

def namespaceOf (script : String → Step Scope) (names : Scope) : List Segment → Step Scope
  | [] => pure names
  | segment :: rest =>
    if segment.isScript then do namespaceOf script (names.setAll (← script segment.text)) rest
    else namespaceOf script names rest

def load (setting : Setting) (script : String → Step Scope) (path : Path) : Step Value :=
  during path do
    match setting.workspace.readText path with
    | .ok source => Step.makeObject (← namespaceOf script [] (split source))
    | .error _ => throw .importUndecodable

/--
Imports the file that a value names, with at most `depth` imports inside one another. Files being
imported are distinct, so a depth of the number of files is never exhausted.
-/
def importFile (setting : Setting) : Nat → Value → Step Value
  | depth, value => do
    let world ← get
    match value.display? world.store world.objects with
    | none => throw .integerTooLong
    | some name =>
      let path ← find setting name
      match depth with
      | 0 => throw (.importCircle [path.toString])
      | depth + 1 => load setting (Evaluate.script (importFile setting depth)) path

end Import

def runScript (setting : Setting) (source : String) : Step Scope :=
  Evaluate.script (Import.importFile setting setting.workspace.entries.length) source

end SheetScript.Script
