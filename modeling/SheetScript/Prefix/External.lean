import SheetScript.Files.Workspace
import SheetScript.Number.Decimal
import SheetScript.Number.Shortest
import SheetScript.Text.Quoted

/-! Prefixing by another program, which reads one file and writes another. -/

namespace SheetScript.Prefix

open SheetScript.Files SheetScript.Number SheetScript.Text

structure External where
  browsers : List String
  sourceMap : Bool
  inlineMap : Bool
  command : String
  /-- Seconds to wait for the program. -/
  timeout : Binary64

structure Call where
  arguments : List String
  browsers : String
  files : Workspace
  timeout : Binary64

inductive CallOutcome
  /-- The program cannot be started, for a reason of some class. -/
  | notStarted (className reason : String)
  | timedOut
  /-- Calling the program fails in any other way. -/
  | raised (className reason : String)
  /-- The program ends, and these are the files then. -/
  | ended (status : Int) (errorText : String) (files : Workspace)

/-- The directory that is made for one call, and what that call leads to. -/
structure Runner where
  directory : Path
  run : Call → CallOutcome

inductive ExternalFault
  | notStarted (command className reason : String)
  | timedOut (call : Call)
  | raised (className reason : String)
  | failed (command : String) (status : Int) (errorText : String)
  /-- The output has no name, and its directory would be the one that there is. -/
  | namelessOutput (directory : Path)
  | file (fault : FileFault) (path : Path)

namespace ExternalFault

/-- What keeps the program from its work, or else what goes wrong around it. -/
def className : ExternalFault → String
  | notStarted .. | timedOut _ | failed .. => "PrefixingError"
  | raised className _ => className
  | namelessOutput _ => "FileExistsError"
  | file fault _ => fault.className

def causeName? : ExternalFault → Option String
  | notStarted _ className _ => some className
  | timedOut _ => some "TimeoutExpired"
  | _ => none

def timeoutText (call : Call) : String :=
  let arguments := ", ".intercalate (call.arguments.map quoted)
  s!"Command '[{arguments}]' timed out after {call.timeout.text} seconds"

def notRunText (command reason : String) : String :=
  s!"{command} failed to run: {reason}"

def message : ExternalFault → String
  | notStarted command _ reason => notRunText command reason
  | timedOut call => notRunText ((call.arguments.head?).getD "") (timeoutText call)
  | raised _ reason => reason
  | failed command status errorText =>
    s!"{command} exited with status {status}: {trim errorText}"
  | namelessOutput directory => s!"[Errno 17] File exists: {quoted directory.toString}"
  | file fault path => fault.text path

end ExternalFault

def isMapNote (text : List Char) : Bool :=
  let start := "/*# sourceMappingURL=".toList
  let address := text.drop start.length
  start.isPrefixOf text && !"data:".toList.isPrefixOf address &&
    match address.dropWhile (· != '*') with
    | '*' :: '/' :: rest => rest.all isBlank
    | _ => false

/-- A text without the note at its end, and without the line break before the note. -/
def withoutMapNote : List Char → List Char
  | [] => []
  | c :: rest =>
    if isMapNote (c :: rest) || (c == '\n' && isMapNote rest) then [] else c :: withoutMapNote rest

namespace External

def placeIn (directory : Path) (file : String) : Path :=
  directory.join (.ofString (Path.ofString file).name)

def outputDirectory (directory : Path) : Path :=
  directory.join ⟨0, ["out"]⟩

def prepare (directory : Path) (css source target : String) : Except ExternalFault Workspace :=
  if (Path.ofString target).name = "" then .error (.namelessOutput directory)
  else
    let place := placeIn directory source
    let empty : Workspace := ⟨[], []⟩
    ((empty.addDirectory (outputDirectory directory).parts).writeText place css).mapError
      (.file · place)

def call (external : External) (directory : Path) (files : Workspace) (source target : String) :
    Call where
  arguments :=
    [external.command, (placeIn directory source).toString, "--use", "autoprefixer",
      "--output", (placeIn (outputDirectory directory) target).toString] ++
      (if !external.sourceMap then ["--no-map"] else if !external.inlineMap then ["--map"] else [])
  browsers := ", ".intercalate external.browsers
  files := files
  timeout := external.timeout

def readOutput (files : Workspace) (place : Path) :
    Except ExternalFault (String × Option String) := do
  let read (place : Path) := (files.readText place).mapError (ExternalFault.file · place)
  let css ← read place
  match (place.withEnding? ".map").filter files.isFile with
  | none => return (css, none)
  | some mapPlace => return (String.ofList (withoutMapNote css.toList), some (← read mapPlace))

def apply (external : External) (runner : Runner) (css source target : String) :
    Except ExternalFault (String × Option String) := do
  let files ← prepare runner.directory css source target
  let call := external.call runner.directory files source target
  match runner.run call with
  | .notStarted className reason => throw (.notStarted external.command className reason)
  | .timedOut => throw (.timedOut call)
  | .raised className reason => throw (.raised className reason)
  | .ended status errorText files =>
    if status ≠ 0 then throw (.failed external.command status errorText)
    else readOutput files (placeIn (outputDirectory runner.directory) target)

end External

end SheetScript.Prefix
