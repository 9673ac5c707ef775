import SheetScript.Css.Squeeze
import SheetScript.Files.Workspace
import SheetScript.Log
import SheetScript.Output

/-! The last stages of a run: squeezing a style sheet, naming its source map, writing both. -/

namespace SheetScript.Compile

open SheetScript.Files

abbrev Minifier := String → Css.Minified

/-- The file beside a style sheet that holds its source map; a path without a name has none. -/
def mapPath? (path : Path) : Option Path :=
  path.withEnding? ".map"

def inlineNoteAt? (text : List Char) : Option (List Char) :=
  let start := "/*# sourceMappingURL=data:".toList
  let data := (text.drop start.length).takeWhile (· != '*')
  let rest := text.drop (start.length + data.length)
  if start.isPrefixOf text && ['*', '/'].isPrefixOf rest then some (start ++ data ++ ['*', '/'])
  else none

def inlineNote? : List Char → Option (List Char)
  | [] => none
  | c :: rest => inlineNoteAt? (c :: rest) <|> inlineNote? rest

def hasMapFile (map : Option String) (inlineMap : Bool) : Bool :=
  map.any (· != "") && !inlineMap

def minificationLog (errors : List String) : Log :=
  errors.map fun error => ⟨.error, s!"CSS minification error: {error}"⟩

inductive AssemblyFault
  | minification (errors : List String)
  /-- The output has no name to call its source map after. -/
  | namelessOutput
  deriving DecidableEq, Repr

/--
Squeezes a style sheet and adds a note on its source map: one that holds the map is carried over
when maps go inline, else a map that goes into a file is named.
-/
def assemble (given : Output) (path : Path) (inlineMap : Bool) (minifier : Minifier) :
    Except AssemblyFault Output × Log :=
  let css := given.css.getD ""
  let minified := minifier css
  if !minified.errors.isEmpty then
    (.error (.minification minified.errors), minificationLog minified.errors)
  else
    match if inlineMap then inlineNote? css.toList else none with
    | some note =>
      (.ok ⟨some (minified.styles ++ "\n" ++ String.ofList note), given.map⟩, [])
    | none =>
      if hasMapFile given.map inlineMap then
        match mapPath? path with
        | some mapPath =>
          let note := s!"\n/*# sourceMappingURL={mapPath.name} */"
          (.ok ⟨some (minified.styles ++ note), given.map⟩, [])
        | none => (.error .namelessOutput, [])
      else (.ok ⟨some minified.styles, given.map⟩, [])

inductive WriteFault
  /-- There is nothing to write. -/
  | failedResult
  | file (fault : FileFault) (path : Path)
  | namelessOutput

namespace WriteFault

def className : WriteFault → String
  | failedResult | namelessOutput => "ValueError"
  | file fault _ => fault.className

def message? : WriteFault → Option String
  | failedResult => some "cannot write a failed result"
  | _ => none

end WriteFault

def writeText (space : Workspace) (path : Path) (text : String) :
    Except WriteFault Unit × Workspace :=
  match space.writeText path text with
  | .ok after => (.ok (), after)
  | .error fault => (.error (.file fault path), space)

def writeOutput (space : Workspace) (output : Output) (path : Path) (inlineMap : Bool) :
    Except WriteFault Unit × Workspace :=
  match output.css with
  | none => (.error .failedResult, space)
  | some css =>
    match writeText space path css with
    | (.error fault, after) => (.error fault, after)
    | (.ok (), after) =>
      if hasMapFile output.map inlineMap then
        match mapPath? path with
        | some mapPath => writeText after mapPath (output.map.getD "")
        | none => (.error .namelessOutput, after)
      else (.ok (), after)

end SheetScript.Compile
