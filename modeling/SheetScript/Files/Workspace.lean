import SheetScript.Files.Path
import SheetScript.Files.Utf8
import SheetScript.Text.Quoted

/-!
The files a run can see: a table of absolute locations, and the directory that relative paths start
from. Reading and writing are functions of this table, so what a run changes is the difference of
two tables.
-/

namespace SheetScript.Files

inductive Entry
  | directory
  | file (bytes : ByteArray)
  deriving Inhabited

inductive FileFault
  | missing
  | isDirectory
  | notDirectory
  | undecodable (fault : Utf8Fault)
  /-- The path holds a NUL character. -/
  | invalidName
  deriving DecidableEq, Repr

namespace FileFault

def className : FileFault → String
  | missing => "FileNotFoundError"
  | isDirectory => "IsADirectoryError"
  | notDirectory => "NotADirectoryError"
  | undecodable _ => "UnicodeDecodeError"
  | invalidName => "ValueError"

def text (fault : FileFault) (path : Path) : String :=
  let name := Text.quoted path.toString
  match fault with
  | missing => s!"[Errno 2] No such file or directory: {name}"
  | isDirectory => s!"[Errno 21] Is a directory: {name}"
  | notDirectory => s!"[Errno 20] Not a directory: {name}"
  | undecodable fault => fault.message
  | invalidName => "embedded null byte"

end FileFault

abbrev Location := List String

structure Workspace where
  entries : List (Location × Entry)
  current : Location
  deriving Inhabited

namespace Workspace

/-- The entry at a location. The root is always a directory. -/
def entryAt? (space : Workspace) (location : Location) : Option Entry :=
  if location.isEmpty then some .directory else space.entries.lookup location

def put (location : Location) (entry : Entry) :
    List (Location × Entry) → List (Location × Entry)
  | [] => [(location, entry)]
  | first :: rest =>
    if first.1 = location then (location, entry) :: rest else first :: put location entry rest

def setEntry (space : Workspace) (location : Location) (entry : Entry) : Workspace :=
  { space with entries := put location entry space.entries }

def remove (space : Workspace) (location : Location) : Workspace :=
  { space with entries := space.entries.filter fun entry => entry.1 ≠ location }

/-- Follows names from a location; every name but the last has to be that of a directory. -/
def walk (space : Workspace) (location : Location) : List String → Except FileFault Location
  | [] => .ok location
  | name :: rest =>
    match space.entryAt? location with
    | some .directory =>
      space.walk (if name = ".." then location.dropLast else location ++ [name]) rest
    | some (.file _) => .error .notDirectory
    | none => .error .missing

/-- The location that a path denotes. The entry there need not exist, its directory has to. -/
def locate (space : Workspace) (path : Path) : Except FileFault Location :=
  if path.parts.any (·.toList.contains '\x00') then .error .invalidName
  else space.walk (if path.isAbsolute then [] else space.current) path.parts

def isFile (space : Workspace) (path : Path) : Bool :=
  match (space.locate path).map space.entryAt? with
  | .ok (some (.file _)) => true
  | _ => false

def isDirectory (space : Workspace) (path : Path) : Bool :=
  match (space.locate path).map space.entryAt? with
  | .ok (some .directory) => true
  | _ => false

def unifyLineEnds : List Char → List Char
  | '\r' :: '\n' :: rest => '\n' :: unifyLineEnds rest
  | '\r' :: rest => '\n' :: unifyLineEnds rest
  | c :: rest => c :: unifyLineEnds rest
  | [] => []

def decode (bytes : ByteArray) : Except FileFault String :=
  match String.fromUTF8? bytes with
  | some text => .ok (String.ofList (unifyLineEnds text.toList))
  | none => .error (.undecodable ((utf8Fault? 0 bytes.toList).getD ⟨0, 1, 0, .invalidStart⟩))

def readText (space : Workspace) (path : Path) : Except FileFault String := do
  match space.entryAt? (← space.locate path) with
  | some (.file bytes) => decode bytes
  | some .directory => throw .isDirectory
  | none => throw .missing

/-- Where a text can be written: in an existing directory, and not over a directory. -/
def writable (space : Workspace) (path : Path) : Except FileFault Location := do
  let location ← space.locate path
  match space.entryAt? location with
  | some .directory => throw .isDirectory
  | _ =>
    match space.entryAt? location.dropLast with
    | some .directory => return location
    | some (.file _) => throw .notDirectory
    | none => throw .missing

def writeText (space : Workspace) (path : Path) (text : String) : Except FileFault Workspace := do
  return space.setEntry (← space.writable path) (.file text.toUTF8)

def addDirectory (space : Workspace) (location : Location) : Workspace :=
  (List.range location.length).foldl
    (fun space depth => space.setEntry (location.take (depth + 1)) .directory) space

def addFile (space : Workspace) (location : Location) (bytes : ByteArray) : Workspace :=
  (space.addDirectory location.dropLast).setEntry location (.file bytes)

end Workspace

end SheetScript.Files
