/-!
File paths: leading slashes and the names between slashes. Empty names and `.` do not count, `..`
stays until a path is resolved.
-/

namespace SheetScript.Files

structure Path where
  /-- The slashes in front: none for a relative path, one, or exactly two. -/
  slashes : Nat
  parts : List String
  deriving DecidableEq, Repr, Inhabited

namespace Path

/-- The names between slashes; `name` is the one being read, last character first. -/
def split (name : List Char) : List Char → List String
  | [] => [String.ofList name.reverse]
  | c :: rest =>
    if c == '/' then String.ofList name.reverse :: split [] rest else split (c :: name) rest

def ofString (text : String) : Path where
  slashes :=
    match text.toList with
    | '/' :: '/' :: '/' :: _ => 1
    | '/' :: '/' :: _ => 2
    | '/' :: _ => 1
    | _ => 0
  parts := (split [] text.toList).filter fun name => name != "" && name != "."

def toString (path : Path) : String :=
  if path.slashes = 0 && path.parts.isEmpty then "."
  else String.ofList (List.replicate path.slashes '/') ++ "/".intercalate path.parts

def isAbsolute (path : Path) : Bool :=
  path.slashes ≠ 0

/-- An absolute `path` stands for itself, a relative one starts at `base`. -/
def join (base path : Path) : Path :=
  if path.isAbsolute then path else { base with parts := base.parts ++ path.parts }

def name (path : Path) : String :=
  path.parts.getLast?.getD ""

def parent (path : Path) : Path :=
  { path with parts := path.parts.dropLast }

/-- The end of a name from its last point on; a point at either end of the name starts none. -/
def suffixOf (name : String) : String :=
  let reversed := name.toList.reverse
  let ending := reversed.takeWhile (· != '.')
  if ending.isEmpty || reversed.length ≤ ending.length + 1 then ""
  else String.ofList ('.' :: ending.reverse)

def suffix (path : Path) : String :=
  suffixOf path.name

/-- The path beside `path` with `ending` added to the name; a path without a name has none. -/
def withEnding? (path : Path) (ending : String) : Option Path :=
  if path.parts.isEmpty then none
  else some { path with parts := path.parts.dropLast ++ [path.name ++ ending] }

/-- The names left when each `..` takes back the name before it. -/
def collapse (parts : List String) : List String :=
  (parts.foldl (fun kept name => if name = ".." then kept.drop 1 else name :: kept) []).reverse

def resolve (current : List String) (path : Path) : Path :=
  ⟨1, collapse (if path.isAbsolute then path.parts else current ++ path.parts)⟩

end Path

end SheetScript.Files
