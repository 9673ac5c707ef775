import SheetScript.Files.Workspace
import SheetScript.Prefix.Lookup

/-!
Capability data: which browsers there are, their versions, and how well each version supports a
feature.

The data is whatever its file holds; a place of the wrong shape shows when it is looked at.
-/

namespace SheetScript.Prefix

open SheetScript.Files SheetScript.Number

structure Dataset where
  agents : Json
  features : Json
  deriving Inhabited

structure BrowserVersion where
  version : String
  usage : Binary64
  released : Bool
  deriving DecidableEq, Repr

namespace Dataset

def ofJson (data : Json) : Except DataFault Dataset := do
  let agents ← lookup data "agents"
  let features ← lookup data "data"
  return ⟨agents.getD (.object []), features.getD (.object [])⟩

/-- Where the data is looked for when no place is named, relative to the current directory. -/
def usualPlaces : List String :=
  ["node_modules/caniuse-db/fulldata-json/data-2.0.json", "node_modules/caniuse-db/data.json"]

/-- The places to look: the given one, else the one the environment names, else the usual ones. -/
def places (given environment : Option String) : List Path :=
  match given.filter (· != ""), environment.filter (· != "") with
  | some place, _ => [Path.ofString place]
  | none, some place => [Path.ofString place]
  | none, none => usualPlaces.map Path.ofString

def load (space : Workspace) (path : Path) : Except DataFault Dataset :=
  match space.readText path with
  | .ok text =>
    match Json.read? text.toList with
    | some data =>
      if Json.hasLongInteger text.toList then .error .integerTooLong else ofJson data
    | none => .error .malformed
  | .error _ => .error .undecodable

def discover (space : Workspace) (given environment : Option String) :
    Except DataFault (Option Dataset) :=
  match (places given environment).find? space.isFile with
  | some place => (load space place).map some
  | none => .ok none

def support (dataset : Dataset) (feature : String) : Except DataFault Json := do
  match ← lookup dataset.features feature with
  | none | some .null => return .null
  | some found => return (← lookup found "stats").getD (.object [])

def browsers (dataset : Dataset) : Except DataFault (List Json) := do
  sortItems (← items dataset.agents)

def vendor (dataset : Dataset) (browser : String) : Except DataFault Json := do
  let agent ← lookup dataset.agents browser
  return (← lookup (agent.getD (.object [])) "prefix").getD .null

def entryVersion (entry : Json) : Except DataFault BrowserVersion := do
  let version ← demand entry "version"
  let usage ← number ((← lookup entry "global_usage").getD .null)
  let date ← lookup entry "release_date"
  let released :=
    match date with
    | some .null => false
    | _ => true
  return ⟨display version, usage, released⟩

def namedVersion (usages version : Json) : Except DataFault BrowserVersion := do
  let found ←
    match usages, version with
    | .object fields, .string name => pure (Assoc.get? fields name)
    | .object _, .array _ => throw (.notAKey (kind version))
    | .object _, .object _ => throw (.notAKey (kind version))
    | .object _, _ => pure none
    | other, _ => throw (.unsupported (kind other) "get")
  return ⟨display version, ← number (found.getD .null), true⟩

def versions (dataset : Dataset) (browser : String) : Except DataFault (List BrowserVersion) := do
  match ← lookup dataset.agents browser with
  | none | some .null => return []
  | some agent =>
    if ← holds agent "version_list" then
      (← items (← demand agent "version_list")).mapM entryVersion
    else
      let usages := (← lookup agent "usage_global").getD (.object [])
      let named ← items ((← lookup agent "versions").getD (.array []))
      (named.filter fun
        | .null => false
        | _ => true).mapM (namedVersion usages)

def releasedVersions (dataset : Dataset) (browser : String) : Except DataFault (List String) := do
  return ((← dataset.versions browser).filter BrowserVersion.released).map BrowserVersion.version

end Dataset

end SheetScript.Prefix
