import SheetScript.Prefix.Target

/-!
Which prefixes a property needs for a list of targets, and which declarations go before one of its
declarations.
-/

namespace SheetScript.Prefix

open SheetScript.Number SheetScript.Text

def commonProperties : List String :=
  ["transform", "transform-origin", "transform-style",
    "transition", "transition-property", "transition-duration", "transition-timing-function",
    "animation", "animation-name", "animation-duration", "animation-timing-function",
    "animation-delay", "animation-iteration-count", "animation-direction",
    "animation-fill-mode", "animation-play-state",
    "backdrop-filter", "filter",
    "user-select", "appearance",
    "text-fill-color", "text-stroke", "text-stroke-color", "text-stroke-width",
    "background-clip",
    "mask-image", "mask-clip", "mask-composite", "mask-origin",
    "mask-position", "mask-repeat", "mask-size",
    "box-shadow", "border-radius", "box-sizing",
    "display", "flex", "flex-grow", "flex-shrink", "flex-basis",
    "justify-content", "align-items", "align-self", "align-content",
    "grid", "grid-template", "grid-column", "grid-row"]

def features : Assoc String :=
  [("transform", "transforms2d"), ("transform-origin", "transforms2d"),
    ("transform-style", "transforms3d"), ("perspective", "transforms3d"),
    ("backface-visibility", "transforms3d"), ("transition", "css-transitions"),
    ("animation", "css-animation"), ("backdrop-filter", "backdrop-filter"),
    ("filter", "css-filters"), ("user-select", "user-select-none"),
    ("appearance", "css-appearance"), ("mask-image", "css-masks"),
    ("box-shadow", "css-boxshadow"), ("border-radius", "border-radius"),
    ("text-fill-color", "text-stroke"), ("text-stroke", "text-stroke"),
    ("background-clip", "background-img-opts"), ("flex", "flexbox"), ("flex-grow", "flexbox"),
    ("flex-shrink", "flexbox"), ("flex-basis", "flexbox"), ("justify-content", "flexbox"),
    ("align-items", "flexbox"), ("grid", "css-grid"), ("grid-template", "css-grid"),
    ("grid-column", "css-grid"), ("grid-row", "css-grid")]

/-- Values whose older form is written differently, with the declarations that say the same. -/
def specialValues : Assoc (Assoc (List (String × String))) :=
  [("display",
      [("flex", [("display", "-webkit-flex"), ("display", "-ms-flexbox")]),
        ("inline-flex", [("display", "-webkit-inline-flex"), ("display", "-ms-inline-flexbox")]),
        ("grid", [("display", "-ms-grid")]),
        ("inline-grid", [("display", "-ms-inline-grid")])]),
    ("background-clip", [("text", [("-webkit-background-clip", "text")])]),
    ("position", [("sticky", [("position", "-webkit-sticky")])])]

def browserPrefixes : Assoc String :=
  [("chrome", "webkit"), ("safari", "webkit"), ("firefox", "moz"), ("ie", "ms"),
    ("edge", "webkit"), ("ios_saf", "webkit"), ("and_chr", "webkit"), ("android", "webkit"),
    ("opera", "webkit"), ("op_mob", "webkit"), ("samsung", "webkit"), ("and_ff", "moz")]

def keyNumber? (key : Json) : Except DataFault (Option (Binary64 × String)) :=
  match key with
  | .string text => .ok ((versionNumber? text).map (·, text))
  | other => .error (.unsupported (kind other) "split")

def keyPrecedes (left right : Binary64 × String) : Bool :=
  if left.1.lt right.1 then true
  else if right.1.lt left.1 then false
  else !(right.2 < left.2)

/--
The support of a version in a browser's table: its own entry, else that of the nearest known version
below, else that of the lowest known one.
-/
def closestSupport (table : Json) (version : String) : Except DataFault Json := do
  if ← holds table version then demand table version
  else
    let numbered ← (← items table).filterMapM keyNumber?
    let known := numbered.mergeSort keyPrecedes
    match versionNumber? version, known with
    | some wanted, lowest :: _ =>
      let older := known.filter fun entry => entry.1.le wanted
      demand table ((older.getLast?).getD lowest).2
    | _, _ => return .null

def needsPrefix (flags : Json) : Except DataFault Bool :=
  if isAbsent flags then .ok false
  else
    match flags with
    | .string text => .ok ((fields text).contains "x")
    | other => .error (.unsupported (kind other) "split")

structure Tables where
  dataset : Option Dataset
  targets : Except TargetFault (List Target)

namespace Tables

def ofQueries (dataset : Option Dataset) (queries : List String) : Tables :=
  ⟨dataset, dataset.elim (.ok []) (resolve · queries)⟩

def prefixFor? (support : Json) (target : Target) : Except DataFault (Option String) := do
  let table := (← lookup support target.browser).getD .null
  if isAbsent table then return none
  else if ← needsPrefix (← closestSupport table target.version) then
    return browserPrefixes.get? target.browser
  else return none

/-- The prefixes that a property needs, each once, in the order of the targets. -/
def vendorPrefixes (tables : Tables) (property : String) : Except TargetFault (List String) := do
  match tables.dataset, if commonProperties.contains property then features.get? property else none
    with
  | some dataset, some feature =>
    let support ← (dataset.support feature).mapError TargetFault.data
    if isAbsent support then return []
    else
      let found ← (← tables.targets).filterMapM fun target =>
        (prefixFor? support target).mapError TargetFault.data
      return found.eraseDups
  | _, _ => return []

def prefixedDeclarations (tables : Tables) (property value : String) :
    Except TargetFault (List (String × String)) := do
  let vendors ← tables.vendorPrefixes property
  let plain := vendors.map fun vendor => (s!"-{vendor}-{property}", value)
  let special := (((specialValues.get? property).getD []).get? (lowercase value)).getD []
  return plain ++ special.filter fun declaration => !plain.contains declaration

end Tables

end SheetScript.Prefix
