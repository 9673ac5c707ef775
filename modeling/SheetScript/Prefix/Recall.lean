import SheetScript.Prefix.Engine

/-!
Prefixing one style sheet after another. Tables look for their targets when a property first needs
them, and keep the ones they find; targets that cannot be found are looked for again.
-/

namespace SheetScript.Prefix

open SheetScript.Css SheetScript.Text

abbrev Kept := Option (List Target)

abbrev Recall := EStateM TargetFault Kept

namespace Tables

/-- The kept targets, else those of the tables, which are kept from then on. -/
def recallTargets (tables : Tables) : Recall (List Target) := do
  match ← get with
  | some targets => return targets
  | none =>
    let targets ← ofExcept tables.targets
    set (some targets)
    return targets

def consults (tables : Tables) (property : String) : Bool :=
  match tables.dataset, if commonProperties.contains property then features.get? property else none
    with
  | some dataset, some feature => (dataset.support feature).toOption.any (!isAbsent ·)
  | _, _ => false

/-- What to put in before a declaration; only one that depends on the targets asks for them. -/
def recallInsertion? (tables : Tables) (source : List Char) (declaration : Declaration) :
    Recall (Option Insertion) := do
  let targets ←
    if tables.consults (asciiLowercase (String.ofList declaration.name)) then tables.recallTargets
    else pure []
  ofExcept (insertion? { tables with targets := .ok targets } source declaration)

def recallApply (tables : Tables) (css : String) : Recall String := do
  match tables.dataset with
  | none => return css
  | some _ =>
    let source := normalise css.toList
    let added ← (sheetDeclarations (components source)).filterMapM (tables.recallInsertion? source)
    return String.ofList (insertAll source added)

end Tables

def Strategy.recall (strategy : Strategy) (runner : Runner) (css source target : String)
    (kept : Kept) : Except StrategyFault Output × Kept :=
  match strategy with
  | .tables own =>
    match own.recallApply css kept with
    | .ok styles later => (.ok ⟨some styles, none⟩, later)
    | .error fault later => (.error (.target fault), later)
  | .external _ | .other .. => (strategy.apply runner css source target, kept)

def Engine.recall (engine : Engine) (runner : Runner) (css source target : String) (kept : Kept) :
    (Output × Log) × Kept :=
  if engine.config.enabled then
    let (outcome, later) := engine.strategy.recall runner css source target kept
    let settled := { engine with strategy := .other engine.strategy.name fun _ => outcome }
    (settled.apply runner css source target, later)
  else (engine.apply runner css source target, kept)

end SheetScript.Prefix
