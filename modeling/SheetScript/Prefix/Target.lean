import SheetScript.Prefix.Dataset
import SheetScript.Prefix.Query

/-!
Targets: the browser versions that queries select.

Clauses count in order: one adds what it selects, a negative one takes away from what is selected so
far. The answer is sorted by browser, number and text of the version.
-/

namespace SheetScript.Prefix

open SheetScript.Number SheetScript.Text

structure Target where
  browser : String
  version : String
  deriving DecidableEq, Repr

inductive TargetFault
  | unknownBrowser (name : String)
  | unknownVersion (version browser : String)
  | unreadable (query : String)
  | data (fault : DataFault)
  deriving DecidableEq, Repr

namespace TargetFault

def className : TargetFault → String
  | data fault => fault.className
  | _ => "TargetQueryError"

def message : TargetFault → String
  | unknownBrowser name => s!"Unknown browser {quoted name}"
  | unknownVersion version browser => s!"Unknown version {version} of {browser}"
  | unreadable query => s!"Unknown browser query {quoted query}"
  | data fault => fault.message

end TargetFault

def browserAliases : Assoc String :=
  [("fx", "firefox"), ("ff", "firefox"), ("ios", "ios_saf"), ("explorer", "ie"),
    ("blackberry", "bb"), ("explorermobile", "ie_mob"), ("operamini", "op_mini"),
    ("operamobile", "op_mob"), ("chromeandroid", "and_chr"), ("firefoxandroid", "and_ff"),
    ("ucandroid", "and_uc"), ("qqandroid", "and_qq")]

def extendedSupportVersions : List String := ["115", "128"]

def defaultClauses : List Clause :=
  [⟨false, .usage .above "0.5"⟩, ⟨false, .last 2⟩, ⟨false, .extendedSupport⟩, ⟨true, .dead⟩]

def isDead (browser version : String) : Bool :=
  let atMost (limit : Decimal) :=
    (versionNumber? version).any fun number => number.le limit.toBinary64
  ["ie", "ie_mob", "bb", "baidu"].contains browser ||
    (browser == "op_mob" && atMost ⟨false, 121, -1⟩) ||
    (browser == "samsung" && atMost ⟨false, 4, 0⟩)

/-- A version's text, or a part of it between hyphens, is the wanted one, whatever the case. -/
def namesVersion (wanted version : String) : Bool :=
  let plain := lowercase version
  plain == wanted || (splitAt '-' plain.toList).contains wanted.toList

/-- The last `count` items; no count at all means every item. -/
def lastItems {α : Type} (count : Nat) (row : List α) : List α :=
  if count = 0 then row else row.drop (row.length - count)

namespace Dataset

variable (dataset : Dataset)

def browser (name : String) : Except TargetFault String := do
  let known ← (dataset.browsers).mapError TargetFault.data
  let isKnown (name : String) := known.any fun
    | .string browser => browser == name
    | _ => false
  let plain := lowercase name
  if isKnown plain then return plain
  else
    match (browserAliases.get? plain).filter isKnown with
    | some browser => return browser
    | none => throw (.unknownBrowser name)

def chosenOf (browser : String) (choice : List String → List String) :
    Except TargetFault (List Target) := do
  let versions ← (dataset.releasedVersions browser).mapError TargetFault.data
  return (choice versions).map (⟨browser, ·⟩)

def chosen (choice : String → List BrowserVersion → List BrowserVersion) :
    Except TargetFault (List Target) := do
  let browsers ← (dataset.browsers).mapError TargetFault.data
  let found ← browsers.mapM fun browser => do
    let name := display browser
    let versions ← (dataset.versions name).mapError TargetFault.data
    return (choice name (versions.filter BrowserVersion.released)).map (⟨name, ·.version⟩)
  return found.flatten

def selectPlain (query : Query) : Except TargetFault (List Target) := do
  match query with
  | .defaults => return []
  | .dead => dataset.chosen fun name versions => versions.filter fun v => isDead name v.version
  | .extendedSupport =>
    dataset.chosenOf (← dataset.browser "firefox") fun versions =>
      extendedSupportVersions.filter versions.contains
  | .usage comparison limit =>
    let limit ← (readNumber limit).mapError TargetFault.data
    dataset.chosen fun _ versions => versions.filter fun v => comparison.holds v.usage limit
  | .last count =>
    dataset.chosen fun _ versions => lastItems count versions
  | .lastOf count name => dataset.chosenOf (← dataset.browser name) (lastItems count)
  | .longCount digits => throw (.data (.countTooLong digits))
  | .compared name comparison limit =>
    let browser ← dataset.browser name
    let limit ← (readNumber limit).mapError TargetFault.data
    dataset.chosenOf browser fun versions => versions.filter fun version =>
      (versionNumber? version).any fun number => comparison.holds number limit
  | .between name low high =>
    let browser ← dataset.browser name
    let low ← (readNumber low).mapError TargetFault.data
    let high ← (readNumber high).mapError TargetFault.data
    dataset.chosenOf browser fun versions => versions.filter fun version =>
      (versionNumber? version).any fun number => low.le number && number.le high
  | .exact name version =>
    let browser ← dataset.browser name
    let found ← dataset.chosenOf browser fun versions =>
      versions.filter (namesVersion (lowercase version))
    if found.isEmpty then throw (.unknownVersion version browser) else return found
  | .unreadable text => throw (.unreadable text)

def applyClause (selected : List Target) (negative : Bool) (found : List Target) : List Target :=
  if negative then selected.filter fun target => !found.contains target
  else selected ++ found.filter fun target => !selected.contains target

def selectClauses (select : Query → Except TargetFault (List Target)) :
    List Clause → List Target → Except TargetFault (List Target)
  | [], selected => .ok selected
  | clause :: rest, selected => do
    let found ← select clause.query
    selectClauses select rest (applyClause selected clause.negative found)

def select (query : Query) : Except TargetFault (List Target) :=
  match query with
  | .defaults => selectClauses dataset.selectPlain defaultClauses []
  | query => dataset.selectPlain query

end Dataset

/-- The number to sort a version by; one without a number comes first. -/
def sortNumber (version : String) : Binary64 :=
  (versionNumber? version).getD (.finite true Binary64.one)

/-- Order by browser, then number of the version, then its text. -/
def Target.precedes (left right : Target) : Bool :=
  if left.browser ≠ right.browser then left.browser < right.browser
  else if (sortNumber left.version).lt (sortNumber right.version) then true
  else if (sortNumber right.version).lt (sortNumber left.version) then false
  else !(right.version < left.version)

def resolve (dataset : Dataset) (queries : List String) : Except TargetFault (List Target) := do
  let selected ← Dataset.selectClauses dataset.select (queries.flatMap clauses) []
  return selected.eraseDups.mergeSort Target.precedes

end SheetScript.Prefix
