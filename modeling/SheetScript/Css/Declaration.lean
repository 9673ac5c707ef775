import SheetScript.Css.Rule

/-! Declarations: a name, a colon and a value, as found in the blocks of a style sheet. -/

namespace SheetScript.Css

structure Declaration where
  /-- Where the name begins. -/
  offset : Nat
  name : List Char
  value : List Component
  important : Bool

inductive ValueEnding
  | plain
  /-- With an exclamation mark; `before` is what comes before it, newest first. -/
  | bang (before : List Component)
  | important (before : List Component)

/-- A value being read, newest component first. -/
structure ValueRead where
  read : List Component
  ending : ValueEnding
  filled : Bool
  /-- A block in braces stands after something else. -/
  blockBehind : Bool

namespace ValueRead

def start : ValueRead := ⟨[], .plain, false, false⟩

def isImportant : Component → Bool
  | .leaf _ (.ident name) => name.map Char.toLower == "important".toList
  | _ => false

def isCurly : Component → Bool
  | .block _ .curly _ => true
  | _ => false

def add (value : ValueRead) (component : Component) : ValueRead :=
  let next := { value with read := component :: value.read }
  let plain := { next with
    ending := .plain
    filled := true
    blockBehind := value.blockBehind || (isCurly component && value.filled) }
  if component.isBlank then next
  else
    match value.ending with
    | .plain =>
      if component.isMark "!" then { next with ending := .bang value.read } else plain
    | .bang before =>
      if isImportant component then { next with ending := .important before } else plain
    | .important _ => plain

end ValueRead

def Declaration.ofComponents? (components : List Component) : Option Declaration :=
  match components with
  | .leaf offset (.ident name) :: rest =>
    match rest.dropWhile Component.isBlank with
    | colon :: value =>
      let found := value.foldl ValueRead.add .start
      if !colon.isMark ":" || found.blockBehind then none
      else
        match found.ending with
        | .important before => some ⟨offset, name, before.reverse, true⟩
        | _ => some ⟨offset, name, value, false⟩
    | [] => none
  | _ => none

inductive DeclarationPart
  | between
  /-- Components up to a semicolon, newest first. -/
  | components (read : List Component)
  /-- A rule among declarations, up to a semicolon or a block in braces. -/
  | atRule

/-- The declarations in a block; rules among them and what is malformed are passed over. -/
def declarationsAfter (part : DeclarationPart) : List Component → List Declaration
  | [] =>
    match part with
    | .components read => (Declaration.ofComponents? read.reverse).toList
    | _ => []
  | component :: rest =>
    match part with
    | .between =>
      match component with
      | .leaf _ (.blank _) => declarationsAfter .between rest
      | .leaf _ (.atKeyword _) => declarationsAfter .atRule rest
      | component =>
        if component.isMark ";" then declarationsAfter .between rest
        else declarationsAfter (.components [component]) rest
    | .components read =>
      if component.isMark ";" then
        (Declaration.ofComponents? read.reverse).toList ++ declarationsAfter .between rest
      else declarationsAfter (.components (component :: read)) rest
    | .atRule =>
      if component.isMark ";" || ValueRead.isCurly component then declarationsAfter .between rest
      else declarationsAfter .atRule rest

def blockDeclarations (content : List Component) : List Declaration :=
  declarationsAfter .between content

def withoutVendor (name : List Char) : List Char :=
  match name with
  | '-' :: rest =>
    let vendor := rest.takeWhile fun c => 'a' ≤ c && c ≤ 'z'
    match rest.drop vendor.length with
    | '-' :: plain => if vendor.isEmpty then name else plain
    | _ => name
  | name => name

/-- Rules whose block holds rules; the selectors of keyframes read as rules too. -/
def ruleListKeywords : List String :=
  ["media", "supports", "document", "layer", "container", "scope", "starting-style", "keyframes"]

def holdsRules (keyword : List Char) : Bool :=
  ruleListKeywords.contains (String.ofList (withoutVendor (keyword.map Char.toLower)))

/--
The declarations of the rules that components are, in the order of the source. Rules inside rules
are smaller than the components around them.
-/
def declarationsIn (passMarks : Bool) (components : List Component) : List Declaration :=
  (rulesAfter passMarks .between components).attach.flatMap fun
    | ⟨.qualified _ content, _⟩ => blockDeclarations content
    | ⟨.atRule keyword _ (some content), _isRule⟩ =>
      if holdsRules keyword then declarationsIn false content else blockDeclarations content
    | _ => []
termination_by sizeOf components
decreasing_by exact sizeOf_content_of_mem _isRule

def sheetDeclarations (components : List Component) : List Declaration :=
  declarationsIn true components

end SheetScript.Css
