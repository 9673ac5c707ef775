import SheetScript.Css.Component

/-! Rules: the top level of a style sheet, and the contents of blocks that hold rules. -/

namespace SheetScript.Css

inductive Rule
  | qualified (prelude content : List Component)
  | atRule (keyword : List Char) (prelude : List Component) (content : Option (List Component))
  /-- A prelude without a block; the offset is that of its last component. -/
  | unfinished (offset : Nat)

/-- What is being read among rules, components newest first. -/
inductive RulePart
  | between
  | prelude (last : Component) (before : List Component)
  | atPrelude (keyword : List Char) (before : List Component)

section

-- Whether marks of a surrounding document, `<!--` and `-->`, are passed over.
variable (passMarks : Bool)

def beginRule (component : Component) : RulePart ⊕ Rule :=
  match component with
  | .leaf _ (.blank _) => .inl .between
  | .leaf _ (.atKeyword keyword) => .inl (.atPrelude keyword [])
  | .block _ .curly content => .inr (.qualified [] content)
  | component =>
    if passMarks && (component.isMark "<!--" || component.isMark "-->") then .inl .between
    else .inl (.prelude component [])

def RulePart.read (part : RulePart) (component : Component) : RulePart ⊕ Rule :=
  match part with
  | .between => beginRule passMarks component
  | .prelude last before =>
    match component with
    | .block _ .curly content => .inr (.qualified (last :: before).reverse content)
    | component => .inl (.prelude component (last :: before))
  | .atPrelude keyword before =>
    match component with
    | .block _ .curly content => .inr (.atRule keyword before.reverse (some content))
    | component =>
      if component.isMark ";" then .inr (.atRule keyword before.reverse none)
      else .inl (.atPrelude keyword (component :: before))

def RulePart.atEnd : RulePart → List Rule
  | .between => []
  | .prelude last _ => [.unfinished last.offset]
  | .atPrelude keyword before => [.atRule keyword before.reverse none]

def rulesAfter (part : RulePart) : List Component → List Rule
  | [] => part.atEnd
  | component :: rest =>
    match part.read passMarks component with
    | .inl part => rulesAfter part rest
    | .inr rule => rule :: rulesAfter .between rest

end

def sheetRules (components : List Component) : List Rule :=
  rulesAfter true .between components

theorem sizeOf_content_of_read {passMarks : Bool} {part : RulePart} {component : Component}
    {keyword : List Char} {prelude content : List Component}
    (found : part.read passMarks component = .inr (.atRule keyword prelude (some content))) :
    sizeOf content < sizeOf component := by
  unfold RulePart.read beginRule at found
  grind

theorem sizeOf_content_of_mem {passMarks : Bool} {part : RulePart} {components : List Component}
    {keyword : List Char} {prelude content : List Component}
    (found : .atRule keyword prelude (some content) ∈ rulesAfter passMarks part components) :
    sizeOf content < sizeOf components := by
  induction components generalizing part with
  | nil => cases part <;> simp [rulesAfter, RulePart.atEnd] at found
  | cons component rest ih =>
    unfold rulesAfter at found
    split at found
    next =>
      have := ih found
      simp only [List.cons.sizeOf_spec]; omega
    next rule isRule =>
      rcases List.mem_cons.1 found with isFirst | later
      · have := sizeOf_content_of_read (isFirst ▸ isRule)
        simp only [List.cons.sizeOf_spec]; omega
      · have := ih later
        simp only [List.cons.sizeOf_spec]; omega

end SheetScript.Css
