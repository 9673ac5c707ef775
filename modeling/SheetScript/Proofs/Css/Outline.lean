import SheetScript.Proofs.Css.Places

/-!
What a style sheet declares: its rules, one inside another, each with its declarations. Where
anything stands is left out, and so is how values are spaced at their ends.
-/

namespace SheetScript.Css

def Component.unplaced : Component → Component
  | .leaf _ found => .leaf 0 found
  | .fault _ found => .fault 0 found
  | .block _ bracket content => .block 0 bracket (bareList content)
  | .function _ name arguments => .function 0 name (bareList arguments)

theorem Component.bare_eq (component : Component) : component.bare = [component.unplaced] := by
  cases component with
  | leaf offset leaf => simp [Component.bare, Component.spliced, Component.unplaced]
  | fault offset fault => simp [Component.bare, Component.spliced, Component.unplaced]
  | block offset bracket content => simp [Component.bare, Component.spliced, Component.unplaced]
  | function offset name arguments => simp [Component.bare, Component.spliced, Component.unplaced]

theorem bareList_cons (component : Component) (rest : List Component) :
    bareList (component :: rest) = component.unplaced :: bareList rest := by
  rw [bareList, splicedList, ← Component.bare, Component.bare_eq]
  rfl

theorem bareList_eq_map (row : List Component) : bareList row = row.map Component.unplaced := by
  induction row with
  | nil => simp [splicedList]
  | cons component rest ih => rw [bareList_cons, ih, List.map_cons]

mutual

theorem Component.unplaced_unplaced (component : Component) :
    component.unplaced.unplaced = component.unplaced := by
  cases component with
  | leaf offset leaf => rfl
  | fault offset fault => rfl
  | block offset bracket content => simp only [Component.unplaced, bareList_bareList content]
  | function offset name arguments =>
      simp only [Component.unplaced, bareList_bareList arguments]

theorem bareList_bareList (row : List Component) : bareList (bareList row) = bareList row := by
  cases row with
  | nil => rfl
  | cons component rest =>
      rw [bareList_cons, bareList_cons, Component.unplaced_unplaced component,
        bareList_bareList rest]

end

/-! Spacing -/

/-- Puts a component before others; blanks that meet become one. -/
def joinBefore : Component → List Component → List Component
  | .leaf _ (.blank text), .leaf _ (.blank more) :: rest => .leaf 0 (.blank (text ++ more)) :: rest
  | component, rest => component :: rest

mutual

def Component.tidied : Component → Component
  | .leaf _ found => .leaf 0 found
  | .fault _ found => .fault 0 found
  | .block _ bracket content => .block 0 bracket (joined content)
  | .function _ name arguments => .function 0 name (joined arguments)

/-- Components without their offsets, in which no two blanks meet. -/
def joined : List Component → List Component
  | [] => []
  | component :: rest => joinBefore component.tidied (joined rest)

end

def strip {α : Type} (condition : α → Bool) (list : List α) : List α :=
  (list.dropWhile condition).rdropWhile condition

def tidy (value : List Component) : List Component :=
  strip Component.isBlank (joined value)

mutual

theorem Component.tidied_unplaced (component : Component) :
    component.unplaced.tidied = component.tidied := by
  cases component with
  | leaf offset leaf => simp [Component.unplaced, Component.tidied]
  | fault offset fault => simp [Component.unplaced, Component.tidied]
  | block offset bracket content =>
      simp [Component.unplaced, Component.tidied, joined_bareList content]
  | function offset name arguments =>
      simp [Component.unplaced, Component.tidied, joined_bareList arguments]

theorem joined_bareList (row : List Component) : joined (bareList row) = joined row := by
  cases row with
  | nil => simp [splicedList]
  | cons component rest =>
      rw [bareList_cons, joined, joined, Component.tidied_unplaced component, joined_bareList rest]

end

/-! What is said -/

structure Content where
  name : List Char
  value : List Component
  important : Bool

def Declaration.content (declaration : Declaration) : Content :=
  ⟨declaration.name, tidy declaration.value, declaration.important⟩

inductive Outline
  | rule (prelude : List Component) (contents : List Content)
  | keyword (name : List Char) (prelude : List Component) (contents : List Content)
  | group (name : List Char) (prelude : List Component) (rules : List Outline)
  | statement (name : List Char) (prelude : List Component)
  | unfinished

section

-- What to say for a declaration.
variable (contents : Declaration → List Content)

def outlineIn (passMarks : Bool) (row : List Component) : List Outline :=
  (rulesAfter passMarks .between row).attach.map fun
    | ⟨.qualified prelude content, _⟩ =>
      .rule (bareList prelude) ((blockDeclarations content).flatMap contents)
    | ⟨.atRule keyword prelude (some content), _isRule⟩ =>
      if holdsRules keyword then .group keyword (bareList prelude) (outlineIn false content)
      else .keyword keyword (bareList prelude) ((blockDeclarations content).flatMap contents)
    | ⟨.atRule keyword prelude none, _⟩ => .statement keyword (bareList prelude)
    | ⟨.unfinished _, _⟩ => .unfinished
termination_by sizeOf row
decreasing_by exact sizeOf_content_of_mem _isRule

def Rule.outline : Rule → Outline
  | .qualified prelude content =>
    .rule (bareList prelude) ((blockDeclarations content).flatMap contents)
  | .atRule keyword prelude (some content) =>
    if holdsRules keyword then .group keyword (bareList prelude) (outlineIn contents false content)
    else .keyword keyword (bareList prelude) ((blockDeclarations content).flatMap contents)
  | .atRule keyword prelude none => .statement keyword (bareList prelude)
  | .unfinished _ => .unfinished

theorem outlineIn_eq (passMarks : Bool) (row : List Component) :
    outlineIn contents passMarks row =
      (rulesAfter passMarks .between row).map (Rule.outline contents) := by
  rw [outlineIn, List.map_subtype (g := Rule.outline contents), List.unattach_attach]
  intro rule isRule
  cases rule with
  | qualified prelude content => rfl
  | atRule keyword prelude content => cases content <;> rfl
  | unfinished offset => rfl

end

theorem outlineIn_congr {contents other : Declaration → List Content} {passMarks : Bool}
    {row : List Component}
    (same : ∀ declaration ∈ declarationsIn passMarks row, contents declaration = other declaration) :
    outlineIn contents passMarks row = outlineIn other passMarks row := by
  rw [declarationsIn_eq] at same
  rw [outlineIn_eq, outlineIn_eq]
  refine List.map_congr_left fun rule isRule => ?_
  have inRule (declaration : Declaration) (here : declaration ∈ rule.declarations) :
      contents declaration = other declaration :=
    same declaration (List.mem_flatMap.2 ⟨rule, isRule, here⟩)
  cases rule with
  | qualified prelude content =>
      have inBlock : ∀ declaration ∈ blockDeclarations content,
          contents declaration = other declaration := inRule
      rw [Rule.outline, Rule.outline, List.flatMap_congr inBlock]
  | atRule keyword prelude content =>
      cases content with
      | none => rfl
      | some content =>
          have smaller := sizeOf_content_of_mem isRule
          rw [Rule.declarations] at inRule
          rw [Rule.outline, Rule.outline]
          by_cases holds : holdsRules keyword = true
          · rw [if_pos holds] at inRule
            rw [if_pos holds, if_pos holds, outlineIn_congr inRule]
          · rw [if_neg holds] at inRule
            rw [if_neg holds, if_neg holds, List.flatMap_congr inRule]
  | unfinished offset => rfl
termination_by sizeOf row

def sayAlone (declaration : Declaration) : List Content :=
  [declaration.content]

def outline (row : List Component) : List Outline :=
  outlineIn sayAlone true row

end SheetScript.Css
