import SheetScript.Script.Evaluate

/-!
Templates as sums. A template is evaluated as the sum of the empty text and its parts: the same parts
are evaluated in the same order, and each is turned into text before the next one is evaluated.
-/

namespace SheetScript.Script

def Part.summand : Part Expr → Expr
  | .text value => .literal (.text value)
  | .hole expr => expr

def Expr.addParts (front : Expr) (parts : List (Part Expr)) : Expr :=
  parts.foldl (fun sum part => .sum sum part.summand) front

namespace Evaluate

/-- Whatever is added to a text is added as a text. -/
theorem add_text (left : String) (right : Value) :
    add (.text left) right = (do return .text (left ++ (← Step.textOf right))) :=
  rfl

section

variable (importFile : Value → Step Value) (scope : Scope)

def partText (part : Part Expr) : Step String := do
  Step.textOf (← expr importFile scope part.summand)

theorem texts_cons (part : Part Expr) (rest : List (Part Expr)) :
    texts importFile scope (part :: rest) = (do
      let first ← partText importFile scope part
      let others ← texts importFile scope rest
      return first ++ others) := by
  cases part with
  | text value =>
      rw [texts, partText, Part.summand, expr]
      rfl
  | hole hole =>
      rw [texts, partText, Part.summand]
      simp only [bind_assoc]

def Spells (front : Expr) (text : Step String) : Prop :=
  expr importFile scope front = (do return .text (← text))

end

variable {importFile : Value → Step Value} {scope : Scope} {front : Expr} {text : Step String}

theorem Spells.sum (spells : Spells importFile scope front text) (part : Part Expr) :
    Spells importFile scope (.sum front part.summand) (do
      let before ← text
      let next ← partText importFile scope part
      return before ++ next) := by
  rw [Spells] at spells ⊢
  rw [expr, spells]
  simp only [partText, add_text, bind_assoc, pure_bind]

/-- Parts are added one by one, so the text so far grows by the first before the others follow. -/
theorem Spells.addParts (spells : Spells importFile scope front text) (parts : List (Part Expr)) :
    Spells importFile scope (front.addParts parts) (do
      let before ← text
      let rest ← texts importFile scope parts
      return before ++ rest) := by
  induction parts generalizing front text with
  | nil =>
      rw [texts]
      change Spells importFile scope front _
      simpa only [pure_bind, String.append_empty, bind_pure] using spells
  | cons part parts ih =>
      have whole := ih (spells.sum part)
      rw [texts_cons]
      change Spells importFile scope ((front.sum part.summand).addParts parts) _
      simpa only [bind_assoc, pure_bind, String.append_assoc] using whole

/--
A template and the sum of the empty text and its parts are the same step: in every world they have
the same value or the same fault, and leave the same world behind.
-/
theorem expr_template_eq_sum (importFile : Value → Step Value) (scope : Scope)
    (parts : List (Part Expr)) :
    expr importFile scope (.template parts) =
      expr importFile scope ((Expr.literal (.text "")).addParts parts) := by
  have empty : Spells importFile scope (.literal (.text "")) (pure "") := by
    rw [Spells, expr]
    rfl
  have whole := empty.addParts parts
  rw [Spells] at whole
  rw [whole, expr]
  simp only [pure_bind, bind_pure, String.empty_append]

end Evaluate

end SheetScript.Script
