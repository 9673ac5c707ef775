import SheetScript.Script.Parse

/-!
Scripts in writing. Every tree of a script is written in one way, with as few parentheses as it can
be read with.
-/

namespace SheetScript.Script

open SheetScript.Number

/-! Texts -/

def escapeBetween (quote c : Char) : List Char :=
  if c == '\\' || c == quote then ['\\', c] else if c == '\n' then ['\\', 'n'] else [c]

def escapeQuoted (c : Char) : List Char :=
  if c == '\\' || c == '"' then ['\\', c] else if c == '\n' then ['\\', 'n'] else [c]

def escapeTemplate (c : Char) : List Char :=
  if c == '\\' || c == '`' || c == '$' then ['\\', c] else [c]

def quotedLexeme (text : String) : Lexeme :=
  .quoted '"' (text.toList.flatMap escapeQuoted)

def isIdentifier (name : String) : Bool :=
  name.toList.head?.any isWordStart && name.toList.all isWordChar

/-- The words that name nothing where keywords are expected. -/
def keywords : List String :=
  ["const", "let", "var", "true", "false", "null", "undefined"]

/-- A key, between quotes if it is no word. -/
def keyLexeme (key : String) : Lexeme :=
  if isIdentifier key then .word key.toList else quotedLexeme key

namespace Constant

/-- A constant in writing. Binary numbers have no writing of their own. -/
def lexeme : Constant → Lexeme
  | text value => quotedLexeme value
  | int value => .number (decimalDigits value)
  | float _ => .number []
  | bool true => .word "true".toList
  | bool false => .word "false".toList
  | null => .word "null".toList
  | undefined => .word "undefined".toList

def isFloat : Constant → Bool
  | float _ => true
  | _ => false

def isShort : Constant → Bool
  | int value => decimalLength value ≤ digitLimit
  | _ => true

end Constant

/-! Expressions -/

def commas : List (List Lexeme) → List Lexeme
  | [] => []
  | row :: rest => row ++ rest.flatMap fun row => .mark .comma :: .blank ' ' :: row

def inParens (row : List Lexeme) : List Lexeme :=
  .mark .openParen :: row ++ [.mark .closeParen]

namespace Expr

def isSum : Expr → Bool
  | sum _ _ => true
  | _ => false

/-- What can have a point, a bracket or a parenthesis behind it without parentheses of its own. -/
def isPostfix : Expr → Bool
  | sum _ _ => false
  | negation _ => false
  | literal (.int _) => false
  | literal (.float _) => false
  | _ => true

mutual

def written : Expr → List Lexeme
  | .literal constant => [constant.lexeme]
  | .template parts => [.template (writtenParts parts)]
  | .name id _ => [.word id.toList]
  | .member owner field _ =>
    (if owner.isPostfix then written owner else inParens (written owner)) ++
      [.mark .dot, .word field.toList]
  | .index owner key _ =>
    (if owner.isPostfix then written owner else inParens (written owner)) ++
      .mark .openBracket :: written key ++ [.mark .closeBracket]
  | .call function arguments _ =>
    (if function.isPostfix then written function else inParens (written function)) ++
      .mark .openParen :: commas (writtenEach arguments) ++ [.mark .closeParen]
  | .object fields => .mark .openBrace :: commas (writtenFields fields) ++ [.mark .closeBrace]
  | .array items => .mark .openBracket :: commas (writtenEach items) ++ [.mark .closeBracket]
  | .sum left right =>
    written left ++ [.blank ' ', .mark .plus, .blank ' '] ++
      if right.isSum then inParens (written right) else written right
  | .negation operand =>
    .mark .minus :: if operand.isSum then inParens (written operand) else written operand

def writtenEach : List Expr → List (List Lexeme)
  | [] => []
  | first :: rest => written first :: writtenEach rest

def writtenFields : List (String × Expr) → List (List Lexeme)
  | [] => []
  | (key, value) :: rest =>
    (keyLexeme key :: .mark .colon :: .blank ' ' :: written value) :: writtenFields rest

def writtenParts : List (Part Expr) → List Char
  | [] => []
  | .text value :: rest => value.toList.flatMap escapeTemplate ++ writtenParts rest
  | .hole expr :: rest =>
    '$' :: '\x7b' :: (written expr).flatMap Lexeme.text ++ '\x7d' :: writtenParts rest

end

theorem written_negation (operand : Expr) :
    written (.negation operand) =
      .mark .minus :: if operand.isSum then inParens operand.written else operand.written := by
  rw [written]

theorem writtenEach_eq_map (items : List Expr) : writtenEach items = items.map written := by
  induction items with
  | nil => rfl
  | cons first rest ih => rw [writtenEach, ih, List.map_cons]

def writtenField (field : String × Expr) : List Lexeme :=
  keyLexeme field.1 :: .mark .colon :: .blank ' ' :: written field.2

theorem writtenFields_eq_map (fields : List (String × Expr)) :
    writtenFields fields = fields.map writtenField := by
  induction fields with
  | nil => rfl
  | cons first rest ih =>
      rw [writtenFields, ih, List.map_cons]
      rfl

def source (expr : Expr) : List Char :=
  expr.written.flatMap Lexeme.text

def startsWithText : List (Part Expr) → Bool
  | .text _ :: _ => true
  | _ => false

mutual

def isWritable : Expr → Bool
  | .literal constant => !constant.isFloat
  | .template parts => partsWritable parts
  | .name id _ => isIdentifier id && !keywords.contains id
  | .member owner field _ => isWritable owner && isIdentifier field
  | .index owner key _ => isWritable owner && isWritable key
  | .call function arguments _ => isWritable function && eachWritable arguments
  | .object fields => fieldsWritable fields
  | .array items => eachWritable items
  | .sum left right => isWritable left && isWritable right
  | .negation operand => isWritable operand

def eachWritable : List Expr → Bool
  | [] => true
  | first :: rest => isWritable first && eachWritable rest

def fieldsWritable : List (String × Expr) → Bool
  | [] => true
  | (_, value) :: rest => isWritable value && fieldsWritable rest

/-- Texts are not empty, no two stand side by side, and no hole has a backtick in it. -/
def partsWritable : List (Part Expr) → Bool
  | [] => true
  | .text value :: rest => value ≠ "" && !startsWithText rest && partsWritable rest
  | .hole expr :: rest => isWritable expr && !expr.source.contains '`' && partsWritable rest

end

theorem eachWritable_eq_all (items : List Expr) : eachWritable items = items.all isWritable := by
  induction items with
  | nil => rfl
  | cons first rest ih => rw [eachWritable, ih, List.all_cons]

theorem fieldsWritable_eq_all (fields : List (String × Expr)) :
    fieldsWritable fields = fields.all fun field => isWritable field.2 := by
  induction fields with
  | nil => rfl
  | cons first rest ih => rw [fieldsWritable, ih, List.all_cons]

/-- The holes of a template that can be written can be written, and have no backtick in them. -/
theorem hole_of_partsWritable {parts : List (Part Expr)} (writable : partsWritable parts = true)
    {hole : Expr} (here : .hole hole ∈ parts) :
    hole.isWritable = true ∧ hole.source.contains '`' = false := by
  induction parts with
  | nil => cases here
  | cons first rest ih =>
      cases first with
      | text value =>
          simp only [partsWritable, Bool.and_eq_true] at writable
          rcases List.mem_cons.1 here with same | behind
          · cases same
          · exact ih writable.2 behind
      | hole expr =>
          simp only [partsWritable, Bool.and_eq_true, Bool.not_eq_true'] at writable
          rcases List.mem_cons.1 here with same | behind
          · rw [Part.hole.inj same]
            exact writable.1
          · exact ih writable.2 behind

mutual

def hasShortIntegers : Expr → Bool
  | .literal constant => constant.isShort
  | .template parts => partsShort parts
  | .name _ _ => true
  | .member owner _ _ => hasShortIntegers owner
  | .index owner key _ => hasShortIntegers owner && hasShortIntegers key
  | .call function arguments _ => hasShortIntegers function && eachShort arguments
  | .object fields => fieldsShort fields
  | .array items => eachShort items
  | .sum left right => hasShortIntegers left && hasShortIntegers right
  | .negation operand => hasShortIntegers operand

def eachShort : List Expr → Bool
  | [] => true
  | first :: rest => hasShortIntegers first && eachShort rest

def fieldsShort : List (String × Expr) → Bool
  | [] => true
  | (_, value) :: rest => hasShortIntegers value && fieldsShort rest

def partsShort : List (Part Expr) → Bool
  | [] => true
  | .text _ :: rest => partsShort rest
  | .hole expr :: rest => hasShortIntegers expr && partsShort rest

end

theorem eachShort_eq_all (items : List Expr) : eachShort items = items.all hasShortIntegers := by
  induction items with
  | nil => rfl
  | cons first rest ih => rw [eachShort, ih, List.all_cons]

theorem fieldsShort_eq_all (fields : List (String × Expr)) :
    fieldsShort fields = fields.all fun field => hasShortIntegers field.2 := by
  induction fields with
  | nil => rfl
  | cons first rest ih => rw [fieldsShort, ih, List.all_cons]

theorem partsShort_iff {parts : List (Part Expr)} :
    partsShort parts = true ↔ ∀ hole, .hole hole ∈ parts → hole.hasShortIntegers = true := by
  induction parts with
  | nil => exact iff_of_true rfl nofun
  | cons first rest ih => cases first <;> simp [partsShort, ih]

mutual

def unlined : Expr → Expr
  | .literal constant => .literal constant
  | .template parts => .template (unlinedParts parts)
  | .name id _ => .name id 0
  | .member owner field _ => .member (unlined owner) field 0
  | .index owner key _ => .index (unlined owner) (unlined key) none
  | .call function arguments _ => .call (unlined function) (unlinedEach arguments) none
  | .object fields => .object (unlinedFields fields)
  | .array items => .array (unlinedEach items)
  | .sum left right => .sum (unlined left) (unlined right)
  | .negation operand => .negation (unlined operand)

def unlinedEach : List Expr → List Expr
  | [] => []
  | first :: rest => unlined first :: unlinedEach rest

def unlinedFields : List (String × Expr) → List (String × Expr)
  | [] => []
  | (key, value) :: rest => (key, unlined value) :: unlinedFields rest

def unlinedParts : List (Part Expr) → List (Part Expr)
  | [] => []
  | .text value :: rest => .text value :: unlinedParts rest
  | .hole expr :: rest => .hole (unlined expr) :: unlinedParts rest

end

theorem unlined_sum (left right : Expr) :
    unlined (.sum left right) = .sum left.unlined right.unlined := by
  rw [unlined]

theorem unlinedEach_eq_map (items : List Expr) : unlinedEach items = items.map unlined := by
  induction items with
  | nil => rfl
  | cons first rest ih => rw [unlinedEach, ih, List.map_cons]

theorem unlinedFields_eq_map (fields : List (String × Expr)) :
    unlinedFields fields = fields.map fun field => (field.1, field.2.unlined) := by
  induction fields with
  | nil => rfl
  | cons first rest ih => rw [unlinedFields, ih, List.map_cons]

/-- What holds of an expression if it holds of the expressions in it holds of every one. -/
@[elab_as_elim]
theorem ind {motive : Expr → Prop} (literal : ∀ constant, motive (.literal constant))
    (template : ∀ parts, (∀ hole, .hole hole ∈ parts → motive hole) → motive (.template parts))
    (name : ∀ id line, motive (.name id line))
    (member : ∀ owner field line, motive owner → motive (.member owner field line))
    (index : ∀ owner key line, motive owner → motive key → motive (.index owner key line))
    (call : ∀ function arguments line, motive function → (∀ item ∈ arguments, motive item) →
      motive (.call function arguments line))
    (object : ∀ fields, (∀ field ∈ fields, motive field.2) → motive (.object fields))
    (array : ∀ items, (∀ item ∈ items, motive item) → motive (.array items))
    (sum : ∀ left right, motive left → motive right → motive (.sum left right))
    (negation : ∀ operand, motive operand → motive (.negation operand)) (expr : Expr) :
    motive expr := by
  have again (inner : Expr) (_ : sizeOf inner < sizeOf expr) : motive inner :=
    ind literal template name member index call object array sum negation inner
  -- Every part of an expression is smaller than it, also inside a list.
  cases expr with
  | literal constant => exact literal constant
  | template parts =>
      refine template parts fun hole here => again hole ?_
      have smaller := List.sizeOf_lt_of_mem here
      simp only [Expr.template.sizeOf_spec, Part.hole.sizeOf_spec] at smaller ⊢
      omega
  | name id line => exact name id line
  | member owner field line =>
      refine member owner field line (again owner ?_)
      simp only [Expr.member.sizeOf_spec]
      omega
  | index owner key line =>
      refine index owner key line (again owner ?_) (again key ?_)
      · simp only [Expr.index.sizeOf_spec]
        omega
      · simp only [Expr.index.sizeOf_spec]
        omega
  | call function arguments line =>
      refine call function arguments line (again function ?_) fun item here => again item ?_
      · simp only [Expr.call.sizeOf_spec]
        omega
      · have smaller := List.sizeOf_lt_of_mem here
        simp only [Expr.call.sizeOf_spec]
        omega
  | object fields =>
      refine object fields fun field here => again field.2 ?_
      have smaller := List.sizeOf_lt_of_mem here
      have inside : sizeOf field.2 < sizeOf field := by
        obtain ⟨key, value⟩ := field
        simp only [Prod.mk.sizeOf_spec]
        omega
      simp only [Expr.object.sizeOf_spec]
      omega
  | array items =>
      refine array items fun item here => again item ?_
      have smaller := List.sizeOf_lt_of_mem here
      simp only [Expr.array.sizeOf_spec]
      omega
  | sum left right =>
      refine sum left right (again left ?_) (again right ?_)
      · simp only [Expr.sum.sizeOf_spec]
        omega
      · simp only [Expr.sum.sizeOf_spec]
        omega
  | negation operand =>
      refine negation operand (again operand ?_)
      simp only [Expr.negation.sizeOf_spec]
      omega
termination_by sizeOf expr

end Expr

/-! Statements -/

namespace Target

def isWritable (target : Target) : Bool :=
  target.toExpr.isWritable

def unlined : Target → Target
  | name id _ => .name id 0
  | member owner field _ => .member owner.unlined field 0

end Target

namespace Statement

def written : Statement → List Lexeme
  | declare name value =>
    [.word "const".toList, .blank ' ', .word name.toList, .blank ' ', .mark .equal, .blank ' '] ++
      value.written ++ [.mark .semicolon]
  | assign target value =>
    target.toExpr.written ++ [.blank ' ', .mark .equal, .blank ' '] ++ value.written ++
      [.mark .semicolon]
  | expression value => value.written ++ [.mark .semicolon]

def isWritable : Statement → Bool
  | declare name value => isIdentifier name && value.isWritable
  | assign target value => target.isWritable && value.isWritable
  | expression value => value.isWritable

def hasShortIntegers : Statement → Bool
  | declare _ value => value.hasShortIntegers
  | assign target value => target.toExpr.hasShortIntegers && value.hasShortIntegers
  | expression value => value.hasShortIntegers

def unlined : Statement → Statement
  | declare name value => .declare name value.unlined
  | assign target value => .assign target.unlined value.unlined
  | expression value => .expression value.unlined

end Statement

def source (script : List Statement) : List Char :=
  (script.flatMap Statement.written).flatMap Lexeme.text

end SheetScript.Script
