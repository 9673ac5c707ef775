import SheetScript.Proofs.Script.Place

/-!
A run taken apart. A task is some part of a script with the data it works on; its plan says which
tasks it calls, one after another, before it ends in a step of its own. What holds of a task once it
holds of those in its plan holds of every task.
-/

namespace SheetScript.Script

open SheetScript.Document

inductive Task
  | expr (scope : Scope) (expr : Expr)
  | exprs (scope : Scope) (exprs : List Expr)
  | pairs (scope : Scope) (fields : List (String × Expr))
  | texts (scope : Scope) (parts : List (Part Expr))
  | read (value key : Value) (line : Option Nat)
  | apply (function : Function) (arguments : List Value)
  | statement (scope : Scope) (statement : Statement)
  | statements (scope : Scope) (program : List Statement)
  | script (source : String)
  | namespaceOf (names : Scope) (segments : List Segment)
  | get (value : Value)

namespace Task

abbrev Answer : Task → Type
  | expr .. => Value
  | exprs .. => List Value
  | pairs .. => List (String × Value)
  | texts .. => String
  | read .. => Value
  | apply .. => Value
  | statement .. => Scope
  | statements .. => Scope
  | script .. => Scope
  | namespaceOf .. => Scope
  | get .. => Value

section

-- What `get` does with the value that names a file.
variable (handler : Value → Step Value)

def run : (task : Task) → Step task.Answer
  | expr scope e => Evaluate.expr handler scope e
  | exprs scope es => Evaluate.exprs handler scope es
  | pairs scope fields => Evaluate.pairs handler scope fields
  | texts scope parts => Evaluate.texts handler scope parts
  | read value key line => Evaluate.readIndex value key line
  | apply function arguments => Evaluate.applyFunction handler function arguments
  | statement scope single => Evaluate.statement handler scope single
  | statements scope program => Evaluate.statements handler scope program
  | script source => Evaluate.script handler source
  | namespaceOf names segments => Import.namespaceOf (Evaluate.script handler) names segments
  | get value => handler value

end

end Task

inductive Plan (α : Type)
  | finish (step : Step α)
  | call (task : Task) (next : task.Answer → Plan α)
  | load (value : Value) (next : Value → Plan α)

namespace Plan

variable {α : Type} (handler : Value → Step Value)

def run : Plan α → Step α
  | finish step => step
  | call task next => do (next (← task.run handler)).run
  | load value next => do (next (← handler value)).run

def All (property : Task → Prop) : Plan α → Prop
  | finish _ => True
  | call task next => property task ∧ ∀ answer, (next answer).All property
  | load _ next => ∀ answer, (next answer).All property

def only (task : Task) : Plan task.Answer :=
  call task fun answer => finish (pure answer)

def withText (value : Value) (next : String → Plan α) : Plan α :=
  match value.text? with
  | some text => next text
  | none => finish (throw .integerTooLong)

theorem all_withText {property : Task → Prop} (value : Value) {next : String → Plan α}
    (each : ∀ text, (next text).All property) : (withText value next).All property := by
  unfold withText
  cases value.text? with
  | some text => exact each text
  | none => trivial

end Plan

namespace Task

open Plan

def exprPlan (scope : Scope) : Expr → Plan Value
  | .literal constant => finish (pure constant.value)
  | .template parts => call (texts scope parts) fun text => finish (pure (.text text))
  | .name id line => finish (Evaluate.lookup scope id line)
  | .member object field line =>
    call (expr scope object) fun value => only (read value (.text field) line)
  | .index object key line =>
    call (expr scope object) fun value =>
      call (expr scope key) fun key => only (read value key line)
  | .call function arguments line =>
    call (expr scope function) fun
      | .function builtin _ => call (exprs scope arguments) fun values => only (apply builtin values)
      | _ => finish (throw (.notFunction function.description line))
  | .object fields =>
    call (pairs scope fields) fun pairs => finish (Step.makeObject (Assoc.ofPairs pairs))
  | .array items => call (exprs scope items) fun values => finish (Step.makeList values)
  | .sum left right =>
    call (expr scope left) fun left => call (expr scope right) fun right =>
      finish (Evaluate.add left right)
  | .negation operand => call (expr scope operand) fun value => finish (Evaluate.negate value)

def statementPlan (scope : Scope) : Statement → Plan Scope
  | .declare name value =>
    if isGlobal name then finish (throw (.redeclaredName name))
    else call (expr scope value) fun value => finish (pure (scope.set name value))
  | .assign (.name id line) value =>
    call (expr scope value) fun value =>
      finish (if (scope.get? id).isSome then pure (scope.set id value)
        else throw (.undeclaredName id line))
  | .assign (.member object field line) value =>
    call (expr scope value) fun value => call (expr scope object) fun object => finish do
      Evaluate.writeField object field value line
      return scope
  | .expression value => call (expr scope value) fun _ => finish (pure scope)

def plan : (task : Task) → Plan task.Answer
  | expr scope e => exprPlan scope e
  | exprs _ [] => finish (pure [])
  | exprs scope (first :: rest) =>
    call (expr scope first) fun value => call (exprs scope rest) fun values =>
      finish (pure (value :: values))
  | pairs _ [] => finish (pure [])
  | pairs scope ((key, first) :: rest) =>
    call (expr scope first) fun value => call (pairs scope rest) fun values =>
      finish (pure ((key, value) :: values))
  | texts _ [] => finish (pure "")
  | texts scope (.text first :: rest) =>
    call (texts scope rest) fun others => finish (pure (first ++ others))
  | texts scope (.hole hole :: rest) =>
    call (expr scope hole) fun value => withText value fun first =>
      call (texts scope rest) fun others => finish (pure (first ++ others))
  | read value key line => finish (Evaluate.readIndex value key line)
  | apply .run arguments => finish (Printing.run arguments)
  | apply .compile [value] => finish (Printing.compile value)
  | apply .get [value] => only (get value)
  | apply (.operation operation) arguments => finish (Builder.apply operation arguments)
  | apply _ _ => finish (throw .wrongArgumentCount)
  | statement scope single => statementPlan scope single
  | statements scope [] => finish (pure scope)
  | statements scope (first :: rest) =>
    call (statement scope first) fun scope => only (statements scope rest)
  | script source =>
    match parseScript (Text.trimChars source.toList) with
    | .ok program => only (statements [] program)
    | .error fault => finish (throw (.badSyntax fault))
  | namespaceOf names [] => finish (pure names)
  | namespaceOf names (segment :: rest) =>
    if segment.isScript then
      call (script segment.text) fun declared => only (namespaceOf (names.setAll declared) rest)
    else only (namespaceOf names rest)
  | get value => .load value fun answer => finish (pure answer)

variable (handler : Value → Step Value)

theorem run_only (task : Task) : (only task).run handler = task.run handler :=
  bind_pure (task.run handler)

theorem run_withText {α : Type} (value : Value) (next : String → Plan α) :
    (withText value next).run handler = (do (next (← Step.textOf value)).run handler) := by
  rw [withText, Step.textOf]
  cases value.text? with
  | some text => rfl
  | none => rfl

theorem readIndex_text (value : Value) (field : String) (line : Option Nat) :
    Evaluate.readIndex value (.text field) line = Evaluate.readField value field line := by
  cases value <;> rfl

theorem run_exprPlan (scope : Scope) (e : Expr) :
    (exprPlan scope e).run handler = Evaluate.expr handler scope e := by
  cases e with
  | member object field line =>
      rw [Evaluate.expr]
      refine congrArg (bind _) (funext fun value => ?_)
      rw [run_only]
      exact readIndex_text value field line
  | index object key line =>
      rw [Evaluate.expr]
      refine congrArg (bind _) (funext fun value => congrArg (bind _) (funext fun key => ?_))
      exact run_only handler _
  | call function arguments line =>
      rw [Evaluate.expr]
      refine congrArg (bind _) (funext fun value => ?_)
      cases value with
      | function builtin address =>
          exact congrArg (bind _) (funext fun values => run_only handler (apply builtin values))
      | _ => rfl
  | _ =>
      rw [Evaluate.expr]
      rfl

theorem run_statementPlan (scope : Scope) (single : Statement) :
    (statementPlan scope single).run handler = Evaluate.statement handler scope single := by
  cases single with
  | declare name value =>
      rw [statementPlan, Evaluate.statement]
      split <;> rfl
  | assign target value => cases target <;> rfl
  | expression value => rfl

/-- A task does what its plan says. -/
theorem run_plan (task : Task) : task.plan.run handler = task.run handler := by
  -- Plan and run are written over the same constructors, so each case is one unfolding.
  cases task with
  | expr scope e => exact run_exprPlan handler scope e
  | exprs scope es =>
      cases es with
      | nil => rw [run, Evaluate.exprs]; rfl
      | cons first rest => rw [run, Evaluate.exprs]; rfl
  | pairs scope fields =>
      cases fields with
      | nil => rw [run, Evaluate.pairs]; rfl
      | cons first rest => rw [run, Evaluate.pairs]; rfl
  | texts scope parts =>
      cases parts with
      | nil => rw [run, Evaluate.texts]; rfl
      | cons first rest =>
          cases first with
          | text first => rw [run, Evaluate.texts]; rfl
          | hole hole =>
              rw [run, Evaluate.texts]
              exact congrArg (bind _) (funext fun value => run_withText handler value _)
  | read value key line => rfl
  | apply function arguments =>
      cases function with
      | get =>
          match arguments with
          | [] => rfl
          | [value] => exact run_only handler (get value)
          | _ :: _ :: _ => rfl
      | compile =>
          match arguments with
          | [] => rfl
          | [value] => rfl
          | _ :: _ :: _ => rfl
      | run => rfl
      | operation operation => rfl
  | statement scope single => exact run_statementPlan handler scope single
  | statements scope program =>
      cases program with
      | nil => rfl
      | cons first rest =>
          exact congrArg (bind _) (funext fun scope => run_only handler (statements scope rest))
  | script source =>
      rw [plan, run, Evaluate.script]
      cases parseScript (Text.trimChars source.toList) with
      | ok program => exact run_only handler (statements [] program)
      | error fault => rfl
  | namespaceOf names segments =>
      cases segments with
      | nil => rfl
      | cons segment rest =>
          rw [plan, run, Import.namespaceOf]
          split
          · exact congrArg (bind _) (funext fun declared => run_only handler (namespaceOf _ rest))
          · exact run_only handler _
  | get value => exact bind_pure (handler value)

/-! Induction -/

section

variable {motive : Task → Prop} (step : ∀ task : Task, task.plan.All motive → motive task)

include step

theorem of_read (value key : Value) (line : Option Nat) : motive (read value key line) :=
  step _ trivial

theorem of_get (value : Value) : motive (get value) :=
  step _ fun _ => trivial

theorem of_apply (function : Function) (arguments : List Value) :
    motive (apply function arguments) := by
  refine step _ ?_
  cases function with
  | get =>
      match arguments with
      | [] => trivial
      | [value] => exact ⟨of_get step value, fun _ => trivial⟩
      | _ :: _ :: _ => trivial
  | compile =>
      match arguments with
      | [] => trivial
      | [value] => trivial
      | _ :: _ :: _ => trivial
  | run => trivial
  | operation operation => trivial

mutual

theorem of_expr (scope : Scope) : ∀ e, motive (expr scope e)
  | .literal constant => step _ trivial
  | .template parts => step _ ⟨of_texts scope parts, fun _ => trivial⟩
  | .name id line => step _ trivial
  | .member object field line =>
      step _ ⟨of_expr scope object, fun value => ⟨of_read step value _ line, fun _ => trivial⟩⟩
  | .index object key line =>
      step _ ⟨of_expr scope object, fun value => ⟨of_expr scope key, fun key =>
        ⟨of_read step value key line, fun _ => trivial⟩⟩⟩
  | .call function arguments line => by
      refine step _ ⟨of_expr scope function, fun value => ?_⟩
      cases value with
      | function builtin address =>
          exact ⟨of_exprs scope arguments, fun values =>
            ⟨of_apply step builtin values, fun _ => trivial⟩⟩
      | _ => trivial
  | .object fields => step _ ⟨of_pairs scope fields, fun _ => trivial⟩
  | .array items => step _ ⟨of_exprs scope items, fun _ => trivial⟩
  | .sum left right =>
      step _ ⟨of_expr scope left, fun _ => ⟨of_expr scope right, fun _ => trivial⟩⟩
  | .negation operand => step _ ⟨of_expr scope operand, fun _ => trivial⟩

theorem of_exprs (scope : Scope) : ∀ es, motive (exprs scope es)
  | [] => step _ trivial
  | first :: rest =>
      step _ ⟨of_expr scope first, fun _ => ⟨of_exprs scope rest, fun _ => trivial⟩⟩

theorem of_pairs (scope : Scope) : ∀ fields, motive (pairs scope fields)
  | [] => step _ trivial
  | (_, first) :: rest =>
      step _ ⟨of_expr scope first, fun _ => ⟨of_pairs scope rest, fun _ => trivial⟩⟩

theorem of_texts (scope : Scope) : ∀ parts, motive (texts scope parts)
  | [] => step _ trivial
  | .text _ :: rest => step _ ⟨of_texts scope rest, fun _ => trivial⟩
  | .hole hole :: rest =>
      step _ ⟨of_expr scope hole, fun value =>
        all_withText value fun _ => ⟨of_texts scope rest, fun _ => trivial⟩⟩

end

theorem of_statement (scope : Scope) (single : Statement) : motive (statement scope single) := by
  refine step _ ?_
  cases single with
  | declare name value =>
      rw [plan, statementPlan]
      split
      · trivial
      · exact ⟨of_expr step scope value, fun _ => trivial⟩
  | assign target value =>
      cases target with
      | name id line => exact ⟨of_expr step scope value, fun _ => trivial⟩
      | member object field line =>
          exact ⟨of_expr step scope value, fun _ => ⟨of_expr step scope object, fun _ => trivial⟩⟩
  | expression value => exact ⟨of_expr step scope value, fun _ => trivial⟩

theorem of_statements (scope : Scope) (program : List Statement) :
    motive (statements scope program) := by
  induction program generalizing scope with
  | nil => exact step _ trivial
  | cons first rest ih =>
      exact step _ ⟨of_statement step scope first, fun after => ⟨ih after, fun _ => trivial⟩⟩

theorem of_script (source : String) : motive (script source) := by
  refine step _ ?_
  rw [plan]
  split
  · exact ⟨of_statements step [] _, fun _ => trivial⟩
  · trivial

theorem of_namespaceOf (names : Scope) (segments : List Segment) :
    motive (namespaceOf names segments) := by
  induction segments generalizing names with
  | nil => exact step _ trivial
  | cons segment rest ih =>
      refine step _ ?_
      rw [plan]
      split
      · exact ⟨of_script step segment.text, fun declared => ⟨ih _, fun _ => trivial⟩⟩
      · exact ⟨ih names, fun _ => trivial⟩

/-- What holds of a task once it holds of the tasks in its plan holds of every task. -/
theorem of_plan : ∀ task, motive task
  | expr scope e => of_expr step scope e
  | exprs scope es => of_exprs step scope es
  | pairs scope fields => of_pairs step scope fields
  | texts scope parts => of_texts step scope parts
  | read value key line => of_read step value key line
  | apply function arguments => of_apply step function arguments
  | statement scope single => of_statement step scope single
  | statements scope program => of_statements step scope program
  | script source => of_script step source
  | namespaceOf names segments => of_namespaceOf step names segments
  | get value => of_get step value

end

theorem run_keepsPlace {handler : Value → Step Value}
    (imports : ∀ value, KeepsPlace (handler value)) :
    ∀ task : Task, KeepsPlace (task.run handler)
  | expr scope e => Evaluate.expr_keepsPlace imports scope e
  | exprs scope es => Evaluate.exprs_keepsPlace imports scope es
  | pairs scope fields => Evaluate.pairs_keepsPlace imports scope fields
  | texts scope parts => Evaluate.texts_keepsPlace imports scope parts
  | read value key line => (Evaluate.readIndex_contained value key line).keeps
  | apply function arguments => Evaluate.applyFunction_keepsPlace imports function arguments
  | statement scope single => Evaluate.statement_keepsPlace imports scope single
  | statements scope program => Evaluate.statements_keepsPlace imports program scope
  | script source => Evaluate.script_keepsPlace imports source
  | namespaceOf names segments =>
      Import.namespaceOf_keepsPlace (Evaluate.script_keepsPlace imports) segments names
  | get value => imports value

end Task

namespace Plan

theorem all_of {α : Type} {property : Task → Prop} (each : ∀ task, property task)
    (plan : Plan α) : plan.All property := by
  induction plan with
  | finish step => trivial
  | call task next ih => exact ⟨each task, ih⟩
  | load value next ih => exact ih

end Plan

/-! How plans finish -/

def Plan.Finishes {α : Type} (property : Step α → Prop) : Plan α → Prop
  | finish step => property step
  | call _ next => ∀ answer, (next answer).Finishes property
  | load _ next => ∀ answer, (next answer).Finishes property

/-- What holds of the steps that plans finish with, readings and applications left out. -/
structure Ordinary (property : {α : Type} → Step α → Prop) : Prop where
  pure : ∀ {α : Type} (value : α), property (pure value)
  throw : ∀ {α : Type} (fault : ScriptFault), fault.IsRuntime → property (throw fault : Step α)
  lookup : ∀ scope id line, property (Evaluate.lookup scope id line)
  makeObject : ∀ fields, property (Step.makeObject fields)
  makeList : ∀ items, property (Step.makeList items)
  add : ∀ left right, property (Evaluate.add left right)
  negate : ∀ value, property (Evaluate.negate value)
  write : ∀ object field value line (scope : Scope), property (do
    Evaluate.writeField object field value line
    return scope)

namespace Task

variable {property : {α : Type} → Step α → Prop} (ordinary : Ordinary property)

include ordinary

theorem finishes_exprPlan (scope : Scope) (e : Expr) : (exprPlan scope e).Finishes property := by
  cases e with
  | literal constant => exact ordinary.pure _
  | template parts => exact fun _ => ordinary.pure _
  | name id line => exact ordinary.lookup _ _ _
  | member object field line => exact fun _ _ => ordinary.pure _
  | index object key line => exact fun _ _ _ => ordinary.pure _
  | call function arguments line =>
      intro value
      cases value with
      | function builtin => exact fun _ _ => ordinary.pure _
      | _ => exact ordinary.throw _ nofun
  | object fields => exact fun _ => ordinary.makeObject _
  | array items => exact fun _ => ordinary.makeList _
  | sum left right => exact fun _ _ => ordinary.add _ _
  | negation operand => exact fun _ => ordinary.negate _

theorem finishes_statementPlan (scope : Scope) (single : Statement) :
    (statementPlan scope single).Finishes property := by
  cases single with
  | declare name value =>
      rw [statementPlan]
      split
      · exact ordinary.throw _ nofun
      · exact fun _ => ordinary.pure _
  | assign target value =>
      cases target with
      | name id line =>
          intro value
          change property (if _ then _ else _)
          split
          · exact ordinary.pure _
          · exact ordinary.throw _ nofun
      | member object field line => exact fun _ _ => ordinary.write _ _ _ _ _
  | expression value => exact fun _ => ordinary.pure _

theorem finishes_apply {function : Function} {arguments : List Value}
    (run : property (Printing.run arguments)) (compile : ∀ value, property (Printing.compile value))
    (operations : ∀ operation, function = .operation operation →
      property (Builder.apply operation arguments)) :
    (apply function arguments).plan.Finishes property := by
  cases function with
  | run => exact run
  | compile =>
      match arguments with
      | [] => exact ordinary.throw _ nofun
      | [value] => exact compile value
      | _ :: _ :: _ => exact ordinary.throw _ nofun
  | get =>
      match arguments with
      | [] => exact ordinary.throw _ nofun
      | [value] => exact fun _ => ordinary.pure _
      | _ :: _ :: _ => exact ordinary.throw _ nofun
  | operation operation => exact operations operation rfl

/-- What is left to say of a task is how it reads an element, how it applies a function, and how it
stops at a script that is refused. -/
theorem finishes_plan {task : Task}
    (reads : ∀ value key line, task = .read value key line →
      property (Evaluate.readIndex value key line))
    (applies : ∀ function arguments, task = .apply function arguments →
      (apply function arguments).plan.Finishes property)
    (refused : ∀ source fault, task = .script source →
      parseScript (Text.trimChars source.toList) = .error fault →
        property (throw (.badSyntax fault) : Step Scope)) : task.plan.Finishes property := by
  -- A plan that only calls finishes by `pure`; the three assumptions are used where one does more.
  match task with
  | expr scope e => exact finishes_exprPlan ordinary scope e
  | exprs _ [] => exact ordinary.pure _
  | exprs _ (_ :: _) => exact fun _ _ => ordinary.pure _
  | pairs _ [] => exact ordinary.pure _
  | pairs _ ((_, _) :: _) => exact fun _ _ => ordinary.pure _
  | texts _ [] => exact ordinary.pure _
  | texts _ (.text _ :: _) => exact fun _ => ordinary.pure _
  | texts scope (.hole hole :: rest) =>
      intro value
      change Plan.Finishes _ (Plan.withText value _)
      unfold Plan.withText
      split
      · exact fun _ => ordinary.pure _
      · exact ordinary.throw _ nofun
  | read value key line => exact reads value key line rfl
  | apply function arguments => exact applies function arguments rfl
  | statement scope single => exact finishes_statementPlan ordinary scope single
  | statements _ [] => exact ordinary.pure _
  | statements _ (_ :: _) => exact fun _ _ => ordinary.pure _
  | script source =>
      rw [plan]
      split
      · exact fun _ => ordinary.pure _
      · rename_i fault isRefused
        exact refused source fault rfl isRefused
  | namespaceOf _ [] => exact ordinary.pure _
  | namespaceOf names (segment :: rest) =>
      rw [plan]
      split
      · exact fun _ _ => ordinary.pure _
      · exact fun _ => ordinary.pure _
  | get _ => exact fun _ => ordinary.pure _

end Task

/-! Imports that agree where a task can get to make the same run of it. -/

section

variable {stack : List Files.Path} {first second : Value → Step Value}
  (keeps : ∀ value, KeepsPlace (first value))
  (agree : ∀ value world, world.importing = stack → first value world = second value world)

include keeps agree

theorem Plan.run_agree {α : Type} {plan : Plan α}
    (tasks : plan.All fun task => ∀ world, world.importing = stack →
      task.run first world = task.run second world) :
    ∀ world, world.importing = stack → plan.run first world = plan.run second world := by
  have behind {β : Type} {step other : Step β} {next nextOther : β → Step α} {world : World}
      (stays : KeepsPlace step) (inside : world.importing = stack)
      (same : step world = other world)
      (nextSame : ∀ value after, after.importing = stack → next value after = nextOther value after) :
      (step >>= next) world = (other >>= nextOther) world := by
    have kept := congrArg Place.importing (stays world)
    cases ran : step world with
    | ok value after =>
        rw [ran] at kept
        rw [bind_of_ok ran, bind_of_ok (same.symm.trans ran)]
        exact nextSame value after (kept.trans inside)
    | error fault after => rw [bind_of_error ran, bind_of_error (same.symm.trans ran)]
  induction plan with
  | finish step => exact fun _ _ => rfl
  | call task next ih =>
      exact fun world inside => behind (task.run_keepsPlace keeps) inside (tasks.1 world inside)
        fun value after stays => ih value (tasks.2 value) after stays
  | load value next ih =>
      exact fun world inside => behind (keeps value) inside (agree value world inside)
        fun answer after stays => ih answer (tasks answer) after stays

theorem Task.run_agree : ∀ (task : Task) (world : World), world.importing = stack →
    task.run first world = task.run second world := by
  refine Task.of_plan fun task tasks world inside => ?_
  rw [← Task.run_plan, ← Task.run_plan]
  exact Plan.run_agree keeps agree tasks world inside

end

end SheetScript.Script
