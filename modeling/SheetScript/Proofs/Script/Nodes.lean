import SheetScript.Proofs.Script.Imports

/-!
The nodes that a run works on. A task calls others under its own names, on the nodes that it works
on itself or on children of these; names change from one statement of a script to the next only.
-/

namespace SheetScript.Script

open SheetScript.Document

theorem Plan.All.imp {α : Type} {first second : Task → Prop}
    (weaker : ∀ task, first task → second task) {plan : Plan α} (all : plan.All first) :
    plan.All second := by
  induction plan with
  | finish step => trivial
  | call task next ih => exact ⟨weaker task all.1, fun answer => ih answer (all.2 answer)⟩
  | load value next ih => exact fun answer => ih answer (all answer)

def Part.hole? {ε : Type} : Part ε → Option ε
  | text _ => none
  | hole expr => some expr

/-- The nodes right below a node. Those of a template stand in its holes. -/
def Expr.children : Expr → List Expr
  | literal _ => []
  | template parts => parts.filterMap Part.hole?
  | name _ _ => []
  | member owner _ _ => [owner]
  | index owner key _ => [owner, key]
  | call function arguments _ => function :: arguments
  | object fields => fields.map Prod.snd
  | array items => items
  | sum left right => [left, right]
  | negation operand => [operand]

/-- The nodes of a statement; what is assigned to counts as one. -/
def Statement.nodes : Statement → List Expr
  | declare _ value => [value]
  | assign target value => [value, target.toExpr]
  | expression value => [value]

namespace Task

def scope? : Task → Option Scope
  | expr scope _ => some scope
  | exprs scope _ => some scope
  | pairs scope _ => some scope
  | texts scope _ => some scope
  | statement scope _ => some scope
  | statements scope _ => some scope
  | _ => none

def nodes : Task → List Expr
  | expr _ e => [e]
  | exprs _ es => es
  | pairs _ fields => fields.map Prod.snd
  | texts _ parts => parts.filterMap Part.hole?
  | statement _ single => single.nodes
  | statements _ program => program.flatMap Statement.nodes
  | _ => []

def runsStatements : Task → Bool
  | statements _ _ | script _ | namespaceOf _ _ => true
  | _ => false

def isRead : Task → Bool
  | read _ _ _ => true
  | _ => false

def isAccess : Task → Bool
  | expr _ (.member _ _ _) | expr _ (.index _ _ _) => true
  | _ => false

/-- A task has the names of another one, if any, and nodes that are nodes of that or children. -/
structure Inside (part task : Task) : Prop where
  scope : ∀ scope, part.scope? = some scope → task.scope? = some scope
  nodes : part.nodes ⊆ task.nodes ++ task.nodes.flatMap Expr.children
  ordinary : part.runsStatements = false
  access : part.isRead = false ∨ task.isAccess = true

theorem Inside.bare {part task : Task} (noNames : part.scope? = none) (noNodes : part.nodes = [])
    (ordinary : part.runsStatements = false)
    (access : part.isRead = false ∨ task.isAccess = true) : part.Inside task := by
  refine ⟨fun scope same => ?_, ?_, ordinary, access⟩
  · rw [noNames] at same
    cases same
  · rw [noNodes]
    exact List.nil_subset _

theorem inside_exprPlan (scope : Scope) (e : Expr) :
    (exprPlan scope e).All (Inside · (.expr scope e)) := by
  have below (part : Task) (sameScope : part.scope? = some scope)
      (isBelow : part.nodes ⊆ e.children) (ordinary : part.runsStatements = false)
      (noRead : part.isRead = false) : part.Inside (.expr scope e) := by
    refine ⟨fun other same => sameScope.symm.trans same, ?_, ordinary, .inl noRead⟩
    exact fun node inside => List.mem_append_right _ (by simpa [nodes] using isBelow inside)
  -- Parts are below `e` by `below`; reads and calls of functions mention no node at all.
  cases e with
  | literal constant => trivial
  | template parts => exact ⟨below _ rfl (List.Subset.refl _) rfl rfl, fun _ => trivial⟩
  | name id line => trivial
  | member object field line =>
      exact ⟨below _ rfl (List.Subset.refl _) rfl rfl, fun _ =>
        ⟨.bare rfl rfl rfl (.inr rfl), fun _ => trivial⟩⟩
  | index object key line =>
      exact ⟨below _ rfl (by simp [nodes, Expr.children]) rfl rfl, fun _ =>
        ⟨below _ rfl (by simp [nodes, Expr.children]) rfl rfl, fun _ =>
          ⟨.bare rfl rfl rfl (.inr rfl), fun _ => trivial⟩⟩⟩
  | call function arguments line =>
      refine ⟨below _ rfl (by simp [nodes, Expr.children]) rfl rfl, fun value => ?_⟩
      cases value with
      | function builtin =>
          exact ⟨below _ rfl (List.subset_cons_self _ _) rfl rfl, fun _ =>
            ⟨.bare rfl rfl rfl (.inl rfl), fun _ => trivial⟩⟩
      | _ => trivial
  | object fields => exact ⟨below _ rfl (List.Subset.refl _) rfl rfl, fun _ => trivial⟩
  | array items => exact ⟨below _ rfl (List.Subset.refl _) rfl rfl, fun _ => trivial⟩
  | sum left right =>
      exact ⟨below _ rfl (by simp [nodes, Expr.children]) rfl rfl, fun _ =>
        ⟨below _ rfl (by simp [nodes, Expr.children]) rfl rfl, fun _ => trivial⟩⟩
  | negation operand => exact ⟨below _ rfl (List.Subset.refl _) rfl rfl, fun _ => trivial⟩

theorem inside_statementPlan (scope : Scope) (single : Statement) :
    (statementPlan scope single).All (Inside · (.statement scope single)) := by
  have inside (e : Expr) (isNode : e ∈ single.nodes ++ single.nodes.flatMap Expr.children) :
      Inside (.expr scope e) (.statement scope single) := by
    refine ⟨fun _ same => same, ?_, rfl, .inl rfl⟩
    intro node isOne
    obtain rfl := List.mem_singleton.1 isOne
    exact isNode
  cases single with
  | declare name value =>
      rw [statementPlan]
      split
      · trivial
      · exact ⟨inside value (by simp [Statement.nodes]), fun _ => trivial⟩
  | assign target value =>
      cases target with
      | name id line => exact ⟨inside value (by simp [Statement.nodes]), fun _ => trivial⟩
      | member object field line =>
          have below : object ∈ (Target.member object field line).toExpr.children :=
            List.mem_singleton_self object
          exact ⟨inside value (by simp [Statement.nodes]), fun _ =>
            ⟨inside object (by simp [Statement.nodes, below]), fun _ => trivial⟩⟩
  | expression value => exact ⟨inside value (by simp [Statement.nodes]), fun _ => trivial⟩

/-- Apart from tasks that run statements, a task only calls tasks that are inside it. -/
theorem inside_plan {task : Task} (ordinary : task.runsStatements = false) :
    task.plan.All (Inside · task) := by
  match task with
  | expr scope e => exact inside_exprPlan scope e
  | exprs _ [] => trivial
  | exprs _ (_ :: _) =>
      exact ⟨⟨fun _ same => same, by simp [nodes], rfl, .inl rfl⟩, fun _ =>
        ⟨⟨fun _ same => same, by simp [nodes], rfl, .inl rfl⟩, fun _ => trivial⟩⟩
  | pairs _ [] => trivial
  | pairs _ ((_, _) :: _) =>
      exact ⟨⟨fun _ same => same, by simp [nodes], rfl, .inl rfl⟩, fun _ =>
        ⟨⟨fun _ same => same, by simp [nodes], rfl, .inl rfl⟩, fun _ => trivial⟩⟩
  | texts _ [] => trivial
  | texts _ (.text _ :: _) =>
      exact ⟨⟨fun _ same => same, List.subset_append_left _ _, rfl, .inl rfl⟩, fun _ => trivial⟩
  | texts _ (.hole _ :: _) =>
      exact ⟨⟨fun _ same => same, by simp [nodes, Part.hole?], rfl, .inl rfl⟩, fun _ =>
        Plan.all_withText _ fun _ =>
          ⟨⟨fun _ same => same, by simp [nodes, Part.hole?], rfl, .inl rfl⟩, fun _ => trivial⟩⟩
  | read _ _ _ => trivial
  | apply .run _ => trivial
  | apply .compile [] => trivial
  | apply .compile [_] => trivial
  | apply .compile (_ :: _ :: _) => trivial
  | apply .get [] => trivial
  | apply .get [_] => exact ⟨.bare rfl rfl rfl (.inl rfl), fun _ => trivial⟩
  | apply .get (_ :: _ :: _) => trivial
  | apply (.operation _) _ => trivial
  | statement scope single => exact inside_statementPlan scope single
  | get _ => exact fun _ => trivial
  | statements _ _ => cases ordinary
  | script _ => cases ordinary
  | namespaceOf _ _ => cases ordinary

/-- Only a task that ends in a reading calls one. -/
theorem access_plan (task : Task) :
    task.plan.All fun part => part.isRead = false ∨ task.isAccess = true := by
  by_cases ordinary : task.runsStatements = false
  · exact (inside_plan ordinary).imp fun _ within => within.access
  cases task with
  | statements scope program =>
      cases program with
      | nil => trivial
      | cons first rest => exact ⟨.inl rfl, fun _ => ⟨.inl rfl, fun _ => trivial⟩⟩
  | script source =>
      rw [plan]
      split
      · exact ⟨.inl rfl, fun _ => trivial⟩
      · trivial
  | namespaceOf names segments =>
      cases segments with
      | nil => trivial
      | cons segment rest =>
          rw [plan]
          split
          · exact ⟨.inl rfl, fun _ => ⟨.inl rfl, fun _ => trivial⟩⟩
          · exact ⟨.inl rfl, fun _ => trivial⟩
  | _ => exact absurd rfl ordinary

end Task

/-! The parts of moments -/

section

variable {setting : Setting}

/-- A part of a task that runs no statements is inside it, or starts a document that is imported. -/
theorem inside_of_mem_parts {whole part : Moment} (ordinary : whole.1.runsStatements = false)
    (inside : part ∈ whole.parts setting) :
    (part.1.Inside whole.1 ∧ part.2.importing = whole.2.importing) ∨
      ∃ names segments, part.1 = .namespaceOf names segments := by
  let property (part : Moment) : Prop :=
    (part.1.Inside whole.1 ∧ part.2.importing = whole.2.importing) ∨
      ∃ names segments, part.1 = .namespaceOf names segments
  have tasks : whole.1.plan.All fun task => ∀ now, now.place = whole.2.place →
      property (task, now) :=
    Plan.All.imp (fun _ within _ same => .inl ⟨within, congrArg Place.importing same⟩)
      (Task.inside_plan ordinary)
  have imports (value : Value) (now : World) (source : String) (start : World)
      (_ : now.place = whole.2.place)
      (_ : Import.opened setting value now = .ok (source, start)) :
      property (.namespaceOf [] (split source), start) := .inr ⟨[], split source, rfl⟩
  exact @Plan.forall_moments _ _ property _ imports _ tasks whole.2 rfl part inside

theorem access_of_mem_parts {whole part : Moment} (inside : part ∈ whole.parts setting) :
    part.1.isRead = false ∨ whole.1.isAccess = true := by
  let property (part : Moment) : Prop := part.1.isRead = false ∨ whole.1.isAccess = true
  have tasks : whole.1.plan.All fun task => ∀ now, now.place = whole.2.place →
      property (task, now) :=
    (Task.access_plan whole.1).imp fun _ access _ _ => access
  exact @Plan.forall_moments _ _ property _ (fun _ _ _ _ _ _ => .inl rfl) _ tasks whole.2 rfl part
    inside

theorem mem_parts_statements {scope : Scope} {single : Statement} {rest : List Statement}
    {world : World} {part : Moment}
    (inside : part ∈ Moment.parts setting (.statements scope (single :: rest), world)) :
    part = (.statement scope single, world) ∨ ∃ next after,
      Evaluate.statement (Import.getFile setting) scope single world = .ok next after ∧
      part = (.statements next rest, after) := by
  rcases List.mem_cons.1 inside with isFirst | behind
  · exact .inl isFirst
  · obtain ⟨next, after, ran, later⟩ := mem_behindResult.1 behind
    rcases List.mem_cons.1 later with isRest | last
    · exact .inr ⟨next, after, ran, isRest⟩
    · obtain ⟨_, _, _, none⟩ := mem_behindResult.1 last
      cases none

theorem mem_parts_script {text : String} {world : World} {part : Moment}
    (inside : part ∈ Moment.parts setting (.script text, world)) :
    ∃ program, parseScript (Text.trimChars text.toList) = .ok program ∧
      part = (.statements [] program, world) := by
  unfold Moment.parts at inside
  rw [Task.plan] at inside
  cases parsed : parseScript (Text.trimChars text.toList) with
  | error fault =>
      rw [parsed] at inside
      cases inside
  | ok program =>
      rw [parsed] at inside
      rcases List.mem_cons.1 inside with isProgram | behind
      · exact ⟨program, rfl, isProgram⟩
      · obtain ⟨_, _, _, none⟩ := mem_behindResult.1 behind
        cases none

/-- A document is gone through by tasks that have neither names nor nodes. -/
theorem bare_of_namespaceOf {names : Scope} {segments : List Segment} {world : World}
    {part : Moment} (inside : part ∈ Moment.parts setting (.namespaceOf names segments, world)) :
    part.1.scope? = none ∧ part.1.nodes = [] := by
  let property (part : Moment) : Prop := part.1.scope? = none ∧ part.1.nodes = []
  have tasks : (Task.namespaceOf names segments).plan.All fun task =>
      ∀ now, now.place = world.place → property (task, now) := by
    cases segments with
    | nil => trivial
    | cons segment rest =>
        rw [Task.plan]
        split
        · exact ⟨fun _ _ => ⟨rfl, rfl⟩, fun _ => ⟨fun _ _ => ⟨rfl, rfl⟩, fun _ => trivial⟩⟩
        · exact ⟨fun _ _ => ⟨rfl, rfl⟩, fun _ => trivial⟩
  exact @Plan.forall_moments _ _ property _ (fun _ _ _ _ _ _ => ⟨rfl, rfl⟩) _ tasks world rfl part
    inside

end

end SheetScript.Script
