import SheetScript.Proofs.Script.NodeLines
import SheetScript.Proofs.Script.SyntaxFaults

/-!
The nodes that runtime errors are raised at, and the lines that they are reported with. An error has
the line of its node, which is one of the source that the node stands in.
-/

namespace SheetScript.Script

open SheetScript.Document SheetScript.Files SheetScript.Style

/-! Failing nodes -/

section

-- What `get` does with the value that names a file.
variable (handler : Value → Step Value)

/--
A task stops in its own step, with a fault at a node: a name is not found, a field or an element is
not read, what is called is no function, or an assignment has nothing to assign to.
-/
inductive Raises : Moment → Expr → ScriptFault → Prop
  | name {scope : Scope} {id : String} {line : Nat} {now : World} {fault : ScriptFault}
      (fails : faultAfter? (Evaluate.lookup scope id line now) = some fault) :
      Raises (.expr scope (.name id line), now) (.name id line) fault
  | member {scope : Scope} {owner : Expr} {field : String} {line : Nat} {now between : World}
      {value : Value} {fault : ScriptFault}
      (owns : Evaluate.expr handler scope owner now = .ok value between)
      (fails : faultAfter? (Evaluate.readField value field line between) = some fault) :
      Raises (.expr scope (.member owner field line), now) (.member owner field line) fault
  | index {scope : Scope} {owner key : Expr} {line : Option Nat} {now between later : World}
      {value keyValue : Value} {fault : ScriptFault}
      (owns : Evaluate.expr handler scope owner now = .ok value between)
      (hasKey : Evaluate.expr handler scope key between = .ok keyValue later)
      (fails : faultAfter? (Evaluate.readIndex value keyValue line later) = some fault) :
      Raises (.expr scope (.index owner key line), now) (.index owner key line) fault
  | call {scope : Scope} {function : Expr} {arguments : List Expr} {line : Option Nat}
      {now between : World} {value : Value}
      (calls : Evaluate.expr handler scope function now = .ok value between)
      (noFunction : ∀ builtin address, value ≠ .function builtin address) :
      Raises (.expr scope (.call function arguments line), now) (.call function arguments line)
        (.notFunction function.description line)
  | assignName {scope : Scope} {id : String} {line : Nat} {expr : Expr} {now between : World}
      {value : Value} (hasValue : Evaluate.expr handler scope expr now = .ok value between)
      (undeclared : scope.get? id = none) :
      Raises (.statement scope (.assign (.name id line) expr), now) (.name id line)
        (.undeclaredName id line)
  | assignMember {scope : Scope} {object expr : Expr} {field : String} {line : Nat}
      {now between later : World} {value owner : Value} {fault : ScriptFault}
      (hasValue : Evaluate.expr handler scope expr now = .ok value between)
      (owns : Evaluate.expr handler scope object between = .ok owner later)
      (fails : faultAfter? (Evaluate.writeField owner field value line later) = some fault) :
      Raises (.statement scope (.assign (.member object field line) expr), now)
        (.member object field line) fault

variable {handler} {moment : Moment} {node : Expr} {fault : ScriptFault}

theorem Raises.stops (raises : Raises handler moment node fault) :
    faultAfter? (moment.1.run handler moment.2) = some fault := by
  cases raises with
  | name fails =>
      rw [Task.run, Evaluate.expr]
      exact fails
  | member owns fails =>
      rw [Task.run, Evaluate.expr, bind_of_ok owns]
      exact fails
  | index owns hasKey fails =>
      rw [Task.run, Evaluate.expr, bind_of_ok owns, bind_of_ok hasKey]
      exact fails
  | @call _ _ _ _ _ _ value calls noFunction =>
      rw [Task.run, Evaluate.expr, bind_of_ok calls]
      cases value with
      | function builtin address => exact absurd rfl (noFunction builtin address)
      | _ => rfl
  | assignName hasValue undeclared =>
      rw [Task.run, Evaluate.statement, bind_of_ok hasValue]
      simp only [undeclared]
      rfl
  | assignMember hasValue owns fails =>
      obtain ⟨after, writes⟩ := faultAfter_eq_some.1 fails
      rw [Task.run, Evaluate.statement, bind_of_ok hasValue]
      dsimp only
      rw [bind_of_ok owns, bind_of_error writes]
      rfl

/-- A task raises faults at nodes that it works on. -/
theorem Raises.mem_nodes (raises : Raises handler moment node fault) :
    node ∈ moment.1.nodes := by
  cases raises with
  | assignName => exact List.mem_cons_of_mem _ (List.mem_singleton_self _)
  | assignMember => exact List.mem_cons_of_mem _ (List.mem_singleton_self _)
  | _ => exact List.mem_singleton_self _

/-- A runtime error has the line of the node that it is raised at. -/
theorem Raises.line_eq (raises : Raises handler moment node fault)
    (isRuntimeError : fault.isRuntimeError = true) : fault.line? = node.line? := by
  cases raises with
  | name fails =>
      obtain ⟨after, ends⟩ := faultAfter_eq_some.1 fails
      exact ((Evaluate.lookup_contained _ _ _).stops ends).line
  | member owns fails =>
      obtain ⟨after, ends⟩ := faultAfter_eq_some.1 fails
      exact ((Evaluate.readField_contained _ _ _).stops ends).line
  | index owns hasKey fails =>
      obtain ⟨after, ends⟩ := faultAfter_eq_some.1 fails
      rcases (Evaluate.readIndex_contained _ _ _).stops ends with isForeign | isAt
      · exact isForeign.elim isRuntimeError
      · exact isAt.line
  | call => rfl
  | assignName => rfl
  | assignMember hasValue owns fails =>
      obtain ⟨after, ends⟩ := faultAfter_eq_some.1 fails
      exact ((Evaluate.writeField_contained _ _ _ _).stops ends).line

end

/-! Sources of nodes -/

section

variable (setting : Setting) (start : Moment)

/--
The nodes of what a run parses: its scripts, those of imported documents too, and the holes of the
templates in them, each of which is a source of its own.
-/
inductive NodeOf : List Char → Expr → Prop
  | script {text : String} {now : World} {program : List Statement} {single : Statement}
      {node : Expr} (runs : Happens setting start (.script text, now))
      (parsed : parseScript (Text.trimChars text.toList) = .ok program)
      (inProgram : single ∈ program) (isNode : node ∈ single.nodes) :
      NodeOf (Text.trimChars text.toList) node
  | child {source : List Char} {whole node : Expr} (above : NodeOf source whole)
      (notTemplate : whole.isTemplate = false) (isChild : node ∈ whole.children) :
      NodeOf source node
  | hole {source body : List Char} {parts : List (Part Expr)} {found : Pieces}
      {piece : List Char × List Char} {node : Expr} (above : NodeOf source (.template parts))
      (inSource : .template body ∈ (lexemes source).1) (cut : pieces body = .ok found)
      (isPiece : piece ∈ found.holes) (parsed : parseExpression piece.2 = .ok node)
      (isHole : .hole node ∈ parts) : NodeOf piece.2 node

variable {setting start} {source : List Char} {node : Expr}

theorem NodeOf.readIn (nodeOf : NodeOf setting start source node) : ReadIn source node := by
  induction nodeOf with
  | script runs parsed inProgram isNode =>
      exact readIn_of_parseScript parsed _ inProgram _ isNode
  | child above notTemplate isChild readIn => exact readIn.child notTemplate isChild
  | hole above inSource cut isPiece parsed => exact readIn_of_parseExpression parsed

theorem NodeOf.exists_child (nodeOf : NodeOf setting start source node) {child : Expr}
    (isChild : child ∈ node.children) : ∃ inner, NodeOf setting start inner child := by
  by_cases isTemplate : node.isTemplate = true
  · cases node with
    | template parts =>
        have isHole := mem_children_template isChild
        obtain ⟨body, found, piece, inSource, cut, isPiece, parsed⟩ := nodeOf.readIn.hole isHole
        exact ⟨piece.2, .hole nodeOf inSource cut isPiece parsed isHole⟩
    | _ => cases isTemplate
  · exact ⟨source, .child nodeOf (by simpa using isTemplate) isChild⟩

/-- The nodes of what happens at a moment stand in sources that the run parses. -/
def Sourced (setting : Setting) (start moment : Moment) : Prop :=
  ∀ node ∈ moment.1.nodes, ∃ source, NodeOf setting start source node

theorem sourced_of_inside {part whole : Moment} (inside : part.1.Inside whole.1)
    (sourced : Sourced setting start whole) : Sourced setting start part := by
  intro node isNode
  rcases List.mem_append.1 (inside.nodes isNode) with isSame | isBelow
  · exact sourced node isSame
  · obtain ⟨above, isAbove, isChild⟩ := List.mem_flatMap.1 isBelow
    obtain ⟨source, nodeOf⟩ := sourced above isAbove
    exact nodeOf.exists_child isChild

theorem sourced_of_no_nodes {moment : Moment} (none : moment.1.nodes = []) :
    Sourced setting start moment := by
  intro node isNode
  rw [none] at isNode
  cases isNode

theorem sourced_part {whole part : Moment} (happens : Happens setting start whole)
    (sourced : Sourced setting start whole) (inside : part ∈ whole.parts setting) :
    Sourced setting start part := by
  obtain ⟨task, now⟩ := whole
  by_cases ordinary : task.runsStatements = false
  · rcases inside_of_mem_parts ordinary inside with ⟨within, -⟩ | ⟨names, segments, isDocument⟩
    · exact sourced_of_inside within sourced
    · exact sourced_of_no_nodes (by rw [isDocument]; rfl)
  · match task with
    | .statements scope [] => cases inside
    | .statements scope (single :: rest) =>
        rcases mem_parts_statements inside with rfl | ⟨next, after, -, rfl⟩
        · exact fun node isNode => sourced node (List.mem_append_left _ isNode)
        · exact fun node isNode => sourced node (List.mem_append_right _ isNode)
    | .script text =>
        obtain ⟨program, parsed, rfl⟩ := mem_parts_script inside
        intro node isNode
        obtain ⟨single, inProgram, ofSingle⟩ := List.mem_flatMap.1 isNode
        exact ⟨_, .script happens parsed inProgram ofSingle⟩
    | .namespaceOf names segments => exact sourced_of_no_nodes (bare_of_namespaceOf inside).2

/-- What a run of a script works on at its moments are nodes of what it parses. -/
theorem sourced_of_happens {text : String} {world : World} {moment : Moment}
    (happens : Happens setting (.script text, world) moment) :
    Sourced setting (.script text, world) moment := by
  induction happens with
  | start => exact sourced_of_no_nodes rfl
  | part happens inside ih => exact sourced_part happens ih inside

end

/-! Where runtime errors come from -/

section

variable {setting : Setting} {fault : ScriptFault}

/-- The fault of a declaration or a negation, which name no node. -/
def ScriptFault.IsNodeless (fault : ScriptFault) : Prop :=
  (∃ name, fault = .redeclaredName name) ∨ ∃ kind, fault = .notNegatable kind

/-- What a task that is no reading raises when its own step fails. -/
def RaisesItself (setting : Setting) (moment : Moment) (fault : ScriptFault) : Prop :=
  fault.IsNodeless ∨ ∃ node, Raises (Import.getFile setting) moment node fault

theorem elim_of_foreign {α : Type} {claim : Prop} {step : Step α} {world : World}
    (foreign : StopsWith ScriptFault.IsForeign step)
    (stops : faultAfter? (step world) = some fault) (isRuntimeError : fault.isRuntimeError = true) :
    claim := by
  obtain ⟨after, ends⟩ := faultAfter_eq_some.1 stops
  exact (foreign ends).elim isRuntimeError

theorem Plan.withText_stops {α : Type} {value : Value} {next : String → Plan α} {world : World}
    (stops : (withText value next).StopsItself setting world fault) :
    (∃ text, (next text).StopsItself setting world fault) ∨ fault = .integerTooLong := by
  unfold withText at stops
  split at stops
  · exact .inl ⟨_, stops⟩
  · exact .inr (Option.some.inj stops).symm

theorem raises_exprPlan {scope : Scope} {e : Expr} {world : World}
    (stops : (Task.exprPlan scope e).StopsItself setting world fault)
    (isRuntimeError : fault.isRuntimeError = true) :
    RaisesItself setting (.expr scope e, world) fault := by
  -- Once the parts have values, only a name, a call and a negation can still fail at the node.
  cases e with
  | literal constant => cases stops
  | template parts =>
      obtain ⟨text, after, -, ends⟩ := stops
      cases ends
  | name id line => exact .inr ⟨_, .name stops⟩
  | member object field line =>
      obtain ⟨value, between, -, read, after, -, ends⟩ := stops
      cases ends
  | index object key line =>
      obtain ⟨value, between, -, keyValue, later, -, read, after, -, ends⟩ := stops
      cases ends
  | call function arguments line =>
      obtain ⟨value, between, calls, rest⟩ := stops
      cases value with
      | function builtin =>
          obtain ⟨values, later, -, answer, after, -, ends⟩ := rest
          cases ends
      | _ =>
          obtain rfl := Option.some.inj rest
          exact .inr ⟨_, .call calls nofun⟩
  | object fields =>
      obtain ⟨pairs, after, -, ends⟩ := stops
      cases ends
  | array items =>
      obtain ⟨values, after, -, ends⟩ := stops
      cases ends
  | sum left right =>
      obtain ⟨first, between, -, second, later, -, ends⟩ := stops
      exact elim_of_foreign (Evaluate.add_contained first second).stops ends isRuntimeError
  | negation operand =>
      obtain ⟨value, after, -, ends⟩ := stops
      unfold Plan.StopsItself Evaluate.negate at ends
      split at ends
      · cases ends
      · cases ends
      · exact .inl (.inr ⟨_, (Option.some.inj ends).symm⟩)

theorem raises_statementPlan {scope : Scope} {single : Statement} {world : World}
    (stops : (Task.statementPlan scope single).StopsItself setting world fault) :
    RaisesItself setting (.statement scope single, world) fault := by
  -- An assignment fails at its target; a declaration fails at no node.
  cases single with
  | declare name value =>
      rw [Task.statementPlan] at stops
      split at stops
      · exact .inl (.inl ⟨name, (Option.some.inj stops).symm⟩)
      · obtain ⟨found, after, -, ends⟩ := stops
        cases ends
  | assign target value =>
      cases target with
      | name id line =>
          obtain ⟨found, between, hasValue, ends⟩ := stops
          unfold Plan.StopsItself at ends
          split at ends
          · cases ends
          · rename_i undeclared
            obtain rfl := Option.some.inj ends
            exact .inr ⟨_, .assignName hasValue (by simpa using undeclared)⟩
      | member object field line =>
          obtain ⟨found, between, hasValue, owner, later, owns, ends⟩ := stops
          refine .inr ⟨_, .assignMember hasValue owns ?_⟩
          cases writes : Evaluate.writeField owner field found line later with
          | ok done after =>
              rw [Plan.StopsItself, bind_of_ok writes] at ends
              cases ends
          | error reason after =>
              rw [Plan.StopsItself, bind_of_error writes] at ends
              exact ends
  | expression value =>
      obtain ⟨found, after, -, ends⟩ := stops
      cases ends

/-- A runtime error of a task's own step is raised at a node of it. A reading has none. -/
theorem raises_plan {task : Task} {world : World} (notRead : task.isRead = false)
    (stops : task.plan.StopsItself setting world fault)
    (isRuntimeError : fault.isRuntimeError = true) : RaisesItself setting (task, world) fault := by
  -- Besides calling others, only expressions and statements do what can be a runtime error.
  match task with
  | .expr scope e => exact raises_exprPlan stops isRuntimeError
  | .exprs _ [] => cases stops
  | .exprs _ (_ :: _) =>
      obtain ⟨value, between, -, values, after, -, ends⟩ := stops
      cases ends
  | .pairs _ [] => cases stops
  | .pairs _ ((_, _) :: _) =>
      obtain ⟨value, between, -, values, after, -, ends⟩ := stops
      cases ends
  | .texts _ [] => cases stops
  | .texts _ (.text _ :: _) =>
      obtain ⟨others, after, -, ends⟩ := stops
      cases ends
  | .texts _ (.hole _ :: _) =>
      obtain ⟨value, between, -, rest⟩ := stops
      rcases Plan.withText_stops rest with ⟨first, others, after, -, ends⟩ | rfl
      · cases ends
      · cases isRuntimeError
  | .read _ _ _ => cases notRead
  | .apply .run arguments =>
      exact elim_of_foreign (Printing.run_contained arguments).stops stops isRuntimeError
  | .apply .compile [value] =>
      exact elim_of_foreign (Printing.compile_contained value).stops stops isRuntimeError
  | .apply .get [_] =>
      obtain ⟨answer, after, -, ends⟩ := stops
      cases ends
  | .apply (.operation operation) arguments =>
      exact elim_of_foreign (Builder.apply_contained operation arguments).stops stops isRuntimeError
  | .apply .compile [] | .apply .compile (_ :: _ :: _)
  | .apply .get [] | .apply .get (_ :: _ :: _) =>
      obtain rfl := Option.some.inj stops
      cases isRuntimeError
  | .statement scope single => exact raises_statementPlan stops
  | .statements _ [] => cases stops
  | .statements _ (_ :: _) =>
      obtain ⟨next, between, -, last, after, -, ends⟩ := stops
      cases ends
  | .script text =>
      rw [Task.plan] at stops
      split at stops
      · obtain ⟨names, after, -, ends⟩ := stops
        cases ends
      · obtain rfl := Option.some.inj stops
        cases isRuntimeError
  | .namespaceOf _ [] => cases stops
  | .namespaceOf _ (_ :: _) =>
      rw [Task.plan] at stops
      split at stops
      · obtain ⟨declared, between, -, names, after, -, ends⟩ := stops
        cases ends
      · obtain ⟨names, after, -, ends⟩ := stops
        cases ends
  | .get value =>
      rcases stops with opens | ⟨answer, after, -, ends⟩
      · exact (Import.opened_foreign opens).elim isRuntimeError
      · cases ends

/-- A reading that stops is that of a member or an index, which raises the fault. -/
theorem raises_of_read {whole part : Moment} (isAccess : whole.1.isAccess = true)
    (inside : part ∈ whole.parts setting) (isRead : part.1.isRead = true)
    (stops : faultAfter? (part.1.run (Import.getFile setting) part.2) = some fault) :
    ∃ node, Raises (Import.getFile setting) whole node fault := by
  obtain ⟨task, world⟩ := whole
  match task, isAccess with
  | .expr scope (.member owner field line), _ =>
      rcases List.mem_cons.1 inside with rfl | behind
      · cases isRead
      obtain ⟨value, between, owns, inRest⟩ := mem_behindResult.1 behind
      rcases List.mem_cons.1 inRest with rfl | last
      · refine ⟨_, .member owns ?_⟩
        rw [← Task.readIndex_text]
        exact stops
      · obtain ⟨_, _, _, none⟩ := mem_behindResult.1 last
        cases none
  | .expr scope (.index owner key line), _ =>
      rcases List.mem_cons.1 inside with rfl | behind
      · cases isRead
      obtain ⟨value, between, owns, inRest⟩ := mem_behindResult.1 behind
      rcases List.mem_cons.1 inRest with rfl | behindKey
      · cases isRead
      obtain ⟨keyValue, later, hasKey, inLast⟩ := mem_behindResult.1 behindKey
      rcases List.mem_cons.1 inLast with rfl | last
      · exact ⟨_, .index owns hasKey stops⟩
      · obtain ⟨_, _, _, none⟩ := mem_behindResult.1 last
        cases none

/-- A run that stops with a runtime error has a moment whose task raises it. -/
theorem exists_raisesItself {moment : Moment}
    (sound : SoundStack setting.workspace moment.2.importing) (notRead : moment.1.isRead = false)
    (stops : faultAfter? (moment.1.run (Import.getFile setting) moment.2) = some fault)
    (isRuntimeError : fault.isRuntimeError = true) :
    ∃ part, Happens setting moment part ∧ RaisesItself setting part fault := by
  -- By induction on the moments inside one another, down to the one whose own step fails.
  induction acc_parts sound with
  | intro moment _ ih =>
      rw [← Task.run_plan] at stops
      rcases Plan.stops_cases sound stops with ⟨part, inside, stopsPart⟩ | itself
      · cases isRead : part.1.isRead with
        | true =>
            have isAccess := (access_of_mem_parts inside).resolve_left (by simp [isRead])
            exact ⟨moment, .start, .inr (raises_of_read isAccess inside isRead stopsPart)⟩
        | false =>
            obtain ⟨last, happens, raises⟩ :=
              ih part inside (sound_part sound inside) isRead stopsPart
            exact ⟨last, happens.inside inside, raises⟩
      · exact ⟨moment, .start, raises_plan notRead itself isRuntimeError⟩

/--
A runtime error that is raised at a node is what the run stops with, and has the line of the node,
which is one of the source that the node stands in. An index or a call has a line only if there is a
name or a member at its left end; names and members always have one. Every runtime error that a run
stops with is raised at a node, unless it is that of a declaration or of a negation.
-/
theorem line_of_runtimeError (setting : Setting) (source : String) {world : World}
    (idle : world.importing = []) :
    (∀ moment node fault, Happens setting (.script source, world) moment →
      Raises (Import.getFile setting) moment node fault →
      fault.className = "ScriptRuntimeError" →
      faultAfter? (runScript setting source world) = some fault ∧
      ∃ text, NodeOf setting (.script source, world) text node ∧ fault.line? = node.line? ∧
        fault.line?.isSome = node.hasNamedHead ∧
        ∀ line, fault.line? = some line → 1 ≤ line ∧ line ≤ lineCount text) ∧
    ∀ fault, faultAfter? (runScript setting source world) = some fault →
      fault.className = "ScriptRuntimeError" →
      fault.IsNodeless ∨ ∃ moment node, Happens setting (.script source, world) moment ∧
        Raises (Import.getFile setting) moment node fault := by
  have sound : SoundStack setting.workspace world.importing := idle ▸ SoundStack.nil
  constructor
  · intro moment node fault happens raises isNamed
    have isRuntimeError := fault.isRuntimeError_iff.2 isNamed
    obtain ⟨text, nodeOf⟩ := sourced_of_happens happens node raises.mem_nodes
    obtain ⟨hasLine, inText⟩ := nodeOf.readIn.line
    have sameLine := raises.line_eq isRuntimeError
    refine ⟨faultAfter_of_happens sound happens raises.stops, text, nodeOf, sameLine, ?_⟩
    rw [sameLine]
    exact ⟨hasLine, inText⟩
  · intro fault stops isNamed
    have isRuntimeError := fault.isRuntimeError_iff.2 isNamed
    obtain ⟨moment, happens, raises⟩ :=
      @exists_raisesItself _ _ (.script source, world) sound rfl stops isRuntimeError
    exact raises.imp_right fun ⟨node, raises⟩ => ⟨moment, node, happens, raises⟩

end

def unknownMember : String := "const a = 1\nchain.nope('x')"

theorem line_of_runtimeError_unknownMember :
    ∃ moment node text, Happens circle (.script unknownMember, World.start none default) moment ∧
      Raises (Import.getFile circle) moment node (.badMember (.unknown "nope") (some 2)) ∧
      NodeOf circle (.script unknownMember, World.start none default) text node ∧
      node.hasNamedHead = true ∧ 2 ≤ lineCount text := by
  have stops : faultAfter? (runScript circle unknownMember (World.start none default)) =
      some (.badMember (.unknown "nope") (some 2)) := by
    decide +kernel
  have idle : (World.start none default).importing = [] := rfl
  obtain ⟨ofNode, ofRun⟩ := line_of_runtimeError circle unknownMember idle
  rcases ofRun _ stops rfl with isNodeless | ⟨moment, node, happens, raises⟩
  · rcases isNodeless with ⟨_, other⟩ | ⟨_, other⟩ <;> cases other
  · obtain ⟨-, text, nodeOf, -, hasLine, inText⟩ := ofNode moment node _ happens raises rfl
    exact ⟨moment, node, text, happens, raises, nodeOf, hasLine.symm, (inText 2 rfl).2⟩

/-- What indexes null at its left end is reported without a line. -/
theorem no_line_of_nullIndex :
    ∃ moment node fault, Happens circle (.script "null[0]", World.start none default) moment ∧
      Raises (Import.getFile circle) moment node fault ∧
      fault.className = "ScriptRuntimeError" ∧ fault.line? = none := by
  have stops : faultAfter? (runScript circle "null[0]" (World.start none default)) =
      some (.fieldNotReadable "0" "null" none) := by
    decide +kernel
  obtain ⟨moment, happens, isNodeless | ⟨node, raises⟩⟩ :=
    @exists_raisesItself circle _ (.script "null[0]", World.start none default) SoundStack.nil rfl stops rfl
  · rcases isNodeless with ⟨_, other⟩ | ⟨_, other⟩ <;> cases other
  · exact ⟨moment, node, _, happens, raises, rfl, rfl⟩

end SheetScript.Script
