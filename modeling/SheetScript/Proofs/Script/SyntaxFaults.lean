import SheetScript.Proofs.Script.Nodes

/-!
Where syntax faults come from. No step of a script stops with one but the reading of a script that
is refused, of the run itself or of a document that it imports; and a run that comes to a script that
is refused stops with its fault.
-/

namespace SheetScript.Script

open SheetScript.Document SheetScript.Files

abbrev StopsAtRuntime {α : Type} (step : Step α) : Prop :=
  StopsWith ScriptFault.IsRuntime step

theorem stopsAtRuntime_of_foreign {α : Type} {step : Step α}
    (stops : StopsWith ScriptFault.IsForeign step) : StopsAtRuntime step :=
  stops.imp fun _ => ScriptFault.IsForeign.runtime

theorem stopsAtRuntime_of_at {α : Type} {line : Option Nat} {step : Step α}
    (stops : StopsWith (ScriptFault.IsAt line) step) : StopsAtRuntime step :=
  stops.imp fun _ => ScriptFault.IsAt.runtime

theorem ordinary_stopsAtRuntime : Ordinary StopsAtRuntime where
  pure := stopsWith_pure
  throw _ := stopsWith_throw
  lookup scope id line := stopsAtRuntime_of_at (Evaluate.lookup_contained scope id line).stops
  makeObject fields := (makeObject_contained fields).stops
  makeList items := (makeList_contained items).stops
  add left right := stopsAtRuntime_of_foreign (Evaluate.add_contained left right).stops
  negate value := stopsAtRuntime_of_at (Evaluate.negate_contained value).stops
  write object field value line _ :=
    stopsWith_bind
      (stopsAtRuntime_of_at (Evaluate.writeField_contained object field value line).stops)
      fun _ => stopsWith_pure _

/-- Only the plan of a script that is refused finishes with a syntax fault. -/
theorem Task.finishes_stopsAtRuntime {task : Task}
    (accepted : ∀ source, task = .script source → ∀ fault,
      parseScript (Text.trimChars source.toList) ≠ .error fault) : task.plan.Finishes StopsAtRuntime :=
  finishes_plan ordinary_stopsAtRuntime
    (fun value key line _ => (Evaluate.readIndex_contained value key line).stops.imp fun _ stops =>
      stops.elim ScriptFault.IsForeign.runtime ScriptFault.IsAt.runtime)
    (fun _ arguments _ => finishes_apply ordinary_stopsAtRuntime
      (stopsAtRuntime_of_foreign (Printing.run_contained arguments).stops)
      (fun value => stopsAtRuntime_of_foreign (Printing.compile_contained value).stops)
      fun operation _ =>
        stopsAtRuntime_of_foreign (Builder.apply_contained operation arguments).stops)
    fun source fault isScript refused => absurd refused (accepted source isScript fault)

/-! Runs -/

section

variable {setting : Setting}

theorem Import.locate_foreign {base : Option Path} {importing : List Path} {name : String}
    {fault : ScriptFault} (fails : locate setting base importing name = .error fault) :
    fault.IsForeign := by
  unfold locate at fails
  dsimp only at fails
  split at fails
  · cases fails
    exact ⟨nofun, rfl⟩
  · split at fails
    · cases fails
      exact ⟨nofun, rfl⟩
    · split at fails
      · cases fails
        exact ⟨nofun, rfl⟩
      · split at fails
        · cases fails
          exact ⟨nofun, rfl⟩
        · cases fails

theorem Import.opened_foreign {value : Value} {world : World} {fault : ScriptFault}
    (fails : opened setting value world = .error fault) : fault.IsForeign := by
  unfold opened at fails
  split at fails
  · cases fails
    exact ⟨nofun, rfl⟩
  · split at fails
    · rename_i found
      cases fails
      exact locate_foreign found
    · split at fails
      · cases fails
      · cases fails
        exact ⟨nofun, rfl⟩

/-- What stops a moment in a plan stops the plan. -/
theorem Plan.faultAfter_of_moment {α : Type} {plan : Plan α} {world : World}
    (sound : SoundStack setting.workspace world.importing) {part : Moment}
    (inside : part ∈ plan.moments setting world) {fault : ScriptFault}
    (stops : faultAfter? (part.1.run (Import.getFile setting) part.2) = some fault) :
    faultAfter? (plan.run (Import.getFile setting) world) = some fault := by
  -- Along the plan: what comes before the moment ends well, as moments only begin behind such ends.
  induction plan generalizing world with
  | finish step => cases inside
  | call task next ih =>
      rw [moments] at inside
      rw [Plan.run]
      rcases List.mem_cons.1 inside with rfl | later
      · cases ran : task.run (Import.getFile setting) world with
        | ok answer after =>
            rw [ran] at stops
            cases stops
        | error reason after =>
            rw [ran] at stops
            rw [bind_of_error ran]
            exact stops
      · obtain ⟨answer, after, ran, further⟩ := mem_behindResult.1 later
        rw [bind_of_ok ran]
        exact ih answer (importing_of_ok ran ▸ sound) further
  | load value next ih =>
      rw [moments] at inside
      rw [Plan.run]
      rcases List.mem_append.1 inside with opening | later
      · obtain ⟨source, start, opens, rfl⟩ := mem_importMoments.1 opening
        have loads := @Import.getFile_eq _ value _ sound
        dsimp only at stops
        cases ran : (Task.namespaceOf [] (split source)).run (Import.getFile setting) start with
        | ok names after =>
            rw [ran] at stops
            cases stops
        | error reason after =>
            rw [ran] at stops
            rw [bind_of_error (loads.trans (Import.importWith_fault opens ran))]
            exact stops
      · obtain ⟨answer, after, ran, further⟩ := mem_behindResult.1 later
        have kept := @importing_of_ok setting (.get value) _ _ _ ran
        rw [bind_of_ok ran]
        exact ih answer (kept ▸ sound) further

/-- The plan comes to its last step, which fails, or to an import that finds no document. -/
def Plan.StopsItself (setting : Setting) {α : Type} : Plan α → World → ScriptFault → Prop
  | .finish step, world, fault => faultAfter? (step world) = some fault
  | .call task next, world, fault => ∃ answer after,
    task.run (Import.getFile setting) world = .ok answer after ∧
      (next answer).StopsItself setting after fault
  | .load value next, world, fault => Import.opened setting value world = .error fault ∨
    ∃ answer after, Import.getFile setting value world = .ok answer after ∧
      (next answer).StopsItself setting after fault

/-- A plan that stops does so in one of its moments or by itself. -/
theorem Plan.stops_cases {α : Type} {plan : Plan α} {world : World}
    (sound : SoundStack setting.workspace world.importing) {fault : ScriptFault}
    (stops : faultAfter? (plan.run (Import.getFile setting) world) = some fault) :
    (∃ part ∈ plan.moments setting world,
      faultAfter? (part.1.run (Import.getFile setting) part.2) = some fault) ∨
      plan.StopsItself setting world fault := by
  -- Along the plan: the first call that stops is the moment looked for.
  induction plan generalizing world with
  | finish step => exact .inr stops
  | call task next ih =>
      rw [Plan.run] at stops
      rw [moments]
      cases ran : task.run (Import.getFile setting) world with
      | error reason after =>
          rw [bind_of_error ran] at stops
          refine .inl ⟨(task, world), List.mem_cons_self, ?_⟩
          dsimp only
          rw [ran]
          exact stops
      | ok answer after =>
          rw [bind_of_ok ran] at stops
          rcases ih answer (importing_of_ok ran ▸ sound) stops with
            ⟨part, inside, stopsPart⟩ | itself
          · exact .inl ⟨part, List.mem_cons_of_mem _ inside, stopsPart⟩
          · exact .inr ⟨answer, after, ran, itself⟩
  | load value next ih =>
      rw [Plan.run] at stops
      rw [moments]
      have loads := @Import.getFile_eq _ value _ sound
      cases ran : Import.getFile setting value world with
      | ok answer after =>
          rw [bind_of_ok ran] at stops
          have kept := @importing_of_ok setting (.get value) _ _ _ ran
          rcases ih answer (kept ▸ sound) stops with ⟨part, inside, stopsPart⟩ | itself
          · exact .inl ⟨part, List.mem_append_right _ inside, stopsPart⟩
          · exact .inr (.inr ⟨answer, after, ran, itself⟩)
      | error reason after =>
          rw [bind_of_error ran] at stops
          obtain rfl := Option.some.inj stops
          cases opens : Import.opened setting value world with
          | error other =>
              rw [ran, Import.importWith_error opens] at loads
              cases loads
              exact .inr (.inl opens)
          | ok start =>
              obtain ⟨source, start⟩ := start
              refine .inl ⟨(.namespaceOf [] (split source), start),
                List.mem_append_left _ (mem_importMoments.2 ⟨source, start, opens, rfl⟩), ?_⟩
              dsimp only
              cases runs : (Task.namespaceOf [] (split source)).run (Import.getFile setting) start with
              | ok names after =>
                  rw [ran, Import.importWith_ok opens runs] at loads
                  cases loads
              | error other after =>
                  rw [ran, Import.importWith_fault opens runs] at loads
                  cases loads
                  rfl

theorem Plan.StopsItself.runtime {α : Type} {plan : Plan α} {world : World} {fault : ScriptFault}
    (parsed : plan.Finishes StopsAtRuntime) (stops : plan.StopsItself setting world fault) :
    fault.IsRuntime := by
  induction plan generalizing world with
  | finish step =>
      obtain ⟨after, ends⟩ := faultAfter_eq_some.1 stops
      exact parsed ends
  | call task next ih =>
      obtain ⟨answer, after, -, later⟩ := stops
      exact ih answer (parsed answer) later
  | load value next ih =>
      rcases stops with opens | ⟨answer, after, -, later⟩
      · exact (Import.opened_foreign opens).runtime
      · exact ih answer (parsed answer) later

/-- A syntax fault that no step of a plan stops with is that of a moment in it. -/
theorem Plan.exists_moment {α : Type} {plan : Plan α} {world : World}
    (sound : SoundStack setting.workspace world.importing) (parsed : plan.Finishes StopsAtRuntime)
    {reason : SyntaxFault}
    (stops : faultAfter? (plan.run (Import.getFile setting) world) = some (.badSyntax reason)) :
    ∃ part ∈ plan.moments setting world,
      faultAfter? (part.1.run (Import.getFile setting) part.2) = some (.badSyntax reason) :=
  (stops_cases sound stops).resolve_right fun itself => itself.runtime parsed reason rfl

theorem faultAfter_of_part {whole part : Moment}
    (sound : SoundStack setting.workspace whole.2.importing) (inside : part ∈ whole.parts setting)
    {fault : ScriptFault}
    (stops : faultAfter? (part.1.run (Import.getFile setting) part.2) = some fault) :
    faultAfter? (whole.1.run (Import.getFile setting) whole.2) = some fault := by
  rw [← Task.run_plan]
  exact Plan.faultAfter_of_moment sound inside stops

/-- What stops a moment of a run stops the run. -/
theorem faultAfter_of_happens {start moment : Moment}
    (sound : SoundStack setting.workspace start.2.importing)
    (happens : Happens setting start moment) {fault : ScriptFault}
    (stops : faultAfter? (moment.1.run (Import.getFile setting) moment.2) = some fault) :
    faultAfter? (start.1.run (Import.getFile setting) start.2) = some fault := by
  induction happens with
  | start => exact stops
  | part happens inside ih =>
      exact ih (faultAfter_of_part (sound_happens sound happens) inside stops)

def Refused (source : String) (fault : SyntaxFault) : Prop :=
  parseScript (Text.trimChars source.toList) = .error fault

theorem run_refused {source : String} {fault : SyntaxFault} (refused : Refused source fault)
    (handler : Value → Step Value) (world : World) :
    (Task.script source).run handler world = .error (.badSyntax fault) world := by
  change Evaluate.script handler source world = _
  unfold Refused at refused
  rw [Evaluate.script, refused]
  rfl

/-- A run stops with a syntax fault exactly if it comes to a script that is refused with it. -/
theorem faultAfter_eq_badSyntax_iff {moment : Moment}
    (sound : SoundStack setting.workspace moment.2.importing) {fault : SyntaxFault} :
    faultAfter? (moment.1.run (Import.getFile setting) moment.2) = some (.badSyntax fault) ↔
      ∃ source now, Happens setting moment (.script source, now) ∧ Refused source fault := by
  constructor
  · intro stops
    -- By induction on the moments inside one another, down to the one that reads the script.
    induction acc_parts sound with
    | intro moment _ ih =>
        by_cases here : ∃ source, moment.1 = .script source ∧ ∃ other, Refused source other
        · obtain ⟨source, isScript, other, refused⟩ := here
          obtain ⟨task, world⟩ := moment
          cases isScript
          rw [run_refused refused] at stops
          cases stops
          exact ⟨source, world, .start, refused⟩
        · have parsed : moment.1.plan.Finishes StopsAtRuntime :=
            Task.finishes_stopsAtRuntime fun source isScript other refused =>
              here ⟨source, isScript, other, refused⟩
          rw [← Task.run_plan] at stops
          obtain ⟨part, inside, stopsPart⟩ := Plan.exists_moment sound parsed stops
          obtain ⟨source, now, happens, refused⟩ := ih part inside (sound_part sound inside) stopsPart
          exact ⟨source, now, happens.inside inside, refused⟩
  · rintro ⟨source, now, happens, refused⟩
    refine faultAfter_of_happens sound happens ?_
    dsimp only
    rw [run_refused refused]
    rfl

/-! Scripts of imported documents -/

namespace Task

def runsScripts : Task → Bool
  | script _ | namespaceOf _ _ => true
  | _ => false

theorem runsScripts_of_ordinary {task : Task} (ordinary : task.runsStatements = false) :
    task.runsScripts = false := by
  cases task with
  | script source => cases ordinary
  | namespaceOf names segments => cases ordinary
  | _ => rfl

/-- Only the task of a document calls a task that runs scripts. -/
theorem all_plan {property : Task → Prop} (others : ∀ task, task.runsScripts = false → property task)
    {task : Task} (notDocument : ∀ names segments, task ≠ .namespaceOf names segments) :
    task.plan.All property := by
  by_cases ordinary : task.runsStatements = false
  · exact (inside_plan ordinary).imp fun part within =>
      others part (runsScripts_of_ordinary within.ordinary)
  cases task with
  | statements scope program =>
      cases program with
      | nil => trivial
      | cons first rest => exact ⟨others _ rfl, fun _ => ⟨others _ rfl, fun _ => trivial⟩⟩
  | script source =>
      rw [plan]
      split
      · exact ⟨others _ rfl, fun _ => trivial⟩
      · trivial
  | namespaceOf names segments => exact absurd rfl (notDocument names segments)
  | _ => exact absurd rfl ordinary

end Task

/-- Scripts, and documents, that run while the document that they are of is being imported. -/
def Imported (setting : Setting) : Moment → Prop
  | (.script source, now) => ∃ path document segment,
    now.importing.getLast? = some path ∧ setting.workspace.readText path = .ok document ∧
      segment ∈ split document ∧ segment.isScript = true ∧ source = segment.text
  | (.namespaceOf _ segments, now) => ∃ path document,
    now.importing.getLast? = some path ∧ setting.workspace.readText path = .ok document ∧
      segments ⊆ split document
  | _ => True

theorem imported_part {whole part : Moment}
    (document : ∀ names segments, whole.1 = .namespaceOf names segments → Imported setting whole)
    (inside : part ∈ whole.parts setting) : Imported setting part := by
  have imports (value : Value) (now : World) (source : String) (within : World)
      (_ : now.place = whole.2.place)
      (opens : Import.opened setting value now = .ok (source, within)) :
      Imported setting (.namespaceOf [] (split source), within) := by
    obtain ⟨name, path, -, -, reads, rfl⟩ := Import.opened_eq_ok opens
    exact ⟨path, source, List.getLast?_concat, reads, List.Subset.refl _⟩
  refine Plan.forall_moments imports ?_ whole.2 rfl part inside
  obtain ⟨task, world⟩ := whole
  -- A document goes on with its own scripts; no other task runs any.
  by_cases isDocument : ∃ names segments, task = .namespaceOf names segments
  · obtain ⟨names, segments, rfl⟩ := isDocument
    obtain ⟨path, source, last, reads, within⟩ := document names segments rfl
    cases segments with
    | nil => trivial
    | cons segment rest =>
        have later : rest ⊆ split source := fun other isLater =>
          within (List.mem_cons_of_mem segment isLater)
        have goesOn (names : Scope) (now : World) (same : now.place = world.place) :
            Imported setting (.namespaceOf names rest, now) :=
          ⟨path, source, (congrArg (fun place : Place => place.importing.getLast?) same).trans last, reads, later⟩
        rw [Task.plan]
        split
        · rename_i isScript
          refine ⟨fun now same => ?_, fun declared => ⟨goesOn _, fun _ => trivial⟩⟩
          exact ⟨path, source, segment, (congrArg (fun place : Place => place.importing.getLast?) same).trans last, reads,
            within List.mem_cons_self, isScript, rfl⟩
        · exact ⟨goesOn _, fun _ => trivial⟩
  · refine Task.all_plan (fun other isOther now _ => ?_) fun names segments same =>
      isDocument ⟨names, segments, same⟩
    cases other with
    | script source => cases isOther
    | namespaceOf names segments => cases isOther
    | _ => trivial

/-- All that a run of a script comes to, but the script itself, belongs to documents it imports. -/
theorem imported_of_happens {source : String} {world : World} {moment : Moment}
    (happens : Happens setting (.script source, world) moment) :
    moment = (.script source, world) ∨ Imported setting moment := by
  induction happens with
  | start => exact .inl rfl
  | part happens inside ih =>
      refine .inr (imported_part (fun names segments isDocument => ?_) inside)
      rcases ih with rfl | isImported
      · cases isDocument
      · exact isImported

end

end SheetScript.Script
