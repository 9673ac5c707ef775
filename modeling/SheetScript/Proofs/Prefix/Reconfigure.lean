import SheetScript.Prefix.Engine

/-!
What a history of calls leaves of an engine. Another configuration that can be applied makes the
engine the one that would be made for it afresh; one whose data cannot be read is taken over all the
same, but for its strategy.
-/

namespace SheetScript.Prefix

open SheetScript.Files

namespace Engine

inductive Call
  | reconfigure (around : Surroundings) (config : Config)
  | apply (runner : Runner) (css source target : String)

def afterCall (engine : Engine) : Call → Engine
  | .reconfigure around config => (engine.reconfigure around config).2.1
  | .apply .. => engine

def afterCalls (engine : Engine) (calls : List Call) : Engine :=
  calls.foldl afterCall engine

variable {around start : Surroundings} {overrides : Overrides} {engine next : Engine}
  {config first : Config} {fault : DataFault} {log note : Log}

/-! One call -/

theorem create_eq (around : Surroundings) (overrides : Overrides) (config : Config) :
    create around overrides config =
      let available := isAvailable around overrides config
      let choice := (choose config.mode available).1
      ((strategyFor around overrides config choice).map (⟨overrides, config, available, choice, ·⟩),
        warningLog (choose config.mode available).2) :=
  rfl

/-- An engine that is made is the one its parts say. -/
theorem eq_of_create (made : create around overrides config = (.ok engine, log)) :
    engine = ⟨overrides, config, isAvailable around overrides config,
      (choose config.mode (isAvailable around overrides config)).1, engine.strategy⟩ := by
  rw [create_eq] at made
  obtain ⟨answer, -⟩ := Prod.mk.inj made
  cases found : strategyFor around overrides config
      (choose config.mode (isAvailable around overrides config)).1 with
  | error fault =>
      rw [found] at answer
      cases answer
  | ok strategy =>
      rw [found] at answer
      obtain rfl := Except.ok.inj answer
      rfl

theorem create_of_reconfigure_ok (ran : engine.reconfigure around config = (.ok (), next, log)) :
    create around engine.overrides config = (.ok next, log) := by
  simp only [reconfigure] at ran
  split at ran
  · rename_i strategy answer
    obtain ⟨-, rfl, rfl⟩ := ran
    rw [create_eq]
    simp only [answer]
    rfl
  · cases ran

/-- A failed reconfiguration has set all but the strategy. -/
theorem reconfigure_error (ran : engine.reconfigure around config = (.error fault, next, log)) :
    create around engine.overrides config = (.error fault, log) ∧
      next = { engine with
        config := config
        available := isAvailable around engine.overrides config
        choice := (choose config.mode (isAvailable around engine.overrides config)).1 } := by
  simp only [reconfigure] at ran
  split at ran
  · cases ran
  · rename_i found answer
    obtain ⟨rfl, rfl, rfl⟩ := ran
    refine ⟨?_, rfl⟩
    rw [create_eq]
    simp only [answer]
    rfl

/-! Histories -/

structure Settled (overrides : Overrides) (engine : Engine) : Prop where
  given : engine.overrides = overrides
  chosen : engine.choice = (choose engine.config.mode engine.available).1

theorem settled_of_create (made : create around overrides config = (.ok engine, log)) :
    Settled overrides engine := by
  rw [eq_of_create made]
  exact ⟨rfl, rfl⟩

theorem Settled.afterCall (settled : Settled overrides engine) (call : Call) :
    Settled overrides (engine.afterCall call) := by
  cases call with
  | apply => exact settled
  | reconfigure around config =>
      rw [Engine.afterCall]
      rcases ran : engine.reconfigure around config with ⟨⟨fault⟩ | ⟨⟩, next, log⟩
      · obtain ⟨-, rfl⟩ := reconfigure_error ran
        exact ⟨settled.given, by rw [settled.given]⟩
      · exact settled_of_create (settled.given ▸ create_of_reconfigure_ok ran)

theorem Settled.afterCalls (settled : Settled overrides engine) (calls : List Call) :
    Settled overrides (engine.afterCalls calls) := by
  induction calls generalizing engine with
  | nil => exact settled
  | cons call calls ih => exact ih (settled.afterCall call)

/--
After any history of calls: a configuration that can be applied makes the engine the one that is
made for it afresh, with the same log. One that cannot be applied cannot be applied afresh either:
it is taken over with all but the strategy, so the engine stays what it was exactly if the
configuration is its own and the other program is as available as before.
-/
theorem reconfigure_after_calls (made : create start overrides first = (.ok engine, note))
    (calls : List Call) (around : Surroundings) (config : Config) :
    (∀ next log, (engine.afterCalls calls).reconfigure around config = (.ok (), next, log) →
      create around overrides config = (.ok next, log)) ∧
    ∀ fault next log, (engine.afterCalls calls).reconfigure around config = (.error fault, next, log) →
      create around overrides config = (.error fault, log) ∧
        next = { engine.afterCalls calls with
          config := config
          available := isAvailable around overrides config
          choice := (choose config.mode (isAvailable around overrides config)).1 } ∧
        (next = engine.afterCalls calls ↔
          config = (engine.afterCalls calls).config ∧
            isAvailable around overrides config = (engine.afterCalls calls).available) := by
  have settled := (settled_of_create made).afterCalls calls
  generalize engine.afterCalls calls = reached at settled ⊢
  obtain rfl := settled.given
  constructor
  · intro next log ran
    exact create_of_reconfigure_ok ran
  · intro fault next log ran
    obtain ⟨fresh, rfl⟩ := reconfigure_error ran
    refine ⟨fresh, rfl, ?_⟩
    constructor
    · intro same
      exact ⟨congrArg Engine.config same, congrArg Engine.available same⟩
    · rintro ⟨rfl, sameAvailable⟩
      rw [sameAvailable, ← settled.chosen]

def twoData : Surroundings where
  space :=
    { entries := [(["data.json"], .file "\x7b\"agents\":\x7b\x7d,\"data\":\x7b\x7d\x7d".toUTF8),
        (["bad.json"], .file "\x7b".toUTF8)]
      current := [] }
  dataVariable := none
  commandExists _ := false

def probing : Overrides where
  available := none
  dataset := none

def withTables : Config :=
  { Config.standard with mode := .lightweight, browsers := [], dataPath := some "data.json" }

def switchedOff : Config :=
  { withTables with enabled := false, dataPath := some "bad.json" }

theorem exists_create_withTables :
    ∃ engine note, create twoData probing withTables = (.ok engine, note) := by
  have loads : (create twoData probing withTables).1.toBool = true := by decide +kernel
  rcases made : create twoData probing withTables with ⟨_ | engine, note⟩
  · rw [made] at loads
    cases loads
  · exact ⟨engine, note, rfl⟩

theorem reconfigure_after_switchedOff : ∃ engine note next log,
    create twoData probing withTables = (.ok engine, note) ∧
      (engine.afterCalls [.reconfigure twoData switchedOff]).reconfigure twoData withTables =
        (.ok (), next, log) ∧
      create twoData probing withTables = (.ok next, log) := by
  obtain ⟨engine, note, made⟩ := exists_create_withTables
  obtain ⟨fresh, kept⟩ := reconfigure_after_calls made [.reconfigure twoData switchedOff] twoData
    withTables
  rcases ran : (engine.afterCalls [.reconfigure twoData switchedOff]).reconfigure twoData
    withTables with ⟨fault | done, next, log⟩
  · rw [(kept fault next log ran).1] at made
    cases made
  · exact ⟨engine, note, next, log, made, ran, fresh next log ran⟩

/-- A configuration that cannot be applied can still switch an engine off. -/
theorem failed_reconfigure_switches_off : ∃ engine note fault next log,
    create twoData probing withTables = (.ok engine, note) ∧
      engine.reconfigure twoData switchedOff = (.error fault, next, log) ∧
      engine.config.enabled = true ∧
      next.config.enabled = false ∧
      ∀ runner css source target, next.apply runner css source target = (⟨some css, none⟩, []) := by
  have fails : (create twoData probing switchedOff).1.toBool = false := by decide +kernel
  obtain ⟨engine, note, made⟩ := exists_create_withTables
  have settled := settled_of_create made
  have isConfig : engine.config = withTables := by rw [eq_of_create made]
  rcases ran : engine.reconfigure twoData switchedOff with ⟨fault | done, next, log⟩
  · obtain ⟨-, rfl⟩ := reconfigure_error ran
    refine ⟨engine, note, fault, _, log, made, ran, ?_, rfl, ?_⟩
    · rw [isConfig]
      rfl
    · exact fun _ _ _ _ => rfl
  · rw [← settled.given, create_of_reconfigure_ok ran] at fails
    cases fails

end Engine

end SheetScript.Prefix
