import SheetScript.Command
import SheetScript.Proofs.Watch.Session

/-!
From the first compilation to the watcher. A call that watches reads its input, compiles it, and
makes the watcher only then; the input can be written between any two of these steps. What the
watcher finds when it is made counts as seen, whether it has been compiled or not.
-/

namespace SheetScript.Watch

open SheetScript.Command SheetScript.Compile SheetScript.Files

structure WatchCall where
  space : Workspace
  /-- What a look at the input finds. -/
  present : Option Signature
  /-- What looks at the input could find so far. -/
  past : List Signature
  /-- The document of the first compilation, once that has read it. -/
  source : Option String
  compiled : Bool
  watcher : Option Watcher

/-- What happens next. A poll comes with its answer: it has asked for a rebuild. -/
inductive Move
  | write
  | delete
  | elsewhere
  | read
  | compile
  | watch
  | work
  | poll (asks : Bool)
  deriving DecidableEq, Repr

namespace WatchCall

def begin (space : Workspace) (present : Option Signature) : WatchCall where
  space := space
  present := present
  past := present.toList
  source := none
  compiled := false
  watcher := none

inductive Step (plan : WatchPlan) (call : WatchCall) : Move → WatchCall → Prop
  | write (after : Workspace) (signature : Signature) (fresh : signature ∉ call.past) :
      Step plan call .write { call with
        space := after
        present := some signature
        past := signature :: call.past }
  | delete (after : Workspace) :
      Step plan call .delete { call with space := after, present := none }
  /-- Other files change, such as the output. -/
  | elsewhere (after : Workspace)
      (same : after.readText plan.input = call.space.readText plan.input) :
      Step plan call .elsewhere { call with space := after }
  | read {source : String} (unread : call.source = none)
      (isText : reading plan.compiler call.space plan.input = .ok source) :
      Step plan call .read { call with source := some source }
  | compile (hasRead : call.source ≠ none) :
      Step plan call .compile { call with compiled := true }
  | watch (isCompiled : call.compiled = true) (unwatched : call.watcher = none) :
      Step plan call .watch
        { call with watcher := some (.create plan.input plan.output call.present) }
  /-- The queue of the watcher goes on with its jobs. -/
  | work {watcher : Watcher} {queue : RunQueue} (event : Event)
      (isWatching : call.watcher = some watcher)
      (happens : watcher.queue.next? event = some queue) :
      Step plan call .work { call with watcher := some { watcher with queue := queue } }
  | poll {watcher next : Watcher} {asks : Bool} {log : Log}
      (isWatching : call.watcher = some watcher)
      (checks : watcher.check call.present = (asks, next, log)) :
      Step plan call (.poll asks) { call with watcher := some next }

inductive Runs (plan : WatchPlan) : WatchCall → List Move → WatchCall → Prop
  | nil (call : WatchCall) : Runs plan call [] call
  | cons {call middle last : WatchCall} {move : Move} {moves : List Move}
      (step : Step plan call move middle) (rest : Runs plan middle moves last) :
      Runs plan call (move :: moves) last

variable {plan : WatchPlan} {call later last : WatchCall} {move : Move}
  {moves before between : List Move}

theorem Runs.split {first second : List Move} (runs : Runs plan call (first ++ second) last) :
    ∃ middle, Runs plan call first middle ∧ Runs plan middle second last := by
  induction first generalizing call with
  | nil => exact ⟨call, .nil call, runs⟩
  | cons move first ih =>
      cases runs with
      | cons step rest =>
          obtain ⟨middle, runsFirst, runsSecond⟩ := ih rest
          exact ⟨middle, .cons step runsFirst, runsSecond⟩

/-! What was there before -/

/-- Only what was there at some time is there or was seen. -/
structure Sound (call : WatchCall) : Prop where
  present : ∀ signature, call.present = some signature → signature ∈ call.past
  seen : ∀ watcher signature, call.watcher = some watcher → watcher.seen = some signature →
    signature ∈ call.past

theorem sound_begin (space : Workspace) (present : Option Signature) :
    Sound (begin space present) where
  present := by simp [begin]
  seen := by simp [begin]

section

variable {watcher next : Watcher} {present : Option Signature} {asks : Bool} {log : Log}

theorem seen_after_check (checks : watcher.check present = (asks, next, log)) :
    next.seen = present := by
  unfold Watcher.check at checks
  split at checks
  · rename_i same
    obtain ⟨-, rfl, -⟩ := checks
    exact same.symm
  · cases present <;> obtain ⟨-, rfl, -⟩ := checks <;> rfl

/-- A check asks for a run exactly if the input exists and differs from what was seen. -/
theorem check_asks_iff (checks : watcher.check present = (asks, next, log)) :
    asks = true ↔ present ≠ none ∧ present ≠ watcher.seen := by
  unfold Watcher.check at checks
  by_cases same : present = watcher.seen
  · rw [if_pos same] at checks
    obtain ⟨rfl, -⟩ := checks
    simp [same]
  · rw [if_neg same] at checks
    cases present <;> obtain ⟨rfl, -⟩ := checks <;> simp [same]

end

theorem Step.sound (step : Step plan call move later) (sound : Sound call) : Sound later := by
  cases step with
  | write after signature fresh =>
      refine ⟨?_, fun watcher other isWatching isSeen => ?_⟩
      · rintro _ ⟨⟩
        exact List.mem_cons_self
      · exact List.mem_cons_of_mem _ (sound.seen watcher other isWatching isSeen)
  | delete after => exact ⟨fun _ isSome => (nomatch isSome), sound.seen⟩
  | elsewhere | read | compile => exact ⟨sound.present, sound.seen⟩
  | watch isCompiled unwatched =>
      refine ⟨sound.present, ?_⟩
      rintro _ signature ⟨⟩ isSeen
      exact sound.present signature isSeen
  | work event isWatching happens =>
      refine ⟨sound.present, ?_⟩
      rintro _ signature ⟨⟩ isSeen
      exact sound.seen _ signature isWatching isSeen
  | poll isWatching checks =>
      refine ⟨sound.present, ?_⟩
      rintro _ signature ⟨⟩ isSeen
      exact sound.present signature ((seen_after_check checks).symm.trans isSeen)

theorem Runs.sound (runs : Runs plan call moves last) (sound : Sound call) : Sound last := by
  induction runs with
  | nil => exact sound
  | cons step _ ih => exact ih (step.sound sound)

/-! One watcher for a call -/

theorem Step.watcher_none_iff (step : Step plan call move later) :
    later.watcher = none ↔ call.watcher = none ∧ move ≠ .watch := by
  cases step with
  | watch isCompiled unwatched => simp
  | work event isWatching happens => simp [isWatching]
  | poll isWatching checks => simp [isWatching]
  | write | delete | elsewhere | read | compile => simp

theorem Runs.watcher_none_iff (runs : Runs plan call moves last) :
    last.watcher = none ↔ call.watcher = none ∧ .watch ∉ moves := by
  induction runs with
  | nil => simp
  | cons step _ ih =>
      rw [ih, step.watcher_none_iff, List.mem_cons, not_or, and_assoc, ne_comm]

theorem Step.watcher_ne_none {asks : Bool} (step : Step plan call (.poll asks) later) :
    call.watcher ≠ none := by
  cases step with
  | poll isWatching checks => simp [isWatching]

/-- A call that has a watcher makes no other one. -/
theorem Runs.no_watch (runs : Runs plan call moves last) (isWatching : call.watcher ≠ none) :
    .watch ∉ moves := by
  induction runs with
  | nil => exact List.not_mem_nil
  | cons step _ ih =>
      intro inside
      rcases List.mem_cons.1 inside with rfl | inRest
      · cases step with
        | watch isCompiled unwatched => exact isWatching unwatched
      · refine ih (fun none => ?_) inRest
        exact isWatching (step.watcher_none_iff.1 none).1

/-! What the next poll will find -/

/-- The input differs from what was seen, as far as it exists. -/
def Changed (call : WatchCall) : Prop :=
  ∀ watcher, call.watcher = some watcher → call.present ≠ none → call.present ≠ watcher.seen

/-- The input is as it was seen, as far as it exists. -/
def Caught (call : WatchCall) : Prop :=
  ∀ watcher, call.watcher = some watcher → call.present ≠ none → call.present = watcher.seen

theorem Step.changed_of_write (step : Step plan call .write later) (sound : Sound call) :
    Changed later := by
  cases step with
  | write after signature fresh =>
      intro watcher isWatching _ same
      exact fresh (sound.seen watcher signature isWatching same.symm)

theorem Step.changed (step : Step plan call move later) (sound : Sound call)
    (changed : Changed call) (notWatch : move ≠ .watch) (notPoll : ∀ asks, move ≠ .poll asks) : Changed later := by
  cases step with
  | write after signature fresh =>
      have written : Step plan call .write _ := .write after signature fresh
      exact written.changed_of_write sound
  | delete after => exact fun _ _ isThere => absurd rfl isThere
  | elsewhere | read | compile => exact changed
  | work event isWatching happens =>
      rintro _ ⟨⟩ isThere
      have differs := changed _ isWatching isThere
      exact differs
  | watch => exact absurd rfl notWatch
  | poll => exact absurd rfl (notPoll _)

theorem Runs.changed (runs : Runs plan call moves last) (sound : Sound call)
    (changed : Changed call) (noWatch : .watch ∉ moves) (noPoll : ∀ asks, .poll asks ∉ moves) : Changed last := by
  induction runs with
  | nil => exact changed
  | cons step _ ih =>
      simp only [List.mem_cons, not_or, forall_and] at noWatch noPoll
      refine ih (step.sound sound) ?_ noWatch.2 noPoll.2
      exact step.changed sound changed (Ne.symm noWatch.1) fun asks => Ne.symm (noPoll.1 asks)

theorem Step.caught_of_watch (step : Step plan call .watch later) : Caught later := by
  cases step with
  | watch isCompiled unwatched =>
      rintro _ ⟨⟩ _
      rfl

theorem Step.caught (step : Step plan call move later) (caught : Caught call)
    (notWrite : move ≠ .write) : Caught later := by
  cases step with
  | write => exact absurd rfl notWrite
  | delete after => exact fun _ _ isThere => absurd rfl isThere
  | elsewhere | read | compile => exact caught
  | watch isCompiled unwatched =>
      rintro _ ⟨⟩ _
      rfl
  | work event isWatching happens =>
      rintro _ ⟨⟩ isThere
      have same := caught _ isWatching isThere
      exact same
  | poll isWatching checks =>
      rintro _ ⟨⟩ _
      exact (seen_after_check checks).symm

theorem Runs.caught (runs : Runs plan call moves last) (caught : Caught call)
    (noWrite : .write ∉ moves) : Caught last := by
  induction runs with
  | nil => exact caught
  | cons step _ ih =>
      rw [List.mem_cons, not_or] at noWrite
      exact ih (step.caught caught (Ne.symm noWrite.1)) noWrite.2

theorem Step.asks_of_changed {asks : Bool} (step : Step plan call (.poll asks) last)
    (changed : Changed call) : asks = true ↔ last.present ≠ none := by
  cases step with
  | poll isWatching checks =>
      rw [check_asks_iff checks]
      exact ⟨fun both => both.1, fun isThere => ⟨isThere, changed _ isWatching isThere⟩⟩

theorem Step.asks_of_caught {asks : Bool} (step : Step plan call (.poll asks) last)
    (caught : Caught call) : asks = false := by
  cases step with
  | poll isWatching checks =>
      rw [← Bool.not_eq_true, check_asks_iff checks]
      exact fun both => both.2 (caught _ isWatching both.1)

/-- A write that the watcher is there for is still to be seen, until somebody polls. -/
theorem Runs.changed_of_write (runs : Runs plan call (.write :: moves) last) (sound : Sound call)
    (isWatching : call.watcher ≠ none) (noPoll : ∀ asks, .poll asks ∉ moves) : Changed last := by
  cases runs with
  | cons written rest =>
      refine rest.changed (written.sound sound) (written.changed_of_write sound) ?_ noPoll
      exact rest.no_watch fun none => isWatching (written.watcher_none_iff.1 none).1

/-- What is there when the watcher is made counts as seen, until somebody writes. -/
theorem Runs.caught_of_watch (runs : Runs plan call (.watch :: moves) last)
    (noWrite : .write ∉ moves) : Caught last := by
  cases runs with
  | cons made rest => exact rest.caught made.caught_of_watch noWrite

/--
The first poll after a write of the input asks for a rebuild exactly if the input still exists, and
the watcher was there before this write or before another one.
-/
theorem first_poll_after_write {space : Workspace} {present : Option Signature} {asks : Bool}
    (runs : Runs plan (begin space present) (before ++ (.write :: between ++ [.poll asks])) last)
    (noPoll : ∀ other, .poll other ∉ between) :
    asks = true ↔ last.present ≠ none ∧
      (.watch ∈ before ∨
        ∃ earlier later, between = earlier ++ .write :: later ∧ .watch ∈ earlier) := by
  obtain ⟨atWrite, runsBefore, runsOn⟩ := runs.split
  obtain ⟨atPoll, runsBetween, _ | ⟨polled, _ | _⟩⟩ := runsOn.split
  have soundAtWrite := runsBefore.sound (sound_begin space present)
  -- The watcher was there before the write, came before another write, or came after all of them.
  by_cases early : .watch ∈ before
  · have isWatching : atWrite.watcher ≠ none := fun none =>
      (runsBefore.watcher_none_iff.1 none).2 early
    rw [polled.asks_of_changed (runsBetween.changed_of_write soundAtWrite isWatching noPoll)]
    simp [early]
  by_cases late : ∃ earlier later, between = earlier ++ .write :: later ∧ .watch ∈ earlier
  · obtain ⟨earlier, later, rfl, watched⟩ := late
    rw [← List.cons_append] at runsBetween
    obtain ⟨middle, runsEarlier, runsLater⟩ := runsBetween.split
    have isWatching : middle.watcher ≠ none := fun none =>
      (runsEarlier.watcher_none_iff.1 none).2 (List.mem_cons_of_mem _ watched)
    have changed := runsLater.changed_of_write (runsEarlier.sound soundAtWrite) isWatching
      fun other inside => noPoll other (List.mem_append_right _ (List.mem_cons_of_mem _ inside))
    rw [polled.asks_of_changed changed]
    exact ⟨fun isThere => ⟨isThere, .inr ⟨earlier, later, rfl, watched⟩⟩, And.left⟩
  · have watched : .watch ∈ between := by
      have isWatching := polled.watcher_ne_none
      rw [ne_eq, runsBetween.watcher_none_iff, runsBefore.watcher_none_iff] at isWatching
      simpa [begin, early] using isWatching
    obtain ⟨earlier, later, rfl⟩ := List.append_of_mem watched
    have noWrite : .write ∉ later := by
      intro again
      obtain ⟨first, second, rfl⟩ := List.append_of_mem again
      exact late ⟨earlier ++ .watch :: first, second, by simp, by simp⟩
    rw [← List.cons_append] at runsBetween
    obtain ⟨middle, -, runsLater⟩ := runsBetween.split
    rw [polled.asks_of_caught (runsLater.caught_of_watch noWrite)]
    constructor
    · intro isTrue
      cases isTrue
    · rintro ⟨-, watchedEarly | writtenLate⟩
      · exact absurd watchedEarly early
      · exact absurd writtenLate late

/-! An early write and a late one -/

def plainPlan : WatchPlan :=
  ⟨bareCompiler, ⟨0, ["in.jcss"]⟩, ⟨0, ["out.css"]⟩⟩

theorem readText_of_toOption {space : Workspace} {path : Path} {text : String}
    (found : (space.readText path).toOption = some text) : space.readText path = .ok text := by
  cases answer : space.readText path with
  | ok other =>
      rw [answer] at found
      rw [Option.some.inj found]
  | error fault =>
      rw [answer] at found
      cases found

def untouched : WatchCall :=
  begin (Session.spaceWith "a\x7bb:c\x7d") (some ⟨1, 6⟩)

theorem reads_untouched : Step plainPlan untouched .read
    { untouched with source := some "a\x7bb:c\x7d" } := by
  refine .read rfl (Session.reading_of_readText (by decide +kernel) ?_)
  exact readText_of_toOption (by decide +kernel)

/-- A document that is read and compiled, and written when the watcher is there. -/
theorem first_poll_after_late_write : ∃ last,
    Runs plainPlan untouched ([.read, .compile, .watch] ++ (.write :: [] ++ [.poll true])) last ∧
      (∀ other, Move.poll other ∉ []) ∧
      (true = true ↔ last.present ≠ none ∧ (.watch ∈ [Move.read, .compile, .watch] ∨
        ∃ earlier later, [] = earlier ++ Move.write :: later ∧ Move.watch ∈ earlier)) := by
  have runs : Runs plainPlan untouched
      ([.read, .compile, .watch] ++ (.write :: [] ++ [.poll true])) _ :=
    .cons reads_untouched <| .cons (.compile (by simp)) <| .cons (.watch rfl rfl) <|
      .cons (.write (Session.spaceWith "a\x7bb:d\x7d") ⟨2, 6⟩ (by decide)) <|
      .cons (.poll rfl rfl) (.nil _)
  exact ⟨_, runs, by simp, first_poll_after_write runs (by simp)⟩

/-- A document that is written after it was read, and before the watcher is there. -/
theorem early_write_is_lost : ∃ last,
    Runs plainPlan untouched ([.read] ++ (.write :: [.compile, .watch] ++ [.poll false])) last ∧
      (plainPlan.compiler.runOn untouched.space plainPlan.input plainPlan.output).1.toBool = true ∧
      last.present ≠ none ∧ last.source = some "a\x7bb:c\x7d" ∧
      reading plainPlan.compiler last.space plainPlan.input = .ok "a\x7bb:d\x7d" := by
  have runs : Runs plainPlan untouched
      ([.read] ++ (.write :: [.compile, .watch] ++ [.poll false])) _ :=
    .cons reads_untouched <|
      .cons (.write (Session.spaceWith "a\x7bb:d\x7d") ⟨2, 6⟩ (by decide)) <|
      .cons (.compile (by simp)) <| .cons (.watch rfl rfl) <| .cons (.poll rfl rfl) (.nil _)
  refine ⟨_, runs, by decide +kernel, by simp, rfl, ?_⟩
  exact Session.reading_of_readText (by decide +kernel) (readText_of_toOption (by decide +kernel))

end WatchCall

end SheetScript.Watch
