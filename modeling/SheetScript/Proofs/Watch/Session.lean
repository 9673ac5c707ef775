import Mathlib.Logic.Relation
import SheetScript.Proofs.Compile.Failure
import SheetScript.Proofs.Watch.RunQueue
import SheetScript.Watch.Watcher

/-!
A watcher among others. The input is written and deleted, the watcher looks at it, and the worker of
its queue runs jobs, all in any order and between any two steps of one another. When nothing is
going on any more and the input is as last seen, the last job has compiled the input as it is.
-/

namespace SheetScript.Watch

open SheetScript.Compile SheetScript.Files SheetScript.Prefix

inductive Check
  /-- It has looked at the input. -/
  | looked (present : Option Signature)
  /-- The input was not in the state last seen. -/
  | differs (present : Option Signature)
  /-- It has stored what it saw, and will ask for a run. -/
  | owes
  deriving DecidableEq, Repr

def Check.sight? : Check → Option Signature
  | looked present | differs present => present
  | owes => none

def reading (compiler : Compiler) (space : Workspace) (input : Path) : Except CompileFault String :=
  match compiler.readDocument input ⟨space, []⟩ with
  | .ok source _ => .ok source
  | .error fault _ => .error fault

structure Job where
  /-- Writes of the input before the job started. -/
  writes : Nat
  /-- What the job has read, if it has come so far. -/
  read : Option (Except CompileFault String)

structure Session where
  space : Workspace
  /-- What a look at the input finds. -/
  present : Option Signature
  /-- What looks at the input could find so far. -/
  past : List Signature
  /-- Writes of the input so far. -/
  writes : Nat
  watcher : Watcher
  checks : List Check
  latest : Option Job

namespace Session

def begin (input output : Path) (space : Workspace) (present : Option Signature) : Session where
  space := space
  present := present
  past := present.toList
  writes := 0
  watcher := .create input output present
  checks := []
  latest := none

def withQueue (session : Session) (queue : RunQueue) : Session :=
  { session with watcher := { session.watcher with queue := queue } }

/-- A step of somebody. Checks are named by their place. -/
inductive Step (compiler : Compiler) (session : Session) : Session → Prop
  | write (after : Workspace) (signature : Signature) (fresh : signature ∉ session.past) :
      Step compiler session { session with
        space := after
        present := some signature
        past := signature :: session.past
        writes := session.writes + 1 }
  | delete (after : Workspace) : Step compiler session { session with space := after, present := none }
  /-- Other files change, such as the output. -/
  | elsewhere (after : Workspace)
      (same : after.readText session.watcher.input = session.space.readText session.watcher.input) :
      Step compiler session { session with space := after }
  | look : Step compiler session { session with checks := session.checks ++ [.looked session.present] }
  | unchanged {place : Nat} (found : session.checks[place]? = some (.looked session.watcher.seen)) :
      Step compiler session { session with checks := session.checks.eraseIdx place }
  | changed {place : Nat} {present : Option Signature}
      (found : session.checks[place]? = some (.looked present))
      (other : present ≠ session.watcher.seen) :
      Step compiler session { session with checks := session.checks.set place (.differs present) }
  | store {place : Nat} {signature : Signature}
      (found : session.checks[place]? = some (.differs (some signature))) :
      Step compiler session { session with
        watcher := { session.watcher with seen := some signature }
        checks := session.checks.set place .owes }
  /-- An input that has disappeared asks for nothing. -/
  | lose {place : Nat} (found : session.checks[place]? = some (.differs none)) :
      Step compiler session { session with
        watcher := { session.watcher with seen := none }
        checks := session.checks.eraseIdx place }
  | ask {place : Nat} (found : session.checks[place]? = some .owes) :
      Step compiler session { session.withQueue session.watcher.queue.request with
        checks := session.checks.eraseIdx place }
  | start (place : Nat) {queue : RunQueue}
      (happens : session.watcher.queue.next? (.start place) = some queue) :
      Step compiler session { session.withQueue queue with latest := some ⟨session.writes, none⟩ }
  | read (place : Nat) {job : Job} (working : session.watcher.queue.workers[place]? = some .working)
      (isLatest : session.latest = some job) (unread : job.read = none) :
      Step compiler session { session with
        latest := some { job with
          read := some (reading compiler session.space session.watcher.input) } }
  | finish (place : Nat) (failed : Bool) {queue : RunQueue} {job : Job}
      (happens : session.watcher.queue.next? (.finish place failed) = some queue)
      (isLatest : session.latest = some job) (hasRead : job.read ≠ none) :
      Step compiler session (session.withQueue queue)
  | check (place : Nat) {queue : RunQueue}
      (happens : session.watcher.queue.next? (.check place) = some queue) :
      Step compiler session (session.withQueue queue)

abbrev Reaches (compiler : Compiler) : Session → Session → Prop :=
  Relation.ReflTransGen (Step compiler)

variable {compiler : Compiler} {session later : Session} {first : Option Signature}

/-! What is read -/

/-- A document with an allowed ending is read as the text of its file. -/
theorem reading_of_readText {space : Workspace} {input : Path}
    (allowed : Text.lowercase input.suffix ∈ compiler.extensions) {source : String}
    (isText : space.readText input = .ok source) : reading compiler space input = .ok source := by
  unfold reading Compiler.readDocument
  simp only [List.contains_eq_mem, allowed, decide_true, Bool.not_true, Bool.false_eq_true, if_false,
    bind_of_get, isText]
  rfl

/-- Of all files only the document itself counts. -/
theorem reading_congr {space after : Workspace} {input : Path}
    (same : after.readText input = space.readText input) :
    reading compiler after input = reading compiler space input := by
  unfold reading Compiler.readDocument
  cases compiler.extensions.contains (Text.lowercase input.suffix) with
  | false => rfl
  | true =>
      simp only [Bool.not_true, Bool.false_eq_true, if_false, bind_of_get, same]
      cases space.readText input <;> rfl

/-! Checks -/

/-- A check that nobody interrupts is the one of the watcher. -/
theorem reaches_check (compiler : Compiler) (session : Session) :
    Reaches compiler session
      { session with watcher := (session.watcher.check session.present).2.1 } := by
  obtain ⟨space, present, past, writes, watcher, checks, latest⟩ := session
  have last (check : Check) : (checks ++ [check])[checks.length]? = some check := by simp
  have dropped (check : Check) : (checks ++ [check]).eraseIdx checks.length = checks := by
    simp [List.eraseIdx_append_of_length_le]
  have looked : Reaches compiler ⟨space, present, past, writes, watcher, checks, latest⟩
      ⟨space, present, past, writes, watcher, checks ++ [.looked present], latest⟩ := .single .look
  by_cases same : present = watcher.seen
  · subst same
    have done := looked.tail (.unchanged (last (.looked watcher.seen)))
    rw [dropped] at done
    simpa only [Watcher.check, if_true] using done
  · have differs := looked.tail (.changed (last (.looked present)) same)
    rw [List.set_append_right _ _ (Nat.le_refl _), Nat.sub_self, List.set_cons_zero] at differs
    cases present with
    | none =>
        have done := differs.tail (.lose (last (.differs none)))
        rw [dropped] at done
        simpa only [Watcher.check, same, if_false] using done
    | some signature =>
        have stored := differs.tail (.store (last (.differs (some signature))))
        rw [List.set_append_right _ _ (Nat.le_refl _), Nat.sub_self, List.set_cons_zero] at stored
        have done := stored.tail (.ask (last .owes))
        rw [dropped] at done
        simpa only [Watcher.check, same, if_false, withQueue] using done

theorem owes_mem_of_ne {checks : List Check} {place : Nat} {check : Check}
    (found : checks[place]? = some check) (notOwes : check ≠ .owes) (owes : .owes ∈ checks) :
    ∃ other, other ≠ place ∧ checks[other]? = some .owes := by
  obtain ⟨other, isOwes⟩ := List.mem_iff_getElem?.1 owes
  refine ⟨other, fun same => notOwes ?_, isOwes⟩
  rw [same, found] at isOwes
  exact Option.some.inj isOwes

theorem owes_mem_eraseIdx {checks : List Check} {place : Nat} {check : Check}
    (found : checks[place]? = some check) (notOwes : check ≠ .owes) (owes : .owes ∈ checks) :
    .owes ∈ checks.eraseIdx place :=
  List.mem_eraseIdx_iff_getElem?.2 (owes_mem_of_ne found notOwes owes)

theorem owes_mem_set {checks : List Check} {place : Nat} {check next : Check}
    (found : checks[place]? = some check) (notOwes : check ≠ .owes) (owes : .owes ∈ checks) :
    .owes ∈ checks.set place next := by
  obtain ⟨other, elsewhere, isOwes⟩ := owes_mem_of_ne found notOwes owes
  exact List.mem_iff_getElem?.2 ⟨other, by rw [List.getElem?_set_ne elsewhere.symm, isOwes]⟩

/-! What every step preserves -/

theorem awaits_of_request {queue next : RunQueue} (step : queue.Steps .request next) :
    next.Awaits := by
  cases step with
  | fold isRunning => exact .inl rfl
  | call isResting nobody => exact .inr rfl

theorem working_of_request {queue next : RunQueue} (step : queue.Steps .request next)
    (working : queue.workers = [.working]) : next.workers = [.working] := by
  cases step with
  | fold isRunning => exact working
  | call isResting nobody =>
      rw [nobody] at working
      cases working

theorem awaits_of_awaits {queue next : RunQueue} {event : Event} (step : queue.Steps event next)
    (notStart : event.isStart = false) (awaits : queue.Awaits) : next.Awaits := by
  cases step with
  | fold isRunning => exact .inl rfl
  | call isResting nobody => exact .inr rfl
  | start isRunning only => cases notStart
  | finish failed isRunning only => exact .inl (awaits.resolve_right (by simp [only]))
  | again isRunning only isPending => exact .inr rfl
  | rest isRunning only notPending =>
      rcases awaits with isPending | isStarting
      · rw [notPending] at isPending
        cases isPending
      · rw [only] at isStarting
        cases isStarting

/-- After the last write a job has started, or will start. -/
def Answered (session : Session) : Prop :=
  .owes ∈ session.checks ∨ session.watcher.queue.Awaits ∨
    ∃ job, session.latest = some job ∧ job.writes = session.writes

/--
What is known of the job that started last: how many writes came before it, whether it still goes
on, and what it can have read of the input as it is.
-/
structure JobFits (writes : Nat) (workers : List Worker) (present : Option Signature)
    (document : Except CompileFault String) (job : Job) : Prop where
  earlier : job.writes ≤ writes
  goesOn : job.read = none → workers = [.working]
  current : job.writes = writes → present ≠ none → ∀ found, job.read = some found → found = document

/-- What holds of a session between any two steps, if the input was in the state `first` at first. -/
structure Sound (compiler : Compiler) (first : Option Signature) (session : Session) : Prop where
  queue : session.watcher.queue.Sound
  present : ∀ signature, session.present = some signature → signature ∈ session.past
  seen : ∀ signature, session.watcher.seen = some signature → signature ∈ session.past
  checks : ∀ check ∈ session.checks, ∀ signature, check.sight? = some signature →
    signature ∈ session.past
  latest : ∀ job, session.latest = some job →
    JobFits session.writes session.watcher.queue.workers session.present
      (reading compiler session.space session.watcher.input) job
  /-- A state that was seen and is still there is the first one, or it is answered. -/
  answered : session.watcher.seen = session.present → session.present ≠ none →
    session.present ≠ first → session.Answered

theorem sound_begin (input output : Path) (space : Workspace) :
    Sound compiler first (begin input output space first) where
  queue := RunQueue.sound_empty
  present := by simp [begin]
  seen := by simp [begin, Watcher.create]
  checks := by simp [begin]
  latest := by simp [begin]
  answered _ _ differs := absurd rfl differs

/-- Checks may come and go if none sees what was never there, and none that owes a run is lost. -/
theorem Sound.withChecks (sound : Sound compiler first session) {checks : List Check}
    (sights : ∀ check ∈ checks, check ∈ session.checks ∨
      ∀ signature, check.sight? = some signature → signature ∈ session.past)
    (owes : .owes ∈ session.checks → .owes ∈ checks) :
    Sound compiler first { session with checks := checks } where
  queue := sound.queue
  present := sound.present
  seen := sound.seen
  checks check inside := (sights check inside).elim (sound.checks check) id
  latest := sound.latest
  answered isSeen isThere differs := (sound.answered isSeen isThere differs).imp_left owes

/-- The queue may move on if that starts no job and keeps the worker of one that has yet to read. -/
theorem Sound.withQueue (sound : Sound compiler first session) {queue : RunQueue} {event : Event}
    (step : session.watcher.queue.Steps event queue) (notStart : event.isStart = false)
    (working : ∀ job, session.latest = some job → job.read = none → queue.workers = [.working]) :
    Sound compiler first (session.withQueue queue) where
  queue := step.sound sound.queue
  present := sound.present
  seen := sound.seen
  checks := sound.checks
  latest job isLatest :=
    have fits := sound.latest job isLatest
    ⟨fits.earlier, working job isLatest, fits.current⟩
  answered isSeen isThere differs := (sound.answered isSeen isThere differs).imp_right
    (Or.imp_left (awaits_of_awaits step notStart))

theorem Step.sound (step : Step compiler session later) (sound : Sound compiler first session) :
    Sound compiler first later := by
  cases step with
  -- A signature that was never seen makes a state nobody has seen, so nothing is to be answered.
  | write after signature fresh =>
      refine ⟨sound.queue, ?_, ?_, ?_, ?_, ?_⟩
      · rintro _ ⟨⟩
        exact List.mem_cons_self
      · exact fun other isSeen => List.mem_cons_of_mem _ (sound.seen other isSeen)
      · exact fun check inside other isSight =>
          List.mem_cons_of_mem _ (sound.checks check inside other isSight)
      · intro job isLatest
        have fits := sound.latest job isLatest
        refine ⟨Nat.le_succ_of_le fits.earlier, fits.goesOn, fun same => ?_⟩
        exact absurd (Nat.le_trans (Nat.le_of_eq same.symm) fits.earlier) (Nat.not_succ_le_self _)
      · exact fun isSeen => absurd (sound.seen signature isSeen) fresh
  | delete after =>
      refine ⟨sound.queue, fun _ isSome => (nomatch isSome), sound.seen, sound.checks, ?_, ?_⟩
      · intro job isLatest
        have fits := sound.latest job isLatest
        exact ⟨fits.earlier, fits.goesOn, fun _ isThere => absurd rfl isThere⟩
      · exact fun _ isThere => absurd rfl isThere
  | elsewhere after same =>
      refine ⟨sound.queue, sound.present, sound.seen, sound.checks, ?_, sound.answered⟩
      rw [reading_congr same]
      exact sound.latest
  | look =>
      refine sound.withChecks (fun check inside => ?_) (List.mem_append_left _)
      rcases List.mem_append.1 inside with before | new
      · exact .inl before
      · obtain rfl := List.mem_singleton.1 new
        exact .inr sound.present
  | unchanged found =>
      exact sound.withChecks (fun check inside => .inl (List.mem_of_mem_eraseIdx inside))
        (owes_mem_eraseIdx found (by simp))
  | changed found other =>
      refine sound.withChecks (fun check inside => ?_) (owes_mem_set found (by simp))
      rcases List.mem_or_eq_of_mem_set inside with before | rfl
      · exact .inl before
      · exact .inr (sound.checks (.looked _) (List.mem_of_getElem? found))
  | @store place signature found =>
      refine ⟨sound.queue, sound.present, ?_, ?_, sound.latest, ?_⟩
      · rintro _ ⟨⟩
        exact sound.checks _ (List.mem_of_getElem? found) signature rfl
      · intro check inside other isSight
        rcases List.mem_or_eq_of_mem_set inside with before | rfl
        · exact sound.checks check before other isSight
        · cases isSight
      · exact fun _ _ _ => .inl (List.mem_set (List.getElem?_eq_some_iff.1 found).1 _)
  | lose found =>
      refine ⟨sound.queue, sound.present, fun _ isSome => (nomatch isSome), ?_, sound.latest, ?_⟩
      · exact fun check inside => sound.checks check (List.mem_of_mem_eraseIdx inside)
      · exact fun isSeen isThere => absurd isSeen.symm isThere
  | ask found =>
      have step : session.watcher.queue.Steps .request session.watcher.queue.request :=
        sound.queue.steps rfl
      refine ⟨step.sound sound.queue, sound.present, sound.seen, ?_, ?_, ?_⟩
      · exact fun check inside => sound.checks check (List.mem_of_mem_eraseIdx inside)
      · intro job isLatest
        have fits := sound.latest job isLatest
        refine ⟨fits.earlier, fun notRead => ?_, fits.current⟩
        exact working_of_request step (fits.goesOn notRead)
      · exact fun _ _ _ => .inr (.inl (awaits_of_request step))
  | start place happens =>
      have step := sound.queue.steps happens
      refine ⟨step.sound sound.queue, sound.present, sound.seen, sound.checks, ?_, ?_⟩
      · rintro _ ⟨⟩
        refine ⟨Nat.le_refl _, fun _ => ?_, fun _ _ found isRead => (nomatch isRead)⟩
        cases step
        rfl
      · exact fun _ _ _ => .inr (.inr ⟨_, rfl, rfl⟩)
  | read place working isLatest unread =>
      have fits := sound.latest _ isLatest
      refine ⟨sound.queue, sound.present, sound.seen, sound.checks, ?_, ?_⟩
      · rintro _ ⟨⟩
        refine ⟨fits.earlier, fun notRead => (nomatch notRead), ?_⟩
        rintro _ _ _ ⟨⟩
        rfl
      · intro isSeen isThere differs
        refine (sound.answered isSeen isThere differs).imp_right (Or.imp_right ?_)
        rintro ⟨started, isStarted, since⟩
        obtain rfl := Option.some.inj (isStarted.symm.trans isLatest)
        exact ⟨_, rfl, since⟩
  | finish place failed happens isLatest hasRead =>
      refine sound.withQueue (sound.queue.steps happens) rfl fun job isJob notRead => ?_
      obtain rfl := Option.some.inj (isJob.symm.trans isLatest)
      exact absurd notRead hasRead
  | check place happens =>
      have step := sound.queue.steps happens
      refine sound.withQueue step rfl fun job isLatest notRead => ?_
      have working := (sound.latest job isLatest).goesOn notRead
      cases step with
      | again isRunning only | rest isRunning only =>
          rw [only] at working
          cases working

theorem Step.input_eq (step : Step compiler session later) :
    later.watcher.input = session.watcher.input := by
  cases step <;> rfl

/-- A watcher watches one input only. -/
theorem input_of_reaches (reached : Reaches compiler session later) :
    later.watcher.input = session.watcher.input := by
  induction reached with
  | refl => rfl
  | tail _ step ih => exact step.input_eq.trans ih

theorem Sound.reaches (sound : Sound compiler first session)
    (reached : Reaches compiler session later) : Sound compiler first later := by
  induction reached with
  | refl => exact sound
  | tail _ step ih => exact step.sound ih

/-! Quiet sessions -/

theorem not_awaits_of_idle {queue : RunQueue} (sound : queue.Sound) (isIdle : queue.idle = true) :
    ¬queue.Awaits := by
  have isResting : queue.running = false := by simpa [sound.idle] using isIdle
  rintro (isPending | isStarting)
  · rw [sound.pending isPending] at isResting
    cases isResting
  · have size := sound.workers
    rw [isStarting, isResting] at size
    cases size

/--
Whatever the order of writes, deletions, checks and jobs: if no check is in progress, the queue is
idle, and the input is in the state last seen, which is not the one it was in when the watcher was
made, then the job that started last started after the last write, and has read the input as it is.
-/
theorem latest_job_of_quiet (compiler : Compiler) {input output : Path} {space : Workspace}
    {first : Option Signature} {session : Session}
    (reached : Reaches compiler (begin input output space first) session)
    (quiet : session.checks = []) (isIdle : session.watcher.queue.idle = true)
    {signature : Signature} (isThere : session.present = some signature)
    (isSeen : session.watcher.seen = some signature) (differs : first ≠ some signature) :
    ∃ job, session.latest = some job ∧ job.writes = session.writes ∧
      job.read = some (reading compiler session.space input) ∧
      ∀ source, Text.lowercase input.suffix ∈ compiler.extensions →
        session.space.readText input = .ok source → job.read = some (.ok source) := by
  have sound := (sound_begin input output space).reaches reached
  have isInput : session.watcher.input = input := input_of_reaches reached
  have present : session.present ≠ none := by simp [isThere]
  obtain ⟨job, isLatest, since⟩ : ∃ job, session.latest = some job ∧ job.writes = session.writes := by
    rcases sound.answered (isSeen.trans isThere.symm) present (isThere ▸ differs.symm) with
      owes | awaits | started
    · rw [quiet] at owes
      cases owes
    · exact absurd awaits (not_awaits_of_idle sound.queue isIdle)
    · exact started
  have fits := sound.latest job isLatest
  have hasRead : job.read = some (reading compiler session.space input) := by
    rw [← isInput]
    cases found : job.read with
    | none =>
        have working := fits.goesOn found
        have size := sound.queue.workers
        have isResting : session.watcher.queue.running = false := by
          simpa [sound.queue.idle] using isIdle
        rw [working, isResting] at size
        cases size
    | some document => rw [fits.current since present document found]
  refine ⟨job, isLatest, since, hasRead, fun source allowed isText => ?_⟩
  rw [hasRead, reading_of_readText allowed isText]

def spaceWith (text : String) : Workspace where
  entries := [(["in.jcss"], .file text.toUTF8)]
  current := []

def writtenOnce (seen : Signature) (queue : RunQueue) (latest : Option Job) : Session where
  space := spaceWith "ab"
  present := some ⟨2, 2⟩
  past := [⟨2, 2⟩, ⟨1, 1⟩]
  writes := 1
  watcher := ⟨⟨0, ["in.jcss"]⟩, ⟨0, ["out.css"]⟩, some seen, queue, false⟩
  checks := []
  latest := latest

theorem reaches_rest : ∃ job, Reaches bareCompiler
    (begin ⟨0, ["in.jcss"]⟩ ⟨0, ["out.css"]⟩ (spaceWith "a") (some ⟨1, 1⟩))
    (writtenOnce ⟨2, 2⟩ ⟨false, false, true, [], 1, 1⟩ (some job)) := by
  have written : Reaches bareCompiler
      (begin ⟨0, ["in.jcss"]⟩ ⟨0, ["out.css"]⟩ (spaceWith "a") (some ⟨1, 1⟩))
      (writtenOnce ⟨1, 1⟩ .empty none) :=
    .single (.write (spaceWith "ab") ⟨2, 2⟩ (by decide))
  have checked : Reaches bareCompiler _
      (writtenOnce ⟨2, 2⟩ ⟨true, false, false, [.starting], 0, 0⟩ none) :=
    written.trans (reaches_check bareCompiler _)
  have started : Reaches bareCompiler _
      (writtenOnce ⟨2, 2⟩ ⟨true, false, false, [.working], 1, 0⟩ (some ⟨1, none⟩)) :=
    checked.tail (.start 0 rfl)
  have read := started.tail (.read 0 rfl rfl rfl)
  have finished := read.tail (.finish 0 true rfl rfl (by simp))
  exact ⟨_, finished.tail (.check 0 rfl)⟩

/-- A write, a check that sees it, and a job that fails. -/
theorem latest_job_after_write : ∃ session,
    Reaches bareCompiler
        (begin ⟨0, ["in.jcss"]⟩ ⟨0, ["out.css"]⟩ (spaceWith "a") (some ⟨1, 1⟩)) session ∧
      session.checks = [] ∧ session.watcher.queue.idle = true ∧
      session.present = some ⟨2, 2⟩ ∧ session.watcher.seen = some ⟨2, 2⟩ ∧
      (some ⟨1, 1⟩ : Option Signature) ≠ some ⟨2, 2⟩ ∧
      ∃ job, session.latest = some job ∧ job.writes = 1 ∧ job.read = some (.ok "ab") := by
  obtain ⟨last, reached⟩ := reaches_rest
  obtain ⟨job, isLatest, since, -, text⟩ :=
    latest_job_of_quiet bareCompiler reached rfl rfl rfl rfl (by decide)
  have isText : (spaceWith "ab").readText ⟨0, ["in.jcss"]⟩ = .ok "ab" := by
    have found : ((spaceWith "ab").readText ⟨0, ["in.jcss"]⟩).toOption = some "ab" := by
      decide +kernel
    cases answer : (spaceWith "ab").readText ⟨0, ["in.jcss"]⟩ with
    | ok text =>
        rw [answer] at found
        rw [Option.some.inj found]
    | error fault =>
        rw [answer] at found
        cases found
  have allowed : Text.lowercase (Path.suffix ⟨0, ["in.jcss"]⟩) ∈ bareCompiler.extensions := by
    decide +kernel
  exact ⟨_, reached, rfl, rfl, rfl, rfl, by decide, job, isLatest, since, text "ab" allowed isText⟩

end Session

end SheetScript.Watch
