import SheetScript.Watch.RunQueue

/-!
Runs of a queue. Whatever the order of requests and of the steps of workers, no two jobs run at once,
no request is lost, and all requests made during one job lead to one more.
-/

namespace SheetScript.Watch

namespace Event

def isStart : Event → Bool
  | start _ => true
  | _ => false

end Event

namespace RunQueue

structure Sound (queue : RunQueue) : Prop where
  workers : queue.workers.length = queue.running.toNat
  idle : queue.idle = !queue.running
  pending : queue.pending = true → queue.running = true
  jobs : queue.started = queue.ended + queue.workers.count .working

theorem sound_empty : Sound empty :=
  ⟨rfl, rfl, fun isPending => isPending, rfl⟩

theorem Sound.workers_of_place {queue : RunQueue} (sound : Sound queue) {place : Nat}
    {worker : Worker} (found : queue.workers[place]? = some worker) :
    place = 0 ∧ queue.workers = [worker] ∧ queue.running = true := by
  have size := sound.workers
  have bound : place < queue.workers.length := (List.getElem?_eq_some_iff.mp found).1
  cases isRunning : queue.running with
  | false =>
      rw [isRunning, Bool.toNat_false] at size
      omega
  | true =>
      rw [isRunning, Bool.toNat_true] at size
      obtain ⟨only, single⟩ := List.length_eq_one_iff.mp size
      have first : place = 0 := by omega
      rw [single, first] at found
      simp only [List.getElem?_cons_zero, Option.some.injEq] at found
      exact ⟨first, by rw [single, found], rfl⟩

inductive Steps (queue : RunQueue) : Event → RunQueue → Prop
  | fold (isRunning : queue.running = true) : Steps queue .request { queue with pending := true }
  | call (isResting : queue.running = false) (nobody : queue.workers = []) :
      Steps queue .request { queue with running := true, idle := false, workers := [.starting] }
  | start (isRunning : queue.running = true) (only : queue.workers = [.starting]) :
      Steps queue (.start 0) { queue with workers := [.working], started := queue.started + 1 }
  | finish (failed : Bool) (isRunning : queue.running = true) (only : queue.workers = [.working]) :
      Steps queue (.finish 0 failed) { queue with workers := [.checking], ended := queue.ended + 1 }
  | again (isRunning : queue.running = true) (only : queue.workers = [.checking])
      (isPending : queue.pending = true) :
      Steps queue (.check 0) { queue with pending := false, workers := [.starting] }
  | rest (isRunning : queue.running = true) (only : queue.workers = [.checking])
      (notPending : queue.pending = false) :
      Steps queue (.check 0) { queue with running := false, idle := true, workers := [] }

theorem Sound.steps {queue later : RunQueue} (sound : Sound queue) {event : Event}
    (happens : queue.next? event = some later) : Steps queue event later := by
  -- A sound queue has one worker at most, so a place names it or nobody.
  cases event with
  | request =>
      simp only [next?, request, Option.some.injEq] at happens
      by_cases isRunning : queue.running = true
      · rw [if_pos isRunning] at happens
        subst happens
        exact .fold isRunning
      · have isResting : queue.running = false := by simpa using isRunning
        have nobody : queue.workers = [] := by
          have size := sound.workers
          rw [isResting] at size
          exact List.length_eq_zero_iff.mp size
        rw [if_neg isRunning, nobody] at happens
        subst happens
        exact .call isResting nobody
  | start place =>
      simp only [next?] at happens
      split at happens
      · rename_i found
        obtain ⟨first, only, isRunning⟩ := sound.workers_of_place found
        simp only [first, only, List.set_cons_zero, Option.some.injEq] at happens
        subst happens
        subst first
        exact .start isRunning only
      · cases happens
  | finish place failed =>
      simp only [next?] at happens
      split at happens
      · rename_i found
        obtain ⟨first, only, isRunning⟩ := sound.workers_of_place found
        simp only [first, only, List.set_cons_zero, Option.some.injEq] at happens
        subst happens
        subst first
        exact .finish failed isRunning only
      · cases happens
  | check place =>
      simp only [next?] at happens
      split at happens
      · rename_i found
        obtain ⟨first, only, isRunning⟩ := sound.workers_of_place found
        subst first
        split at happens
        · rename_i isPending
          simp only [only, List.set_cons_zero, Option.some.injEq] at happens
          subst happens
          exact .again isRunning only isPending
        · rename_i notPending
          simp only [only, List.eraseIdx_cons_zero, Option.some.injEq] at happens
          subst happens
          exact .rest isRunning only (by simpa using notPending)
      · cases happens

theorem Steps.sound {queue later : RunQueue} {event : Event} (sound : Sound queue)
    (step : Steps queue event later) : Sound later := by
  obtain ⟨workers, idle, pending, jobs⟩ := sound
  cases step with
  | fold isRunning => exact ⟨workers, idle, fun _ => isRunning, jobs⟩
  | call isResting nobody =>
      rw [nobody] at jobs
      exact ⟨rfl, rfl, fun _ => rfl, jobs⟩
  | start isRunning only =>
      rw [only] at jobs
      refine ⟨by simp [isRunning], idle, pending, ?_⟩
      simp at jobs ⊢
      omega
  | finish failed isRunning only =>
      rw [only] at jobs
      refine ⟨by simp [isRunning], idle, pending, ?_⟩
      simp at jobs ⊢
      omega
  | again isRunning only isPending =>
      rw [only] at jobs
      exact ⟨by simp [isRunning], idle, fun isPending => (Bool.false_ne_true isPending).elim,
        by simpa using jobs⟩
  | rest isRunning only notPending =>
      rw [only] at jobs
      refine ⟨rfl, rfl, fun isPending => ?_, by simpa using jobs⟩
      rw [notPending] at isPending
      cases isPending

/-! Runs -/

theorem run?_append (queue : RunQueue) (first second : List Event) :
    queue.run? (first ++ second) = (queue.run? first).bind (·.run? second) := by
  simp [run?, List.foldlM_append]

theorem run?_cons {queue last : RunQueue} {event : Event} {rest : List Event}
    (ran : queue.run? (event :: rest) = some last) :
    ∃ later, queue.next? event = some later ∧ later.run? rest = some last := by
  simpa [run?, List.foldlM_cons, Option.bind_eq_some_iff] using ran

theorem Sound.run {queue last : RunQueue} (sound : Sound queue) {events : List Event}
    (ran : queue.run? events = some last) : Sound last := by
  induction events generalizing queue with
  | nil =>
      cases ran
      exact sound
  | cons event rest ih =>
      obtain ⟨later, happens, onward⟩ := run?_cons ran
      exact ih ((sound.steps happens).sound sound) onward

/-- After every request a job has started. -/
def Served (events : List Event) : Prop :=
  ∀ before after, events = before ++ .request :: after → ∃ place, .start place ∈ after

/-- A job will start that has not started yet. -/
def Awaits (queue : RunQueue) : Prop :=
  queue.pending = true ∨ queue.workers = [.starting]

theorem served_concat_start (events : List Event) (place : Nat) :
    Served (events ++ [.start place]) := by
  intro before after same
  rcases List.eq_nil_or_concat after with empty | ⟨inner, final, isConcat⟩
  · rw [empty] at same
    have lasts := List.append_inj_right' same rfl
    cases lasts
  · rw [isConcat, List.concat_eq_append, ← List.cons_append, ← List.append_assoc] at same
    have lasts := List.append_inj_right' same rfl
    cases lasts
    exact ⟨place, by simp [isConcat]⟩

theorem Served.concat {events : List Event} (served : Served events) {event : Event}
    (notRequest : event ≠ .request) : Served (events ++ [event]) := by
  intro before after same
  rcases List.eq_nil_or_concat after with empty | ⟨inner, final, isConcat⟩
  · rw [empty] at same
    have lasts := List.append_inj_right' same rfl
    cases lasts
    exact absurd rfl notRequest
  · rw [isConcat, List.concat_eq_append, ← List.cons_append, ← List.append_assoc] at same
    obtain ⟨place, started⟩ := served before inner (List.append_inj_left' same rfl)
    exact ⟨place, by simp [isConcat, started]⟩

theorem Steps.served_or_awaits {queue later : RunQueue} {event : Event} {events : List Event}
    (step : Steps queue event later) (before : Served events ∨ Awaits queue) :
    Served (events ++ [event]) ∨ Awaits later := by
  cases step with
  | fold isRunning => exact .inr (.inl rfl)
  | call isResting nobody => exact .inr (.inr rfl)
  | start isRunning only => exact .inl (served_concat_start events 0)
  | finish failed isRunning only =>
      rcases before with served | isPending | isStarting
      · exact .inl (served.concat (by simp))
      · exact .inr (.inl isPending)
      · rw [only] at isStarting
        cases isStarting
  | again isRunning only isPending => exact .inr (.inr rfl)
  | rest isRunning only notPending =>
      rcases before with served | isPending | isStarting
      · exact .inl (served.concat (by simp))
      · rw [notPending] at isPending
        cases isPending
      · rw [only] at isStarting
        cases isStarting

theorem Sound.served_or_awaits {queue last : RunQueue} (sound : Sound queue)
    {earlier events : List Event} (before : Served earlier ∨ Awaits queue)
    (ran : queue.run? events = some last) : Served (earlier ++ events) ∨ Awaits last := by
  induction events generalizing queue earlier with
  | nil =>
      cases ran
      rwa [List.append_nil]
  | cons event rest ih =>
      obtain ⟨later, happens, onward⟩ := run?_cons ran
      have step := sound.steps happens
      have atRest := ih (step.sound sound) (step.served_or_awaits before) onward
      rwa [List.append_assoc, List.singleton_append] at atRest

theorem served_nil : Served [] := by
  intro before after same
  simp at same

/-! Runs without requests -/

/-- Jobs that start before the queue rests, if no request comes. -/
def startsDue (queue : RunQueue) : Nat :=
  match queue.workers with
  | [] => 0
  | .starting :: _ => 1 + queue.pending.toNat
  | _ => queue.pending.toNat

/-- Steps before the queue rests, if no request comes. -/
def stepsDue (queue : RunQueue) : Nat :=
  match queue.workers with
  | [] => 0
  | .starting :: _ => 3 + 3 * queue.pending.toNat
  | .working :: _ => 2 + 3 * queue.pending.toNat
  | .checking :: _ => 1 + 3 * queue.pending.toNat

theorem Steps.due {queue later : RunQueue} {event : Event} (step : Steps queue event later)
    (notRequest : event ≠ .request) :
    queue.startsDue = later.startsDue + event.isStart.toNat ∧
      queue.stepsDue = later.stepsDue + 1 := by
  cases step with
  | fold isRunning => exact absurd rfl notRequest
  | call isResting nobody => exact absurd rfl notRequest
  | start isRunning only =>
      simp only [startsDue, stepsDue, only, Event.isStart, Bool.toNat_true]
      omega
  | finish failed isRunning only =>
      simp only [startsDue, stepsDue, only, Event.isStart, Bool.toNat_false]
      omega
  | again isRunning only isPending =>
      simp [startsDue, stepsDue, only, isPending, Event.isStart]
  | rest isRunning only notPending =>
      simp [startsDue, stepsDue, only, notPending, Event.isStart]

theorem Sound.run_due {queue last : RunQueue} (sound : Sound queue) {events : List Event}
    (noRequest : .request ∉ events) (ran : queue.run? events = some last) :
    queue.startsDue = last.startsDue + events.countP Event.isStart ∧
      queue.stepsDue = last.stepsDue + events.length := by
  induction events generalizing queue with
  | nil =>
      cases ran
      exact ⟨rfl, rfl⟩
  | cons event rest ih =>
      obtain ⟨later, happens, onward⟩ := run?_cons ran
      have step := sound.steps happens
      have notRequest : event ≠ .request := fun same => noRequest (by simp [same])
      obtain ⟨starts, steps⟩ := step.due notRequest
      obtain ⟨restStarts, restSteps⟩ :=
        ih (step.sound sound) (fun inRest => noRequest (by simp [inRest])) onward
      rw [List.countP_cons, List.length_cons]
      cases isStart : event.isStart <;> simp [isStart] at starts ⊢ <;> omega

theorem Sound.startsDue_of_idle {queue : RunQueue} (sound : Sound queue)
    (isIdle : queue.idle = true) : queue.startsDue = 0 := by
  have notRunning : queue.running = false := by simpa [sound.idle] using isIdle
  have size := sound.workers
  rw [notRunning] at size
  have nobody : queue.workers = [] := List.length_eq_zero_iff.mp size
  simp [startsDue, nobody]

/-- A queue that is not idle can go on without a request. -/
theorem Sound.progress {queue : RunQueue} (sound : Sound queue) (notIdle : queue.idle = false) :
    ∃ event, event ≠ .request ∧ (queue.next? event).isSome = true := by
  have isRunning : queue.running = true := by simpa [sound.idle] using notIdle
  have size := sound.workers
  rw [isRunning] at size
  obtain ⟨worker, only⟩ := List.length_eq_one_iff.mp size
  cases worker with
  | starting => exact ⟨.start 0, by simp, by simp [next?, only]⟩
  | working => exact ⟨.finish 0 false, by simp, by simp [next?, only]⟩
  | checking =>
      refine ⟨.check 0, by simp, ?_⟩
      cases isPending : queue.pending <;> simp [next?, only, isPending]

/-! Requests during a job -/

theorem run?_requests {queue : RunQueue} (isRunning : queue.running = true) (count : Nat) :
    queue.run? (List.replicate (count + 1) .request) = some { queue with pending := true } := by
  induction count generalizing queue with
  | zero => simp [run?, next?, request, isRunning]
  | succ count ih =>
      have first : queue.next? .request = some { queue with pending := true } := by
        simp [next?, request, isRunning]
      have onward := @ih { queue with pending := true } isRunning
      rw [List.replicate_succ, run?, List.foldlM_cons, first]
      exact onward

/-- Requests during a job, and then the end of that job. -/
theorem Sound.run_requests {queue : RunQueue} (sound : Sound queue) {place count : Nat}
    (working : queue.workers[place]? = some .working) (positive : 1 ≤ count) (failed : Bool) :
    queue.run? (List.replicate count .request ++ [.finish place failed]) =
      some { queue with pending := true, workers := [.checking], ended := queue.ended + 1 } := by
  obtain ⟨first, only, isRunning⟩ := sound.workers_of_place working
  obtain ⟨fewer, isSucc⟩ := Nat.exists_eq_add_of_le' positive
  rw [isSucc, run?_append, run?_requests isRunning, Option.bind_some, first]
  simp [run?, next?, only]

/--
Every order of requests and of the steps of workers: no two jobs run at once, the queue is idle
exactly when it does not run, an idle queue has started a job after each request, and requests during
a job lead to one more job before the queue is idle again, however that job ends.
-/
theorem runs_of_queue (events : List Event) (queue : RunQueue)
    (reached : empty.run? events = some queue) :
    queue.workers.count .working ≤ 1 ∧
    queue.started = queue.ended + queue.workers.count .working ∧
    (queue.idle = true ↔ queue.running = false) ∧
    (queue.idle = true → Served events) ∧
    ∀ place count failed, queue.workers[place]? = some .working → 1 ≤ count →
      ∃ middle, queue.run? (List.replicate count .request ++ [.finish place failed]) = some middle ∧
        ∀ rest last, .request ∉ rest → middle.run? rest = some last →
          rest.length ≤ 4 ∧ rest.countP Event.isStart ≤ 1 ∧
          (last.idle = true → rest.countP Event.isStart = 1) ∧
          (last.idle = false → ∃ event, event ≠ .request ∧ (last.next? event).isSome = true) := by
  have sound := sound_empty.run reached
  refine ⟨?_, sound.jobs, ?_, ?_, ?_⟩
  · have size := sound.workers
    have bound : queue.workers.count .working ≤ queue.workers.length := List.count_le_length
    have atMostOne := Bool.toNat_le queue.running
    omega
  · simp [sound.idle]
  · intro isIdle
    -- What is not served yet awaits a job, and an idle queue awaits none.
    rcases sound_empty.served_or_awaits (.inl served_nil) reached with served | isPending | starting
    · simpa using served
    · have isRunning := sound.pending isPending
      simp [sound.idle, isRunning] at isIdle
    · have size := sound.workers
      simp [sound.idle] at isIdle
      simp [starting, isIdle] at size
  · intro place count failed working positive
    have finished := sound.run_requests working positive failed
    refine ⟨_, finished, ?_⟩
    intro rest last noRequest ran
    have middleSound := sound.run finished
    obtain ⟨starts, steps⟩ := middleSound.run_due noRequest ran
    simp only [startsDue, stepsDue, Bool.toNat_true] at starts steps
    refine ⟨by omega, by omega, ?_, (middleSound.run ran).progress⟩
    intro isIdle
    have noneDue := (middleSound.run ran).startsDue_of_idle isIdle
    simp only [startsDue] at noneDue
    omega

/-- A request while a job is going, which then fails. -/
theorem runs_of_queue_failing : empty.run? [.request, .start 0] =
      some ⟨true, false, false, [.working], 1, 0⟩ ∧
    ∃ middle, (⟨true, false, false, [.working], 1, 0⟩ : RunQueue).run?
        (List.replicate 2 .request ++ [.finish 0 true]) = some middle ∧
      ∀ rest last, .request ∉ rest → middle.run? rest = some last →
        rest.length ≤ 4 ∧ rest.countP Event.isStart ≤ 1 ∧
        (last.idle = true → rest.countP Event.isStart = 1) ∧
        (last.idle = false → ∃ event, event ≠ .request ∧ (last.next? event).isSome = true) := by
  have reached : empty.run? [.request, .start 0] =
      some ⟨true, false, false, [.working], 1, 0⟩ := by decide
  obtain ⟨_, _, _, _, more⟩ := runs_of_queue _ _ reached
  exact ⟨reached, more 0 2 true rfl (by decide)⟩

end RunQueue

end SheetScript.Watch
