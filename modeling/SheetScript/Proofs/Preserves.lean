/-!
Computations that can stop with a fault, and what they leave alone: a view of the state is preserved
when it is the same on both exits. One that keeps something beside its state can be held against one
that does not.
-/

namespace SheetScript

variable {ε σ α β ν : Type}

def stateAfter : EStateM.Result ε σ α → σ
  | .ok _ state => state
  | .error _ state => state

def faultAfter? : EStateM.Result ε σ α → Option ε
  | .ok _ _ => none
  | .error fault _ => some fault

theorem faultAfter_eq_some {result : EStateM.Result ε σ α} {fault : ε} :
    faultAfter? result = some fault ↔ ∃ after, result = .error fault after := by
  cases result with
  | ok value after => exact ⟨nofun, nofun⟩
  | error reason after =>
      constructor
      · rintro ⟨⟩
        exact ⟨after, rfl⟩
      · rintro ⟨_, ⟨⟩⟩
        rfl

theorem exists_ok_of_faultAfter_none {result : EStateM.Result ε σ α}
    (noFault : faultAfter? result = none) : ∃ value, result = .ok value (stateAfter result) := by
  cases result with
  | ok value after => exact ⟨value, rfl⟩
  | error fault after => cases noFault

theorem bind_of_ok {first : EStateM ε σ α} {next : α → EStateM ε σ β} {state middle : σ} {value : α}
    (ran : first state = .ok value middle) : (first >>= next) state = next value middle := by
  change EStateM.bind first next state = _
  unfold EStateM.bind
  rw [ran]

theorem bind_of_get {next : σ → EStateM ε σ β} (state : σ) :
    ((get : EStateM ε σ σ) >>= next) state = next state state := rfl

theorem bind_of_error {first : EStateM ε σ α} {next : α → EStateM ε σ β} {state middle : σ}
    {fault : ε} (ran : first state = .error fault middle) :
    (first >>= next) state = .error fault middle := by
  change EStateM.bind first next state = _
  unfold EStateM.bind
  rw [ran]

theorem bind_eq_ok {first : EStateM ε σ α} {next : α → EStateM ε σ β} {state after : σ} {result : β}
    (ran : (first >>= next) state = .ok result after) :
    ∃ value middle, first state = .ok value middle ∧ next value middle = .ok result after := by
  cases atFirst : first state with
  | ok value middle => exact ⟨value, middle, rfl, (bind_of_ok atFirst).symm.trans ran⟩
  | error fault middle =>
      rw [bind_of_error atFirst] at ran
      cases ran

def Preserves (view : σ → ν) (step : EStateM ε σ α) : Prop :=
  ∀ state, view (stateAfter (step state)) = view state

variable {view : σ → ν}

theorem preserves_pure (value : α) : Preserves view (pure value : EStateM ε σ α) := by
  intro state
  rfl

theorem preserves_throw (fault : ε) : Preserves view (throw fault : EStateM ε σ α) := by
  intro state
  rfl

theorem preserves_get : Preserves view (get : EStateM ε σ σ) := by
  intro state
  rfl

theorem preserves_modify {change : σ → σ} (same : ∀ state, view (change state) = view state) :
    Preserves view (modify change : EStateM ε σ PUnit) := by
  intro state
  exact same state

theorem preserves_bind {first : EStateM ε σ α} {next : α → EStateM ε σ β}
    (firstKeeps : Preserves view first) (nextKeeps : ∀ value, Preserves view (next value)) :
    Preserves view (first >>= next) := by
  intro state
  have atFirst := firstKeeps state
  cases ran : first state with
  | ok value middle =>
      rw [ran] at atFirst
      rw [bind_of_ok ran]
      exact (nextKeeps value middle).trans atFirst
  | error fault middle =>
      rw [ran] at atFirst
      rw [bind_of_error ran]
      exact atFirst

/-! Failing without a trace -/

/-- Where the computation stops with a fault, it leaves the state as it was. -/
def FailsClean (step : EStateM ε σ α) : Prop :=
  ∀ ⦃state after fault⦄, step state = .error fault after → after = state

theorem failsClean_of_reads {step : EStateM ε σ α} (reads : Preserves id step) :
    FailsClean step := by
  intro state after fault fails
  have kept := reads state
  rwa [fails] at kept

/-- What only reads can stand in front of what fails clean. -/
theorem FailsClean.of_reads {first : EStateM ε σ α} {next : α → EStateM ε σ β}
    (reads : Preserves id first) (nextClean : ∀ value, FailsClean (next value)) :
    FailsClean (first >>= next) := by
  intro state after fault fails
  have kept := reads state
  cases ran : first state with
  | ok value middle =>
      rw [ran] at kept
      rw [bind_of_ok ran] at fails
      exact (nextClean value fails).trans kept
  | error reason middle =>
      rw [ran] at kept
      rw [bind_of_error ran] at fails
      cases fails
      exact kept

/-- What never fails can stand behind what fails clean. -/
theorem FailsClean.of_total {first : EStateM ε σ α} {next : α → EStateM ε σ β}
    (clean : FailsClean first)
    (total : ∀ value state, ∃ result after, next value state = .ok result after) :
    FailsClean (first >>= next) := by
  intro state after fault fails
  cases ran : first state with
  | ok value middle =>
      obtain ⟨result, last, ends⟩ := total value middle
      rw [bind_of_ok ran, ends] at fails
      cases fails
  | error reason middle =>
      rw [bind_of_error ran] at fails
      cases fails
      exact clean ran

/-! Which faults a computation stops with -/

def StopsWith (property : ε → Prop) (step : EStateM ε σ α) : Prop :=
  ∀ ⦃state after fault⦄, step state = .error fault after → property fault

section

variable {property : ε → Prop}

theorem StopsWith.imp {weaker : ε → Prop} {step : EStateM ε σ α} (stops : StopsWith property step)
    (implies : ∀ fault, property fault → weaker fault) : StopsWith weaker step :=
  fun _ _ fault fails => implies fault (stops fails)

theorem stopsWith_pure (value : α) : StopsWith property (pure value : EStateM ε σ α) := by
  intro state after fault fails
  cases fails

theorem stopsWith_throw {fault : ε} (holds : property fault) :
    StopsWith property (throw fault : EStateM ε σ α) := by
  intro state after other fails
  cases fails
  exact holds

theorem stopsWith_get : StopsWith property (get : EStateM ε σ σ) := by
  intro state after fault fails
  cases fails

theorem stopsWith_modify (change : σ → σ) :
    StopsWith property (modify change : EStateM ε σ PUnit) := by
  intro state after fault fails
  cases fails

theorem stopsWith_bind {first : EStateM ε σ α} {next : α → EStateM ε σ β}
    (firstStops : StopsWith property first) (nextStops : ∀ value, StopsWith property (next value)) :
    StopsWith property (first >>= next) := by
  intro state after fault fails
  cases ran : first state with
  | ok value middle =>
      rw [bind_of_ok ran] at fails
      exact nextStops value fails
  | error reason middle =>
      rw [bind_of_error ran] at fails
      cases fails
      exact firstStops ran

end

/-! What is kept beside a state -/

variable {τ κ : Type} {attach : σ → κ → τ} {fits : κ → Prop}

def exitWith (attach : σ → κ → τ) (exit : EStateM.Result ε σ α) (kept : κ) :
    EStateM.Result ε τ α :=
  match exit with
  | .ok value state => .ok value (attach state kept)
  | .error fault state => .error fault (attach state kept)

/-- With whatever fits, a computation goes as one that keeps nothing, and leaves what fits. -/
def Follows (attach : σ → κ → τ) (fits : κ → Prop) (keeping : EStateM ε τ α)
    (plain : EStateM ε σ α) : Prop :=
  ∀ state kept, fits kept → ∃ later, fits later ∧
    keeping (attach state kept) = exitWith attach (plain state) later

theorem follows_pure (value : α) :
    Follows attach fits (pure value : EStateM ε τ α) (pure value) :=
  fun _ kept isFit => ⟨kept, isFit, rfl⟩

theorem Follows.bind {keeping : EStateM ε τ α} {plain : EStateM ε σ α}
    {keepingRest : α → EStateM ε τ β} {plainRest : α → EStateM ε σ β}
    (first : Follows attach fits keeping plain)
    (next : ∀ value, Follows attach fits (keepingRest value) (plainRest value)) :
    Follows attach fits (keeping >>= keepingRest) (plain >>= plainRest) := by
  intro state kept isFit
  obtain ⟨middle, middleFits, ran⟩ := first state kept isFit
  cases atFirst : plain state with
  | error fault after =>
      rw [atFirst] at ran
      rw [bind_of_error atFirst]
      exact ⟨middle, middleFits, bind_of_error ran⟩
  | ok value after =>
      rw [atFirst] at ran
      rw [bind_of_ok atFirst]
      obtain ⟨later, laterFits, ranOn⟩ := next value after middle middleFits
      exact ⟨later, laterFits, (bind_of_ok ran).trans ranOn⟩

end SheetScript
