/-! Ordered maps: keys keep the place of their first insertion. -/

namespace SheetScript

/-- Pairs in insertion order. -/
abbrev Assoc (α : Type) := List (String × α)

namespace Assoc

variable {α : Type}

def get? (entries : Assoc α) (key : String) : Option α :=
  entries.lookup key

def keys (entries : Assoc α) : List String :=
  entries.map Prod.fst

/-- Replaces the value of a present key in its place, or adds a new key at the end. -/
def set (key : String) (value : α) : Assoc α → Assoc α
  | [] => [(key, value)]
  | entry :: rest =>
    if entry.1 = key then (key, value) :: rest else entry :: set key value rest

def setAll (entries added : Assoc α) : Assoc α :=
  added.foldl (fun result entry => set entry.1 entry.2 result) entries

def ofPairs (pairs : List (String × α)) : Assoc α :=
  setAll [] pairs

@[simp] theorem get?_nil (key : String) : get? ([] : Assoc α) key = none := rfl

theorem get?_cons (entry : String × α) (rest : Assoc α) (key : String) :
    get? (entry :: rest) key = if key = entry.1 then some entry.2 else get? rest key := by
  unfold get?
  rw [List.lookup_cons]
  by_cases same : key = entry.1
  · simp [same]
  · have different : (key == entry.1) = false := by simpa using same
    simp [same, different]

theorem get?_set (entries : Assoc α) (key other : String) (value : α) :
    get? (set key value entries) other = if other = key then some value else get? entries other := by
  induction entries with
  | nil => simp [set, get?_cons]
  | cons entry rest ih =>
    unfold set
    split
    next same => simp only [get?_cons, same]; split <;> rfl
    next different =>
      simp only [get?_cons, ih]
      by_cases isEntry : other = entry.1
      · have : other ≠ key := fun isKey => different (isEntry ▸ isKey)
        simp [isEntry ▸ this, isEntry]
      · simp [isEntry]

theorem keys_set (entries : Assoc α) (key : String) (value : α) :
    keys (set key value entries) = if key ∈ keys entries then keys entries else keys entries ++ [key] := by
  induction entries with
  | nil => simp [set, keys]
  | cons entry rest ih =>
    unfold set
    split
    next same => simp [keys, same]
    next different =>
      simp only [keys, List.map_cons, List.mem_cons] at ih ⊢
      rw [ih]
      have : ¬ key = entry.1 := fun same => different same.symm
      by_cases present : key ∈ List.map Prod.fst rest <;> simp [this, present]

section

variable {β : Type}

def mapValues (f : α → β) (entries : Assoc α) : Assoc β :=
  entries.map fun entry => (entry.1, f entry.2)

theorem get?_mapValues (f : α → β) (entries : Assoc α) (key : String) :
    get? (mapValues f entries) key = (get? entries key).map f := by
  induction entries with
  | nil => rfl
  | cons entry rest ih =>
    have step : mapValues f (entry :: rest) = (entry.1, f entry.2) :: mapValues f rest := rfl
    rw [step, get?_cons, get?_cons, ih]
    split <;> rfl

theorem mapValues_set (f : α → β) (entries : Assoc α) (key : String) (value : α) :
    mapValues f (set key value entries) = set key (f value) (mapValues f entries) := by
  induction entries with
  | nil => rfl
  | cons entry rest ih =>
    have step : mapValues f (entry :: rest) = (entry.1, f entry.2) :: mapValues f rest := rfl
    rw [step]
    unfold set
    split
    next same => rfl
    next different =>
      rw [← ih]
      rfl

theorem mapValues_setAll (f : α → β) (entries added : Assoc α) :
    mapValues f (setAll entries added) = setAll (mapValues f entries) (mapValues f added) := by
  induction added generalizing entries with
  | nil => rfl
  | cons entry rest ih =>
    have step := ih (set entry.1 entry.2 entries)
    rw [mapValues_set] at step
    exact step

end

end Assoc

end SheetScript
