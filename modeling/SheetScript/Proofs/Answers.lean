import Mathlib.Data.List.Forall2

/-!
Computations that answer or fail. One that answers has answered in each of its parts, and a row of
them answers with the answers of all of them.
-/

namespace SheetScript

variable {ε δ α β : Type}

/-- A check that ends well ended well in its first part, and in what came behind that. -/
theorem ok_of_bind {first : Except ε α} {next : α → Except ε β} {result : β}
    (ran : first >>= next = .ok result) : ∃ value, first = .ok value ∧ next value = .ok result := by
  cases first with
  | error fault => cases ran
  | ok value => exact ⟨value, rfl, ran⟩

theorem ok_of_map {first : Except ε α} {change : α → β} {result : β}
    (ran : first.map change = .ok result) : ∃ value, first = .ok value ∧ change value = result := by
  cases first with
  | error fault => cases ran
  | ok value => exact ⟨value, rfl, Except.ok.inj ran⟩

theorem ok_of_mapError {first : Except ε α} {change : ε → δ} {value : α}
    (ran : first.mapError change = .ok value) : first = .ok value := by
  cases first with
  | error fault => cases ran
  | ok found => rw [Except.ok.inj ran]

/-! Rows -/

variable {each : α → Except ε β} {row : List α}

theorem exists_mapM (answers : ∀ item ∈ row, ∃ result, each item = .ok result) :
    ∃ results, row.mapM each = .ok results := by
  induction row with
  | nil => exact ⟨[], rfl⟩
  | cons first rest ih =>
      obtain ⟨⟨result, answer⟩, behind⟩ := List.forall_mem_cons.1 answers
      obtain ⟨results, atRest⟩ := ih behind
      rw [List.mapM_cons, answer, atRest]
      exact ⟨_, rfl⟩

theorem mapM_eq_ok (result : α → β) (answers : ∀ item ∈ row, each item = .ok (result item)) :
    row.mapM each = .ok (row.map result) := by
  induction row with
  | nil => rfl
  | cons first rest ih =>
      obtain ⟨answer, behind⟩ := List.forall_mem_cons.1 answers
      rw [List.mapM_cons, answer, ih behind]
      rfl

theorem forall₂_of_mapM {results : List β} (ran : row.mapM each = .ok results) :
    List.Forall₂ (fun item result => each item = .ok result) row results := by
  induction row generalizing results with
  | nil =>
      obtain rfl := Except.ok.inj ran
      exact .nil
  | cons item rest ih =>
      rw [List.mapM_cons] at ran
      obtain ⟨result, answer, ran⟩ := ok_of_bind ran
      obtain ⟨others, behind, ran⟩ := ok_of_bind ran
      obtain rfl := Except.ok.inj ran
      exact .cons answer (ih behind)

theorem answers_of_mapM {results : List β} (ran : row.mapM each = .ok results) :
    ∀ item ∈ row, ∃ result, each item = .ok result := by
  have answers := forall₂_of_mapM ran
  clear ran
  induction answers with
  | nil => exact List.forall_mem_nil _
  | cons answer _ ih => exact List.forall_mem_cons.2 ⟨⟨_, answer⟩, ih⟩

theorem mem_of_mapM {results : List β} (ran : row.mapM each = .ok results) {result : β}
    (inside : result ∈ results) : ∃ item ∈ row, each item = .ok result := by
  have answers := forall₂_of_mapM ran
  clear ran
  induction answers with
  | nil => cases inside
  | @cons item first rest others answer _ ih =>
      rcases List.mem_cons.1 inside with rfl | later
      · exact ⟨item, List.mem_cons_self, answer⟩
      · obtain ⟨other, inRest, isResult⟩ := ih later
        exact ⟨other, List.mem_cons_of_mem _ inRest, isResult⟩

end SheetScript
