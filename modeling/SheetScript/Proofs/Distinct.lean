import Mathlib.Data.List.Induction

/-! Rows in which nothing is repeated: each item in the place where it came first. -/

namespace SheetScript

variable {α : Type} [BEq α] [LawfulBEq α]

theorem eraseDups_concat (row : List α) (item : α) :
    (row ++ [item]).eraseDups =
      if item ∈ row.eraseDups then row.eraseDups else row.eraseDups ++ [item] := by
  rw [List.eraseDups_append]
  by_cases present : item ∈ row <;> simp [List.removeAll, present, List.eraseDups_cons]

theorem nodup_eraseDups (row : List α) : row.eraseDups.Nodup := by
  induction row using List.reverseRecOn with
  | nil => exact List.nodup_nil
  | append_singleton earlier item ih =>
      rw [eraseDups_concat]
      split
      · exact ih
      · rename_i absent
        refine List.nodup_append.2 ⟨ih, List.pairwise_singleton _ item, ?_⟩
        intro other inside last isLast same
        obtain rfl := List.mem_singleton.1 isLast
        exact absent (same ▸ inside)

/-- Of two items the one in front came first: it stands in the row before the other one does. -/
theorem pairwise_eraseDups (row : List α) : row.eraseDups.Pairwise fun first second =>
    ∃ before behind, row = before ++ first :: behind ∧ second ∉ before := by
  induction row using List.reverseRecOn with
  | nil => exact .nil
  | append_singleton earlier item ih =>
      have longer : earlier.eraseDups.Pairwise fun first second =>
          ∃ before behind, earlier ++ [item] = before ++ first :: behind ∧ second ∉ before := by
        refine ih.imp ?_
        rintro first second ⟨before, behind, rfl, absent⟩
        exact ⟨before, behind ++ [item], by simp, absent⟩
      rw [eraseDups_concat]
      split
      · exact longer
      · rename_i absent
        refine List.pairwise_append.2 ⟨longer, List.pairwise_singleton _ item, ?_⟩
        intro first inside second isItem
        obtain rfl := List.mem_singleton.1 isItem
        obtain ⟨before, behind, rfl⟩ := List.append_of_mem (List.mem_eraseDups.1 inside)
        refine ⟨before, behind ++ [second], by simp, ?_⟩
        intro inBefore
        exact absent (List.mem_eraseDups.2 (List.mem_append_left _ inBefore))

/-- The same for what the items of a row stand for, if they stand for anything. -/
theorem pairwise_eraseDups_filterMap {γ : Type} (name : γ → Option α) (row : List γ) :
    (row.filterMap name).eraseDups.Pairwise fun first second =>
      ∃ before item behind, row = before ++ item :: behind ∧ name item = some first ∧
        ∀ earlier ∈ before, name earlier ≠ some second := by
  refine (pairwise_eraseDups _).imp ?_
  rintro first second ⟨front, back, whole, absent⟩
  obtain ⟨before, rest, rfl, isFront, isBack⟩ := List.filterMap_eq_append_iff.1 whole
  obtain ⟨silent, item, behind, rfl, quiet, isFirst, _⟩ := List.filterMap_eq_cons_iff.1 isBack
  refine ⟨before ++ silent, item, behind, by simp, isFirst, ?_⟩
  intro earlier inside isSecond
  rcases List.mem_append.1 inside with inBefore | inSilent
  · rw [← isFront] at absent
    exact absent (List.mem_filterMap.2 ⟨earlier, inBefore, isSecond⟩)
  · rw [quiet earlier inSilent] at isSecond
    cases isSecond

end SheetScript
