/-! Cutting a text at every place of a mark. -/

namespace SheetScript.Text

/-- The parts between marks; there is always one more part than marks. -/
def splitAt (mark : Char) : List Char → List (List Char)
  | [] => [[]]
  | c :: rest =>
    if c = mark then [] :: splitAt mark rest
    else
      match splitAt mark rest with
      | first :: more => (c :: first) :: more
      | [] => [[c]]

theorem splitAt_ne_nil (mark : Char) (text : List Char) : splitAt mark text ≠ [] := by
  fun_induction splitAt mark text <;> simp

theorem intercalate_splitAt (mark : Char) (text : List Char) :
    [mark].intercalate (splitAt mark text) = text := by
  induction text with
  | nil => rfl
  | cons c rest ih =>
    unfold splitAt
    split
    next same =>
      obtain ⟨first, more, parts⟩ := List.exists_cons_of_ne_nil (splitAt_ne_nil mark rest)
      rw [parts] at ih ⊢
      rw [List.intercalate_cons_cons, ih, same]
      rfl
    next =>
      split
      next first more parts =>
        rw [parts] at ih
        cases more with
        | nil => simpa using ih
        | cons second more => simpa [List.intercalate_cons_cons] using ih
      next parts => exact absurd parts (splitAt_ne_nil mark rest)

theorem dropWhile_of_ends {condition : Char → Bool} {rest : List Char}
    (ends : rest.head?.any condition = false) : rest.dropWhile condition = rest := by
  cases rest with
  | nil => rfl
  | cons c rest => exact List.dropWhile_cons_of_neg (by simpa using ends)

/-- A run of characters ends where a text goes on with another one. -/
theorem takeWhile_append_of_ends {condition : Char → Bool} {text rest : List Char}
    (all : ∀ c ∈ text, condition c = true) (ends : rest.head?.any condition = false) :
    (text ++ rest).takeWhile condition = text ∧ (text ++ rest).dropWhile condition = rest := by
  rw [List.takeWhile_append_of_pos all, List.dropWhile_append_of_pos all, dropWhile_of_ends ends]
  cases rest with
  | nil => exact ⟨List.append_nil text, rfl⟩
  | cons c rest =>
      rw [List.takeWhile_cons_of_neg (by simpa using ends)]
      exact ⟨List.append_nil text, rfl⟩

end SheetScript.Text
