import SheetScript.Proofs.Css.Outline

/-! Values without the blanks at their ends, and with blanks that meet as one. -/

namespace SheetScript.Css

section

variable {α : Type} {condition : α → Bool}

theorem isInfix_strip (list : List α) : strip condition list <:+: list :=
  (List.rdropWhile_prefix condition _).isInfix.trans (List.dropWhile_suffix condition).isInfix

theorem strip_front {front : List α} (all : ∀ x ∈ front, condition x = true) (list : List α) :
    strip condition (front ++ list) = strip condition list := by
  unfold strip
  rw [List.dropWhile_append_of_pos all]

theorem rdropWhile_append_of_pos {tail : List α} (all : ∀ x ∈ tail, condition x = true)
    (list : List α) : (list ++ tail).rdropWhile condition = list.rdropWhile condition := by
  unfold List.rdropWhile
  rw [List.reverse_append, List.dropWhile_append_of_pos fun x here => all x (List.mem_reverse.1 here)]

theorem strip_tail {tail : List α} (all : ∀ x ∈ tail, condition x = true) (list : List α) :
    strip condition (list ++ tail) = strip condition list := by
  unfold strip
  rw [List.dropWhile_append]
  split
  · rename_i nothing
    rw [List.isEmpty_iff.1 nothing, List.dropWhile_eq_nil_iff.2 all]
  · exact rdropWhile_append_of_pos all _

theorem strip_strip (list : List α) : strip condition (strip condition list) = strip condition list := by
  have front : (strip condition list).dropWhile condition = strip condition list := by
    cases same : strip condition list with
    | nil => rfl
    | cons first rest =>
        have isPrefix : strip condition list <+: list.dropWhile condition :=
          List.rdropWhile_prefix condition _
        obtain ⟨more, whole⟩ := isPrefix
        have dark := List.head?_dropWhile_not condition list
        rw [← whole, same] at dark
        have dark : condition first = false := dark
        rw [List.dropWhile_cons, dark]
        rfl
  rw [strip, front]
  exact List.rdropWhile_idempotent condition _

/-- What is left out stands at the ends. -/
theorem exists_strip (condition : α → Bool) (list : List α) : ∃ front back,
    list = front ++ strip condition list ++ back ∧ (∀ x ∈ front, condition x = true) ∧
      ∀ x ∈ back, condition x = true := by
  refine ⟨list.takeWhile condition, (list.dropWhile condition).rtakeWhile condition, ?_, ?_, ?_⟩
  · rw [List.append_assoc, strip, List.rdropWhile_append_rtakeWhile, List.takeWhile_append_dropWhile]
  · exact fun x here => List.mem_takeWhile_imp here
  · exact fun x here => List.mem_rtakeWhile_imp here

theorem strip_eq_nil_iff {list : List α} :
    strip condition list = [] ↔ ∀ x ∈ list, condition x = true := by
  constructor
  · intro empty
    obtain ⟨front, back, whole, inFront, inBack⟩ := exists_strip condition list
    rw [empty, List.append_nil] at whole
    intro x here
    rw [whole] at here
    exact (List.mem_append.1 here).elim (inFront x) (inBack x)
  · intro all
    rw [strip, List.dropWhile_eq_nil_iff.2 all]
    rfl

theorem head?_strip {list : List α} {x : α} (first : (strip condition list).head? = some x) :
    condition x = false := by
  have isPrefix : strip condition list <+: list.dropWhile condition :=
    List.rdropWhile_prefix condition _
  obtain ⟨more, whole⟩ := isPrefix
  have dark := List.head?_dropWhile_not condition list
  rw [← whole, List.head?_append, first] at dark
  exact dark

theorem getLast?_strip {list : List α} {x : α} (last : (strip condition list).getLast? = some x) :
    condition x = false := by
  unfold strip List.rdropWhile at last
  rw [List.getLast?_reverse] at last
  have dark := List.head?_dropWhile_not condition (list.dropWhile condition).reverse
  rw [last] at dark
  exact dark

end

/-! Offsets -/

theorem unplaced_joinBefore {component : Component} {row : List Component}
    (placeless : component.unplaced = component) (rowPlaceless : bareList row = row) :
    bareList (joinBefore component row) = joinBefore component row := by
  unfold joinBefore
  split
  · rw [bareList_cons] at rowPlaceless ⊢
    rw [(List.cons.inj rowPlaceless).2]
    rfl
  · rw [bareList_cons, placeless, rowPlaceless]

mutual

theorem Component.unplaced_tidied (component : Component) :
    component.tidied.unplaced = component.tidied := by
  cases component with
  | leaf offset leaf => simp [Component.tidied, Component.unplaced]
  | fault offset fault => simp [Component.tidied, Component.unplaced]
  | block offset bracket content =>
      simp only [Component.tidied, Component.unplaced, bareList_joined content]
  | function offset name arguments =>
      simp only [Component.tidied, Component.unplaced, bareList_joined arguments]

theorem bareList_joined (row : List Component) : bareList (joined row) = joined row := by
  cases row with
  | nil => rw [joined]; rfl
  | cons component rest =>
      rw [joined]
      exact unplaced_joinBefore component.unplaced_tidied (bareList_joined rest)

end

theorem bareList_eq_self_iff {row : List Component} :
    bareList row = row ↔ ∀ component ∈ row, component.unplaced = component := by
  rw [bareList_eq_map]
  refine Iff.trans ?_ (List.map_inj_left (g := id))
  rw [List.map_id]

theorem bareList_tidy (value : List Component) : bareList (tidy value) = tidy value := by
  refine bareList_eq_self_iff.2 fun component here => ?_
  have inside := (isInfix_strip (joined value)).sublist.subset here
  exact bareList_eq_self_iff.1 (bareList_joined value) component inside

end SheetScript.Css
