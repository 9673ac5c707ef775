/-! Lines and columns. -/

namespace SheetScript.Text

/-- A place in a source, both counts from one. -/
structure Position where
  line : Nat
  column : Nat
  deriving DecidableEq, Repr

namespace Position

def start : Position := ⟨1, 1⟩

def advance (position : Position) (text : List Char) : Position :=
  text.foldl
    (fun position c => if c == '\n' then ⟨position.line + 1, 1⟩
      else ⟨position.line, position.column + 1⟩)
    position

theorem advance_append (position : Position) (first second : List Char) :
    position.advance (first ++ second) = (position.advance first).advance second := by
  simp [advance]

theorem advance_cons (position : Position) (c : Char) (rest : List Char) :
    position.advance (c :: rest) =
      (if c == '\n' then (⟨position.line + 1, 1⟩ : Position)
        else ⟨position.line, position.column + 1⟩).advance rest := rfl

end Position

/-! Where lines begin -/

/-- The offsets behind the line breaks of a text that begins at an offset. -/
def lineStartsAfter (offset : Nat) : List Char → List Nat
  | [] => []
  | c :: rest =>
    if c == '\n' then (offset + 1) :: lineStartsAfter (offset + 1) rest
    else lineStartsAfter (offset + 1) rest

def lineStarts (source : List Char) : List Nat :=
  0 :: lineStartsAfter 0 source

namespace Position

def lineStart (position : Position) (source : List Char) : Nat :=
  ((lineStarts source)[position.line - 1]?).getD 0

def offset (position : Position) (source : List Char) : Nat :=
  position.lineStart source + position.column - 1

theorem line_le_advance (position : Position) (text : List Char) :
    position.line ≤ (position.advance text).line := by
  induction text generalizing position with
  | nil => exact Nat.le_refl _
  | cons c rest ih =>
      rw [advance_cons]
      refine Nat.le_trans ?_ (ih _)
      split
      · exact Nat.le_succ _
      · exact Nat.le_refl _

/-- The line that a text ends in is found among the starts of lines, counted from the first one. -/
theorem getElem?_lineStartsAfter (before after : List Char) (start offset : Nat)
    (position : Position) (atOffset : start + position.column = offset + 1) :
    ∃ found, (start :: lineStartsAfter offset (before ++ after))[
        (position.advance before).line - position.line]? = some found ∧
      found + (position.advance before).column = offset + before.length + 1 := by
  induction before generalizing start offset position with
  | nil =>
      refine ⟨start, ?_, atOffset⟩
      have same : (position.advance []).line - position.line = 0 := Nat.sub_self _
      rw [same]
      rfl
  | cons c before ih =>
      rw [List.cons_append, lineStartsAfter, advance_cons, List.length_cons]
      by_cases newline : (c == '\n') = true
      · rw [if_pos newline, if_pos newline]
        obtain ⟨found, here, exact⟩ := ih (offset + 1) (offset + 1) ⟨position.line + 1, 1⟩ rfl
        have later := line_le_advance ⟨position.line + 1, 1⟩ before
        refine ⟨found, ?_, by omega⟩
        have behind : ((⟨position.line + 1, 1⟩ : Position).advance before).line - position.line =
            ((⟨position.line + 1, 1⟩ : Position).advance before).line - (position.line + 1) + 1 := by
          dsimp only at later
          omega
        rw [behind, List.getElem?_cons_succ]
        exact here
      · rw [if_neg newline, if_neg newline]
        obtain ⟨found, here, exact⟩ := ih start (offset + 1) ⟨position.line, position.column + 1⟩
          (by dsimp only; omega)
        exact ⟨found, here, by omega⟩

/-- Lines and columns lose nothing: the position behind a text leads back to the text's length. -/
theorem offset_advance_start (before after : List Char) :
    (start.advance before).offset (before ++ after) = before.length := by
  obtain ⟨found, here, exact⟩ := getElem?_lineStartsAfter before after 0 0 start rfl
  have first : start.line = 1 := rfl
  rw [first] at here
  unfold offset lineStart lineStarts
  rw [here]
  dsimp only [Option.getD_some]
  omega

theorem column_advance (position : Position) {text : List Char} (oneLine : '\n' ∉ text) :
    (position.advance text).column = position.column + text.length := by
  induction text generalizing position with
  | nil => rfl
  | cons c rest ih =>
      obtain ⟨notBreak, restOneLine⟩ := not_or.1 (mt List.mem_cons.2 oneLine)
      have other : (c == '\n') = false := beq_eq_false_iff_ne.2 (Ne.symm notBreak)
      rw [advance_cons, other, if_neg Bool.false_ne_true, ih _ restOneLine, List.length_cons,
        Nat.add_assoc, Nat.add_comm 1]

theorem column_advance_of_begins {before : List Char}
    (begins : before = [] ∨ before.getLast? = some '\n') : (start.advance before).column = 1 := by
  rcases begins with rfl | last
  · rfl
  · obtain ⟨front, rfl⟩ := List.getLast?_eq_some_iff.1 last
    rw [advance_append]
    rfl

/-- The line of a place begins behind the last line break before it. -/
theorem lineStart_advance_start {before lead : List Char} (after : List Char)
    (begins : before = [] ∨ before.getLast? = some '\n') (oneLine : '\n' ∉ lead) :
    (start.advance (before ++ lead)).lineStart (before ++ lead ++ after) = before.length := by
  have whole := offset_advance_start (before ++ lead) after
  have column : (start.advance (before ++ lead)).column = 1 + lead.length := by
    rw [advance_append, column_advance _ oneLine, column_advance_of_begins begins]
  rw [offset, column, List.length_append] at whole
  omega

end Position

end SheetScript.Text
