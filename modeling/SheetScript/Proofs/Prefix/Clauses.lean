import SheetScript.Prefix.Query

/-!
The clauses of queries. A text of queries is cut at its commas and at each `or` between blanks, from
the front on; its clauses are the parts that hold more than blanks, in order.
-/

namespace SheetScript.Prefix

open SheetScript.Text

/-! Cutting -/

/-- A comma, or the word `or` between blanks. -/
inductive IsSeparator : List Char → Prop
  | comma : IsSeparator [',']
  | word {front back : List Char} (before : front ≠ []) (behind : back ≠ [])
      (blank : ∀ c ∈ front ++ back, isBlank c = true) : IsSeparator (front ++ 'o' :: 'r' :: back)

/-- The parts of a text between its separators: the first one is cut at first, with all its blanks. -/
inductive Cut : List Char → List (List Char) → Prop
  | whole {text : List Char}
      (nowhere : ∀ front mark rest, IsSeparator mark → text ≠ front ++ (mark ++ rest)) :
      Cut text [text]
  | part {front mark rest : List Char} {parts : List (List Char)} (isMark : IsSeparator mark)
      (isFirst : ∀ before other after, IsSeparator other →
        front ++ (mark ++ rest) = before ++ (other ++ after) → front.length ≤ before.length)
      (isWhole : mark = [','] ∨ rest.head?.any isBlank = false) (more : Cut rest parts) :
      Cut (front ++ (mark ++ rest)) (front :: parts)

theorem head?_dropWhile_isBlank (text : List Char) :
    (text.dropWhile isBlank).head?.any isBlank = false := by
  cases rest : text.dropWhile isBlank with
  | nil => rfl
  | cons c more =>
      have notEmpty : text.dropWhile isBlank ≠ [] := by
        rw [rest]
        exact List.cons_ne_nil _ _
      have dark := List.head_dropWhile_not isBlank notEmpty
      simpa [rest] using dark

theorem ne_nil_of_head? {text : List Char} (starts : text.head?.any isBlank = true) :
    text.takeWhile isBlank ≠ [] := by
  cases text with
  | nil => cases starts
  | cons c rest =>
      have blank : isBlank c = true := starts
      simp [blank]

theorem separator_of_afterOr? {text rest : List Char} (found : afterOr? text = some rest) :
    ∃ mark, IsSeparator mark ∧ text = mark ++ rest ∧ rest.head?.any isBlank = false := by
  unfold afterOr? at found
  split at found
  · rename_i after isWord
    split at found
    · rename_i both
      obtain ⟨before, behind⟩ := Bool.and_eq_true_iff.1 both
      obtain rfl := Option.some.inj found
      refine ⟨text.takeWhile isBlank ++ 'o' :: 'r' :: after.takeWhile isBlank,
        .word (ne_nil_of_head? before) (ne_nil_of_head? behind) ?_, ?_, head?_dropWhile_isBlank after⟩
      · intro c inside
        rcases List.mem_append.1 inside with inFront | inBack
        · exact List.all_eq_true.1 List.all_takeWhile c inFront
        · exact List.all_eq_true.1 List.all_takeWhile c inBack
      · have front := List.takeWhile_append_dropWhile (p := isBlank) (l := text)
        have back := List.takeWhile_append_dropWhile (p := isBlank) (l := after)
        rw [isWord] at front
        rw [List.append_assoc, List.cons_append, List.cons_append, back, front]
    · cases found
  · cases found

theorem afterOr?_word {front back : List Char} (before : front ≠ []) (behind : back ≠ [])
    (blank : ∀ c ∈ front ++ back, isBlank c = true) (rest : List Char) :
    afterOr? (front ++ 'o' :: 'r' :: back ++ rest) = some (rest.dropWhile isBlank) := by
  have frontBlank : ∀ c ∈ front, isBlank c = true := fun c inside =>
    blank c (List.mem_append_left _ inside)
  have backBlank : ∀ c ∈ back, isBlank c = true := fun c inside =>
    blank c (List.mem_append_right _ inside)
  obtain ⟨first, front, rfl⟩ := List.exists_cons_of_ne_nil before
  obtain ⟨second, back, rfl⟩ := List.exists_cons_of_ne_nil behind
  have firstBlank := frontBlank first List.mem_cons_self
  have secondBlank := backBlank second List.mem_cons_self
  unfold afterOr?
  rw [List.append_assoc, List.dropWhile_append_of_pos frontBlank, List.cons_append,
    List.dropWhile_cons_of_neg (by decide)]
  simp only [List.cons_append, List.head?_cons, Option.any_some, firstBlank, secondBlank,
    Bool.and_self, if_true]
  rw [← List.cons_append, List.dropWhile_append_of_pos backBlank]

theorem cut_alternatives (text : List Char) : Cut text (alternatives text) := by
  fun_induction alternatives text with
  | case1 =>
      refine .whole fun front mark rest isMark empty => ?_
      cases isMark <;> simp at empty
  | case2 c rest isComma ih =>
      obtain rfl := eq_of_beq isComma
      exact @Cut.part [] _ _ _ .comma (fun _ _ _ _ _ => Nat.zero_le _) (.inl rfl) ih
  | case3 c rest notComma after found ih =>
      obtain ⟨mark, isMark, whole, dark⟩ := separator_of_afterOr? found
      rw [whole]
      exact @Cut.part [] _ _ _ isMark (fun _ _ _ _ _ => Nat.zero_le _) (.inr dark) ih
  | case4 c rest notComma notFound first more same ih =>
      -- No separator begins at the first character, so the first part only grows by it.
      have notHere (mark after : List Char) (isMark : IsSeparator mark) :
          c :: rest ≠ mark ++ after := by
        intro whole
        cases isMark with
        | comma => exact notComma (beq_iff_eq.2 (List.cons.inj whole).1)
        | word before behind blank =>
            rw [whole, afterOr?_word before behind blank] at notFound
            cases notFound
      rw [same] at ih
      cases ih with
      | whole nowhere =>
          refine .whole fun front mark after isMark whole => ?_
          cases front with
          | nil => exact notHere mark after isMark whole
          | cons other front => exact nowhere front mark after isMark (List.cons.inj whole).2
      | @part front mark rest parts isMark isFirst isWhole onward =>
          refine @Cut.part (c :: first) _ _ _ isMark ?_ isWhole onward
          intro before other after isOther whole
          cases before with
          | nil => exact absurd whole (notHere other after isOther)
          | cons d before =>
              exact Nat.succ_le_succ (isFirst before other after isOther (List.cons.inj whole).2)
  | case5 c rest notComma notFound empty ih =>
      rw [empty] at ih
      cases ih

theorem rest_of_separators {mark other rest after : List Char} (isMark : IsSeparator mark)
    (isOther : IsSeparator other) (whole : mark ++ rest = other ++ after)
    (markWhole : mark = [','] ∨ rest.head?.any isBlank = false)
    (otherWhole : other = [','] ∨ after.head?.any isBlank = false) : rest = after := by
  -- A comma is not blank, so it cannot begin an `or` with the blanks around it.
  have notWord {front back : List Char} (blank : ∀ c ∈ front ++ back, isBlank c = true)
      (before : front ≠ []) {rest after : List Char} :
      [','] ++ rest ≠ front ++ 'o' :: 'r' :: back ++ after := by
    obtain ⟨first, more, rfl⟩ := List.exists_cons_of_ne_nil before
    intro same
    have isComma := (List.cons.inj same).1
    have isBlank := blank first List.mem_cons_self
    rw [← isComma] at isBlank
    exact absurd isBlank (by decide)
  cases isMark with
  | comma =>
      cases isOther with
      | comma => exact (List.cons.inj whole).2
      | word before behind blank => exact absurd whole (notWord blank before)
  | word before behind blank =>
      cases isOther with
      | comma => exact absurd whole.symm (notWord blank before)
      | word otherBefore otherBehind otherBlank =>
          have found := afterOr?_word before behind blank rest
          rw [whole, afterOr?_word otherBefore otherBehind otherBlank] at found
          have same := Option.some.inj found
          have notComma {front back : List Char} (before : front ≠ []) :
              front ++ 'o' :: 'r' :: back ≠ [','] := by
            obtain ⟨first, more, rfl⟩ := List.exists_cons_of_ne_nil before
            simp
          rw [dropWhile_of_ends (markWhole.resolve_left (notComma before)),
            dropWhile_of_ends (otherWhole.resolve_left (notComma otherBefore))] at same
          exact same.symm

/-- A text is cut in one way only. -/
theorem Cut.eq {text : List Char} {parts others : List (List Char)} (cut : Cut text parts)
    (other : Cut text others) : parts = others := by
  induction cut generalizing others with
  | @whole text nowhere =>
      cases other with
      | whole => rfl
      | part isMark => exact absurd rfl (nowhere _ _ _ isMark)
  | @part front mark rest parts isMark isFirst isWhole more ih =>
      generalize isText : front ++ (mark ++ rest) = text at other
      cases other with
      | whole nowhere => exact absurd isText.symm (nowhere _ _ _ isMark)
      | @part otherFront otherMark otherRest others isOther otherFirst otherWhole onward =>
          have sameLength := Nat.le_antisymm (isFirst _ _ _ isOther isText)
            (otherFirst _ _ _ isMark isText.symm)
          obtain ⟨sameFront, behind⟩ := List.append_inj isText sameLength
          have sameRest := rest_of_separators isMark isOther behind isWhole otherWhole
          subst sameRest
          rw [sameFront, ih onward]

theorem cut_iff {text : List Char} {parts : List (List Char)} :
    Cut text parts ↔ parts = alternatives text :=
  ⟨fun cut => cut.eq (cut_alternatives text), fun same => same ▸ cut_alternatives text⟩

/-! Flattening -/

def clauseOf? (part : List Char) : Option Clause :=
  if (trimChars part).isEmpty then none else some (.read (trimChars part))

inductive Flattened : List String → List Clause → Prop
  | nil : Flattened [] []
  | cons {text : String} {parts : List (List Char)} {queries : List String} {row : List Clause}
      (cut : Cut text.toList parts) (rest : Flattened queries row) :
      Flattened (text :: queries) (parts.filterMap clauseOf? ++ row)

theorem clauses_eq (text : String) :
    clauses text = (alternatives text.toList).filterMap clauseOf? :=
  List.filterMap_map

theorem flattened_flatMap (queries : List String) : Flattened queries (queries.flatMap clauses) := by
  induction queries with
  | nil => exact .nil
  | cons text queries ih =>
      rw [List.flatMap_cons, clauses_eq]
      exact .cons (cut_alternatives text.toList) ih

theorem Flattened.eq {queries : List String} {row : List Clause} (flattened : Flattened queries row) :
    row = queries.flatMap clauses := by
  induction flattened with
  | nil => rfl
  | cons cut rest ih => rw [cut_iff.1 cut, List.flatMap_cons, clauses_eq, ih]

end SheetScript.Prefix
