import SheetScript.Prefix.Insertion
import SheetScript.Proofs.Css.Parts
import SheetScript.Proofs.Prefix.Support

/-!
Prefixing puts texts into a style sheet and changes nothing else: each text stands right before the
name of the declaration that it is for.
-/

namespace SheetScript.Prefix

open SheetScript.Css SheetScript.Text

/-! Texts put in everywhere at once -/

/-- The characters of a source with a text before each of them; what is put in is marked. -/
def marked (put : Nat → List Char) (source : List Char) : List (Char × Bool) :=
  (source.mapIdx fun offset c => (put offset).map (·, true) ++ [(c, false)]).flatten

def woven (put : Nat → List Char) (source : List Char) : List Char :=
  (marked put source).map Prod.fst

theorem marked_cons (put : Nat → List Char) (c : Char) (rest : List Char) :
    marked put (c :: rest) =
      (put 0).map (·, true) ++ (c, false) :: marked (fun offset => put (offset + 1)) rest := by
  simp [marked, List.mapIdx_cons]

theorem woven_cons (put : Nat → List Char) (c : Char) (rest : List Char) :
    woven put (c :: rest) = put 0 ++ c :: woven (fun offset => put (offset + 1)) rest := by
  simp [woven, marked_cons, Function.comp_def]

/-- Without what is put in, the source is left. -/
theorem kept_marked (put : Nat → List Char) (source : List Char) :
    ((marked put source).filter fun c => !c.2).map Prod.fst = source := by
  induction source generalizing put with
  | nil => rfl
  | cons c rest ih =>
      have gone : ((put 0).map ((·, true) : Char → Char × Bool)).filter (fun c => !c.2) = [] := by
        simp
      rw [marked_cons, List.filter_append, gone]
      simp [ih]

theorem woven_append (put : Nat → List Char) (front rest : List Char) :
    woven put (front ++ rest) =
      woven put front ++ woven (fun offset => put (offset + front.length)) rest := by
  induction front generalizing put with
  | nil => rfl
  | cons c front ih =>
      rw [List.cons_append, woven_cons, woven_cons, ih, List.append_assoc, List.cons_append]
      simp [Nat.add_assoc]

theorem woven_nothing {put : Nat → List Char} {source : List Char}
    (nothing : ∀ offset < source.length, put offset = []) : woven put source = source := by
  induction source generalizing put with
  | nil => rfl
  | cons c rest ih =>
      rw [woven_cons, nothing 0 (Nat.succ_pos _), ih fun offset within => nothing _ (by
        rw [List.length_cons]
        omega)]
      rfl

theorem woven_congr {put other : Nat → List Char} {source : List Char}
    (same : ∀ offset < source.length, put offset = other offset) :
    woven put source = woven other source := by
  induction source generalizing put other with
  | nil => rfl
  | cons c rest ih =>
      rw [woven_cons, woven_cons, same 0 (Nat.succ_pos _), ih fun offset within => same _ (by
        rw [List.length_cons]
        omega)]

/-- One more text goes where it belongs as long as none is put in before it. -/
theorem putInto_woven {put : Nat → List Char} {source : List Char} (one : Insertion)
    (inside : one.offset < source.length) (nothing : ∀ offset ≤ one.offset, put offset = []) :
    one.putInto (woven put source) =
      woven (fun offset => if offset = one.offset then one.text else put offset) source := by
  obtain ⟨front, rest, rfl, length⟩ : ∃ front rest, source = front ++ rest ∧
      front.length = one.offset :=
    ⟨source.take one.offset, source.drop one.offset, (List.take_append_drop _ _).symm,
      List.length_take_of_le (Nat.le_of_lt inside)⟩
  cases rest with
  | nil => simp [length] at inside
  | cons c rest =>
      have before : woven put front = front := woven_nothing fun offset within =>
        nothing offset (by omega)
      have beforeToo : woven (fun offset => if offset = one.offset then one.text else put offset)
          front = front := by
        refine woven_nothing fun offset within => ?_
        rw [if_neg (by omega)]
        exact nothing offset (by omega)
      have behind : woven (fun offset => if offset + 1 + front.length = one.offset then one.text
          else put (offset + 1 + front.length)) rest =
            woven (fun offset => put (offset + 1 + front.length)) rest := by
        refine woven_congr fun offset within => ?_
        rw [if_neg (by omega)]
      rw [woven_append, woven_append, before, beforeToo, woven_cons, woven_cons, behind,
        Nat.zero_add, if_pos length, nothing _ (Nat.le_of_eq length), List.nil_append]
      unfold Insertion.putInto
      rw [← length, List.take_left, List.drop_left, List.append_assoc]

/-! Texts put in one after another -/

namespace Insertion

def textAt (added : List Insertion) (offset : Nat) : List Char :=
  (added.filter (·.offset == offset)).flatMap text

theorem textAt_eq_nil {added : List Insertion} {offset : Nat}
    (elsewhere : ∀ one ∈ added, one.offset ≠ offset) : textAt added offset = [] := by
  unfold textAt
  rw [List.filter_eq_nil_iff.2 fun one inside => by simpa using elsewhere one inside]
  rfl

theorem textAt_cons (one : Insertion) (rest : List Insertion) (offset : Nat)
    (rises : ∀ other ∈ rest, one.offset < other.offset) :
    textAt (one :: rest) offset = if offset = one.offset then one.text else textAt rest offset := by
  unfold textAt
  rw [List.filter_cons]
  by_cases here : offset = one.offset
  · have later : rest.filter (·.offset == offset) = [] := by
      refine List.filter_eq_nil_iff.2 fun other inside => ?_
      have := rises other inside
      simp only [beq_iff_eq]
      omega
    rw [if_pos here, if_pos (by simp [here]), later]
    simp
  · rw [if_neg here, if_neg (by simpa using fun same => here same.symm)]

theorem textAt_of_mem {added : List Insertion}
    (rises : added.Pairwise fun left right => left.offset < right.offset) {one : Insertion}
    (inside : one ∈ added) : textAt added one.offset = one.text := by
  induction added with
  | nil => cases inside
  | cons first rest ih =>
      obtain ⟨before, risesLater⟩ := List.pairwise_cons.1 rises
      rw [textAt_cons first rest _ before]
      rcases List.mem_cons.1 inside with rfl | later
      · exact if_pos rfl
      · have := before one later
        rw [if_neg (by omega), ih risesLater later]

theorem precedes_trans (first second third : Insertion) (left : first.precedes second = true)
    (right : second.precedes third = true) : first.precedes third = true := by
  unfold precedes at *
  by_cases sameLeft : first.offset = second.offset <;>
    by_cases sameRight : second.offset = third.offset
  · simp only [sameLeft, sameRight, ne_eq, not_true_eq_false, if_false, Bool.not_eq_true',
      decide_eq_false_iff_not, List.not_lt] at left right ⊢
    exact List.le_trans right left
  · simp_all
  · simp_all
  · simp only [sameLeft, sameRight, ne_eq, not_false_eq_true, if_true, decide_eq_true_eq] at left right
    rw [if_pos (by omega), decide_eq_true_eq]
    omega

theorem precedes_total (first second : Insertion) :
    (first.precedes second || second.precedes first) = true := by
  unfold precedes
  by_cases same : first.offset = second.offset
  · have texts := List.le_total first.text second.text
    simp only [same, ne_eq, not_true_eq_false, if_false, Bool.or_eq_true, Bool.not_eq_true',
      decide_eq_false_iff_not, List.not_lt]
    exact texts.symm
  · rw [if_pos same, if_pos (Ne.symm same)]
    simp only [Bool.or_eq_true, decide_eq_true_eq]
    omega

/-- Sorted, insertions whose offsets rise come in their reverse order. -/
theorem mergeSort_eq_reverse {added : List Insertion}
    (rises : added.Pairwise fun left right => left.offset < right.offset) :
    added.mergeSort precedes = added.reverse := by
  have falls : added.reverse.Pairwise fun left right => right.offset < left.offset :=
    List.pairwise_reverse.2 rises
  have sorted := List.pairwise_mergeSort precedes_trans precedes_total added
  have perm : (added.mergeSort precedes).Perm added.reverse :=
    (List.mergeSort_perm added precedes).trans (List.reverse_perm added).symm
  have sortedToo : added.reverse.Pairwise fun left right => left.precedes right = true := by
    refine falls.imp fun {left right} after => ?_
    unfold precedes
    rw [if_pos (by omega), decide_eq_true_eq]
    exact after
  refine List.Perm.eq_of_pairwise (fun left right inSorted inReverse one other => ?_) sorted
    sortedToo perm
  -- Two insertions that precede each other stand at one offset, and only one stands there.
  have sameOffset : left.offset = right.offset := by
    by_contra different
    unfold precedes at one other
    rw [if_pos different, decide_eq_true_eq] at one
    rw [if_pos (Ne.symm different), decide_eq_true_eq] at other
    omega
  by_contra different
  rw [List.mem_mergeSort] at inSorted
  rw [List.mem_reverse] at inReverse
  have symmetric : Std.Symm fun left right : Insertion => left.offset ≠ right.offset :=
    ⟨fun _ _ apart same => apart same.symm⟩
  have apart : added.Pairwise fun left right => left.offset ≠ right.offset :=
    rises.imp Nat.ne_of_lt
  exact apart.forall inSorted inReverse different sameOffset

theorem foldr_putInto {added : List Insertion} {source : List Char}
    (rises : added.Pairwise fun left right => left.offset < right.offset)
    (inside : ∀ one ∈ added, one.offset < source.length) :
    added.foldr (fun one text => one.putInto text) source = woven (textAt added) source := by
  induction added with
  | nil => exact (woven_nothing fun _ _ => rfl).symm
  | cons first rest ih =>
      obtain ⟨before, risesLater⟩ := List.pairwise_cons.1 rises
      rw [List.foldr_cons, ih risesLater fun one later => inside one (List.mem_cons_of_mem _ later),
        putInto_woven first (inside first List.mem_cons_self)]
      · exact woven_congr fun offset _ => (textAt_cons first rest offset before).symm
      · intro offset upTo
        refine textAt_eq_nil fun one later => ?_
        have := before one later
        omega

end Insertion

/-- Putting in texts from the back is putting them all in at once. -/
theorem insertAll_eq_woven {added : List Insertion} {source : List Char}
    (rises : added.Pairwise fun left right => left.offset < right.offset)
    (inside : ∀ one ∈ added, one.offset < source.length) :
    insertAll source added = woven (Insertion.textAt added) source := by
  unfold insertAll
  rw [Insertion.mergeSort_eq_reverse rises, List.foldl_reverse]
  exact Insertion.foldr_putInto rises inside

/-! What is put in before a declaration -/

section

variable {tables : Tables} {source : List Char} {declaration : Declaration}

/-- What separates the declarations put in before a declaration, and them from it. -/
def separator (source : List Char) (declaration : Declaration) : List Char :=
  separatorAt source ((position source declaration).lineStart source) declaration.offset

def chunk (source : List Char) (declaration : Declaration) (added : List (String × String)) :
    List Char :=
  declarationsText (separator source declaration) declaration.important added

/-- What stands before an offset on its line. -/
structure Leads (source : List Char) (offset : Nat) (lead : List Char) : Prop where
  before : ∃ before, source.take offset = before ++ lead ∧
    (before = [] ∨ before.getLast? = some '\n')
  oneLine : '\n' ∉ lead

/-- What stands behind a declaration that is put in at an offset. -/
inductive Gap (source : List Char) (offset : Nat) : List Char → Prop
  | line {lead : List Char} : Leads source offset lead → (∀ c ∈ lead, isBlank c = true) →
      Gap source offset ('\n' :: lead)
  | blank {lead : List Char} {c : Char} : Leads source offset lead → c ∈ lead →
      isBlank c = false → Gap source offset [' ']

/-- Texts of declarations, one for each pair of a property and a value, with a gap behind each. -/
inductive Rendered (gap : List Char) (important : Bool) :
    List (String × String) → List Char → Prop
  | none : Rendered gap important [] []
  | more {rest : List (String × String)} {text : List Char} (property value : String) :
      Rendered gap important rest text →
      Rendered gap important ((property, value) :: rest)
        (property.toList ++ ':' :: ' ' :: (value.toList ++
          ((if important then " !important".toList else []) ++ ';' :: (gap ++ text))))

theorem Rendered.text_ne_nil {gap : List Char} {important : Bool} {added : List (String × String)}
    {text : List Char} (rendered : Rendered gap important added text) (some : added ≠ []) :
    text ≠ [] := by
  cases rendered with
  | none => exact absurd rfl some
  | more property value _ => exact List.append_ne_nil_of_right_ne_nil _ (List.cons_ne_nil _ _)

theorem rendered_chunk (source : List Char) (declaration : Declaration)
    (added : List (String × String)) :
    Rendered (separator source declaration) declaration.important added
      (chunk source declaration added) := by
  induction added with
  | nil => exact .none
  | cons pair rest ih =>
      have whole := Rendered.more pair.1 pair.2 ih
      have mark : ": ".toList = [':', ' '] := rfl
      unfold chunk declarationsText at whole ⊢
      rw [List.flatMap_cons]
      simpa only [mark, List.append_assoc, List.cons_append, List.nil_append] using whole

/-- Every text is whole lines and what stands on its last line. -/
theorem exists_lead (text : List Char) : ∃ before lead, text = before ++ lead ∧
    (before = [] ∨ before.getLast? = some '\n') ∧ '\n' ∉ lead := by
  induction text using List.reverseRecOn with
  | nil => exact ⟨[], [], rfl, .inl rfl, List.not_mem_nil⟩
  | append_singleton front c ih =>
      by_cases newline : c = '\n'
      · exact ⟨front ++ [c], [], by simp, .inr (by simp [newline]), List.not_mem_nil⟩
      · obtain ⟨before, lead, rfl, begins, oneLine⟩ := ih
        refine ⟨before, lead ++ [c], by simp, begins, ?_⟩
        simpa [oneLine] using Ne.symm newline

theorem gap_separator (source : List Char) (declaration : Declaration) :
    Gap source declaration.offset (separator source declaration) := by
  obtain ⟨before, lead, front, begins, oneLine⟩ := exists_lead (source.take declaration.offset)
  have leads : Leads source declaration.offset lead := ⟨⟨before, front, begins⟩, oneLine⟩
  have lineStart : (position source declaration).lineStart source = before.length := by
    have starts := Position.lineStart_advance_start (source.drop declaration.offset) begins oneLine
    rwa [← front, List.take_append_drop] at starts
  unfold separator separatorAt
  rw [lineStart, front, List.drop_left]
  dsimp only
  split
  · rename_i empty
    exact .line leads (strip_eq_nil_iff.1 (List.isEmpty_iff.1 empty))
  · rename_i some
    have notBlank : ¬ ∀ c ∈ lead, isBlank c = true :=
      fun blank => some (List.isEmpty_iff.2 (strip_eq_nil_iff.2 blank))
    push Not at notBlank
    obtain ⟨c, here, dark⟩ := notBlank
    exact .blank leads here (Bool.eq_false_iff.2 dark)

theorem offset_lt_length (inSheet : declaration ∈ sheetDeclarations (components source)) :
    declaration.offset < source.length := by
  obtain ⟨before, text, after, eq, length⟩ := nameAt_of_declaration inSheet
  have notEmpty : text ≠ [] := text_ne_nil (eq ▸ List.mem_append_right _ List.mem_cons_self)
  have whole := congrArg List.length (flatMap_text_tokens source)
  rw [eq, List.flatMap_append, List.flatMap_cons, List.length_append, List.length_append] at whole
  have := List.length_pos_iff.2 notEmpty
  dsimp only at whole
  omega

/-- The line and column of a declaration lead back to its offset. -/
theorem offset_position (inSheet : declaration ∈ sheetDeclarations (components source)) :
    (position source declaration).offset source = declaration.offset := by
  have exact := Position.offset_advance_start (source.take declaration.offset)
    (source.drop declaration.offset)
  rw [List.take_append_drop] at exact
  exact exact.trans (List.length_take_of_le (Nat.le_of_lt (offset_lt_length inSheet)))

def insertionFor (source : List Char) (declaration : Declaration)
    (added : List (String × String)) : Option Insertion :=
  if added.isEmpty then none else some ⟨declaration.offset, chunk source declaration added⟩

theorem insertion?_eq (inSheet : declaration ∈ sheetDeclarations (components source))
    {added : List (String × String)} (needed : prefixed tables declaration = .ok added) :
    insertion? tables source declaration = .ok (insertionFor source declaration added) := by
  unfold insertion?
  rw [needed]
  cases added with
  | nil => rfl
  | cons first more =>
      dsimp only [bind, Except.bind]
      rw [offset_position inSheet]
      rfl

theorem prefixed_of_insertion? {found : Option Insertion}
    (answer : insertion? tables source declaration = .ok found) :
    ∃ added, prefixed tables declaration = .ok added := by
  unfold insertion? at answer
  cases needed : prefixed tables declaration with
  | error fault =>
      rw [needed] at answer
      cases answer
  | ok added => exact ⟨added, rfl⟩

end

def needs (tables : Tables) (declaration : Declaration) : List (String × String) :=
  (prefixed tables declaration).toOption.getD []

theorem prefixed_eq_needs {tables : Tables} {declaration : Declaration}
    (known : ∃ added, prefixed tables declaration = .ok added) :
    prefixed tables declaration = .ok (needs tables declaration) := by
  obtain ⟨added, needed⟩ := known
  unfold needs
  rw [needed]
  rfl

def insertionsFor (tables : Tables) (source : List Char) : List Insertion :=
  (sheetDeclarations (components source)).filterMap fun declaration =>
    insertionFor source declaration (needs tables declaration)

theorem insertions_eq {tables : Tables} {source : List Char}
    (known : ∀ declaration ∈ sheetDeclarations (components source),
      ∃ added, prefixed tables declaration = .ok added) :
    insertions tables source = .ok (insertionsFor tables source) :=
  filterMapM_eq_ok _ fun declaration inSheet =>
    insertion?_eq inSheet (prefixed_eq_needs (known declaration inSheet))

section

variable (tables : Tables) (source : List Char)

theorem mem_insertionsFor {one : Insertion} (inside : one ∈ insertionsFor tables source) :
    ∃ declaration ∈ sheetDeclarations (components source), needs tables declaration ≠ [] ∧
      one = ⟨declaration.offset, chunk source declaration (needs tables declaration)⟩ := by
  obtain ⟨declaration, inSheet, isOne⟩ := List.mem_filterMap.1 inside
  unfold insertionFor at isOne
  split at isOne
  · cases isOne
  · rename_i someNeeds
    refine ⟨declaration, inSheet, fun nothing => someNeeds (by rw [nothing]; rfl), ?_⟩
    exact (Option.some.inj isOne).symm

theorem insertionsFor_rise :
    (insertionsFor tables source).Pairwise fun left right => left.offset < right.offset := by
  refine List.pairwise_filterMap.2 ((offsets_rise source).imp fun {first second} before => ?_)
  intro left isLeft right isRight
  unfold insertionFor at isLeft isRight
  split at isLeft
  · cases isLeft
  · split at isRight
    · cases isRight
    · obtain rfl := Option.some.inj isLeft
      obtain rfl := Option.some.inj isRight
      exact before

theorem insertAll_insertionsFor :
    insertAll source (insertionsFor tables source) =
      woven (Insertion.textAt (insertionsFor tables source)) source := by
  refine insertAll_eq_woven (insertionsFor_rise tables source) fun one inside => ?_
  obtain ⟨declaration, inSheet, -, rfl⟩ := mem_insertionsFor tables source inside
  exact offset_lt_length inSheet

theorem textAt_declaration {declaration : Declaration}
    (inSheet : declaration ∈ sheetDeclarations (components source)) :
    Insertion.textAt (insertionsFor tables source) declaration.offset =
      chunk source declaration (needs tables declaration) := by
  by_cases nothing : needs tables declaration = []
  · rw [nothing]
    refine Insertion.textAt_eq_nil fun one inside same => ?_
    obtain ⟨other, otherInSheet, someNeeds, rfl⟩ := mem_insertionsFor tables source inside
    have symmetric : Std.Symm fun left right : Declaration => left.offset ≠ right.offset :=
      ⟨fun _ _ apart same => apart same.symm⟩
    have apart : (sheetDeclarations (components source)).Pairwise fun left right =>
        left.offset ≠ right.offset := (offsets_rise source).imp Nat.ne_of_lt
    refine apart.forall otherInSheet inSheet (fun isSame => someNeeds ?_) same
    rw [isSame, nothing]
  · have inside : ⟨declaration.offset, chunk source declaration (needs tables declaration)⟩ ∈
        insertionsFor tables source := by
      refine List.mem_filterMap.2 ⟨declaration, inSheet, ?_⟩
      unfold insertionFor
      rw [if_neg (by simpa using nothing)]
    exact Insertion.textAt_of_mem (insertionsFor_rise tables source) inside

theorem textAt_elsewhere {offset : Nat}
    (elsewhere : ∀ declaration ∈ sheetDeclarations (components source),
      declaration.offset ≠ offset) :
    Insertion.textAt (insertionsFor tables source) offset = [] := by
  refine Insertion.textAt_eq_nil fun one inside => ?_
  obtain ⟨declaration, inSheet, -, rfl⟩ := mem_insertionsFor tables source inside
  exact elsewhere declaration inSheet

end

/-! Prefixing a style sheet -/

/--
What `put` puts into a source: before the name of each declaration the texts of those that it needs,
one after another, which is no text exactly if it needs none, and nothing anywhere else.
-/
structure PutsBefore (tables : Tables) (source : List Char) (put : Nat → List Char) : Prop where
  chunk : ∀ declaration ∈ sheetDeclarations (components source),
    ∃ added gap, prefixed tables declaration = .ok added ∧ Gap source declaration.offset gap ∧
      Rendered gap declaration.important added (put declaration.offset) ∧
      (added ≠ [] → put declaration.offset ≠ [])
  nothing : ∀ offset, (∀ declaration ∈ sheetDeclarations (components source),
    declaration.offset ≠ offset) → put offset = []

/-- An output is its source with the texts of declarations put in, each in its own place. -/
structure Prefixed (tables : Tables) (source output : List Char) : Prop where
  /-- No two declarations share a place. -/
  apart : (sheetDeclarations (components source)).Pairwise fun left right =>
    left.offset < right.offset
  /-- Every place is where a declaration's name begins as a token. -/
  atName : ∀ declaration ∈ sheetDeclarations (components source),
    LeafAt (tokens source) declaration.offset (.ident declaration.name)
  /-- No place is inside a prelude or a value. -/
  outside : ∀ declaration ∈ sheetDeclarations (components source),
    ∀ part ∈ sheetParts (components source), declaration.offset ∉ part.inside
  /-- The output has the texts in these places; without them it is the source. -/
  woven : ∃ put, PutsBefore tables source put ∧ output = (marked put source).map Prod.fst ∧
    source = ((marked put source).filter fun c => !c.2).map Prod.fst
  /-- A source that needs nothing comes back. -/
  same : (∀ declaration ∈ sheetDeclarations (components source),
    prefixed tables declaration = .ok []) → output = source

theorem prefixed_of_insertions {tables : Tables} {source : List Char} {added : List Insertion}
    (ran : insertions tables source = .ok added) :
    Prefixed tables source (insertAll source added) := by
  have known (declaration : Declaration)
      (inSheet : declaration ∈ sheetDeclarations (components source)) :
      ∃ added, prefixed tables declaration = .ok added := by
    obtain ⟨found, answer⟩ := answers_of_filterMapM ran declaration inSheet
    exact prefixed_of_insertion? answer
  obtain rfl : insertionsFor tables source = added :=
    Except.ok.inj ((insertions_eq known).symm.trans ran)
  have whole := insertAll_insertionsFor tables source
  constructor
  · exact offsets_rise source
  · exact fun declaration inSheet => nameAt_of_declaration inSheet
  · exact fun declaration inSheet part isPart => offset_not_inside inSheet isPart
  · refine ⟨Insertion.textAt (insertionsFor tables source), ⟨?_, ?_⟩, whole, ?_⟩
    · intro declaration inSheet
      have rendered := rendered_chunk source declaration (needs tables declaration)
      rw [← textAt_declaration tables source inSheet] at rendered
      exact ⟨needs tables declaration, separator source declaration,
        prefixed_eq_needs (known declaration inSheet), gap_separator source declaration, rendered,
        rendered.text_ne_nil⟩
    · exact fun offset elsewhere => textAt_elsewhere tables source elsewhere
    · exact (kept_marked _ source).symm
  · intro nothing
    rw [whole]
    refine woven_nothing fun offset within => Insertion.textAt_eq_nil fun one inside => ?_
    obtain ⟨declaration, inSheet, someNeeds, rfl⟩ := mem_insertionsFor tables source inside
    refine absurd ?_ someNeeds
    unfold needs
    rw [nothing declaration inSheet]
    rfl

theorem insertions_of_wellFormed {dataset : Dataset} (wellFormed : dataset.WellFormed)
    (targets : List Target) (source : List Char) :
    ∃ added, insertions ⟨some dataset, .ok targets⟩ source = .ok added :=
  ⟨_, insertions_eq fun _ _ => prefixedDeclarations_of_wellFormed wellFormed targets _ _⟩

/--
With data and targets at hand a style sheet is prefixed: data in the documented layout always leads
to an output, and every output is the normalised style sheet with the texts of the needed
declarations put in, each right before the name of the declaration that it is for.
-/
theorem apply_prefixes (dataset : Dataset) (targets : List Target) (css : String) :
    (dataset.WellFormed → ∃ output, Tables.apply ⟨some dataset, .ok targets⟩ css = .ok output) ∧
      ∀ output, Tables.apply ⟨some dataset, .ok targets⟩ css = .ok output →
        Prefixed ⟨some dataset, .ok targets⟩ (normalise css.toList) output.toList := by
  constructor
  · intro wellFormed
    obtain ⟨added, ran⟩ := insertions_of_wellFormed wellFormed targets (normalise css.toList)
    unfold Tables.apply
    dsimp only
    rw [ran]
    exact ⟨_, rfl⟩
  · intro output applied
    unfold Tables.apply at applied
    dsimp only at applied
    cases ran : insertions ⟨some dataset, .ok targets⟩ (normalise css.toList) with
    | error fault =>
        rw [ran] at applied
        cases applied
    | ok added =>
        rw [ran] at applied
        obtain rfl := Except.ok.inj applied
        rw [String.toList_ofList]
        exact prefixed_of_insertions ran

def transformData : Dataset where
  agents := .object []
  features := .object [("transforms2d",
    .object [("stats", .object [("chrome", .object [("4", .string "y x")])])])]

theorem wellFormed_transformData : transformData.WellFormed := by
  refine eachField_object fun feature isFeature => ?_
  obtain rfl := List.mem_singleton.1 isFeature
  refine ⟨_, rfl, fun stats isStats => ?_⟩
  obtain rfl : _ = stats := Option.some.inj isStats
  refine eachField_object fun browser isBrowser => ?_
  obtain rfl := List.mem_singleton.1 isBrowser
  refine eachField_object fun version isVersion => ?_
  obtain rfl := List.mem_singleton.1 isVersion
  exact ⟨"y x", rfl⟩

theorem apply_prefixes_transform :
    (∃ output, Tables.apply ⟨some transformData, .ok [⟨"chrome", "4"⟩]⟩
        "a\x7b\r\n  transform:none ! important\x7d" = .ok output) ∧
      Tables.apply ⟨some transformData, .ok [⟨"chrome", "4"⟩]⟩
          "a\x7b\r\n  transform:none ! important\x7d" =
        .ok ("a\x7b\n  -webkit-transform: none !important;\n  " ++
          "transform:none ! important\x7d") ∧
      Prefixed ⟨some transformData, .ok [⟨"chrome", "4"⟩]⟩
        (normalise "a\x7b\r\n  transform:none ! important\x7d".toList)
        ("a\x7b\n  -webkit-transform: none !important;\n  " ++
          "transform:none ! important\x7d").toList := by
  have prefixes := apply_prefixes transformData [⟨"chrome", "4"⟩]
    "a\x7b\r\n  transform:none ! important\x7d"
  have applied : Tables.apply ⟨some transformData, .ok [⟨"chrome", "4"⟩]⟩
      "a\x7b\r\n  transform:none ! important\x7d" =
        .ok ("a\x7b\n  -webkit-transform: none !important;\n  " ++
          "transform:none ! important\x7d") := by
    decide +kernel
  exact ⟨prefixes.1 wellFormed_transformData, applied, prefixes.2 _ applied⟩

end SheetScript.Prefix
