import SheetScript.Proofs.Css.Added
import SheetScript.Proofs.Css.Tidy

/-!
Values of declarations: what can stand in them, and how they read apart from their blanks.
-/

namespace SheetScript.Css

/-! Reading a value without keeping it -/

inductive Phase
  | plain
  | bang
  | important
  deriving DecidableEq

/-- What of a value being read decides whether it is one. -/
structure Look where
  phase : Phase
  filled : Bool
  blockBehind : Bool

namespace Look

def start : Look := ⟨.plain, false, false⟩

def plain (look : Look) (component : Component) : Look :=
  ⟨.plain, true, look.blockBehind || (ValueRead.isCurly component && look.filled)⟩

def step (look : Look) (component : Component) : Look :=
  if component.isBlank then look
  else
    match look.phase with
    | .plain => if component.isMark "!" then { look with phase := .bang } else look.plain component
    | .bang =>
      if ValueRead.isImportant component then { look with phase := .important }
      else look.plain component
    | .important => look.plain component

def after (row : List Component) : Look :=
  row.foldl step start

theorem step_tidied (look : Look) (component : Component) :
    look.step component.tidied = look.step component := by
  cases component with
  | leaf offset leaf =>
      cases leaf <;> simp [Component.tidied, step, plain, Component.isBlank, Component.isMark,
        ValueRead.isImportant, ValueRead.isCurly]
  | fault offset fault => simp [Component.tidied, step, plain, Component.isBlank, Component.isMark,
      ValueRead.isImportant, ValueRead.isCurly]
  | block offset bracket content =>
      cases bracket <;> simp [Component.tidied, step, plain, Component.isBlank, Component.isMark,
        ValueRead.isImportant, ValueRead.isCurly]
  | function offset name arguments => simp [Component.tidied, step, plain, Component.isBlank,
      Component.isMark, ValueRead.isImportant, ValueRead.isCurly]

theorem step_blank (look : Look) {component : Component} (blank : component.isBlank = true) :
    look.step component = look :=
  if_pos blank

theorem foldl_blanks (look : Look) {row : List Component}
    (blanks : ∀ component ∈ row, component.isBlank = true) : row.foldl step look = look := by
  induction row with
  | nil => rfl
  | cons component rest ih =>
      rw [List.foldl_cons, step_blank look (blanks component List.mem_cons_self)]
      exact ih fun other here => blanks other (List.mem_cons_of_mem _ here)

theorem foldl_joinBefore (look : Look) (component : Component) (row : List Component) :
    (joinBefore component row).foldl step look = (component :: row).foldl step look := by
  unfold joinBefore
  split
  · rfl
  · rfl

theorem foldl_joined (look : Look) (row : List Component) :
    (joined row).foldl step look = row.foldl step look := by
  induction row generalizing look with
  | nil => rw [joined]
  | cons component rest ih =>
      rw [joined, foldl_joinBefore, List.foldl_cons, step_tidied, ih, List.foldl_cons]

/-- Blanks at the ends of a value, and how blanks inside are cut up, do not change how it reads. -/
theorem after_tidy (value : List Component) : after (tidy value) = after value := by
  unfold after
  rw [← foldl_joined start value]
  obtain ⟨front, back, whole, frontBlank, backBlank⟩ :=
    exists_strip Component.isBlank (joined value)
  unfold tidy
  generalize atStrip : strip Component.isBlank (joined value) = middle at whole
  rw [whole, List.foldl_append, List.foldl_append, foldl_blanks start frontBlank,
    foldl_blanks _ backBlank]

end Look

def ValueEnding.phase : ValueEnding → Phase
  | .plain => .plain
  | .bang _ => .bang
  | .important _ => .important

namespace ValueRead

def look (value : ValueRead) : Look :=
  ⟨value.ending.phase, value.filled, value.blockBehind⟩

theorem look_add (value : ValueRead) (component : Component) :
    (value.add component).look = value.look.step component := by
  obtain ⟨read, ending, filled, blockBehind⟩ := value
  unfold add Look.step
  by_cases blank : component.isBlank = true
  · rw [if_pos blank, if_pos blank]
    rfl
  · rw [if_neg blank, if_neg blank]
    cases ending with
    | plain =>
        by_cases bang : component.isMark "!" = true
        · simp [look, ValueEnding.phase, bang]
        · simp [look, ValueEnding.phase, bang, Look.plain]
    | bang before =>
        by_cases important : isImportant component = true
        · simp [look, ValueEnding.phase, important]
        · simp [look, ValueEnding.phase, important, Look.plain]
    | important before => rfl

theorem look_foldl (row : List Component) (value : ValueRead) :
    (row.foldl add value).look = row.foldl Look.step value.look := by
  induction row generalizing value with
  | nil => rfl
  | cons component rest ih => rw [List.foldl_cons, List.foldl_cons, ih, look_add]

theorem look_after (row : List Component) : (row.foldl add .start).look = Look.after row :=
  look_foldl row .start

theorem read_add (value : ValueRead) (component : Component) :
    (value.add component).read = component :: value.read := by
  unfold add
  dsimp only
  split
  · rfl
  · split
    · split <;> rfl
    · split <;> rfl
    · rfl

theorem read_foldl (row : List Component) (value : ValueRead) :
    (row.foldl add value).read = row.reverse ++ value.read := by
  induction row generalizing value with
  | nil => rfl
  | cons component rest ih =>
      rw [List.foldl_cons, ih, read_add, List.reverse_cons, List.append_assoc]
      rfl

end ValueRead

/-- What stands before an exclamation mark is the beginning of a value, and plain. -/
structure Before (row before : List Component) : Prop where
  isPrefix : before.reverse <+: row
  phase : (Look.after before.reverse).phase = .plain
  block : (Look.after before.reverse).blockBehind = (Look.after row).blockBehind

def ValueEnding.Fits (row : List Component) : ValueEnding → Prop
  | .plain => True
  | .bang before => Before row before
  | .important before => Before row before

theorem Before.append {row before : List Component} {component : Component}
    (fits : Before row before)
    (same : ((Look.after row).step component).blockBehind = (Look.after row).blockBehind) :
    Before (row ++ [component]) before := by
  refine ⟨fits.isPrefix.trans (List.prefix_append _ _), fits.phase, ?_⟩
  rw [fits.block, Look.after, Look.after, List.foldl_append]
  exact same.symm

theorem ValueRead.fits_foldl (row : List Component) :
    (row.foldl add .start).ending.Fits row := by
  -- From the front, as the reader goes; `looks` ties its state to what it has looked at.
  induction row using List.reverseRecOn with
  | nil => trivial
  | append_singleton row component ih =>
      have looks := look_after row
      have reads := read_foldl row .start
      rw [List.foldl_append, List.foldl_cons, List.foldl_nil]
      generalize row.foldl add .start = value at ih looks reads
      obtain ⟨read, ending, filled, blockBehind⟩ := value
      have blockSame : (Look.after row).blockBehind = blockBehind := by rw [← looks]; rfl
      by_cases blank : component.isBlank = true
      · unfold add
        rw [if_pos blank]
        have same : ((Look.after row).step component).blockBehind = (Look.after row).blockBehind := by
          rw [Look.step_blank _ blank]
        cases ending with
        | plain => trivial
        | bang before => exact Before.append ih same
        | important before => exact Before.append ih same
      · unfold add
        rw [if_neg blank]
        cases ending with
        | plain =>
            dsimp only
            split
            · rename_i isBang
              have phase : (Look.after row).phase = .plain := by rw [← looks]; rfl
              dsimp only at reads
              rw [ValueRead.start, List.append_nil] at reads
              refine ⟨?_, ?_, ?_⟩
              · rw [reads, List.reverse_reverse]
                exact List.prefix_append _ _
              · rw [reads, List.reverse_reverse, phase]
              · rw [reads, List.reverse_reverse]
                change _ = ((row ++ [component]).foldl Look.step Look.start).blockBehind
                rw [List.foldl_append]
                change _ = ((Look.after row).step component).blockBehind
                unfold Look.step
                rw [if_neg blank, phase]
                dsimp only
                rw [if_pos isBang]
            · trivial
        | bang before =>
            dsimp only
            split
            · rename_i isImportant
              have phase : (Look.after row).phase = .bang := by rw [← looks]; rfl
              refine Before.append ih ?_
              unfold Look.step
              rw [if_neg blank, phase]
              dsimp only
              rw [if_pos isImportant]
            · trivial
        | important before => trivial

/-! The values of declarations -/

def Look.Fits (important : Bool) (look : Look) : Prop :=
  look.blockBehind = false ∧
    if important then look.phase = .plain else look.phase ≠ .important

structure Declaration.Proper (declaration : Declaration) : Prop where
  semicolon : ∀ component ∈ declaration.value, component.isMark ";" = false
  look : (Look.after declaration.value).Fits declaration.important

/-- The value of a declaration is a part of its components, and reads as one. -/
theorem value_of_ofComponents? {row : List Component} {declaration : Declaration}
    (found : Declaration.ofComponents? row = some declaration) :
    (∀ component ∈ declaration.value, component ∈ row) ∧
      (Look.after declaration.value).Fits declaration.important := by
  unfold Declaration.ofComponents? at found
  split at found
  · rename_i offset name rest
    split at found
    · rename_i colon value atColon
      have inside : ∀ component ∈ value, component ∈ Component.leaf offset (.ident name) :: rest :=
        fun component here => List.mem_cons_of_mem _
          ((List.dropWhile_sublist _).subset (atColon ▸ List.mem_cons_of_mem _ here))
      -- The invariant of the reader of values, and what it looks at, at the end of the value.
      have fits := ValueRead.fits_foldl value
      have looks := ValueRead.look_after value
      dsimp only at found
      split at found
      · cases found
      · rename_i wellFormed
        rw [Bool.or_eq_true, not_or, Bool.not_eq_true] at wellFormed
        have block : (Look.after value).blockBehind = false := by
          rw [← looks]
          exact Bool.eq_false_iff.2 wellFormed.2
        split at found
        · rename_i before isImportant
          obtain rfl := Option.some.inj found
          rw [isImportant] at fits
          refine ⟨fun component here => inside component (fits.isPrefix.subset here), ?_, fits.phase⟩
          exact fits.block.trans block
        · rename_i notImportant
          obtain rfl := Option.some.inj found
          refine ⟨inside, block, fun isImportant => ?_⟩
          rw [← looks] at isImportant
          unfold ValueRead.look at isImportant
          dsimp only at isImportant
          cases ending : (value.foldl ValueRead.add .start).ending with
          | important before => exact notImportant before ending
          | plain =>
              rw [ending] at isImportant
              cases isImportant
          | bang before =>
              rw [ending] at isImportant
              cases isImportant
    · cases found
  · cases found

structure Segment (row segment : List Component) (declaration : Declaration) : Prop where
  reads : Declaration.ofComponents? segment = some declaration
  inside : ∀ component ∈ segment, component ∈ row
  semicolon : ∀ component ∈ segment, component.isMark ";" = false

theorem Segment.mono {row larger segment : List Component} {declaration : Declaration}
    (isSegment : Segment row segment declaration) (subset : row ⊆ larger) :
    Segment larger segment declaration :=
  ⟨isSegment.reads, fun component here => subset (isSegment.inside component here),
    isSegment.semicolon⟩

theorem segment_of_read {read : List Component} {declaration : Declaration}
    (found : declaration ∈ (Declaration.ofComponents? read.reverse).toList)
    (noSemicolon : ∀ component ∈ read.reverse, component.isMark ";" = false) :
    Segment read.reverse read.reverse declaration :=
  ⟨Option.mem_toList.1 found, fun _ here => here, noSemicolon⟩

theorem segment_of_declaration {part : DeclarationPart} {row : List Component}
    {declaration : Declaration} (found : declaration ∈ declarationsAfter part row)
    (noSemicolon : ∀ component ∈ part.row, component.isMark ";" = false) :
    ∃ segment, Segment (part.row ++ row) segment declaration := by
  have later {component : Component} {rest : List Component} {front : List Component}
      (behind : ∃ segment, Segment rest segment declaration) :
      ∃ segment, Segment (front ++ component :: rest) segment declaration := by
    obtain ⟨segment, isSegment⟩ := behind
    exact ⟨segment, isSegment.mono fun other here =>
      List.mem_append_right _ (List.mem_cons_of_mem _ here)⟩
  -- A declaration is made at a semicolon or at the end, of the components read since the last one.
  fun_induction declarationsAfter part row with
  | case1 read =>
      exact ⟨_, (segment_of_read found noSemicolon).mono (List.subset_append_left _ _)⟩
  | case2 part notReading => cases found
  | case3 rest offset text ih => exact later (ih found (by simp [DeclarationPart.row]))
  | case4 rest offset name ih => exact later (ih found (by simp [DeclarationPart.row]))
  | case5 rest component notBlank notKeyword semicolon ih =>
      exact later (ih found (by simp [DeclarationPart.row]))
  | case6 rest component notBlank notKeyword notSemicolon ih =>
      refine ih found fun other here => ?_
      rw [DeclarationPart.row, List.reverse_singleton, List.mem_singleton] at here
      rw [here]
      exact Bool.eq_false_iff.2 notSemicolon
  | case7 component rest read semicolon ih =>
      rcases List.mem_append.1 found with first | behind
      · exact ⟨_, (segment_of_read first noSemicolon).mono (List.subset_append_left _ _)⟩
      · exact later (ih behind (by simp [DeclarationPart.row]))
  | case8 component rest read notSemicolon ih =>
      have rows : DeclarationPart.row (.components (component :: read)) ++ rest =
          DeclarationPart.row (.components read) ++ component :: rest := by
        simp [DeclarationPart.row]
      rw [← rows]
      refine ih found fun other here => ?_
      rw [DeclarationPart.row, List.reverse_cons] at here
      rcases List.mem_append.1 here with old | new
      · exact noSemicolon other old
      · rw [List.mem_singleton.1 new]
        exact Bool.eq_false_iff.2 notSemicolon
  | case9 component rest ends ih => exact later (ih found (by simp [DeclarationPart.row]))
  | case10 component rest stays ih => exact later (ih found (by simp [DeclarationPart.row]))

/-- A declaration in a block has a proper value, made of components of the block. -/
theorem proper_of_blockDeclarations {content : List Component} {declaration : Declaration}
    (found : declaration ∈ blockDeclarations content) :
    (∀ component ∈ declaration.value, component ∈ content) ∧ declaration.Proper := by
  obtain ⟨segment, isSegment⟩ := segment_of_declaration found (by simp [DeclarationPart.row])
  obtain ⟨inside, look⟩ := value_of_ofComponents? isSegment.reads
  exact ⟨fun component here => isSegment.inside component (inside component here),
    fun component here => isSegment.semicolon component (inside component here), look⟩

def Rule.content? : Rule → Option (List Component)
  | .qualified _ content => some content
  | .atRule _ _ content => content
  | .unfinished _ => none

theorem content?_withBlock (part : RulePart) (content : List Component) :
    (part.withBlock content).content? = some content := by
  cases part <;> rfl

/-- The content of a rule is that of a block among the components. -/
theorem block_of_rulesAfter {passMarks : Bool} {part : RulePart} {row : List Component}
    {rule : Rule} (found : rule ∈ rulesAfter passMarks part row) {content : List Component}
    (isContent : rule.content? = some content) : ∃ offset, .block offset .curly content ∈ row := by
  induction row generalizing part with
  | nil =>
      cases part with
      | between => cases found
      | prelude last before =>
          obtain rfl := List.mem_singleton.1 found
          cases isContent
      | atPrelude keyword before =>
          obtain rfl := List.mem_singleton.1 found
          cases isContent
  | cons component rest ih =>
      unfold rulesAfter at found
      split at found
      · obtain ⟨offset, inRest⟩ := ih found
        exact ⟨offset, List.mem_cons_of_mem _ inRest⟩
      · rename_i other isRule
        rcases List.mem_cons.1 found with rfl | later
        · -- A rule ends with a block, whose content is its own, or before a semicolon without any.
          rcases RulePart.read_eq_inr isRule with ⟨offset, inside, rfl⟩ | ⟨semicolon, keyword, before, rfl⟩
          · rw [RulePart.read_block] at isRule
            rw [← Sum.inr.inj isRule, content?_withBlock] at isContent
            rw [Option.some.inj isContent]
            exact ⟨offset, List.mem_cons_self⟩
          · obtain ⟨offset, rfl⟩ := eq_of_isMark_semicolon semicolon
            cases Sum.inr.inj isRule
            cases isContent
        · obtain ⟨offset, inRest⟩ := ih later
          exact ⟨offset, List.mem_cons_of_mem _ inRest⟩

/-- What holds of a row and of every block in it holds of the block of every declaration. -/
theorem block_of_declarationsIn (property : List Component → Prop)
    (inward : ∀ row, property row → ∀ offset content, .block offset .curly content ∈ row →
      property content)
    {passMarks : Bool} {row : List Component} (holds : property row) {declaration : Declaration}
    (found : declaration ∈ declarationsIn passMarks row) :
    ∃ content, property content ∧ declaration ∈ blockDeclarations content := by
  rw [declarationsIn_eq] at found
  obtain ⟨rule, isRule, inRule⟩ := List.mem_flatMap.1 found
  cases rule with
  | qualified prelude content =>
      obtain ⟨offset, inRow⟩ := block_of_rulesAfter isRule rfl
      exact ⟨content, inward row holds offset content inRow, inRule⟩
  | atRule keyword prelude content =>
      cases content with
      | none => cases inRule
      | some content =>
          obtain ⟨offset, inRow⟩ := block_of_rulesAfter isRule rfl
          have inside := inward row holds offset content inRow
          unfold Rule.declarations at inRule
          dsimp only at inRule
          split at inRule
          · exact block_of_declarationsIn property inward inside inRule
          · exact ⟨content, inside, inRule⟩
  | unfinished offset => cases inRule
termination_by sizeOf row
decreasing_by exact sizeOf_content_of_mem isRule

theorem proper_of_declarationsIn {passMarks : Bool} {row : List Component}
    {declaration : Declaration} (found : declaration ∈ declarationsIn passMarks row) :
    declaration.Proper := by
  obtain ⟨content, -, inBlock⟩ :=
    block_of_declarationsIn (fun _ => True) (fun _ _ _ _ _ => trivial) trivial found
  exact (proper_of_blockDeclarations inBlock).2

end SheetScript.Css
