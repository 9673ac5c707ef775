import SheetScript.Css.Squeeze
import SheetScript.Proofs.Css.Faults
import SheetScript.Proofs.Css.Parts

/-!
What is reported of a style sheet: something exactly if one of its components is a fault, however
deep, or one of its preludes has no block, and what stands first in the source comes first.
-/

namespace SheetScript.Css

open SheetScript.Text (Position)

/-! Faults at any depth -/

/-- A component of a row, or one inside a block or a function of the row. -/
inductive Within (component : Component) : List Component → Prop
  | here {row : List Component} (inRow : component ∈ row) : Within component row
  | block {offset : Nat} {bracket : Bracket} {content row : List Component}
      (inRow : .block offset bracket content ∈ row) (inside : Within component content) :
      Within component row
  | function {offset : Nat} {name : List Char} {arguments row : List Component}
      (inRow : .function offset name arguments ∈ row) (inside : Within component arguments) :
      Within component row

theorem Within.cons {component first : Component} {rest : List Component}
    (within : Within component rest) : Within component (first :: rest) := by
  cases within with
  | here inRow => exact .here (List.mem_cons_of_mem _ inRow)
  | block inRow inside => exact .block (List.mem_cons_of_mem _ inRow) inside
  | function inRow inside => exact .function (List.mem_cons_of_mem _ inRow) inside

theorem listFaults_ne_nil_of_mem {component : Component} {row : List Component}
    (inRow : component ∈ row) (faulty : componentFaults component ≠ []) : listFaults row ≠ [] :=
  fun none => faulty (listFaults_eq_nil.1 none component inRow)

theorem listFaults_ne_nil_of_within {offset : Nat} {fault : Fault} {row : List Component}
    (within : Within (.fault offset fault) row) : listFaults row ≠ [] := by
  induction within with
  | here inRow => exact listFaults_ne_nil_of_mem inRow (by simp [componentFaults])
  | block inRow _ ih => exact listFaults_ne_nil_of_mem inRow (by rwa [componentFaults])
  | function inRow _ ih => exact listFaults_ne_nil_of_mem inRow (by rwa [componentFaults])

mutual

theorem within_of_componentFaults (component : Component) {row : List Component}
    (inRow : component ∈ row) (faulty : componentFaults component ≠ []) :
    ∃ offset fault, Within (.fault offset fault) row := by
  cases component with
  | leaf offset leaf =>
      rw [componentFaults] at faulty
      contradiction
  | fault offset fault => exact ⟨offset, fault, .here inRow⟩
  | block offset bracket content =>
      rw [componentFaults] at faulty
      obtain ⟨_, _, inside⟩ := within_of_listFaults content faulty
      exact ⟨_, _, .block inRow inside⟩
  | function offset name arguments =>
      rw [componentFaults] at faulty
      obtain ⟨_, _, inside⟩ := within_of_listFaults arguments faulty
      exact ⟨_, _, .function inRow inside⟩

theorem within_of_listFaults (row : List Component) (faulty : listFaults row ≠ []) :
    ∃ offset fault, Within (.fault offset fault) row := by
  cases row with
  | nil =>
      rw [listFaults] at faulty
      contradiction
  | cons first rest =>
      rw [listFaults_cons] at faulty
      by_cases clean : componentFaults first = []
      · rw [clean, List.nil_append] at faulty
        obtain ⟨_, _, within⟩ := within_of_listFaults rest faulty
        exact ⟨_, _, within.cons⟩
      · exact within_of_componentFaults first List.mem_cons_self clean

end

/-- No fault is found in components exactly if none of them is one, however deep it is. -/
theorem listFaults_eq_nil_iff_within {row : List Component} :
    listFaults row = [] ↔ ∀ offset fault, ¬ Within (.fault offset fault) row := by
  constructor
  · intro none offset fault within
    exact listFaults_ne_nil_of_within within none
  · intro none
    by_contra faulty
    obtain ⟨offset, fault, within⟩ := within_of_listFaults row faulty
    exact none offset fault within

/-! Rules with their blocks -/

def Component.isBetweenRules (component : Component) : Bool :=
  component.isBlank || component.isMark "<!--" || component.isMark "-->"

def Component.isAtKeyword : Component → Bool
  | .leaf _ (.atKeyword _) => true
  | _ => false

def Component.endsAtRule (component : Component) : Bool :=
  ValueRead.isCurly component || component.isMark ";"

/--
The components of a style sheet, read as rules, where each qualified rule has its block. A rule that
begins with an at-keyword may have one, or end before a semicolon or with the style sheet.
-/
inductive WholeRules : List Component → Prop
  | nil : WholeRules []
  | between {first : Component} {rest : List Component} (between : first.isBetweenRules = true)
      (whole : WholeRules rest) : WholeRules (first :: rest)
  | qualified {prelude : List Component} {block : Component} {rest : List Component}
      (begins : ∀ first ∈ prelude.head?, (first.isBetweenRules || first.isAtKeyword) = false)
      (noBlock : ∀ component ∈ prelude, ValueRead.isCurly component = false)
      (isBlock : ValueRead.isCurly block = true) (whole : WholeRules rest) :
      WholeRules (prelude ++ block :: rest)
  | atRule {keyword : Component} {prelude : List Component} {last : Component}
      {rest : List Component} (begins : keyword.isAtKeyword = true)
      (goesOn : ∀ component ∈ prelude, component.endsAtRule = false)
      (ends : last.endsAtRule = true) (whole : WholeRules rest) :
      WholeRules (keyword :: prelude ++ last :: rest)
  | lastAtRule {keyword : Component} {prelude : List Component}
      (begins : keyword.isAtKeyword = true)
      (goesOn : ∀ component ∈ prelude, component.endsAtRule = false) :
      WholeRules (keyword :: prelude)

theorem eq_of_isCurly {component : Component} (curly : ValueRead.isCurly component = true) :
    ∃ offset content, component = .block offset .curly content := by
  cases component with
  | block offset bracket content =>
      cases bracket with
      | curly => exact ⟨offset, content, rfl⟩
      | _ => cases curly
  | _ => cases curly

theorem eq_of_isAtKeyword {component : Component} (isKeyword : component.isAtKeyword = true) :
    ∃ offset keyword, component = .leaf offset (.atKeyword keyword) := by
  cases component with
  | leaf offset leaf =>
      cases leaf with
      | atKeyword keyword => exact ⟨offset, keyword, rfl⟩
      | _ => cases isKeyword
  | _ => cases isKeyword

/-! The next part -/

theorem read_between {component : Component} (between : component.isBetweenRules = true) :
    RulePart.between.read true component = .inl .between := by
  cases component with
  | leaf offset leaf =>
      cases leaf with
      | mark text => exact if_pos between
      | blank text => rfl
      | _ => cases between
  | _ => cases between

theorem read_atKeyword {component : Component} (isKeyword : component.isAtKeyword = true) :
    ∃ keyword, RulePart.between.read true component = .inl (.atPrelude keyword []) := by
  obtain ⟨offset, keyword, rfl⟩ := eq_of_isAtKeyword isKeyword
  exact ⟨keyword, rfl⟩

theorem read_first {component : Component}
    (begins : (component.isBetweenRules || component.isAtKeyword) = false)
    (noBlock : ValueRead.isCurly component = false) :
    RulePart.between.read true component = .inl (.prelude component []) := by
  cases component with
  | leaf offset leaf =>
      cases leaf with
      | mark text =>
          have notPassed : (Component.leaf offset (.mark text)).isBetweenRules = false :=
            (Bool.or_eq_false_iff.1 begins).1
          exact if_neg (by simpa [Component.isBetweenRules, Component.isBlank] using notPassed)
      | blank text => cases begins
      | atKeyword keyword => cases begins
      | _ => rfl
  | block offset bracket content =>
      cases bracket with
      | curly => cases noBlock
      | _ => rfl
  | _ => rfl

theorem read_prelude {last component : Component} {before : List Component}
    (noBlock : ValueRead.isCurly component = false) :
    (RulePart.prelude last before).read true component =
      .inl (.prelude component (last :: before)) := by
  cases component with
  | block offset bracket content =>
      cases bracket with
      | curly => cases noBlock
      | _ => rfl
  | _ => rfl

theorem read_atPrelude {keyword : List Char} {component : Component} {before : List Component}
    (goesOn : component.endsAtRule = false) :
    (RulePart.atPrelude keyword before).read true component =
      .inl (.atPrelude keyword (component :: before)) := by
  obtain ⟨noBlock, noMark⟩ := Bool.or_eq_false_iff.1 goesOn
  cases component with
  | block offset bracket content =>
      cases bracket with
      | curly => cases noBlock
      | _ => rfl
  | leaf offset leaf => exact if_neg (by simp [noMark])
  | _ => rfl

def AllFinished (part : RulePart) (row : List Component) : Prop :=
  ∀ rule ∈ rulesAfter true part row, rule.isFinished = true

theorem allFinished_inl {part next : RulePart} {component : Component} {rest : List Component}
    (read : part.read true component = .inl next) :
    AllFinished part (component :: rest) ↔ AllFinished next rest := by
  unfold AllFinished
  rw [rulesAfter, read]

theorem allFinished_inr {part : RulePart} {component : Component} {rest : List Component}
    {rule : Rule} (read : part.read true component = .inr rule) :
    AllFinished part (component :: rest) ↔ AllFinished .between rest := by
  unfold AllFinished
  rw [rulesAfter, read]
  simp only [List.forall_mem_cons, (RulePart.faults_of_inr read).1, true_and]

theorem allFinished_block {block : Component} (isBlock : ValueRead.isCurly block = true)
    (part : RulePart) (rest : List Component) :
    AllFinished part (block :: rest) ↔ AllFinished .between rest := by
  obtain ⟨offset, content, rfl⟩ := eq_of_isCurly isBlock
  exact allFinished_inr (RulePart.read_block true part offset content)

theorem allFinished_atRuleEnd {last : Component} (ends : last.endsAtRule = true)
    (keyword : List Char) (before rest : List Component) :
    AllFinished (.atPrelude keyword before) (last :: rest) ↔ AllFinished .between rest := by
  by_cases isBlock : ValueRead.isCurly last = true
  · exact allFinished_block isBlock _ rest
  · have semicolon := (Bool.or_eq_true_iff.1 ends).resolve_left isBlock
    obtain ⟨offset, rfl⟩ := eq_of_isMark_semicolon semicolon
    have read : (RulePart.atPrelude keyword before).read true (.leaf offset (.mark [';'])) =
        .inr (.atRule keyword before.reverse none) := rfl
    exact allFinished_inr read

/-! Rules are finished exactly if they have their blocks -/

theorem allFinished_prelude {prelude : List Component} {block : Component} {rest : List Component}
    (noBlock : ∀ component ∈ prelude, ValueRead.isCurly component = false)
    (isBlock : ValueRead.isCurly block = true) (finished : AllFinished .between rest)
    (last : Component) (before : List Component) :
    AllFinished (.prelude last before) (prelude ++ block :: rest) := by
  induction prelude generalizing last before with
  | nil => exact (allFinished_block isBlock _ rest).2 finished
  | cons component prelude ih =>
      obtain ⟨notHere, later⟩ := List.forall_mem_cons.1 noBlock
      exact (allFinished_inl (read_prelude notHere)).2 (ih later component (last :: before))

theorem allFinished_atPrelude {prelude rest : List Component}
    (goesOn : ∀ component ∈ prelude, component.endsAtRule = false) (keyword : List Char)
    (finished : ∀ before, AllFinished (.atPrelude keyword before) rest)
    (before : List Component) :
    AllFinished (.atPrelude keyword before) (prelude ++ rest) := by
  induction prelude generalizing before with
  | nil => exact finished before
  | cons component prelude ih =>
      obtain ⟨notHere, later⟩ := List.forall_mem_cons.1 goesOn
      exact (allFinished_inl (read_atPrelude notHere)).2 (ih later (component :: before))

theorem allFinished_of_wholeRules {row : List Component} (whole : WholeRules row) :
    AllFinished .between row := by
  induction whole with
  | nil => simp [AllFinished, rulesAfter, RulePart.atEnd]
  | between between _ ih => exact (allFinished_inl (read_between between)).2 ih
  | @qualified prelude block rest begins noBlock isBlock _ ih =>
      cases prelude with
      | nil => exact (allFinished_block isBlock _ rest).2 ih
      | cons first prelude =>
          obtain ⟨notHere, later⟩ := List.forall_mem_cons.1 noBlock
          have read := read_first (begins first rfl) notHere
          exact (allFinished_inl read).2 (allFinished_prelude later isBlock ih first [])
  | @atRule keyword prelude last rest begins goesOn ends _ ih =>
      obtain ⟨name, read⟩ := read_atKeyword begins
      refine (allFinished_inl read).2 (allFinished_atPrelude goesOn name ?_ [])
      exact fun before => (allFinished_atRuleEnd ends name before rest).2 ih
  | @lastAtRule keyword prelude begins goesOn =>
      obtain ⟨name, read⟩ := read_atKeyword begins
      have atEnd (before : List Component) : AllFinished (.atPrelude name before) [] := by
        simp [AllFinished, rulesAfter, RulePart.atEnd, Rule.isFinished]
      have finished := allFinished_atPrelude goesOn name atEnd []
      rw [List.append_nil] at finished
      exact (allFinished_inl read).2 finished

/-- What has to follow a part for its rule to have its block, and the rules after it theirs. -/
def RulePart.WholeBehind (part : RulePart) (row : List Component) : Prop :=
  match part with
  | .between => WholeRules row
  | .prelude _ _ => ∃ prelude block rest, row = prelude ++ block :: rest ∧
      (∀ component ∈ prelude, ValueRead.isCurly component = false) ∧
      ValueRead.isCurly block = true ∧ WholeRules rest
  | .atPrelude _ _ => (∀ component ∈ row, component.endsAtRule = false) ∨
      ∃ prelude last rest, row = prelude ++ last :: rest ∧
        (∀ component ∈ prelude, component.endsAtRule = false) ∧
        last.endsAtRule = true ∧ WholeRules rest

theorem wholeBehind_of_allFinished {part : RulePart} {row : List Component}
    (finished : AllFinished part row) : part.WholeBehind row := by
  -- By what the reader does with the next component; a row that ends in a prelude is not finished.
  induction row generalizing part with
  | nil =>
      cases part with
      | between => exact .nil
      | prelude last before =>
          simp [AllFinished, rulesAfter, RulePart.atEnd, Rule.isFinished] at finished
      | atPrelude keyword before => exact .inl (List.forall_mem_nil _)
  | cons component rest ih =>
      cases part with
      | between =>
          by_cases isBlock : ValueRead.isCurly component = true
          · have whole := ih ((allFinished_block isBlock _ rest).1 finished)
            have noPrelude : ∀ first ∈ ([] : List Component).head?,
                (first.isBetweenRules || first.isAtKeyword) = false := by
              rintro first ⟨⟩
            exact .qualified noPrelude (List.forall_mem_nil _) isBlock whole
          by_cases between : component.isBetweenRules = true
          · exact .between between (ih ((allFinished_inl (read_between between)).1 finished))
          by_cases isKeyword : component.isAtKeyword = true
          · obtain ⟨name, read⟩ := read_atKeyword isKeyword
            rcases ih ((allFinished_inl read).1 finished) with
              goesOn | ⟨prelude, last, behind, rfl, goesOn, ends, whole⟩
            · exact .lastAtRule isKeyword goesOn
            · exact .atRule isKeyword goesOn ends whole
          · have noBlock := Bool.eq_false_iff.2 isBlock
            have begins : (component.isBetweenRules || component.isAtKeyword) = false := by
              simp [between, isKeyword]
            obtain ⟨prelude, block, behind, rfl, noLater, isLater, whole⟩ :=
              ih ((allFinished_inl (read_first begins noBlock)).1 finished)
            have begun : ∀ first ∈ (component :: prelude).head?,
                (first.isBetweenRules || first.isAtKeyword) = false := by
              rintro first ⟨⟩
              exact begins
            exact .qualified begun (List.forall_mem_cons.2 ⟨noBlock, noLater⟩) isLater whole
      | prelude last before =>
          by_cases isBlock : ValueRead.isCurly component = true
          · have whole := ih ((allFinished_block isBlock _ rest).1 finished)
            exact ⟨[], component, rest, rfl, List.forall_mem_nil _, isBlock, whole⟩
          · have noBlock := Bool.eq_false_iff.2 isBlock
            obtain ⟨prelude, block, behind, rfl, noLater, isLater, whole⟩ :=
              ih ((allFinished_inl (read_prelude noBlock)).1 finished)
            exact ⟨component :: prelude, block, behind, rfl,
              List.forall_mem_cons.2 ⟨noBlock, noLater⟩, isLater, whole⟩
      | atPrelude keyword before =>
          by_cases ends : component.endsAtRule = true
          · have whole := ih ((allFinished_atRuleEnd ends keyword before rest).1 finished)
            exact .inr ⟨[], component, rest, rfl, List.forall_mem_nil _, ends, whole⟩
          · have notHere := Bool.eq_false_iff.2 ends
            rcases ih ((allFinished_inl (read_atPrelude notHere)).1 finished) with
              goesOn | ⟨prelude, last, behind, rfl, goesOn, isEnd, whole⟩
            · exact .inl (List.forall_mem_cons.2 ⟨notHere, goesOn⟩)
            · exact .inr ⟨component :: prelude, last, behind, rfl,
                List.forall_mem_cons.2 ⟨notHere, goesOn⟩, isEnd, whole⟩

/-- Components of a style sheet, none of which is a fault and whose rules have their blocks. -/
structure WellFormed (row : List Component) : Prop where
  faultless : ∀ offset fault, ¬ Within (.fault offset fault) row
  whole : WholeRules row

theorem sourceFaults_eq_nil_iff_wellFormed (source : List Char) :
    sourceFaults source = [] ↔ WellFormed (components source) := by
  unfold sourceFaults sheetRules
  rw [rulesAfter_faults]
  constructor
  · rintro ⟨-, none, finished⟩
    have whole : RulePart.between.WholeBehind (components source) :=
      wholeBehind_of_allFinished finished
    exact ⟨listFaults_eq_nil_iff_within.1 none, whole⟩
  · intro formed
    exact ⟨by rw [RulePart.row, listFaults], listFaults_eq_nil_iff_within.2 formed.faultless,
      allFinished_of_wholeRules formed.whole⟩

/-! The order of the faults -/

structure InOrder (nest : Nest) : Prop where
  rise : nest.starts.Pairwise fun left right => left.offset ≤ right.offset
  before : ∀ start ∈ nest.starts, start.offset ≤ nest.offset

theorem InOrder.read {nest : Nest} (inOrder : InOrder nest) (next : Scanned) :
    InOrder (nest.read next) := by
  obtain ⟨added, eq, -, isAdded⟩ := nest.begins_readToken next.token
  have starts : (nest.read next).starts = nest.starts ++ added := eq
  have offset : (nest.read next).offset = nest.offset + next.text.length := rfl
  constructor
  · rw [starts]
    refine List.pairwise_append.2 ⟨inOrder.rise, List.pairwise_of_forall_mem_list ?_, ?_⟩
    · intro left inLeft right inRight
      rw [(isAdded left inLeft).1, (isAdded right inRight).1]
    · intro old inOld new inNew
      rw [(isAdded new inNew).1]
      exact inOrder.before old inOld
  · intro start inside
    rw [starts] at inside
    rcases List.mem_append.1 inside with old | new
    · have := inOrder.before start old
      omega
    · have := (isAdded start new).1
      omega

theorem InOrder.foldl {nest : Nest} (inOrder : InOrder nest) (scanned : List Scanned) :
    InOrder (scanned.foldl Nest.read nest) := by
  induction scanned generalizing nest with
  | nil => exact inOrder
  | cons next later ih => exact ih (inOrder.read next)

theorem starts_rise (source : List Char) :
    (rowStarts (components source)).Pairwise fun left right => left.offset ≤ right.offset := by
  have nothing : InOrder .start := ⟨.nil, nofun⟩
  rw [starts_components]
  exact (nothing.foldl (tokens source)).rise

def faultOffsets (faults : List PlacedFault) : List Nat :=
  faults.map PlacedFault.offset

mutual

theorem faultOffsets_componentFaults (component : Component) :
    (faultOffsets (componentFaults component)).Sublist (component.starts.map Start.offset) := by
  cases component with
  | leaf offset leaf =>
      rw [componentFaults]
      exact List.nil_sublist _
  | fault offset fault =>
      rw [componentFaults, Component.starts]
      exact List.Sublist.refl _
  | block offset bracket content =>
      rw [componentFaults, Component.starts]
      exact (faultOffsets_listFaults content).cons _
  | function offset name arguments =>
      rw [componentFaults, Component.starts]
      exact (faultOffsets_listFaults arguments).cons _

theorem faultOffsets_listFaults (row : List Component) :
    (faultOffsets (listFaults row)).Sublist ((rowStarts row).map Start.offset) := by
  cases row with
  | nil =>
      rw [listFaults]
      exact List.nil_sublist _
  | cons component rest =>
      rw [listFaults_cons, rowStarts, faultOffsets, List.map_append, List.map_append]
      exact (faultOffsets_componentFaults component).append (faultOffsets_listFaults rest)

end

theorem faultOffsets_ruleFaults {rule : Rule} (finished : rule.isFinished = true) :
    (faultOffsets (ruleFaults rule)).Sublist (rule.starts.map Start.offset) := by
  cases rule with
  | qualified prelude content =>
      rw [ruleFaults, Rule.starts, faultOffsets, List.map_append, List.map_append]
      exact (faultOffsets_listFaults prelude).append (faultOffsets_listFaults content)
  | atRule keyword prelude content =>
      rw [ruleFaults, Rule.starts, faultOffsets, List.map_append, List.map_append]
      exact (faultOffsets_listFaults prelude).append (faultOffsets_listFaults _)
  | unfinished offset => cases finished

theorem offset_mem_starts (component : Component) :
    component.offset ∈ component.starts.map Start.offset := by
  cases component <;> simp [Component.starts, Component.offset]

/-- At the end a prelude without a block is placed at its last component. -/
theorem faultOffsets_atEnd (part : RulePart) :
    (faultOffsets (part.atEnd.flatMap ruleFaults)).Sublist (part.starts.map Start.offset) := by
  cases part with
  | between => exact List.nil_sublist _
  | prelude last before =>
      rw [RulePart.starts, rowStarts_reverse_cons, List.map_append]
      exact (List.singleton_sublist.2 (offset_mem_starts last)).trans
        (List.sublist_append_right _ _)
  | atPrelude keyword before =>
      rw [RulePart.atEnd, List.flatMap_singleton, RulePart.starts]
      have finished : (Rule.atRule keyword before.reverse none).isFinished = true := rfl
      have offsets := faultOffsets_ruleFaults finished
      simpa [Rule.starts, rowStarts] using offsets

theorem faultOffsets_rulesAfter (part : RulePart) (row : List Component) :
    (faultOffsets ((rulesAfter true part row).flatMap ruleFaults)).Sublist
      ((part.starts ++ rowStarts row).map Start.offset) := by
  induction row generalizing part with
  | nil =>
      rw [rulesAfter, rowStarts, List.append_nil]
      exact faultOffsets_atEnd part
  | cons component rest ih =>
      obtain ⟨ofNext, ofRule⟩ := starts_readRule true part component
      rw [rowStarts, ← List.append_assoc, List.map_append]
      cases read : part.read true component with
      | inl next =>
          rw [rulesAfter, read]
          refine (ih next).trans ?_
          rw [List.map_append]
          exact ((ofNext next read).map _).append (List.Sublist.refl _)
      | inr rule =>
          rw [rulesAfter, read, List.flatMap_cons, faultOffsets, List.map_append]
          have finished := (RulePart.faults_of_inr read).1
          exact ((faultOffsets_ruleFaults finished).trans ((ofRule rule read).map _)).append
            (ih .between)

theorem offsets_sourceFaults_rise (source : List Char) :
    (faultOffsets (sourceFaults source)).Pairwise (· ≤ ·) :=
  (List.pairwise_map.2 (starts_rise source)).sublist
    (faultOffsets_rulesAfter .between (components source))

/-! Lines and columns -/

def AtMost (first second : Position) : Prop :=
  first.line < second.line ∨ first.line = second.line ∧ first.column ≤ second.column

theorem atMost_advance (position : Position) (text : List Char) :
    AtMost position (position.advance text) := by
  induction text generalizing position with
  | nil => exact .inr ⟨rfl, Nat.le_refl _⟩
  | cons c rest ih =>
      rw [Position.advance_cons]
      split
      · have behind := ih ⟨position.line + 1, 1⟩
        unfold AtMost at behind ⊢
        dsimp only at behind
        omega
      · have behind := ih ⟨position.line, position.column + 1⟩
        unfold AtMost at behind ⊢
        dsimp only at behind
        omega

def PlacedFault.position (source : List Char) (placed : PlacedFault) : Position :=
  Position.start.advance (source.take placed.offset)

theorem atMost_of_offset_le {source : List Char} {first second : PlacedFault}
    (le : first.offset ≤ second.offset) :
    AtMost (first.position source) (second.position source) := by
  obtain ⟨between, further⟩ := List.take_prefix_take_left (l := source) le
  unfold PlacedFault.position
  rw [← further, Position.advance_append]
  exact atMost_advance _ between

/--
Nothing is reported of a style sheet exactly if no component of it is a fault, at any depth, and
each of its qualified rules has its block. Otherwise the faults are reported with their lines and
columns, in the order of these, and no styles come with them.
-/
theorem structure_reported (css : String) :
    (checkStructure css = [] ↔ WellFormed (components (normalise css.toList))) ∧
    (checkStructure css = (sourceFaults (normalise css.toList)).map fun placed =>
        let position := placed.position (normalise css.toList)
        s!"line {position.line}, column {position.column}: {placed.fault.message}") ∧
    ((sourceFaults (normalise css.toList)).map
      (·.position (normalise css.toList))).Pairwise AtMost ∧
    (WellFormed (components (normalise css.toList)) → (minify css).errors = []) ∧
    (¬ WellFormed (components (normalise css.toList)) →
      minify css = ⟨"", checkStructure css⟩ ∧ checkStructure css ≠ []) := by
  have sound : checkStructure css = [] ↔ WellFormed (components (normalise css.toList)) := by
    rw [← sourceFaults_eq_nil_iff_wellFormed]
    exact List.map_eq_nil_iff
  have inOrder := List.pairwise_map.1 (offsets_sourceFaults_rise (normalise css.toList))
  refine ⟨sound, rfl, List.pairwise_map.2 (inOrder.imp atMost_of_offset_le), ?_, ?_⟩
  · intro formed
    rw [minify, sound.2 formed]
  · intro broken
    have reported : checkStructure css ≠ [] := fun none => broken (sound.1 none)
    refine ⟨?_, reported⟩
    unfold minify
    split
    · rename_i none
      exact absurd none reported
    · rfl

end SheetScript.Css
