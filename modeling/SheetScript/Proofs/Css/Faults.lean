import SheetScript.Css.Structure
import SheetScript.Proofs.Css.Added
import SheetScript.Proofs.Css.Slips

/-!
Style sheets without faults. Nothing is wrong with a style sheet exactly if nothing is wrong with its
components and each of its preludes has a block; where the components stand does not matter.
-/

namespace SheetScript.Css

/-! Components -/

theorem listFaults_cons (component : Component) (rest : List Component) :
    listFaults (component :: rest) = componentFaults component ++ listFaults rest := by
  rw [listFaults]

theorem listFaults_eq_nil {row : List Component} :
    listFaults row = [] ↔ ∀ component ∈ row, componentFaults component = [] := by
  induction row with
  | nil => simp [listFaults]
  | cons component rest ih =>
      rw [listFaults_cons, List.append_eq_nil_iff, ih, List.forall_mem_cons]

theorem listFaults_append {front rest : List Component} :
    listFaults (front ++ rest) = [] ↔ listFaults front = [] ∧ listFaults rest = [] := by
  simp only [listFaults_eq_nil, List.forall_mem_append]

theorem listFaults_reverse {row : List Component} :
    listFaults row.reverse = [] ↔ listFaults row = [] := by
  simp only [listFaults_eq_nil, List.mem_reverse]

theorem componentFaults_of_isMark {component : Component} {text : String}
    (mark : component.isMark text = true) : componentFaults component = [] := by
  cases component with
  | leaf => rw [componentFaults]
  | _ => cases mark

mutual

theorem componentFaults_of_isClear (component : Component) (clear : component.isClear = true) :
    componentFaults component = [] := by
  cases component with
  | leaf => rw [componentFaults]
  | fault => cases clear
  | block offset bracket content =>
      rw [componentFaults]
      exact listFaults_of_isClear content clear
  | function offset name arguments =>
      rw [Component.isClear, Bool.and_eq_true] at clear
      rw [componentFaults]
      exact listFaults_of_isClear arguments clear.2

/-- What is read as it was is no fault. -/
theorem listFaults_of_isClear (row : List Component) (clear : rowIsClear row = true) :
    listFaults row = [] := by
  cases row with
  | nil => rw [listFaults]
  | cons component rest =>
      simp only [rowIsClear_cons, Bool.and_eq_true] at clear
      rw [listFaults_cons, componentFaults_of_isClear component clear.1.1,
        listFaults_of_isClear rest clear.2]
      rfl

end

mutual

theorem listFaults_spliced {added : Nat → List Component}
    (faultless : ∀ offset, listFaults (added offset) = []) (component : Component) :
    listFaults (component.spliced added) = [] ↔ componentFaults component = [] := by
  cases component with
  | leaf offset leaf =>
      rw [Component.spliced, listFaults_append]
      split <;> simp [listFaults, componentFaults, faultless offset]
  | fault => simp [Component.spliced, listFaults, componentFaults]
  | block offset bracket content =>
      rw [Component.spliced, listFaults_cons, componentFaults, componentFaults, listFaults,
        List.append_nil, listFaults_splicedList faultless content]
  | function offset name arguments =>
      rw [Component.spliced, listFaults_cons, componentFaults, componentFaults, listFaults,
        List.append_nil, listFaults_splicedList faultless arguments]

/-- Components with others among them are without faults exactly if they were, offsets or not. -/
theorem listFaults_splicedList {added : Nat → List Component}
    (faultless : ∀ offset, listFaults (added offset) = []) (row : List Component) :
    listFaults (splicedList added row) = [] ↔ listFaults row = [] := by
  cases row with
  | nil => rw [splicedList]
  | cons component rest =>
      rw [splicedList, listFaults_append, listFaults_cons, List.append_eq_nil_iff,
        listFaults_spliced faultless component, listFaults_splicedList faultless rest]

end

theorem listFaults_bareList (row : List Component) :
    listFaults (bareList row) = [] ↔ listFaults row = [] :=
  listFaults_splicedList (fun _ => by rw [listFaults]) row

/-! Rules -/

def Rule.isFinished : Rule → Bool
  | .unfinished _ => false
  | _ => true

def RulePart.row : RulePart → List Component
  | .between => []
  | .prelude last before => last :: before
  | .atPrelude _ before => before

variable {passMarks : Bool}

theorem RulePart.faults_of_inl {part next : RulePart} {component : Component}
    (read : part.read passMarks component = .inl next) :
    listFaults next.row = [] ↔ listFaults part.row = [] ∧ componentFaults component = [] := by
  -- A component that is taken is kept in the row, or it is a mark, which has no faults.
  cases part with
  | between =>
      unfold RulePart.read beginRule at read
      dsimp only at read
      split at read
      · obtain rfl := Sum.inl.inj read
        simp [row, componentFaults]
      · obtain rfl := Sum.inl.inj read
        simp [row, componentFaults, listFaults]
      · cases read
      · split at read
        · rename_i passed
          obtain rfl := Sum.inl.inj read
          obtain ⟨-, mark⟩ := Bool.and_eq_true_iff.1 passed
          have isLeaf : componentFaults component = [] :=
            (Bool.or_eq_true_iff.1 mark).elim componentFaults_of_isMark componentFaults_of_isMark
          simp [row, isLeaf]
        · obtain rfl := Sum.inl.inj read
          simp [row, listFaults]
  | prelude last before =>
      unfold RulePart.read at read
      dsimp only at read
      split at read
      · cases read
      · obtain rfl := Sum.inl.inj read
        rw [row, row, listFaults_cons, List.append_eq_nil_iff, and_comm]
  | atPrelude keyword before =>
      unfold RulePart.read at read
      dsimp only at read
      split at read
      · cases read
      · split at read
        · cases read
        · obtain rfl := Sum.inl.inj read
          rw [row, row, listFaults_cons, List.append_eq_nil_iff, and_comm]

theorem RulePart.faults_of_inr {part : RulePart} {component : Component} {rule : Rule}
    (read : part.read passMarks component = .inr rule) : rule.isFinished = true ∧
      (ruleFaults rule = [] ↔ listFaults part.row = [] ∧ componentFaults component = []) := by
  rcases read_eq_inr read with ⟨offset, content, rfl⟩ | ⟨semicolon, keyword, before, rfl⟩
  · rw [read_block] at read
    obtain rfl := Sum.inr.inj read
    cases part with
    | between =>
        rw [withBlock, ruleFaults, List.append_eq_nil_iff, row, componentFaults]
        exact ⟨rfl, Iff.rfl⟩
    | prelude last before =>
        rw [withBlock, ruleFaults, List.append_eq_nil_iff, listFaults_reverse, row, componentFaults]
        exact ⟨rfl, Iff.rfl⟩
    | atPrelude keyword before =>
        rw [withBlock, ruleFaults, List.append_eq_nil_iff, listFaults_reverse, row, componentFaults]
        exact ⟨rfl, Iff.rfl⟩
  · obtain ⟨offset, rfl⟩ := eq_of_isMark_semicolon semicolon
    obtain rfl := Sum.inr.inj read
    simp [Rule.isFinished, ruleFaults, row, listFaults, componentFaults, listFaults_reverse]

/-- Nothing is wrong with rules exactly if nothing is wrong with what they are read from. -/
theorem rulesAfter_faults (part : RulePart) (row : List Component) :
    (rulesAfter passMarks part row).flatMap ruleFaults = [] ↔
      listFaults part.row = [] ∧ listFaults row = [] ∧
        ∀ rule ∈ rulesAfter passMarks part row, rule.isFinished = true := by
  induction row generalizing part with
  | nil =>
      cases part with
      | between => simp [rulesAfter, RulePart.atEnd, RulePart.row, listFaults]
      | prelude => simp [rulesAfter, RulePart.atEnd, ruleFaults, Rule.isFinished]
      | atPrelude =>
          simp [rulesAfter, RulePart.atEnd, ruleFaults, Rule.isFinished, RulePart.row, listFaults,
            listFaults_reverse]
  | cons component rest ih =>
      rw [listFaults_cons, List.append_eq_nil_iff]
      cases read : part.read passMarks component with
      | inl next =>
          have faults := RulePart.faults_of_inl read
          rw [rulesAfter, read]
          dsimp only
          rw [ih, faults, and_assoc, and_assoc]
      | inr rule =>
          obtain ⟨finished, faults⟩ := RulePart.faults_of_inr read
          rw [rulesAfter, read]
          dsimp only
          rw [List.flatMap_cons, List.append_eq_nil_iff, faults, ih, List.forall_mem_cons,
            RulePart.row, listFaults]
          simp only [finished, true_and, and_assoc]

/-- A rule is finished exactly if what it says is. -/
theorem isFinished_iff (contents : Declaration → List Content) {row : List Component} :
    (∀ rule ∈ rulesAfter passMarks .between row, rule.isFinished = true) ↔
      .unfinished ∉ outlineIn contents passMarks row := by
  have each (rule : Rule) : rule.isFinished = true ↔ .unfinished ≠ rule.outline contents := by
    cases rule with
    | qualified prelude content => simp [Rule.isFinished, Rule.outline]
    | atRule keyword prelude content =>
        cases content with
        | none => simp [Rule.isFinished, Rule.outline]
        | some content =>
            rw [Rule.outline]
            split <;> simp [Rule.isFinished]
    | unfinished offset => simp [Rule.isFinished, Rule.outline]
  rw [outlineIn_eq, List.mem_map]
  simp only [each, not_exists, not_and]
  exact ⟨fun all rule isRule same => all rule isRule same.symm,
    fun none rule isRule same => none rule isRule same.symm⟩

/-- A style sheet is sound exactly if its components have no faults and all its rules are finished. -/
theorem sourceFaults_eq_nil {source : List Char} (contents : Declaration → List Content) :
    sourceFaults source = [] ↔ listFaults (components source) = [] ∧
      .unfinished ∉ outlineIn contents true (components source) := by
  unfold sourceFaults sheetRules
  rw [rulesAfter_faults, isFinished_iff contents, RulePart.row, listFaults]
  simp

end SheetScript.Css
