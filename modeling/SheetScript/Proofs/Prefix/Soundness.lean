import SheetScript.Proofs.Css.Faults
import SheetScript.Proofs.Prefix.Reading

/-!
Prefixing leaves a sound style sheet sound, where the values of the declarations that need prefixes
are read from their texts as they were.
-/

namespace SheetScript.Prefix

open SheetScript.Css SheetScript.Text

variable {source : List Char} {tables : Tables}

theorem listFaults_entryComponents (gap : List Char) {important : Bool} {entry : Entry}
    (writable : Writable important entry.name entry.value) :
    listFaults (entryComponents gap important entry) = [] := by
  rw [entryComponents, listFaults_append]
  exact ⟨listFaults_of_isClear _ (fits_declarationRow writable).clear,
    by simp [listFaults, componentFaults, blankOf]⟩

theorem ClearSource.listFaults_componentsAt (isClear : ClearSource source tables) (offset : Nat) :
    listFaults (componentsAt source tables offset) = [] := by
  unfold componentsAt
  cases found : declarationAt source offset with
  | none => rw [Option.elim_none, listFaults]
  | some declaration =>
      rw [Option.elim_some, listFaults_eq_nil]
      intro component inside
      obtain ⟨entry, isEntry, inEntry⟩ := List.mem_flatMap.1 inside
      have writable := isClear.writable (declarationAt_eq_some found).1 entry isEntry
      exact listFaults_eq_nil.1 (listFaults_entryComponents _ writable) component inEntry

/-- No fault is put into a source, and none is made or lost by what is put in. -/
theorem ClearSource.sourceFaults_insertAll (isClear : ClearSource source tables) :
    sourceFaults (normalise (insertAll source (insertionsFor tables source))) = [] ↔
      sourceFaults source = [] := by
  rw [sourceFaults_eq_nil sayAlone, ← outline, isClear.outline_insertAll,
    sourceFaults_eq_nil (prefixedContents tables), ← listFaults_bareList (components (normalise _)),
    isClear.components_insertAll, listFaults_splicedList isClear.listFaults_componentsAt]

theorem checkStructure_eq_nil {css : String} :
    checkStructure css = [] ↔ sourceFaults (normalise css.toList) = [] :=
  List.map_eq_nil_iff

/-- What tables make of a style sheet is the sheet with what its declarations need put in. -/
theorem insertAll_of_apply {dataset : Dataset} {targets : Except TargetFault (List Target)}
    {css output : String} (applied : Tables.apply ⟨some dataset, targets⟩ css = .ok output) :
    output.toList = insertAll (normalise css.toList)
      (insertionsFor ⟨some dataset, targets⟩ (normalise css.toList)) := by
  have applied : (insertions ⟨some dataset, targets⟩ (normalise css.toList)).map
      (fun added => String.ofList (insertAll (normalise css.toList) added)) = .ok output := applied
  cases ran : insertions ⟨some dataset, targets⟩ (normalise css.toList) with
  | error fault =>
      rw [ran] at applied
      cases applied
  | ok added =>
      have same : insertionsFor ⟨some dataset, targets⟩ (normalise css.toList) = added := by
        refine Except.ok.inj ((insertions_eq fun declaration inSheet => ?_).symm.trans ran)
        obtain ⟨found, answer⟩ := answers_of_filterMapM ran declaration inSheet
        exact prefixed_of_insertion? answer
      rw [ran] at applied
      rw [← Except.ok.inj applied, String.toList_ofList, same]

/-- A style sheet whose values are clear is sound after prefixing exactly if it was before. -/
theorem checkStructure_of_apply {css output : String} (applied : tables.apply css = .ok output)
    (isClear : ClearSource (normalise css.toList) tables) :
    checkStructure output = [] ↔ checkStructure css = [] := by
  obtain ⟨dataset, targets⟩ := tables
  cases dataset with
  | none =>
      obtain rfl := Except.ok.inj applied
      rfl
  | some dataset =>
      rw [checkStructure_eq_nil, checkStructure_eq_nil, insertAll_of_apply applied]
      exact isClear.sourceFaults_insertAll

end SheetScript.Prefix
