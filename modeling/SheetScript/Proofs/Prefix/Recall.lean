import Mathlib.Data.List.Basic
import SheetScript.Prefix.Recall
import SheetScript.Proofs.Preserves

/-!
Kept targets change nothing. Whatever was prefixed before, what is kept are the targets that the
tables have, and so a style sheet is prefixed as if nothing had been kept.
-/

namespace SheetScript.Prefix

open SheetScript.Css SheetScript.Text

namespace Tables

variable {tables : Tables} {α β : Type}

def Fits (tables : Tables) (kept : Kept) : Prop :=
  ∀ targets, kept = some targets → tables.targets = .ok targets

theorem fits_none (tables : Tables) : tables.Fits none :=
  fun _ isKept => nomatch isKept

/-- With whatever fits, a computation has an answer of its own, and leaves what fits. -/
def Agrees (tables : Tables) (action : Recall α) (answer : Except TargetFault α) : Prop :=
  Follows (fun (_ : Unit) kept => kept) tables.Fits action (ofExcept answer)

theorem agrees_pure (value : α) : tables.Agrees (pure value) (pure value) :=
  follows_pure value

theorem agrees_ofExcept (answer : Except TargetFault α) :
    tables.Agrees (ofExcept answer) answer := by
  intro _ kept fits
  refine ⟨kept, fits, ?_⟩
  cases answer <;> rfl

theorem Agrees.bind {action : Recall α} {answer : Except TargetFault α} {rest : α → Recall β}
    {restAnswer : α → Except TargetFault β} (first : tables.Agrees action answer)
    (next : ∀ value, tables.Agrees (rest value) (restAnswer value)) :
    tables.Agrees (action >>= rest) (answer >>= restAnswer) := by
  have whole := Follows.bind first next
  cases answer <;> exact whole

theorem agrees_filterMapM {action : α → Recall (Option β)}
    {answer : α → Except TargetFault (Option β)}
    (each : ∀ item, tables.Agrees (action item) (answer item)) (items : List α) :
    tables.Agrees (items.filterMapM action) (items.filterMapM answer) := by
  induction items with
  | nil =>
      simp only [List.filterMapM_nil]
      exact agrees_pure []
  | cons item items ih =>
      simp only [List.filterMapM_cons]
      refine (each item).bind fun found => ?_
      cases found with
      | none => exact ih
      | some value => exact ih.bind fun values => agrees_pure (value :: values)

/-! One declaration -/

theorem recallTargets_agrees (tables : Tables) :
    tables.Agrees tables.recallTargets tables.targets := by
  intro _ kept fits
  cases kept with
  | some targets => exact ⟨some targets, fits, by rw [fits targets rfl]; rfl⟩
  | none =>
      cases found : tables.targets with
      | error fault =>
          refine ⟨none, fits_none tables, ?_⟩
          simp only [recallTargets, bind_of_get, found]
          rfl
      | ok targets =>
          refine ⟨some targets, ?_, ?_⟩
          · rintro _ ⟨⟩
            exact found
          · simp only [recallTargets, bind_of_get, found]
            rfl

/-- The targets count only for a property that depends on them. -/
theorem vendorPrefixes_consulted (tables : Tables) (property : String) : tables.vendorPrefixes property =
    if tables.consults property then
      tables.targets >>= fun targets =>
        { tables with targets := .ok targets }.vendorPrefixes property
    else { tables with targets := .ok [] }.vendorPrefixes property := by
  obtain ⟨dataset, targets⟩ := tables
  simp only [vendorPrefixes, consults]
  generalize (if commonProperties.contains property then features.get? property else none) = feature?
  cases dataset with
  | none => rfl
  | some dataset =>
      cases feature? with
      | none => rfl
      | some feature =>
          cases found : dataset.support feature with
          | error fault => simp [found, Except.toOption, Except.mapError, bind, Except.bind]
          | ok support =>
              cases absent : isAbsent support with
              | true => simp [found, Except.toOption, Except.mapError, absent, bind, Except.bind]
              | false =>
                  cases targets <;>
                    simp [found, Except.toOption, Except.mapError, absent, bind, Except.bind]

theorem insertion?_consulted (tables : Tables) (source : List Char) (declaration : Declaration) :
    insertion? tables source declaration =
      if tables.consults (asciiLowercase (String.ofList declaration.name)) then
        tables.targets >>= fun targets =>
          insertion? { tables with targets := .ok targets } source declaration
      else insertion? { tables with targets := .ok [] } source declaration := by
  unfold insertion? prefixed prefixedDeclarations
  rw [vendorPrefixes_consulted]
  split
  · simp only [bind_assoc]
  · rfl

theorem recallInsertion?_agrees (tables : Tables) (source : List Char) (declaration : Declaration) :
    tables.Agrees (tables.recallInsertion? source declaration)
      (insertion? tables source declaration) := by
  rw [insertion?_consulted]
  unfold recallInsertion?
  split
  · exact (recallTargets_agrees tables).bind fun targets => agrees_ofExcept _
  · exact agrees_ofExcept _

/-! Style sheets -/

theorem recallApply_agrees (tables : Tables) (css : String) :
    tables.Agrees (tables.recallApply css) (tables.apply css) := by
  cases found : tables.dataset with
  | none =>
      simp only [recallApply, Tables.apply, found]
      exact agrees_pure css
  | some dataset =>
      simp only [recallApply, Tables.apply, found]
      have all := agrees_filterMapM (recallInsertion?_agrees tables (normalise css.toList))
        (sheetDeclarations (components (normalise css.toList)))
      have joined := all.bind fun added =>
        agrees_pure (String.ofList (insertAll (normalise css.toList) added))
      rw [bind_pure_comp] at joined
      exact joined

end Tables

def Strategy.Fits : Strategy → Kept → Prop
  | .tables own, kept => own.Fits kept
  | .external _, _ | .other .., _ => True

theorem Strategy.fits_none (strategy : Strategy) : strategy.Fits none := by
  cases strategy with
  | tables own => exact own.fits_none
  | external | other => trivial

theorem Strategy.recall_eq {strategy : Strategy} {kept : Kept} (fits : strategy.Fits kept)
    (runner : Runner) (css source target : String) :
    ∃ later, strategy.Fits later ∧ strategy.recall runner css source target kept =
      (strategy.apply runner css source target, later) := by
  cases strategy with
  | external | other => exact ⟨kept, fits, rfl⟩
  | tables own =>
      obtain ⟨later, laterFits, ran⟩ := own.recallApply_agrees css () kept fits
      refine ⟨later, laterFits, ?_⟩
      simp only [Strategy.recall, Strategy.apply, ran]
      cases own.apply css <;> rfl

/-- An engine that keeps targets prefixes as one that does not. -/
theorem Engine.recall_eq {engine : Engine} {kept : Kept} (fits : engine.strategy.Fits kept)
    (runner : Runner) (css source target : String) :
    ∃ later, engine.strategy.Fits later ∧ engine.recall runner css source target kept =
      (engine.apply runner css source target, later) := by
  unfold Engine.recall
  cases enabled : engine.config.enabled with
  | false => exact ⟨kept, fits, rfl⟩
  | true =>
      obtain ⟨later, laterFits, ran⟩ := Strategy.recall_eq fits runner css source target
      refine ⟨later, laterFits, ?_⟩
      simp only [ran, if_true]
      rfl

end SheetScript.Prefix
