import Mathlib.Tactic.Choose
import SheetScript.Prefix.Vendor
import SheetScript.Proofs.Answers

/-!
Prefixes from data in the documented layout: with targets at hand, no declaration is without an
answer.
-/

namespace SheetScript.Prefix

open SheetScript.Number

/-! Rows of checks -/

section

variable {ε α β : Type} {f : α → Except ε (Option β)}

theorem filterMapM_cons (f : α → Except ε (Option β)) (first : α) (rest : List α) :
    (first :: rest).filterMapM f = (do
      let found ← f first
      let more ← rest.filterMapM f
      return found.toList ++ more) := by
  rw [List.filterMapM_cons]
  refine bind_congr fun found => ?_
  cases found with
  | none => simp
  | some value => simp

theorem filterMapM_eq_ok {row : List α} (found : α → Option β)
    (answers : ∀ x ∈ row, f x = .ok (found x)) : row.filterMapM f = .ok (row.filterMap found) := by
  induction row with
  | nil => rfl
  | cons first rest ih =>
      rw [filterMapM_cons, answers first List.mem_cons_self,
        ih fun x inside => answers x (List.mem_cons_of_mem _ inside), List.filterMap_cons]
      cases found first <;> rfl

theorem answers_of_filterMapM {row : List α} {result : List β}
    (ran : row.filterMapM f = .ok result) : ∀ x ∈ row, ∃ found, f x = .ok found := by
  induction row generalizing result with
  | nil =>
      intro x inside
      cases inside
  | cons first rest ih =>
      rw [filterMapM_cons] at ran
      cases atFirst : f first with
      | error fault =>
          rw [atFirst] at ran
          cases ran
      | ok found =>
          cases behind : rest.filterMapM f with
          | error fault =>
              rw [atFirst, behind] at ran
              cases ran
          | ok more =>
              intro x inside
              rcases List.mem_cons.1 inside with rfl | later
              · exact ⟨found, atFirst⟩
              · exact ih behind x later

end

/-! Data in the documented layout -/

def EachField (property : Json → Prop) (value : Json) : Prop :=
  ∃ fields, value = .object fields ∧
    ∀ key found, Assoc.get? fields key = some found → property found

def IsText (value : Json) : Prop :=
  ∃ text, value = .string text

/-- For each browser and each of its versions a text of flags. -/
def IsSupport (stats : Json) : Prop :=
  EachField (EachField IsText) stats

/-- Every feature is an object; what it says of browsers, if anything, is a table of support. -/
def Dataset.WellFormed (dataset : Dataset) : Prop :=
  EachField
    (fun feature => ∃ fields, feature = .object fields ∧
      ∀ stats, Assoc.get? fields "stats" = some stats → IsSupport stats)
    dataset.features

theorem lookup_object (fields : List (String × Json)) (key : String) :
    lookup (.object fields) key = .ok (Assoc.get? fields key) := rfl

theorem isSome_get? {α : Type} {entries : Assoc α} {entry : String × α}
    (inside : entry ∈ entries) : ∃ found, Assoc.get? entries entry.1 = some found := by
  induction entries with
  | nil => cases inside
  | cons first rest ih =>
      rw [Assoc.get?_cons]
      split
      · exact ⟨first.2, rfl⟩
      · rename_i different
        rcases List.mem_cons.1 inside with rfl | later
        · exact absurd rfl different
        · exact ih later

theorem mem_of_get? {α : Type} {entries : Assoc α} {key : String} {found : α}
    (atKey : Assoc.get? entries key = some found) : (key, found) ∈ entries := by
  induction entries with
  | nil => cases atKey
  | cons first rest ih =>
      rw [Assoc.get?_cons] at atKey
      split at atKey
      · rename_i same
        rw [same, ← Option.some.inj atKey]
        exact List.mem_cons_self
      · exact List.mem_cons_of_mem _ (ih atKey)

theorem eachField_object {property : Json → Prop} {fields : List (String × Json)}
    (each : ∀ field ∈ fields, property field.2) : EachField property (.object fields) :=
  ⟨fields, rfl, fun _ _ atKey => each _ (mem_of_get? atKey)⟩

variable {dataset : Dataset}

theorem support_of_wellFormed (wellFormed : dataset.WellFormed) (feature : String) :
    ∃ stats, dataset.support feature = .ok stats ∧ (stats = .null ∨ IsSupport stats) := by
  obtain ⟨features, eq, each⟩ := wellFormed
  unfold Dataset.support
  rw [eq, lookup_object]
  cases found : Assoc.get? features feature with
  | none => exact ⟨.null, rfl, .inl rfl⟩
  | some entry =>
      obtain ⟨fields, rfl, stats⟩ := each feature entry found
      cases atStats : Assoc.get? fields "stats" with
      | none =>
          refine ⟨.object [], ?_, .inr ⟨[], rfl, ?_⟩⟩
          · dsimp only [bind, Except.bind]
            rw [lookup_object, atStats]
            rfl
          · intro key table isField
            cases isField
      | some value =>
          refine ⟨value, ?_, .inr (stats value atStats)⟩
          dsimp only [bind, Except.bind]
          rw [lookup_object, atStats]
          rfl

section

variable {table : Json} (isTable : EachField IsText table)

include isTable

theorem demand_of_key {fields : List (String × Json)} (eq : table = .object fields) {key : String}
    (isKey : ∃ found, Assoc.get? fields key = some found) :
    ∃ flags, demand table key = .ok flags ∧ IsText flags := by
  obtain ⟨found, atKey⟩ := isKey
  obtain ⟨same, eqSame, texts⟩ := isTable
  obtain rfl : fields = same := Json.object.inj (eq.symm.trans eqSame)
  exact ⟨found, by simp [demand, eq, atKey], texts key found atKey⟩

theorem closestSupport_of_table (version : String) :
    ∃ flags, closestSupport table version = .ok flags ∧ (flags = .null ∨ IsText flags) := by
  obtain ⟨fields, eq, -⟩ := id isTable
  have holdsKey : holds table version = .ok (Assoc.get? fields version).isSome := by
    rw [eq]
    rfl
  have keys : items table = .ok (fields.map fun field => .string field.1) := by
    rw [eq]
    rfl
  unfold closestSupport
  rw [holdsKey]
  cases atVersion : Assoc.get? fields version with
  | some found =>
      obtain ⟨flags, demanded, isText⟩ := demand_of_key isTable eq ⟨found, atVersion⟩
      exact ⟨flags, demanded, .inr isText⟩
  | none =>
      let number? (key : Json) : Option (Binary64 × String) := (keyNumber? key).toOption.join
      have numbered : (fields.map fun field => Json.string field.1).filterMapM keyNumber? =
          .ok ((fields.map fun field => Json.string field.1).filterMap number?) := by
        refine filterMapM_eq_ok number? fun key isKey => ?_
        obtain ⟨field, -, rfl⟩ := List.mem_map.1 isKey
        rfl
      -- Whichever version is nearest, it is a key of the table.
      have isKey {entry : Binary64 × String} (known : entry ∈
          ((fields.map fun field => Json.string field.1).filterMap number?).mergeSort
            keyPrecedes) : ∃ found, Assoc.get? fields entry.2 = some found := by
        rw [List.mem_mergeSort] at known
        obtain ⟨key, inKeys, isEntry⟩ := List.mem_filterMap.1 known
        obtain ⟨field, inFields, rfl⟩ := List.mem_map.1 inKeys
        have numbered : (versionNumber? field.1).map (·, field.1) = some entry := isEntry
        obtain ⟨number, -, rfl⟩ := Option.map_eq_some_iff.1 numbered
        exact isSome_get? inFields
      rw [keys]
      dsimp only [bind, Except.bind, Option.isSome_none]
      rw [if_neg Bool.false_ne_true, numbered]
      dsimp only
      split
      · rename_i wanted lowest more _ atKnown
        rw [atKnown] at isKey ⊢
        have nearest : (((lowest :: more).filter fun entry => entry.1.le wanted).getLast?.getD
            lowest) ∈ lowest :: more := by
          cases last : ((lowest :: more).filter fun entry => entry.1.le wanted).getLast? with
          | none => exact List.mem_cons_self
          | some entry => exact (List.mem_filter.1 (List.mem_of_getLast? last)).1
        obtain ⟨flags, demanded, isText⟩ := demand_of_key isTable eq (isKey nearest)
        exact ⟨flags, demanded, .inr isText⟩
      · exact ⟨.null, rfl, .inl rfl⟩

end

theorem needsPrefix_of_text {flags : Json} (known : flags = .null ∨ IsText flags) :
    ∃ needs, needsPrefix flags = .ok needs := by
  unfold needsPrefix
  rcases known with rfl | ⟨text, rfl⟩
  · exact ⟨false, rfl⟩
  · split
    · exact ⟨false, rfl⟩
    · exact ⟨_, rfl⟩

theorem prefixFor?_of_support {stats : Json} (isSupport : IsSupport stats) (target : Target) :
    ∃ vendor, Tables.prefixFor? stats target = .ok vendor := by
  obtain ⟨browsers, rfl, tables⟩ := isSupport
  unfold Tables.prefixFor?
  rw [lookup_object]
  cases atBrowser : Assoc.get? browsers target.browser with
  | none => exact ⟨none, rfl⟩
  | some table =>
      dsimp only [bind, Except.bind, Option.getD_some]
      split
      · exact ⟨none, rfl⟩
      · obtain ⟨flags, closest, known⟩ :=
          closestSupport_of_table (tables target.browser table atBrowser) target.version
        obtain ⟨needs, answer⟩ := needsPrefix_of_text known
        rw [closest]
        dsimp only
        rw [answer]
        cases needs with
        | true => exact ⟨_, rfl⟩
        | false => exact ⟨_, rfl⟩

theorem prefixedDeclarations_of_wellFormed (wellFormed : dataset.WellFormed)
    (targets : List Target) (property value : String) :
    ∃ added, Tables.prefixedDeclarations ⟨some dataset, .ok targets⟩ property value = .ok added := by
  -- Once the prefixes are known, adding the declarations cannot fail.
  have vendors : ∃ found, Tables.vendorPrefixes ⟨some dataset, .ok targets⟩ property = .ok found := by
    unfold Tables.vendorPrefixes
    dsimp only
    split
    · rename_i feature known isFeature
      obtain rfl := Option.some.inj known
      obtain ⟨stats, supported, isSupport⟩ := support_of_wellFormed wellFormed feature
      have mapped : (dataset.support feature).mapError TargetFault.data = .ok stats := by
        rw [supported]
        rfl
      rw [mapped]
      dsimp only [bind, Except.bind]
      split
      · exact ⟨[], rfl⟩
      · rcases isSupport with rfl | isSupport
        · rename_i notAbsent
          exact absurd rfl notAbsent
        · have answers (target : Target) :
              ∃ vendor, (Tables.prefixFor? stats target).mapError TargetFault.data = .ok vendor := by
            obtain ⟨vendor, answer⟩ := prefixFor?_of_support isSupport target
            exact ⟨vendor, by rw [answer]; rfl⟩
          choose vendor answer using answers
          rw [filterMapM_eq_ok vendor fun target _ => answer target]
          exact ⟨_, rfl⟩
    · exact ⟨[], rfl⟩
  obtain ⟨found, answer⟩ := vendors
  unfold Tables.prefixedDeclarations
  rw [answer]
  exact ⟨_, rfl⟩

end SheetScript.Prefix
