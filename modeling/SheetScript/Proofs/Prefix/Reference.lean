import SheetScript.Proofs.Prefix.Selection

/-!
Which prefixes a property needs. Of a browser's table one version speaks for a target: the target's
own version, else the nearest one below, else the lowest one. A prefix is needed if some target's
browser has it and the flags of that version ask for it, and prefixes come in the order of the first
targets that need them.
-/

namespace SheetScript.Prefix

open SheetScript.Number SheetScript.Text

/-! Versions by number -/

def HasNumber (version : String) : Prop :=
  ∃ number, versionNumber? version = some number

/-- Both versions have numbers, and the first number is not above the second. -/
def NumberAtMost (left right : String) : Prop :=
  ∃ low high, versionNumber? left = some low ∧ versionNumber? right = some high ∧ low.le high = true

instance (version : String) : Decidable (HasNumber version) :=
  decidable_of_iff _ Option.isSome_iff_exists

instance (left right : String) : Decidable (NumberAtMost left right) :=
  decidable_of_iff ((versionNumber? left).any fun low => (versionNumber? right).any (low.le ·)) (by
    simp only [NumberAtMost, Option.any_eq_true]
    constructor
    · rintro ⟨low, isLow, high, isHigh, atMost⟩
      exact ⟨low, high, isLow, isHigh, atMost⟩
    · rintro ⟨low, high, isLow, isHigh, atMost⟩
      exact ⟨low, isLow, high, isHigh, atMost⟩)

theorem le_iff_versionRank {left right : String} {low high : Binary64}
    (isLow : versionNumber? left = some low) (isHigh : versionNumber? right = some high) :
    low.le high = true ↔ versionRank left ≤ versionRank right := by
  rw [Binary64.le, (versionRank_of_some isLow).1, (versionRank_of_some isHigh).1]
  exact decide_eq_true_iff

theorem lt_iff_versionRank {left right : String} {low high : Binary64}
    (isLow : versionNumber? left = some low) (isHigh : versionNumber? right = some high) :
    low.lt high = true ↔ versionRank left < versionRank right := by
  rw [Binary64.lt, (versionRank_of_some isLow).1, (versionRank_of_some isHigh).1]
  exact decide_eq_true_iff

theorem numberAtMost_iff {left right : String} (leftHas : HasNumber left)
    (rightHas : HasNumber right) :
    NumberAtMost left right ↔ versionRank left ≤ versionRank right := by
  obtain ⟨low, isLow⟩ := leftHas
  obtain ⟨high, isHigh⟩ := rightHas
  constructor
  · rintro ⟨first, second, isFirst, isSecond, atMost⟩
    exact (le_iff_versionRank isFirst isSecond).1 atMost
  · intro atMost
    exact ⟨low, high, isLow, isHigh, (le_iff_versionRank isLow isHigh).2 atMost⟩

theorem NumberAtMost.left {left right : String} (atMost : NumberAtMost left right) :
    HasNumber left := by
  obtain ⟨low, _, isLow, _⟩ := atMost
  exact ⟨low, isLow⟩

theorem NumberAtMost.right {left right : String} (atMost : NumberAtMost left right) :
    HasNumber right := by
  obtain ⟨_, high, _, isHigh, _⟩ := atMost
  exact ⟨high, isHigh⟩

/-! The version of a table that speaks for a version -/

/--
One version of a table speaks for a version: itself, else the one with the greatest number that is
not above, else the one with the smallest number. Of versions with one number the greatest text
counts below and the smallest text above.
-/
inductive IsReference (table : Assoc Json) (version : String) : String → Prop
  | itself (known : version ∈ Assoc.keys table) : IsReference table version version
  | below {key : String} (unknown : version ∉ Assoc.keys table) (isKey : key ∈ Assoc.keys table)
      (atMost : NumberAtMost key version)
      (nearest : ∀ other ∈ Assoc.keys table, NumberAtMost other version →
        NumberAtMost other key ∧ (NumberAtMost key other → other ≤ key)) :
      IsReference table version key
  | lowest {key : String} (unknown : version ∉ Assoc.keys table) (isKey : key ∈ Assoc.keys table)
      (isNumeric : HasNumber version) (hasNumber : HasNumber key)
      (above : ∀ other ∈ Assoc.keys table, ¬NumberAtMost other version)
      (nearest : ∀ other ∈ Assoc.keys table, HasNumber other →
        NumberAtMost key other ∧ (NumberAtMost other key → key ≤ other)) :
      IsReference table version key

variable {table : Assoc Json} {version : String}

theorem IsReference.mem_keys {key : String} (speaks : IsReference table version key) :
    key ∈ Assoc.keys table := by
  cases speaks with
  | itself known => exact known
  | below _ isKey => exact isKey
  | lowest _ isKey => exact isKey

theorem IsReference.unique {first second : String} (left : IsReference table version first)
    (right : IsReference table version second) : first = second := by
  cases left with
  | itself known =>
      cases right with
      | itself => rfl
      | below unknown => exact absurd known unknown
      | lowest unknown => exact absurd known unknown
  | below unknown isKey atMost nearest =>
      cases right with
      | itself known => exact absurd known unknown
      | below _ isKeyToo atMostToo nearestToo =>
          obtain ⟨up, textUp⟩ := nearest second isKeyToo atMostToo
          obtain ⟨down, textDown⟩ := nearestToo first isKey atMost
          exact String.le_antisymm (textDown up) (textUp down)
      | lowest _ _ _ _ above => exact absurd atMost (above first isKey)
  | lowest unknown isKey isNumeric hasNumber above nearest =>
      cases right with
      | itself known => exact absurd known unknown
      | below _ isKeyToo atMost => exact absurd atMost (above second isKeyToo)
      | lowest _ isKeyToo _ hasNumberToo _ nearestToo =>
          obtain ⟨up, textUp⟩ := nearest second isKeyToo hasNumberToo
          obtain ⟨down, textDown⟩ := nearestToo first isKey hasNumber
          exact String.le_antisymm (textUp down) (textDown up)

theorem mem_keys_iff (table : Assoc Json) (key : String) :
    key ∈ Assoc.keys table ↔ ∃ found, Assoc.get? table key = some found := by
  constructor
  · intro isKey
    obtain ⟨entry, inside, rfl⟩ := List.mem_map.1 isKey
    exact isSome_get? inside
  · rintro ⟨found, atKey⟩
    exact List.mem_map.2 ⟨_, mem_of_get? atKey, rfl⟩

/-! The search -/

def knownVersions (table : Assoc Json) : List (Binary64 × String) :=
  ((Assoc.keys table).filterMap fun key => (versionNumber? key).map (·, key)).mergeSort keyPrecedes

theorem mem_knownVersions {entry : Binary64 × String} :
    entry ∈ knownVersions table ↔
      entry.2 ∈ Assoc.keys table ∧ versionNumber? entry.2 = some entry.1 := by
  obtain ⟨number, key⟩ := entry
  simp only [knownVersions, List.mem_mergeSort, List.mem_filterMap, Option.map_eq_some_iff,
    Prod.mk.injEq]
  constructor
  · rintro ⟨other, isKey, same, isNumber, rfl, rfl⟩
    exact ⟨isKey, isNumber⟩
  · rintro ⟨isKey, isNumber⟩
    exact ⟨key, isKey, number, isNumber, rfl, rfl⟩

def keyBefore (left right : String) : Bool :=
  versionRank left < versionRank right ||
    (versionRank left = versionRank right && !decide (right < left))

theorem keyBefore_iff (left right : String) : keyBefore left right = true ↔
    versionRank left < versionRank right ∨
      versionRank left = versionRank right ∧ left ≤ right := by
  simp only [keyBefore, Bool.or_eq_true, Bool.and_eq_true, decide_eq_true_eq, Bool.not_eq_true',
    decide_eq_false_iff_not, String.not_lt]

theorem le_of_keyBefore {left right : String} (before : keyBefore left right = true) :
    versionRank left ≤ versionRank right ∧
      (versionRank right ≤ versionRank left → left ≤ right) := by
  rcases (keyBefore_iff left right).1 before with below | ⟨same, text⟩
  · refine ⟨by omega, ?_⟩
    intro atMost
    omega
  · exact ⟨by omega, fun _ => text⟩

theorem keyPrecedes_eq {left right : Binary64 × String}
    (leftKnown : left ∈ knownVersions table) (rightKnown : right ∈ knownVersions table) :
    keyPrecedes left right = keyBefore left.2 right.2 := by
  have isLeft := (mem_knownVersions.1 leftKnown).2
  have isRight := (mem_knownVersions.1 rightKnown).2
  unfold keyPrecedes keyBefore
  rw [Bool.eq_iff_iff]
  by_cases below : versionRank left.2 < versionRank right.2
  · rw [if_pos ((lt_iff_versionRank isLeft isRight).2 below)]
    simp [below]
  · rw [if_neg fun lower => below ((lt_iff_versionRank isLeft isRight).1 lower)]
    by_cases above : versionRank right.2 < versionRank left.2
    · rw [if_pos ((lt_iff_versionRank isRight isLeft).2 above)]
      have different : versionRank left.2 ≠ versionRank right.2 := by omega
      simp [below, different]
    · rw [if_neg fun higher => above ((lt_iff_versionRank isRight isLeft).1 higher)]
      have same : versionRank left.2 = versionRank right.2 := by omega
      simp [same]

theorem pairwise_knownVersions (table : Assoc Json) :
    (knownVersions table).Pairwise fun left right => keyBefore left.2 right.2 = true := by
  -- On numbers of any kind the order of the search is no order, so it is taken over to the texts.
  have texts : (knownVersions table).map Prod.snd =
      ((((Assoc.keys table).filterMap fun key => (versionNumber? key).map (·, key))).map
        Prod.snd).mergeSort keyBefore := by
    refine List.map_mergeSort fun left leftKnown right rightKnown => ?_
    exact keyPrecedes_eq (List.mem_mergeSort.2 leftKnown) (List.mem_mergeSort.2 rightKnown)
  have transitive (first second third : String) (front : keyBefore first second = true)
      (behind : keyBefore second third = true) : keyBefore first third = true := by
    rw [keyBefore_iff] at *
    rcases front with below | ⟨same, front⟩
    · exact .inl (by omega)
    · rcases behind with later | ⟨sameToo, behind⟩
      · exact .inl (by omega)
      · exact .inr ⟨by omega, String.le_trans front behind⟩
  have total (left right : String) : (keyBefore left right || keyBefore right left) = true := by
    rw [Bool.or_eq_true, keyBefore_iff, keyBefore_iff]
    by_cases same : versionRank left = versionRank right
    · exact (String.le_total left right).imp (.inr ⟨same, ·⟩) (.inr ⟨same.symm, ·⟩)
    · rcases Int.lt_or_gt_of_ne same with below | above
      · exact .inl (.inl below)
      · exact .inr (.inl above)
  rw [← List.pairwise_map (f := Prod.snd) (R := fun left right => keyBefore left right = true),
    texts]
  exact List.pairwise_mergeSort transitive total _

/-- Of a row in order, an item that passes a check stands before the last one that does. -/
theorem before_of_getLast? {α : Type} {order : α → α → Prop} {row : List α} {passes : α → Bool}
    (sorted : row.Pairwise order) {last : α} (isLast : (row.filter passes).getLast? = some last)
    {item : α} (inside : item ∈ row) (passed : passes item = true) :
    item = last ∨ order item last := by
  obtain ⟨front, whole⟩ := List.getLast?_eq_some_iff.1 isLast
  have ordered := sorted.filter passes
  rw [whole, List.pairwise_append] at ordered
  have present : item ∈ front ++ [last] := by
    rw [← whole]
    exact List.mem_filter.2 ⟨inside, passed⟩
  rcases List.mem_append.1 present with earlier | isItem
  · exact .inr (ordered.2.2 item earlier last List.mem_cons_self)
  · exact .inl (List.mem_singleton.1 isItem)

/-- The version that the search finds for a version with a number that is not in the table. -/
theorem isReference_of_search (unknown : version ∉ Assoc.keys table) {wanted : Binary64}
    (isWanted : versionNumber? version = some wanted) {lowest : Binary64 × String}
    {more : List (Binary64 × String)} (known : knownVersions table = lowest :: more) :
    IsReference table version
      (((knownVersions table).filter fun entry => entry.1.le wanted).getLast?.getD lowest).2 := by
  have sorted := pairwise_knownVersions table
  have hasNumber {entry : Binary64 × String} (inside : entry ∈ knownVersions table) :
      HasNumber entry.2 := ⟨entry.1, (mem_knownVersions.1 inside).2⟩
  have knows {other : String} (isKey : other ∈ Assoc.keys table) (numbered : HasNumber other) :
      ∃ number, (number, other) ∈ knownVersions table := by
    obtain ⟨number, isNumber⟩ := numbered
    exact ⟨number, mem_knownVersions.2 ⟨isKey, isNumber⟩⟩
  have passes {entry : Binary64 × String} (inside : entry ∈ knownVersions table) :
      entry.1.le wanted = true ↔ NumberAtMost entry.2 version := by
    have isNumber := (mem_knownVersions.1 inside).2
    rw [numberAtMost_iff (hasNumber inside) ⟨wanted, isWanted⟩, le_iff_versionRank isNumber isWanted]
  -- The versions are sorted, so the last one at most as high is the highest such.
  cases isLast : ((knownVersions table).filter fun entry => entry.1.le wanted).getLast? with
  | some last =>
      obtain ⟨inside, atMost⟩ := List.mem_filter.1 (List.mem_of_getLast? isLast)
      refine .below unknown (mem_knownVersions.1 inside).1 ((passes inside).1 atMost) ?_
      intro other isKey otherAtMost
      obtain ⟨number, otherKnown⟩ := knows isKey otherAtMost.left
      have before := before_of_getLast? sorted isLast otherKnown ((passes otherKnown).2 otherAtMost)
      rw [Option.getD_some, numberAtMost_iff otherAtMost.left (hasNumber inside),
        numberAtMost_iff (hasNumber inside) otherAtMost.left]
      rcases before with rfl | before
      · exact ⟨Int.le_refl _, fun _ => String.le_refl _⟩
      · exact le_of_keyBefore before
  | none =>
      have nonePasses := List.getLast?_eq_none_iff.1 isLast
      rw [List.filter_eq_nil_iff] at nonePasses
      have lowestKnown : lowest ∈ knownVersions table := by simp [known]
      refine .lowest unknown (mem_knownVersions.1 lowestKnown).1 ⟨wanted, isWanted⟩
        (hasNumber lowestKnown) ?_ ?_
      · intro other isKey atMost
        obtain ⟨number, otherKnown⟩ := knows isKey atMost.left
        exact nonePasses _ otherKnown ((passes otherKnown).2 atMost)
      · intro other isKey numbered
        obtain ⟨number, otherKnown⟩ := knows isKey numbered
        rw [Option.getD_none, numberAtMost_iff (hasNumber lowestKnown) numbered,
          numberAtMost_iff numbered (hasNumber lowestKnown)]
        rw [known] at sorted otherKnown
        rcases List.mem_cons.1 otherKnown with rfl | later
        · exact ⟨Int.le_refl _, fun _ => String.le_refl _⟩
        · have before : keyBefore lowest.2 other = true :=
            (List.pairwise_cons.1 sorted).1 (number, other) later
          exact le_of_keyBefore before

theorem filterMapM_keyNumber? (keys : List String) :
    (keys.map Json.string).filterMapM keyNumber? =
      .ok (keys.filterMap fun key => (versionNumber? key).map (·, key)) := by
  rw [filterMapM_eq_ok fun key => (keyNumber? key).toOption.join]
  · rw [List.filterMap_map]
    rfl
  · intro key isKey
    obtain ⟨text, _, rfl⟩ := List.mem_map.1 isKey
    rfl

/-- The flags that the search answers with are those of the version that speaks. -/
theorem closestSupport_eq (texts : EachField IsText (.object table)) (version : String) :
    ∃ flags, closestSupport (.object table) version = .ok flags ∧
      (flags = .null ∨ IsText flags) ∧
      ∀ text, flags = .string text ↔
        ∃ key, IsReference table version key ∧ Assoc.get? table key = some (.string text) := by
  obtain ⟨flags, answer, isText⟩ := closestSupport_of_table texts version
  refine ⟨flags, answer, isText, ?_⟩
  have holdsKey : holds (.object table) version = .ok (Assoc.get? table version).isSome := rfl
  unfold closestSupport at answer
  rw [holdsKey] at answer
  -- It is enough that the answer is the entry of a version that speaks, if there is one.
  have enough {key : String} (speaks : IsReference table version key)
      (demanded : demand (.object table) key = .ok flags) : ∀ text, flags = .string text ↔
        ∃ key, IsReference table version key ∧ Assoc.get? table key = some (.string text) := by
    obtain ⟨found, atKey⟩ := (mem_keys_iff table key).1 speaks.mem_keys
    rw [demand, atKey] at demanded
    obtain rfl := Except.ok.inj demanded
    intro text
    constructor
    · rintro rfl
      exact ⟨key, speaks, atKey⟩
    · rintro ⟨other, speaksToo, atOther⟩
      rw [speaks.unique speaksToo, atOther] at atKey
      exact (Option.some.inj atKey).symm
  cases atVersion : Assoc.get? table version with
  | some found =>
      rw [atVersion] at answer
      exact enough (.itself ((mem_keys_iff table version).2 ⟨found, atVersion⟩)) answer
  | none =>
      have unknown : version ∉ Assoc.keys table := by
        rw [mem_keys_iff]
        rintro ⟨found, atKey⟩
        rw [atVersion] at atKey
        cases atKey
      have keys : items (.object table) = .ok ((Assoc.keys table).map Json.string) := by
        simp [items, Assoc.keys]
      rw [atVersion, keys] at answer
      dsimp only [bind, Except.bind, Option.isSome_none] at answer
      rw [if_neg Bool.false_ne_true, filterMapM_keyNumber?] at answer
      dsimp only at answer
      split at answer
      · rename_i wanted lowest more isWanted known
        have isKnown : knownVersions table = lowest :: more := known
        refine enough (isReference_of_search unknown isWanted isKnown) ?_
        exact answer
      · rename_i none
        obtain rfl := Except.ok.inj answer
        intro text
        have different : Json.null ≠ .string text := Json.noConfusion
        refine ⟨fun same => absurd same different, ?_⟩
        rintro ⟨key, speaks, _⟩
        have isNumeric : HasNumber version ∧ ∃ number, (number, key) ∈ knownVersions table := by
          cases speaks with
          | itself known => exact absurd known unknown
          | below _ isKey atMost =>
              obtain ⟨number, isNumber⟩ := atMost.left
              exact ⟨atMost.right, number, mem_knownVersions.2 ⟨isKey, isNumber⟩⟩
          | lowest _ isKey isNumeric hasNumber =>
              obtain ⟨number, isNumber⟩ := hasNumber
              exact ⟨isNumeric, number, mem_knownVersions.2 ⟨isKey, isNumber⟩⟩
        obtain ⟨⟨wanted, isWanted⟩, number, inside⟩ := isNumeric
        cases known : knownVersions table with
        | nil =>
            rw [known] at inside
            cases inside
        | cons lowest more => exact absurd known (none wanted lowest more isWanted)

/-! Prefixes -/

def Dataset.HoldsTables (dataset : Dataset) (feature : String) (support : Assoc Json) : Prop :=
  ∃ features fields, dataset.features = .object features ∧
    Assoc.get? features feature = some (.object fields) ∧
    Assoc.get? fields "stats" = some (.object support)

/-- Whatever tables of support there are, they map versions to flags. -/
def Dataset.MapsVersions (dataset : Dataset) : Prop :=
  ∃ features, dataset.features = .object features ∧
    ∀ feature entry, Assoc.get? features feature = some entry → entry = .null ∨
      ∃ fields, entry = .object fields ∧
        ∀ stats, Assoc.get? fields "stats" = some stats → isAbsent stats = true ∨
          EachField (fun table => isAbsent table = true ∨ EachField IsText table) stats

/-- A target's browser has a prefix, and the version that speaks for the target asks for one. -/
def Dataset.Asks (dataset : Dataset) (feature : String) (target : Target) (vendor : String) : Prop :=
  browserPrefixes.get? target.browser = some vendor ∧
    ∃ support table key flags, dataset.HoldsTables feature support ∧
      Assoc.get? support target.browser = some (.object table) ∧
      IsReference table target.version key ∧ Assoc.get? table key = some (.string flags) ∧
      "x" ∈ fields flags

variable {dataset : Dataset} {feature : String} {support : Assoc Json}

theorem Dataset.HoldsTables.unique {other : Assoc Json} (holds : dataset.HoldsTables feature support)
    (holdsToo : dataset.HoldsTables feature other) : support = other := by
  obtain ⟨features, fields, isFeatures, atFeature, atStats⟩ := holds
  obtain ⟨same, sameFields, isSame, atSame, atSameStats⟩ := holdsToo
  obtain rfl := Json.object.inj (isFeatures.symm.trans isSame)
  obtain rfl := Json.object.inj (Option.some.inj (atFeature.symm.trans atSame))
  exact Json.object.inj (Option.some.inj (atStats.symm.trans atSameStats))

theorem needsPrefix_eq {flags : Json} (known : flags = .null ∨ IsText flags) :
    ∃ needs, needsPrefix flags = .ok needs ∧
      (needs = true ↔ ∃ text, flags = .string text ∧ "x" ∈ fields text) := by
  rcases known with rfl | ⟨text, rfl⟩
  · refine ⟨false, rfl, ?_⟩
    simp
  · unfold needsPrefix
    by_cases empty : text = ""
    · subst empty
      exact ⟨false, rfl, by simp [fields, fieldsAfter]⟩
    · have present : isAbsent (.string text) = false := by simpa [isAbsent] using empty
      rw [present]
      exact ⟨(fields text).contains "x", rfl, by simp⟩

/-- The search and its flags: a prefix is needed if the version that speaks asks for one. -/
theorem needs_of_search {table : Assoc Json} (texts : EachField IsText (.object table))
    (version : String) :
    ∃ flags needs, closestSupport (.object table) version = .ok flags ∧
      needsPrefix flags = .ok needs ∧
      (needs = true ↔ ∃ key text, IsReference table version key ∧
        Assoc.get? table key = some (.string text) ∧ "x" ∈ fields text) := by
  obtain ⟨flags, answer, known, speaks⟩ := closestSupport_eq texts version
  obtain ⟨needs, needed, needsIff⟩ := needsPrefix_eq known
  refine ⟨flags, needs, answer, needed, ?_⟩
  rw [needsIff]
  constructor
  · rintro ⟨text, isText, word⟩
    obtain ⟨key, isKey, atKey⟩ := (speaks text).1 isText
    exact ⟨key, text, isKey, atKey, word⟩
  · rintro ⟨key, text, isKey, atKey, word⟩
    exact ⟨text, (speaks text).2 ⟨key, isKey, atKey⟩, word⟩

theorem not_isReference_nil {version key : String} : ¬IsReference [] version key := by
  intro speaks
  simpa [Assoc.keys] using speaks.mem_keys

/-- What a target needs by tables that map versions to flags. -/
theorem prefixFor?_eq
    (tables : ∀ browser table, Assoc.get? support browser = some table →
      isAbsent table = true ∨ EachField IsText table) (target : Target) :
    ∃ vendor, Tables.prefixFor? (.object support) target = .ok vendor ∧
      ∀ name, vendor = some name ↔ browserPrefixes.get? target.browser = some name ∧
        ∃ table key flags, Assoc.get? support target.browser = some (.object table) ∧
          IsReference table target.version key ∧ Assoc.get? table key = some (.string flags) ∧
          "x" ∈ fields flags := by
  unfold Tables.prefixFor?
  rw [lookup_object]
  dsimp only [bind, Except.bind]
  cases atBrowser : Assoc.get? support target.browser with
  | none => exact ⟨none, rfl, by simp⟩
  | some table =>
      rw [Option.getD_some]
      -- An empty table counts as none, and no version is spoken for in it.
      by_cases absent : isAbsent table = true
      · rw [if_pos absent]
        refine ⟨none, rfl, fun name => ⟨fun same => (nomatch same), ?_⟩⟩
        rintro ⟨_, versions, key, flags, isTable, speaks, _⟩
        obtain rfl := Option.some.inj isTable
        obtain rfl : versions = [] := by simpa [isAbsent] using absent
        exact absurd speaks not_isReference_nil
      · rw [if_neg absent]
        have texts := (tables _ _ atBrowser).resolve_left absent
        obtain ⟨versions, rfl, _⟩ := id texts
        obtain ⟨flags, needs, answer, needed, asks⟩ := needs_of_search texts target.version
        rw [answer]
        dsimp only
        rw [needed]
        have inTable : (∃ table key flags, some (Json.object versions) = some (.object table) ∧
            IsReference table target.version key ∧ Assoc.get? table key = some (.string flags) ∧
            "x" ∈ fields flags) ↔ needs = true := by
          rw [asks]
          constructor
          · rintro ⟨table, key, flags, isTable, rest⟩
            obtain rfl := Json.object.inj (Option.some.inj isTable)
            exact ⟨key, flags, rest⟩
          · rintro ⟨key, flags, rest⟩
            exact ⟨versions, key, flags, rfl, rest⟩
        simp only [inTable]
        cases needs with
        | true => exact ⟨_, rfl, by simp⟩
        | false => exact ⟨none, rfl, by simp⟩

/-- What the data hold for a feature, if they map versions to flags. -/
theorem support_of_mapsVersions (maps : dataset.MapsVersions) (feature : String) :
    ∃ stats, dataset.support feature = .ok stats ∧
      (isAbsent stats = true ∧
          (∀ support, dataset.HoldsTables feature support → support = []) ∨
        isAbsent stats = false ∧ ∃ support, stats = .object support ∧
          dataset.HoldsTables feature support ∧
          ∀ browser table, Assoc.get? support browser = some table →
            isAbsent table = true ∨ EachField IsText table) := by
  obtain ⟨features, isFeatures, each⟩ := maps
  unfold Dataset.support
  rw [isFeatures, lookup_object]
  -- Only an object at the feature can hold tables.
  have nothing (no : ∀ fields, Assoc.get? features feature ≠ some (.object fields)) :
      ∀ support, dataset.HoldsTables feature support → support = [] := by
    rintro support ⟨same, fields, isSame, atFeature, _⟩
    obtain rfl := Json.object.inj (isFeatures.symm.trans isSame)
    exact absurd atFeature (no fields)
  cases atFeature : Assoc.get? features feature with
  | none =>
      refine ⟨.null, rfl, .inl ⟨rfl, nothing ?_⟩⟩
      intro fields isObject
      rw [atFeature] at isObject
      cases isObject
  | some entry =>
      rcases each feature entry atFeature with rfl | ⟨fields, rfl, tables⟩
      · refine ⟨.null, rfl, .inl ⟨rfl, nothing ?_⟩⟩
        intro fields isObject
        rw [atFeature] at isObject
        cases isObject
      · refine ⟨(Assoc.get? fields "stats").getD (.object []), rfl, ?_⟩
        have onlyStats (support : Assoc Json) (holds : dataset.HoldsTables feature support) :
            Assoc.get? fields "stats" = some (.object support) := by
          obtain ⟨same, sameFields, isSame, atSame, atStats⟩ := holds
          obtain rfl := Json.object.inj (isFeatures.symm.trans isSame)
          obtain rfl := Json.object.inj (Option.some.inj (atFeature.symm.trans atSame))
          exact atStats
        cases atStats : Assoc.get? fields "stats" with
        | none =>
            refine .inl ⟨rfl, fun support holds => ?_⟩
            rw [onlyStats support holds] at atStats
            cases atStats
        | some stats =>
            rw [Option.getD_some]
            by_cases absent : isAbsent stats = true
            · refine .inl ⟨absent, fun support holds => ?_⟩
              rw [onlyStats support holds] at atStats
              obtain rfl := Option.some.inj atStats
              simpa [isAbsent] using absent
            · obtain ⟨support, rfl, texts⟩ := (tables stats atStats).resolve_left absent
              exact .inr ⟨by simpa using absent, support, rfl,
                ⟨features, fields, isFeatures, atFeature, atStats⟩, texts⟩

/--
For data that map versions to flags, whatever the targets: the prefixes of a property are those that
some target asks for, each once, and of two prefixes the one in front is asked for before any target
asks for the other.
-/
theorem vendorPrefixes_of_targets (maps : dataset.MapsVersions) (targets : List Target)
    {property feature : String} (common : property ∈ commonProperties)
    (isFeature : features.get? property = some feature) :
    ∃ found, Tables.vendorPrefixes ⟨some dataset, .ok targets⟩ property = .ok found ∧
      found.Nodup ∧
      (∀ vendor, vendor ∈ found ↔ ∃ target ∈ targets, dataset.Asks feature target vendor) ∧
      found.Pairwise fun first second => ∃ before target behind,
        targets = before ++ target :: behind ∧ dataset.Asks feature target first ∧
          ∀ earlier ∈ before, ¬dataset.Asks feature earlier second := by
  obtain ⟨stats, supported, shape⟩ := support_of_mapsVersions maps feature
  have isCommon : (if commonProperties.contains property then features.get? property else none) =
      some feature := by
    rw [if_pos (by simpa using common), isFeature]
  have mapped : (dataset.support feature).mapError TargetFault.data = .ok stats := by
    rw [supported]
    rfl
  unfold Tables.vendorPrefixes
  simp only [isCommon, mapped]
  rcases shape with ⟨absent, nothing⟩ | ⟨present, support, rfl, holds, tables⟩
  · refine ⟨[], ?_, .nil, ?_, .nil⟩
    · dsimp only [bind, Except.bind]
      rw [if_pos absent]
      rfl
    · intro vendor
      refine ⟨fun inside => (nomatch inside), ?_⟩
      rintro ⟨target, _, _, support, table, key, flags, holds, atBrowser, _⟩
      rw [nothing support holds] at atBrowser
      cases atBrowser
  · -- Every target has an answer, so the row of them all is a plain `filterMap`.
    choose vendor answer asks using fun target => prefixFor?_eq tables target
    have asksIff (target : Target) (name : String) :
        vendor target = some name ↔ dataset.Asks feature target name := by
      rw [asks]
      refine and_congr_right fun _ => ?_
      constructor
      · rintro ⟨table, key, flags, rest⟩
        exact ⟨support, table, key, flags, holds, rest⟩
      · rintro ⟨same, table, key, flags, holdsToo, rest⟩
        obtain rfl := holds.unique holdsToo
        exact ⟨table, key, flags, rest⟩
    have row : targets.filterMapM (fun target =>
        (Tables.prefixFor? (.object support) target).mapError TargetFault.data) =
          .ok (targets.filterMap vendor) := by
      refine filterMapM_eq_ok vendor fun target _ => ?_
      rw [answer]
      rfl
    refine ⟨(targets.filterMap vendor).eraseDups, ?_, nodup_eraseDups _, ?_, ?_⟩
    · dsimp only [bind, Except.bind]
      rw [if_neg (by simp [present]), row]
      rfl
    · intro name
      simp only [List.mem_eraseDups, List.mem_filterMap, asksIff]
    · refine (pairwise_eraseDups_filterMap vendor targets).imp ?_
      rintro first second ⟨before, target, behind, whole, isFirst, silent⟩
      refine ⟨before, target, behind, whole, (asksIff target first).1 isFirst, ?_⟩
      intro earlier inside asked
      exact silent earlier inside ((asksIff earlier second).2 asked)

/-- A table with two versions of one number, and one whose only number is that of a newer version. -/
def twoTables : Assoc Json :=
  [("chrome", .object [("10", .string "y"), ("9.0", .string "y x"), ("9", .string "y")]),
    ("firefox", .object [("TP", .string "y"), ("20-22", .string "a x #2")])]

def transformsOnly : Dataset where
  agents := .object []
  features := .object [("transforms2d", .object [("stats", .object twoTables)])]

theorem mapsVersions_transformsOnly : transformsOnly.MapsVersions := by
  refine ⟨_, rfl, fun feature entry atFeature => .inr ?_⟩
  have isEntry := mem_of_get? atFeature
  simp only [List.mem_singleton, Prod.mk.injEq] at isEntry
  obtain ⟨-, rfl⟩ := isEntry
  refine ⟨_, rfl, fun stats atStats => .inr ?_⟩
  have isStats := mem_of_get? atStats
  simp only [List.mem_singleton, Prod.mk.injEq, true_and] at isStats
  rw [isStats]
  refine eachField_object fun table inside => .inr ?_
  simp only [twoTables, List.mem_cons, List.not_mem_nil, or_false] at inside
  rcases inside with rfl | rfl <;>
    exact eachField_object (by simp [IsText])

/-- Chrome is asked for by the greater text of two equal numbers, Firefox by its lowest version. -/
theorem vendorPrefixes_of_twoTargets :
    transformsOnly.MapsVersions ∧ "transform" ∈ commonProperties ∧
      features.get? "transform" = some "transforms2d" ∧
      ∃ found, Tables.vendorPrefixes ⟨some transformsOnly, .ok [⟨"chrome", "9.5"⟩, ⟨"firefox", "3"⟩]⟩
          "transform" = .ok found ∧
        found.Nodup ∧ "webkit" ∈ found ∧ "moz" ∈ found := by
  have common : "transform" ∈ commonProperties := by decide
  have holds : transformsOnly.HoldsTables "transforms2d" twoTables := ⟨_, _, rfl, rfl, rfl⟩
  have chrome : transformsOnly.Asks "transforms2d" ⟨"chrome", "9.5"⟩ "webkit" :=
    ⟨rfl, twoTables, _, "9.0", "y x", holds, rfl, .below (by decide +kernel) (by decide +kernel)
      (by decide +kernel) (by decide +kernel), rfl, by decide +kernel⟩
  have firefox : transformsOnly.Asks "transforms2d" ⟨"firefox", "3"⟩ "moz" :=
    ⟨rfl, twoTables, _, "20-22", "a x #2", holds, rfl, .lowest (by decide +kernel)
      (by decide +kernel) (by decide +kernel) (by decide +kernel) (by decide +kernel)
      (by decide +kernel), rfl, by decide +kernel⟩
  obtain ⟨found, answer, distinct, asked, -⟩ := vendorPrefixes_of_targets mapsVersions_transformsOnly
    [⟨"chrome", "9.5"⟩, ⟨"firefox", "3"⟩] common rfl
  exact ⟨mapsVersions_transformsOnly, common, rfl, found, answer, distinct,
    (asked "webkit").2 ⟨_, by simp, chrome⟩, (asked "moz").2 ⟨_, by simp, firefox⟩⟩

end SheetScript.Prefix
