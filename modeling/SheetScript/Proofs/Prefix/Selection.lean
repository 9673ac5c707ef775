import Mathlib
import SheetScript.Proofs.Distinct
import SheetScript.Proofs.Number.Overflow
import SheetScript.Proofs.Prefix.Clauses
import SheetScript.Proofs.Prefix.Support

/-!
What queries select. A target is selected exactly if some positive clause selects it and no later
negative one does; it is a released version of a browser of the data; and the answer names each
target once, in the order of browsers, numbers of versions and texts of versions.
-/

namespace SheetScript.Prefix

open SheetScript.Number SheetScript.Text

/-! Clauses -/

section

-- How queries are answered.
variable (select : Query → Except TargetFault (List Target))

def Selects (query : Query) (target : Target) : Prop :=
  ∃ found, select query = .ok found ∧ target ∈ found

/-- No negative clause of a row selects a target. -/
def Spares (row : List Clause) (target : Target) : Prop :=
  ∀ clause ∈ row, clause.negative = true → ¬Selects select clause.query target

/-- Some positive clause of a row selects a target, and no later negative clause does. -/
def Chosen (row : List Clause) (target : Target) : Prop :=
  ∃ earlier clause later, row = earlier ++ clause :: later ∧ clause.negative = false ∧
    Selects select clause.query target ∧ Spares select later target

end

variable {select : Query → Except TargetFault (List Target)} {dataset : Dataset} {target : Target}

theorem selects_iff {query : Query} {found : List Target} (answer : select query = .ok found) :
    Selects select query target ↔ target ∈ found := by
  constructor
  · rintro ⟨other, sameAnswer, inside⟩
    rw [Except.ok.inj (answer.symm.trans sameAnswer)]
    exact inside
  · exact fun inside => ⟨found, answer, inside⟩

theorem not_chosen_nil : ¬Chosen select [] target := by
  rintro ⟨earlier, clause, later, empty, -⟩
  simp at empty

theorem spares_cons {clause : Clause} {rest : List Clause} :
    Spares select (clause :: rest) target ↔
      (clause.negative = true → ¬Selects select clause.query target) ∧ Spares select rest target :=
  List.forall_mem_cons

theorem chosen_cons {clause : Clause} {rest : List Clause} :
    Chosen select (clause :: rest) target ↔
      clause.negative = false ∧ Selects select clause.query target ∧ Spares select rest target ∨
        Chosen select rest target := by
  constructor
  · rintro ⟨earlier, chosen, later, row, isPositive, selects, spared⟩
    cases earlier with
    | nil =>
        obtain ⟨rfl, rfl⟩ := List.cons.inj row
        exact .inl ⟨isPositive, selects, spared⟩
    | cons first earlier =>
        exact .inr ⟨earlier, chosen, later, (List.cons.inj row).2, isPositive, selects, spared⟩
  · rintro (⟨isPositive, selects, spared⟩ | ⟨earlier, chosen, later, rfl, isPositive, selects, spared⟩)
    · exact ⟨[], clause, rest, rfl, isPositive, selects, spared⟩
    · exact ⟨clause :: earlier, chosen, later, rfl, isPositive, selects, spared⟩

theorem mem_applyClause {selected found : List Target} {negative : Bool} :
    target ∈ Dataset.applyClause selected negative found ↔
      if negative then target ∈ selected ∧ target ∉ found
      else target ∈ selected ∨ target ∈ found := by
  cases negative with
  | true => simp [Dataset.applyClause]
  | false =>
      simp only [Dataset.applyClause, Bool.false_eq_true, if_false, List.mem_append, List.mem_filter,
        Bool.not_eq_true', List.contains_eq_mem, decide_eq_false_iff_not]
      tauto

theorem mem_selectClauses {row : List Clause} {selected result : List Target}
    (ran : Dataset.selectClauses select row selected = .ok result) :
    target ∈ result ↔
      Chosen select row target ∨ target ∈ selected ∧ Spares select row target := by
  induction row generalizing selected with
  | nil =>
      obtain rfl := Except.ok.inj ran
      have spared : Spares select [] target := fun clause inside => nomatch inside
      simp [not_chosen_nil, spared]
  | cons clause rest ih =>
      obtain ⟨found, answer, onward⟩ := ok_of_bind ran
      rw [ih onward, mem_applyClause, chosen_cons, spares_cons, selects_iff answer]
      cases isNegative : clause.negative <;> simp <;> tauto

/-- Clauses are answered together exactly if each of them is. -/
theorem exists_selectClauses_iff {row : List Clause} (selected : List Target) :
    (∃ result, Dataset.selectClauses select row selected = .ok result) ↔
      ∀ clause ∈ row, ∃ found, select clause.query = .ok found := by
  induction row generalizing selected with
  | nil => exact ⟨fun _ clause inside => (nomatch inside), fun _ => ⟨selected, rfl⟩⟩
  | cons clause rest ih =>
      rw [List.forall_mem_cons]
      constructor
      · rintro ⟨result, ran⟩
        obtain ⟨found, answer, onward⟩ := ok_of_bind ran
        exact ⟨⟨found, answer⟩, (ih _).1 ⟨result, onward⟩⟩
      · rintro ⟨⟨found, answer⟩, answered⟩
        obtain ⟨result, ran⟩ := (ih (Dataset.applyClause selected clause.negative found)).2 answered
        exact ⟨result, by rw [Dataset.selectClauses, answer]; exact ran⟩

/-- Each of the selected targets is selected by some clause. -/
theorem Chosen.exists_selects {row : List Clause} (chosen : Chosen select row target) :
    ∃ clause ∈ row, Selects select clause.query target := by
  obtain ⟨earlier, clause, later, rfl, -, selects, -⟩ := chosen
  exact ⟨clause, by simp, selects⟩

/-! Released versions -/

/-- A target is a released version of a browser of the data. -/
structure Dataset.Releases (dataset : Dataset) (target : Target) : Prop where
  browser : ∃ browsers, dataset.browsers = .ok browsers ∧ .string target.browser ∈ browsers
  version : ∃ versions, dataset.releasedVersions target.browser = .ok versions ∧
    target.version ∈ versions

theorem mem_sortItems {row sorted : List Json} (ran : sortItems row = .ok sorted) {item : Json} :
    item ∈ sorted ↔ item ∈ row := by
  unfold sortItems at ran
  split at ran
  · cases ran
  · obtain rfl := Except.ok.inj ran
    exact List.mem_mergeSort

/-- Versions are found only where browsers are keys. -/
theorem browsers_of_versions {name : String} {versions : List BrowserVersion}
    (found : dataset.versions name = .ok versions) {browsers : List Json}
    (known : dataset.browsers = .ok browsers) :
    ∀ browser ∈ browsers, ∃ text, browser = .string text := by
  obtain ⟨agent, isAgent, -⟩ := ok_of_bind found
  obtain ⟨row, isRow, sorted⟩ := ok_of_bind known
  cases atAgents : dataset.agents with
  | object fields =>
      rw [atAgents] at isRow
      obtain rfl := Except.ok.inj isRow
      intro browser inside
      obtain ⟨field, -, rfl⟩ := List.mem_map.1 ((mem_sortItems sorted).1 inside)
      exact ⟨field.1, rfl⟩
  | _ =>
      rw [atAgents] at isAgent
      cases isAgent

theorem mem_of_browser {name browser : String} (found : dataset.browser name = .ok browser) :
    ∃ browsers, dataset.browsers = .ok browsers ∧ .string browser ∈ browsers := by
  obtain ⟨known, answer, found⟩ := ok_of_bind found
  refine ⟨known, ok_of_mapError answer, ?_⟩
  dsimp only at found
  split at found
  case' isTrue isKnown => obtain rfl := Except.ok.inj found
  case' isFalse =>
    split at found
    case h_2 => cases found
    case' h_1 other isAlias =>
      obtain rfl := Except.ok.inj found
      have isKnown := (Option.filter_eq_some_iff.1 isAlias).2
  -- A name is known by an item that is this text, with or without an alias.
  all_goals
    obtain ⟨item, inside, same⟩ := List.any_eq_true.1 isKnown
    cases item with
    | string text =>
        rw [← eq_of_beq same]
        exact inside
    | _ => cases same

theorem releases_of_chosenOf {name browser : String} (isBrowser : dataset.browser name = .ok browser)
    {choice : List String → List String} (within : ∀ versions, choice versions ⊆ versions)
    {found : List Target} (ran : dataset.chosenOf browser choice = .ok found) :
    ∀ target ∈ found, dataset.Releases target := by
  obtain ⟨versions, answer, ran⟩ := ok_of_bind ran
  obtain rfl := Except.ok.inj ran
  intro target inside
  obtain ⟨version, chosen, rfl⟩ := List.mem_map.1 inside
  exact ⟨mem_of_browser isBrowser, versions, ok_of_mapError answer, within versions chosen⟩

theorem releasedVersions_eq {name : String} {versions : List BrowserVersion}
    (found : dataset.versions name = .ok versions) : dataset.releasedVersions name =
      .ok ((versions.filter BrowserVersion.released).map BrowserVersion.version) := by
  unfold Dataset.releasedVersions
  rw [found]
  rfl

theorem releases_of_chosen {choice : String → List BrowserVersion → List BrowserVersion}
    (within : ∀ name versions, choice name versions ⊆ versions) {found : List Target}
    (ran : dataset.chosen choice = .ok found) : ∀ target ∈ found, dataset.Releases target := by
  obtain ⟨browsers, known, ran⟩ := ok_of_bind ran
  obtain ⟨rows, each, ran⟩ := ok_of_bind ran
  obtain rfl := Except.ok.inj ran
  have known := ok_of_mapError known
  intro target inside
  obtain ⟨row, isRow, inRow⟩ := List.mem_flatten.1 inside
  obtain ⟨browser, isBrowser, answer⟩ := mem_of_mapM each isRow
  obtain ⟨versions, found, answer⟩ := ok_of_bind answer
  obtain rfl := Except.ok.inj answer
  obtain ⟨version, chosen, rfl⟩ := List.mem_map.1 inRow
  have found := ok_of_mapError found
  obtain ⟨name, rfl⟩ := browsers_of_versions found known browser isBrowser
  exact ⟨⟨browsers, known, isBrowser⟩, _, releasedVersions_eq found,
    List.mem_map_of_mem (within _ _ chosen)⟩

theorem lastItems_subset {α : Type} (count : Nat) (row : List α) : lastItems count row ⊆ row := by
  unfold lastItems
  split
  · exact fun _ inside => inside
  · exact fun _ inside => List.mem_of_mem_drop inside

theorem releases_of_selectPlain {query : Query} {found : List Target}
    (ran : dataset.selectPlain query = .ok found) : ∀ target ∈ found, dataset.Releases target := by
  -- Each kind of query keeps some of the released versions, which is all that is asked of it.
  cases query with
  | defaults =>
      obtain rfl := Except.ok.inj ran
      intro target inside
      cases inside
  | dead =>
      have within (name : String) (versions : List BrowserVersion) :
          versions.filter (fun v => isDead name v.version) ⊆ versions :=
        List.filter_sublist.subset
      exact releases_of_chosen within ran
  | extendedSupport =>
      obtain ⟨browser, isBrowser, ran⟩ := ok_of_bind ran
      refine releases_of_chosenOf isBrowser (fun versions version chosen => ?_) ran
      simpa using (List.mem_filter.1 chosen).2
  | usage comparison limit =>
      obtain ⟨number, -, ran⟩ := ok_of_bind ran
      exact releases_of_chosen (fun _ _ => List.filter_sublist.subset) ran
  | last count => exact releases_of_chosen (fun _ => lastItems_subset count) ran
  | lastOf count name =>
      obtain ⟨browser, isBrowser, ran⟩ := ok_of_bind ran
      exact releases_of_chosenOf isBrowser (lastItems_subset count) ran
  | longCount digits => cases ran
  | compared name comparison limit =>
      obtain ⟨browser, isBrowser, ran⟩ := ok_of_bind ran
      obtain ⟨number, -, ran⟩ := ok_of_bind ran
      exact releases_of_chosenOf isBrowser (fun _ => List.filter_sublist.subset) ran
  | between name low high =>
      obtain ⟨browser, isBrowser, ran⟩ := ok_of_bind ran
      obtain ⟨lowest, -, ran⟩ := ok_of_bind ran
      obtain ⟨highest, -, ran⟩ := ok_of_bind ran
      exact releases_of_chosenOf isBrowser (fun _ => List.filter_sublist.subset) ran
  | exact name version =>
      obtain ⟨browser, isBrowser, ran⟩ := ok_of_bind ran
      obtain ⟨all, chosen, ran⟩ := ok_of_bind ran
      split at ran
      · cases ran
      · obtain rfl := Except.ok.inj ran
        exact releases_of_chosenOf isBrowser (fun _ => List.filter_sublist.subset) chosen
  | unreadable text => cases ran

theorem select_eq_selectPlain {query : Query} (notDefaults : query ≠ .defaults) :
    dataset.select query = dataset.selectPlain query := by
  cases query with
  | defaults => exact absurd rfl notDefaults
  | _ => rfl

/-- Whatever a query selects is released; `defaults` selects by other queries. -/
theorem releases_of_selects {query : Query} (selects : Selects dataset.select query target) :
    dataset.Releases target := by
  obtain ⟨found, answer, inside⟩ := selects
  by_cases isDefaults : query = .defaults
  · subst isDefaults
    have chosen : Chosen dataset.selectPlain defaultClauses target := by
      simpa using (mem_selectClauses answer).1 inside
    obtain ⟨clause, -, found, plain, inside⟩ := chosen.exists_selects
    exact releases_of_selectPlain plain target inside
  · rw [select_eq_selectPlain isDefaults] at answer
    exact releases_of_selectPlain answer target inside

/-! The order of targets -/

/-- A number comes before another; no number at all comes before every number. -/
def NumberBefore : Option Binary64 → Option Binary64 → Prop
  | none, some _ => True
  | some left, some right => left.lt right = true
  | _, none => False

/-- A target comes before another: by browser, then by the number of the version, then by its text. -/
def Target.Before (left right : Target) : Prop :=
  left.browser < right.browser ∨ left.browser = right.browser ∧
    (NumberBefore (versionNumber? left.version) (versionNumber? right.version) ∨
      ¬NumberBefore (versionNumber? right.version) (versionNumber? left.version) ∧
        left.version < right.version)

theorem rank_round (numerator denominator : Nat) :
    ∃ rank, (Binary64.round false numerator denominator).rank? = some rank ∧ 0 ≤ rank := by
  unfold Binary64.round
  dsimp only
  split
  · exact ⟨_, rfl, Int.natCast_nonneg _⟩
  · exact ⟨_, rfl, Int.natCast_nonneg _⟩

theorem rank_toBinary64 {decimal : Decimal} (positive : decimal.negative = false) :
    ∃ rank, decimal.toBinary64.rank? = some rank ∧ 0 ≤ rank := by
  unfold Decimal.toBinary64
  rw [positive]
  dsimp only
  split
  · exact ⟨_, rfl, Int.le_refl _⟩
  · split
    · exact ⟨_, rfl, Int.natCast_nonneg _⟩
    · split
      · exact ⟨_, rfl, Int.le_refl _⟩
      · split
        · exact rank_round _ _
        · exact rank_round _ _

theorem negative_of_readUnsigned? {negative : Bool} {text : List Char} {decimal : Decimal}
    (read : Decimal.readUnsigned? negative text = some decimal) : decimal.negative = negative := by
  unfold Decimal.readUnsigned? at read
  extract_lets whole afterWhole at read
  split at read
  split at read
  · cases read
  · obtain ⟨exponent, -, rfl⟩ := Option.map_eq_some_iff.1 read
    rfl

/-- Versions have no negative numbers. -/
theorem rank_versionNumber {version : String} {number : Binary64}
    (found : versionNumber? version = some number) :
    ∃ rank, number.rank? = some rank ∧ 0 ≤ rank := by
  unfold versionNumber? at found
  dsimp only at found
  split at found
  · cases found
  · obtain ⟨decimal, read, rfl⟩ := Option.map_eq_some_iff.1 found
    exact rank_toBinary64 (negative_of_readUnsigned? read)

def versionRank (version : String) : Int :=
  ((sortNumber version).rank?).getD 0

theorem versionRank_of_some {version : String} {number : Binary64}
    (found : versionNumber? version = some number) :
    number.rank? = some (versionRank version) ∧ 0 ≤ versionRank version := by
  obtain ⟨rank, isRank, atLeastZero⟩ := rank_versionNumber found
  have same : versionRank version = rank := by
    rw [versionRank, sortNumber, found, Option.getD_some, isRank, Option.getD_some]
  rw [same]
  exact ⟨isRank, atLeastZero⟩

theorem versionRank_of_none {version : String} (none : versionNumber? version = none) :
    versionRank version = -Binary64.one := by
  rw [versionRank, sortNumber, none]
  rfl

theorem rank_sortNumber (version : String) :
    (sortNumber version).rank? = some (versionRank version) := by
  cases found : versionNumber? version with
  | none =>
      rw [versionRank_of_none found, sortNumber, found]
      rfl
  | some number => rw [sortNumber, found, Option.getD_some, (versionRank_of_some found).1]

theorem lt_sortNumber (left right : String) :
    (sortNumber left).lt (sortNumber right) = true ↔ versionRank left < versionRank right := by
  unfold Binary64.lt
  rw [rank_sortNumber, rank_sortNumber]
  exact decide_eq_true_iff

theorem numberBefore_iff (left right : String) :
    NumberBefore (versionNumber? left) (versionNumber? right) ↔
      versionRank left < versionRank right := by
  have positive := Binary64.one_pos
  cases isLeft : versionNumber? left with
  | none =>
      have lowest := versionRank_of_none isLeft
      cases isRight : versionNumber? right with
      | none =>
          rw [lowest, versionRank_of_none isRight]
          exact ⟨False.elim, fun below => absurd below (Int.lt_irrefl _)⟩
      | some number =>
          have atLeastZero := (versionRank_of_some isRight).2
          exact ⟨fun _ => by omega, fun _ => trivial⟩
  | some number =>
      obtain ⟨isRank, atLeastZero⟩ := versionRank_of_some isLeft
      cases isRight : versionNumber? right with
      | none =>
          have lowest := versionRank_of_none isRight
          exact ⟨False.elim, fun below => by omega⟩
      | some other =>
          rw [NumberBefore, Binary64.lt, isRank, (versionRank_of_some isRight).1]
          exact decide_eq_true_iff

theorem before_iff (left right : Target) : left.Before right ↔
    left.browser < right.browser ∨ left.browser = right.browser ∧
      (versionRank left.version < versionRank right.version ∨
        versionRank left.version ≤ versionRank right.version ∧ left.version < right.version) := by
  rw [Target.Before, numberBefore_iff, numberBefore_iff, Int.not_lt]

/-- One target stands in front of another unless that comes before it. -/
theorem precedes_iff (left right : Target) :
    left.precedes right = true ↔ ¬right.Before left := by
  rw [before_iff, Target.precedes]
  by_cases same : left.browser = right.browser
  · rw [if_neg (not_not.2 same), same]
    simp only [lt_sortNumber, String.lt_irrefl, false_or, true_and]
    by_cases below : versionRank left.version < versionRank right.version
    · rw [if_pos below]
      simp only [true_iff]
      omega
    · rw [if_neg below]
      by_cases above : versionRank right.version < versionRank left.version
      · simp [above]
      · have atMost : versionRank right.version ≤ versionRank left.version := by omega
        simp [above, atMost]
  · rw [if_pos same]
    have different : right.browser ≠ left.browser := fun isSame => same isSame.symm
    simp only [decide_eq_true_eq, different, false_and, or_false, String.not_lt]
    exact ⟨fun below => Std.le_of_lt below, fun atMost => Std.lt_of_le_of_ne atMost same⟩

theorem Target.Before.trans {first second third : Target} (front : first.Before second)
    (behind : second.Before third) : first.Before third := by
  rw [before_iff] at *
  rcases front with below | ⟨same, front⟩
  · rcases behind with later | ⟨sameBehind, -⟩
    · exact .inl (String.lt_trans below later)
    · exact .inl (sameBehind ▸ below)
  · rcases behind with later | ⟨sameBehind, behind⟩
    · exact .inl (same ▸ later)
    · refine .inr ⟨same.trans sameBehind, ?_⟩
      rcases front with numberBelow | ⟨atMost, textBelow⟩
      · rcases behind with numberLater | ⟨atMost, -⟩
        · exact .inl (by omega)
        · exact .inl (by omega)
      · rcases behind with numberLater | ⟨atMostBehind, textLater⟩
        · exact .inl (by omega)
        · exact .inr ⟨by omega, String.lt_trans textBelow textLater⟩

theorem Target.before_total {left right : Target} (different : left ≠ right) :
    left.Before right ∨ right.Before left := by
  rw [before_iff, before_iff]
  rcases Std.lt_trichotomy left.browser right.browser with below | same | above
  · exact .inl (.inl below)
  · rcases Int.lt_trichotomy (versionRank left.version) (versionRank right.version) with
      below | sameNumber | above
    · exact .inl (.inr ⟨same, .inl below⟩)
    · rcases Std.lt_trichotomy left.version right.version with below | sameText | above
      · exact .inl (.inr ⟨same, .inr ⟨Int.le_of_eq sameNumber, below⟩⟩)
      · exact absurd (Target.mk.injEq .. ▸ ⟨same, sameText⟩) different
      · exact .inr (.inr ⟨same.symm, .inr ⟨Int.le_of_eq sameNumber.symm, above⟩⟩)
    · exact .inr (.inr ⟨same.symm, .inl above⟩)
  · exact .inr (.inl above)

theorem Target.not_before_self (target : Target) : ¬target.Before target := by
  rw [before_iff]
  simp only [String.lt_irrefl, Int.lt_irrefl, and_false, or_self, not_false_eq_true]

theorem Target.Before.asymm {left right : Target} (before : left.Before right) :
    ¬right.Before left :=
  fun after => left.not_before_self (before.trans after)

/-- Distinct targets are sorted into strictly increasing order. -/
theorem pairwise_before_mergeSort {row : List Target} (distinct : row.Nodup) :
    (row.mergeSort Target.precedes).Pairwise Target.Before := by
  have notBefore_of_before {first second : Target} (before : first.Before second) :
      first.precedes second = true := (precedes_iff _ _).2 before.asymm
  have transitive (first second third : Target) (front : first.precedes second = true)
      (behind : second.precedes third = true) : first.precedes third = true := by
    rw [precedes_iff] at *
    intro above
    by_cases same : second = third
    · exact front (same ▸ above)
    · exact front ((Target.before_total same).resolve_right behind |>.trans above)
  have total (left right : Target) : (left.precedes right || right.precedes left) = true := by
    rw [Bool.or_eq_true, precedes_iff, precedes_iff, ← not_and_or]
    exact fun both => both.1.asymm both.2
  have sorted := List.pairwise_mergeSort transitive total row
  have unique := (List.mergeSort_perm row Target.precedes).nodup_iff.2 distinct
  refine (sorted.and unique).imp fun {left right} both => ?_
  exact (Target.before_total both.2).resolve_right ((precedes_iff _ _).1 both.1)

/-! Answers -/

/--
Queries that can all be answered: the answer holds the targets that some positive clause selects and
no later negative clause does. They are released versions of browsers of the data, each is there
once, and they stand in increasing order.
-/
theorem targets_of_queries (dataset : Dataset) {queries : List String} {row : List Clause}
    (flattened : Flattened queries row)
    (answered : ∀ clause ∈ row, ∃ found, dataset.select clause.query = .ok found) :
    ∃ targets, resolve dataset queries = .ok targets ∧
      (∀ target, target ∈ targets ↔ Chosen dataset.select row target) ∧
      targets.Nodup ∧
      (∀ target ∈ targets, dataset.Releases target) ∧
      targets.Pairwise Target.Before := by
  obtain rfl := flattened.eq
  obtain ⟨selected, ran⟩ := (exists_selectClauses_iff []).2 answered
  have chosen (target : Target) : target ∈ selected.eraseDups.mergeSort Target.precedes ↔
      Chosen dataset.select (queries.flatMap clauses) target := by
    rw [List.mem_mergeSort, List.mem_eraseDups, mem_selectClauses ran]
    simp
  refine ⟨selected.eraseDups.mergeSort Target.precedes, ?_, chosen, ?_, ?_, ?_⟩
  · rw [resolve, ran]
    rfl
  · exact (List.mergeSort_perm _ _).nodup_iff.2 (nodup_eraseDups selected)
  · intro target inside
    obtain ⟨clause, -, selects⟩ := ((chosen target).1 inside).exists_selects
    exact releases_of_selects selects
  · exact pairwise_before_mergeSort (nodup_eraseDups selected)

def twoBrowsers : Dataset where
  agents := .object
    [("ie", .object [("versions", .array [.string "9", .string "10", .string "11"])]),
      ("chrome", .object [("version_list", .array
        [.object [("version", .string "4")],
          .object [("version", .string "TP"), ("release_date", .null)]])])]
  features := .object []

/-- Versions 9 and 11 of `ie` are taken away, and 11 comes back at the end. -/
def twoQueries : List String :=
  ["last 2 ie versions, ie 9 or chrome 4", "not ie 9, not ie 11", "last 1 versions"]

theorem targets_of_twoQueries :
    ∃ row, Flattened twoQueries row ∧
      (∀ clause ∈ row, ∃ found, twoBrowsers.select clause.query = .ok found) ∧
      ∃ targets, resolve twoBrowsers twoQueries = .ok targets ∧
        ⟨"ie", "11"⟩ ∈ targets ∧ ⟨"ie", "9"⟩ ∉ targets ∧ ⟨"chrome", "TP"⟩ ∉ targets ∧
        targets.Pairwise Target.Before := by
  have flattened := flattened_flatMap twoQueries
  have cut : twoQueries.flatMap clauses =
      [⟨false, .lastOf 2 "ie"⟩, ⟨false, .exact "ie" "9"⟩, ⟨false, .exact "chrome" "4"⟩,
        ⟨true, .exact "ie" "9"⟩, ⟨true, .exact "ie" "11"⟩, ⟨false, .last 1⟩] := by
    decide +kernel
  have ran : Dataset.selectClauses twoBrowsers.select (twoQueries.flatMap clauses) [] =
      .ok [⟨"ie", "10"⟩, ⟨"chrome", "4"⟩, ⟨"ie", "11"⟩] := by
    rw [cut]
    cbv
  have answered := (exists_selectClauses_iff []).1 ⟨_, ran⟩
  obtain ⟨targets, resolved, -, -, -, increasing⟩ := targets_of_queries twoBrowsers flattened answered
  have same : targets = [⟨"ie", "10"⟩, ⟨"chrome", "4"⟩, ⟨"ie", "11"⟩].eraseDups.mergeSort
      Target.precedes := by
    rw [resolve, ran] at resolved
    exact (Except.ok.inj resolved).symm
  refine ⟨_, flattened, answered, targets, resolved, ?_, ?_, ?_, increasing⟩ <;>
    · rw [same, List.mem_mergeSort]
      decide

end SheetScript.Prefix
