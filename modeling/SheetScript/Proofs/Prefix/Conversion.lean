import SheetScript.Proofs.Prefix.Numerals
import SheetScript.Proofs.Prefix.Selection

/-!
What can go wrong with queries. Against data in the documented layout, a query is answered or refused
as a query, unless what its pattern captured as a number is none for the conversion behind it.
-/

namespace SheetScript.Prefix

open SheetScript.Number SheetScript.Text

/-! Browsers in the documented layout -/

def IsShare (value : Json) : Prop :=
  value = .null ∨ (∃ n, value = .int n ∧ (Binary64.ofInt? n).isSome = true) ∨ ∃ x, value = .float x

def IsEntry (entry : Json) : Prop :=
  ∃ fields, entry = .object fields ∧
    (∃ version, Assoc.get? fields "version" = some version ∧ IsText version) ∧
    ∀ share, Assoc.get? fields "global_usage" = some share → IsShare share

def ListsEntries (agent : List (String × Json)) : Prop :=
  ∃ entries, Assoc.get? agent "version_list" = some (.array entries) ∧
    ∀ entry ∈ entries, IsEntry entry

/-- A browser that names its versions, with their shares in a table beside them. -/
def NamesVersions (agent : List (String × Json)) : Prop :=
  Assoc.get? agent "version_list" = none ∧
    (∀ named, Assoc.get? agent "versions" = some named →
      ∃ row, named = .array row ∧ ∀ version ∈ row, version = .null ∨ IsText version) ∧
    ∀ shares, Assoc.get? agent "usage_global" = some shares → EachField IsShare shares

def Dataset.NamesBrowsers (dataset : Dataset) : Prop :=
  EachField (fun agent => ∃ fields, agent = .object fields ∧
    (ListsEntries fields ∨ NamesVersions fields)) dataset.agents

theorem exists_number {value : Json} (isShare : IsShare value) : ∃ x, number value = .ok x := by
  unfold number
  split
  · exact ⟨_, rfl⟩
  · rename_i notAbsent
    rcases isShare with rfl | ⟨n, rfl, some⟩ | ⟨x, rfl⟩
    · exact absurd rfl notAbsent
    · obtain ⟨x, isNumber⟩ := Option.isSome_iff_exists.1 some
      dsimp only
      rw [isNumber]
      exact ⟨x, rfl⟩
    · exact ⟨x, rfl⟩

theorem exists_number_getD {found : Option Json}
    (isShare : ∀ share, found = some share → IsShare share) :
    ∃ x, number (found.getD .null) = .ok x := by
  cases found with
  | none => exact exists_number (.inl rfl)
  | some share => exact exists_number (isShare share rfl)

namespace Dataset

theorem exists_entryVersion {entry : Json} (isEntry : IsEntry entry) :
    ∃ version, entryVersion entry = .ok version := by
  obtain ⟨fields, rfl, ⟨version, atVersion, -⟩, shares⟩ := isEntry
  have demanded : demand (.object fields) "version" = .ok version := by
    rw [demand, atVersion]
  obtain ⟨usage, isUsage⟩ := exists_number_getD shares
  unfold entryVersion
  rw [demanded, lookup_object, lookup_object]
  dsimp only [bind, Except.bind]
  rw [isUsage]
  exact ⟨_, rfl⟩

theorem exists_namedVersion {shares version : Json} (table : EachField IsShare shares)
    (isText : IsText version) : ∃ found, namedVersion shares version = .ok found := by
  obtain ⟨fields, rfl, each⟩ := table
  obtain ⟨name, rfl⟩ := isText
  obtain ⟨usage, isUsage⟩ := exists_number_getD (each name)
  unfold namedVersion
  dsimp only [bind, Except.bind, pure, Except.pure]
  rw [isUsage]
  exact ⟨_, rfl⟩

theorem exists_versions {dataset : Dataset} (layout : dataset.NamesBrowsers) (browser : String) :
    ∃ versions, dataset.versions browser = .ok versions := by
  obtain ⟨agents, isObject, each⟩ := layout
  unfold Dataset.versions
  rw [isObject, lookup_object]
  cases atBrowser : Assoc.get? agents browser with
  | none => exact ⟨[], rfl⟩
  | some agent =>
      -- The data list the versions of a browser, or give their names and a table of shares.
      obtain ⟨fields, rfl, listed | ⟨noList, named, shares⟩⟩ := each browser agent atBrowser
      · obtain ⟨entries, atList, isEntry⟩ := listed
        have held : holds (.object fields) "version_list" = .ok true := by
          rw [holds, atList]
          rfl
        have demanded : demand (.object fields) "version_list" = .ok (.array entries) := by
          rw [demand, atList]
        dsimp only [bind, Except.bind]
        rw [held, demanded]
        exact exists_mapM fun entry here => exists_entryVersion (isEntry entry here)
      · have absent : holds (.object fields) "version_list" = .ok false := by
          rw [holds, noList]
          rfl
        have table : EachField IsShare ((Assoc.get? fields "usage_global").getD (.object [])) := by
          cases atShares : Assoc.get? fields "usage_global" with
          | none =>
              refine ⟨[], rfl, ?_⟩
              intro key value found
              cases found
          | some found => exact shares found atShares
        obtain ⟨row, isRow, texts⟩ : ∃ row, items ((Assoc.get? fields "versions").getD (.array [])) =
            .ok row ∧ ∀ version ∈ row, version = .null ∨ IsText version := by
          cases atNamed : Assoc.get? fields "versions" with
          | none => exact ⟨[], rfl, List.forall_mem_nil _⟩
          | some found =>
              obtain ⟨row, rfl, texts⟩ := named found atNamed
              exact ⟨row, rfl, texts⟩
        dsimp only [bind, Except.bind]
        rw [absent, lookup_object, lookup_object]
        dsimp only
        rw [isRow]
        refine exists_mapM fun version here => ?_
        obtain ⟨inRow, notNull⟩ := List.mem_filter.1 here
        rcases texts version inRow with rfl | isText
        · cases notNull
        · exact exists_namedVersion table isText

theorem exists_sortItems {row : List Json} (texts : ∀ item ∈ row, IsText item) :
    ∃ sorted, sortItems row = .ok sorted := by
  have inOrder : unorderedPair? row = none := by
    fun_induction unorderedPair? row with
    | case1 first second rest unordered =>
        obtain ⟨left, rfl⟩ := texts first List.mem_cons_self
        obtain ⟨right, rfl⟩ := texts second (List.mem_cons_of_mem _ List.mem_cons_self)
        cases unordered
    | case2 first second rest ordered ih =>
        exact ih fun item here => texts item (List.mem_cons_of_mem first here)
    | case3 => rfl
  unfold sortItems
  rw [inOrder]
  exact ⟨_, rfl⟩

theorem exists_browsers {dataset : Dataset} (layout : dataset.NamesBrowsers) :
    ∃ browsers, dataset.browsers = .ok browsers := by
  obtain ⟨agents, isObject, -⟩ := layout
  have texts : ∀ item ∈ agents.map fun field => Json.string field.1, IsText item := by
    intro item here
    obtain ⟨field, -, rfl⟩ := List.mem_map.1 here
    exact ⟨field.1, rfl⟩
  obtain ⟨sorted, answer⟩ := exists_sortItems texts
  unfold browsers
  rw [isObject]
  exact ⟨sorted, answer⟩

end Dataset

/-! Queries as they are read -/

/-- What the patterns leave of a number: a version, and in a share one point at most. -/
structure Query.Captures (query : Query) : Prop where
  count : ∀ digits, query = .longCount digits → Json.integerLimit < digits
  usage : ∀ comparison limit, query = .usage comparison limit →
    isVersionText limit.toList = true ∧ limit.toList.count '.' ≤ 1
  compared : ∀ name comparison limit, query = .compared name comparison limit →
    isVersionText limit.toList = true
  between : ∀ name low high, query = .between name low high →
    isVersionText low.toList = true ∧ isVersionText high.toList = true

namespace Query

section

variable {text : List Char} {query : Query}

theorem captures_readExtendedSupport? (isRead : readExtendedSupport? text = some query) :
    query.Captures := by
  unfold readExtendedSupport? at isRead
  split at isRead
  · split at isRead
    · obtain rfl := Option.some.inj isRead
      exact ⟨nofun, nofun, nofun, nofun⟩
    · cases isRead
  · cases isRead

theorem captures_readUsage? (isRead : readUsage? text = some query) : query.Captures := by
  obtain ⟨⟨comparison, rest⟩, -, isRead⟩ := Option.bind_eq_some_iff.1 isRead
  dsimp only at isRead
  split at isRead
  · rename_i isLimit
    obtain rfl := Option.some.inj isRead
    simp only [Bool.and_eq_true, decide_eq_true_eq] at isLimit
    obtain ⟨⟨-, isText⟩, short⟩ := isLimit
    rw [length_splitAt] at short
    refine ⟨nofun, ?_, nofun, nofun⟩
    rintro _ _ same
    obtain ⟨-, rfl⟩ := Query.usage.inj same
    rw [String.toList_ofList]
    exact ⟨isText, Nat.le_of_succ_le_succ short⟩
  · cases isRead

theorem captures_counted (count : String) {query : Nat → Query} (plain : ∀ n, (query n).Captures) :
    (counted count query).Captures := by
  unfold counted
  split
  · rename_i long
    refine ⟨?_, nofun, nofun, nofun⟩
    rintro _ same
    rw [← Query.longCount.inj same]
    exact long
  · exact plain _

theorem captures_readWords? (isRead : readWords? text = some query) : query.Captures := by
  unfold readWords? at isRead
  split at isRead
  · split at isRead
    · obtain rfl := Option.some.inj isRead
      exact captures_counted _ fun _ => ⟨nofun, nofun, nofun, nofun⟩
    · cases isRead
  · split at isRead
    · obtain rfl := Option.some.inj isRead
      exact captures_counted _ fun _ => ⟨nofun, nofun, nofun, nofun⟩
    · cases isRead
  · cases isRead

theorem captures_readCompared? (isRead : readCompared? text = some query) : query.Captures := by
  obtain ⟨⟨comparison, rest⟩, -, isRead⟩ := Option.bind_eq_some_iff.1 isRead
  dsimp only at isRead
  split at isRead
  · rename_i isLimit
    obtain rfl := Option.some.inj isRead
    rw [Bool.and_eq_true] at isLimit
    refine ⟨nofun, nofun, ?_, nofun⟩
    rintro _ _ _ same
    obtain ⟨-, -, rfl⟩ := Query.compared.inj same
    rw [String.toList_ofList]
    exact isLimit.2
  · cases isRead

theorem captures_readBetween? (isRead : readBetween? text = some query) : query.Captures := by
  unfold readBetween? at isRead
  dsimp only at isRead
  split at isRead
  · split at isRead
    · rename_i isRange
      obtain rfl := Option.some.inj isRead
      simp only [Bool.and_eq_true] at isRange
      refine ⟨nofun, nofun, nofun, ?_⟩
      rintro _ _ _ same
      obtain ⟨-, rfl, rfl⟩ := Query.between.inj same
      rw [String.toList_ofList, String.toList_ofList]
      exact ⟨isRange.1.2, isRange.2⟩
    · cases isRead
  · cases isRead

theorem captures_readExact? (isRead : readExact? text = some query) : query.Captures := by
  unfold readExact? at isRead
  split at isRead
  · split at isRead
    · obtain rfl := Option.some.inj isRead
      exact ⟨nofun, nofun, nofun, nofun⟩
    · cases isRead
  · cases isRead

end

theorem captures_orElse {first second : Option Query}
    (one : ∀ query, first = some query → query.Captures)
    (two : ∀ query, second = some query → query.Captures) :
    ∀ query, (first <|> second) = some query → query.Captures := by
  cases first with
  | none => exact two
  | some found => exact one

theorem captures_read (text : String) : (read text).Captures := by
  unfold read
  generalize trimChars text.toList = trimmed
  have readers : ∀ query, (readExtendedSupport? trimmed <|> readUsage? trimmed <|>
      readWords? trimmed <|> readCompared? trimmed <|> readBetween? trimmed <|>
      readExact? trimmed) = some query → query.Captures :=
    captures_orElse (fun _ => captures_readExtendedSupport?) <|
    captures_orElse (fun _ => captures_readUsage?) <|
    captures_orElse (fun _ => captures_readWords?) <|
    captures_orElse (fun _ => captures_readCompared?) <|
    captures_orElse (fun _ => captures_readBetween?) fun _ => captures_readExact?
  dsimp only
  generalize (readExtendedSupport? trimmed <|> readUsage? trimmed <|> readWords? trimmed <|>
    readCompared? trimmed <|> readBetween? trimmed <|> readExact? trimmed) = found at readers ⊢
  split
  · exact ⟨nofun, nofun, nofun, nofun⟩
  · split
    · exact ⟨nofun, nofun, nofun, nofun⟩
    · cases found with
      | none => exact ⟨nofun, nofun, nofun, nofun⟩
      | some query => exact readers query rfl

end Query

theorem captures_clause (text : List Char) : (Clause.read text).query.Captures := by
  unfold Clause.read
  split
  · dsimp only
    exact Query.captures_read _
  · dsimp only
    exact Query.captures_read _

theorem captures_of_mem {clause : Clause} {text : String} (here : clause ∈ clauses text) :
    clause.query.Captures := by
  rw [clauses_eq] at here
  obtain ⟨part, -, isClause⟩ := List.mem_filterMap.1 here
  unfold clauseOf? at isClause
  split at isClause
  · cases isClause
  · rw [← Option.some.inj isClause]
    exact captures_clause _

/-! Answers -/

/-- An answer that is a list of targets, or a fault that the query has as a query. -/
def IsSettled (answer : Except TargetFault (List Target)) : Prop :=
  (∃ found, answer = .ok found) ∨
    ∃ fault, answer = .error fault ∧ fault.className = "TargetQueryError"

/-- A query in which the pattern lets through what the conversion behind it refuses. -/
inductive Dataset.Misconverts (dataset : Dataset) : Query → Prop
  | count {digits : Nat} (long : Json.integerLimit < digits) : Misconverts dataset (.longCount digits)
  | limit {name browser limit : String} {comparison : Comparison}
    (known : dataset.browser name = .ok browser) (points : 1 < limit.toList.count '.') :
    Misconverts dataset (.compared name comparison limit)
  | range {name browser low high : String} (known : dataset.browser name = .ok browser)
    (points : 1 < low.toList.count '.' ∨ 1 < high.toList.count '.') :
    Misconverts dataset (.between name low high)

theorem misconverts_compared {dataset : Dataset} {name limit : String} {comparison : Comparison} :
    dataset.Misconverts (.compared name comparison limit) ↔
      (∃ browser, dataset.browser name = .ok browser) ∧ 1 < limit.toList.count '.' := by
  constructor
  · rintro ⟨⟩
    rename_i browser known points
    exact ⟨⟨browser, known⟩, points⟩
  · rintro ⟨⟨browser, known⟩, points⟩
    exact .limit known points

theorem misconverts_between {dataset : Dataset} {name low high : String} :
    dataset.Misconverts (.between name low high) ↔
      (∃ browser, dataset.browser name = .ok browser) ∧
        (1 < low.toList.count '.' ∨ 1 < high.toList.count '.') := by
  constructor
  · rintro ⟨⟩
    rename_i browser known points
    exact ⟨⟨browser, known⟩, points⟩
  · rintro ⟨⟨browser, known⟩, points⟩
    exact .range known points

/-- An answer to what may be misconverted: the fault of a bad value if it is, settled if not. -/
def Judged (misconverted : Prop) (answer : Except TargetFault (List Target)) : Prop :=
  (misconverted ∧ ∃ fault, answer = .error fault ∧ fault.className = "ValueError") ∨
    (¬misconverted ∧ IsSettled answer)

theorem readNumber_cases {limit : String} (isText : isVersionText limit.toList = true) :
    (limit.toList.count '.' ≤ 1 ∧ ∃ number, readNumber limit = .ok number) ∨
      (1 < limit.toList.count '.' ∧ readNumber limit = .error (.badNumber limit)) := by
  by_cases short : limit.toList.count '.' ≤ 1
  · exact .inl ⟨short, (exists_readNumber_iff isText).2 short⟩
  · refine .inr ⟨Nat.lt_of_not_le short, ?_⟩
    have none := (exists_readNumber_iff isText).not.2 short
    unfold readNumber at none ⊢
    cases read : Binary64.read? limit.toList with
    | none => rfl
    | some number =>
        rw [read] at none
        exact absurd ⟨number, rfl⟩ none

section

variable {dataset : Dataset} (layout : dataset.NamesBrowsers)

include layout

theorem browser_cases (name : String) :
    (∃ browser, dataset.browser name = .ok browser) ∨
      dataset.browser name = .error (.unknownBrowser name) := by
  obtain ⟨known, answer⟩ := Dataset.exists_browsers layout
  unfold Dataset.browser
  rw [answer]
  dsimp only [Except.mapError, bind, Except.bind]
  split
  · exact .inl ⟨_, rfl⟩
  · split
    · exact .inl ⟨_, rfl⟩
    · exact .inr rfl

theorem exists_chosenOf (browser : String) (choice : List String → List String) :
    ∃ found, dataset.chosenOf browser choice = .ok found := by
  obtain ⟨versions, answer⟩ := Dataset.exists_versions layout browser
  unfold Dataset.chosenOf
  rw [releasedVersions_eq answer]
  exact ⟨_, rfl⟩

theorem exists_chosen (choice : String → List BrowserVersion → List BrowserVersion) :
    ∃ found, dataset.chosen choice = .ok found := by
  obtain ⟨browsers, known⟩ := Dataset.exists_browsers layout
  have answers : ∀ browser ∈ browsers, ∃ found,
      ((dataset.versions (display browser)).mapError TargetFault.data >>= fun versions =>
        pure ((choice (display browser) (versions.filter BrowserVersion.released)).map
          (⟨display browser, ·.version⟩ : BrowserVersion → Target))) = .ok found := by
    intro browser _
    obtain ⟨versions, answer⟩ := Dataset.exists_versions layout (display browser)
    rw [answer]
    exact ⟨_, rfl⟩
  obtain ⟨rows, each⟩ := exists_mapM answers
  unfold Dataset.chosen
  rw [known]
  dsimp only [Except.mapError, bind, Except.bind] at each ⊢
  rw [each]
  exact ⟨rows.flatten, rfl⟩

/-- A name is that of a browser, or the query is refused for it. -/
theorem isSettled_browser {name : String} {next : String → Except TargetFault (List Target)}
    (settled : ∀ browser, dataset.browser name = .ok browser → IsSettled (next browser)) :
    IsSettled (dataset.browser name >>= next) := by
  rcases browser_cases layout name with ⟨browser, known⟩ | unknown
  · rw [known]
    exact settled browser known
  · rw [unknown]
    exact .inr ⟨_, rfl, rfl⟩

/-- Numbers are converted after the name is looked up, so only for browsers that are known. -/
theorem judged_browser {name : String} {next : String → Except TargetFault (List Target)}
    {misconverted : Prop} (isKnown : misconverted → ∃ browser, dataset.browser name = .ok browser)
    (judged : ∀ browser, dataset.browser name = .ok browser → Judged misconverted (next browser)) :
    Judged misconverted (dataset.browser name >>= next) := by
  rcases browser_cases layout name with ⟨browser, known⟩ | unknown
  · rw [known]
    exact judged browser known
  · refine .inr ⟨?_, ?_⟩
    · intro misconverts
      obtain ⟨browser, known⟩ := isKnown misconverts
      rw [unknown] at known
      cases known
    · rw [unknown]
      exact .inr ⟨_, rfl, rfl⟩

theorem selectPlain_of_layout {query : Query} (captures : query.Captures) :
    Judged (dataset.Misconverts query) (dataset.selectPlain query) := by
  have chosen (choice) : IsSettled (dataset.chosen choice) := .inl (exists_chosen layout choice)
  have chosenOf (browser choice) : IsSettled (dataset.chosenOf browser choice) :=
    .inl (exists_chosenOf layout browser choice)
  cases query with
  | defaults => exact .inr ⟨nofun, .inl ⟨[], rfl⟩⟩
  | dead =>
      unfold Dataset.selectPlain
      exact .inr ⟨nofun, chosen _⟩
  | extendedSupport =>
      exact .inr ⟨nofun, isSettled_browser layout fun browser _ => chosenOf browser _⟩
  | usage comparison limit =>
      obtain ⟨isText, short⟩ := captures.usage comparison limit rfl
      obtain ⟨number, answer⟩ := (exists_readNumber_iff isText).2 short
      unfold Dataset.selectPlain
      dsimp only
      rw [answer]
      dsimp only [Except.mapError, bind, Except.bind]
      exact .inr ⟨nofun, chosen _⟩
  | last count =>
      unfold Dataset.selectPlain
      exact .inr ⟨nofun, chosen _⟩
  | lastOf count name =>
      exact .inr ⟨nofun, isSettled_browser layout fun browser _ => chosenOf browser _⟩
  | longCount digits =>
      exact .inl ⟨.count (captures.count digits rfl), _, rfl, rfl⟩
  | compared name comparison limit =>
      rw [misconverts_compared]
      refine judged_browser layout And.left fun browser known => ?_
      rcases readNumber_cases (captures.compared _ _ _ rfl) with
        ⟨short, number, answer⟩ | ⟨long, answer⟩
      · rw [answer]
        refine .inr ⟨?_, chosenOf browser _⟩
        rintro ⟨-, points⟩
        omega
      · rw [answer]
        exact .inl ⟨⟨⟨browser, known⟩, long⟩, _, rfl, rfl⟩
  | between name low high =>
      rw [misconverts_between]
      refine judged_browser layout And.left fun browser known => ?_
      obtain ⟨isLow, isHigh⟩ := captures.between _ _ _ rfl
      -- The lower limit is converted first, and its fault is the one that comes out.
      rcases readNumber_cases isLow with ⟨shortLow, lowest, answer⟩ | ⟨long, answer⟩
      · rw [answer]
        rcases readNumber_cases isHigh with ⟨shortHigh, highest, answer⟩ | ⟨long, answer⟩
        · rw [answer]
          refine .inr ⟨?_, chosenOf browser _⟩
          rintro ⟨-, points⟩
          omega
        · rw [answer]
          exact .inl ⟨⟨⟨browser, known⟩, .inr long⟩, _, rfl, rfl⟩
      · rw [answer]
        exact .inl ⟨⟨⟨browser, known⟩, .inl long⟩, _, rfl, rfl⟩
  | exact name version =>
      refine .inr ⟨nofun, isSettled_browser layout fun browser _ => ?_⟩
      obtain ⟨found, answer⟩ := exists_chosenOf layout browser fun versions =>
        versions.filter (namesVersion (lowercase version))
      rw [answer]
      dsimp only [bind, Except.bind]
      split
      · exact .inr ⟨_, rfl, rfl⟩
      · exact .inl ⟨found, rfl⟩
  | unreadable text => exact .inr ⟨nofun, .inr ⟨_, rfl, rfl⟩⟩

end

/-! Rows of clauses -/

section

variable {select : Query → Except TargetFault (List Target)} {row : List Clause}

theorem isSettled_selectClauses (each : ∀ clause ∈ row, IsSettled (select clause.query))
    (selected : List Target) : IsSettled (Dataset.selectClauses select row selected) := by
  induction row generalizing selected with
  | nil => exact .inl ⟨selected, rfl⟩
  | cons clause rest ih =>
      obtain ⟨settled, behind⟩ := List.forall_mem_cons.1 each
      rw [Dataset.selectClauses]
      rcases settled with ⟨found, answer⟩ | ⟨fault, answer, isQuery⟩
      · rw [answer]
        exact ih behind _
      · rw [answer]
        exact .inr ⟨fault, rfl, isQuery⟩

/-- A row fails as the first of its clauses that is not answered. -/
theorem selectClauses_eq_error {selected : List Target} {fault : TargetFault} :
    Dataset.selectClauses select row selected = .error fault ↔
      ∃ before clause after, row = before ++ clause :: after ∧
        (∀ earlier ∈ before, ∃ found, select earlier.query = .ok found) ∧
        select clause.query = .error fault := by
  constructor
  · intro ran
    -- What was selected before the failing clause does not matter, so it is left free.
    induction row generalizing selected with
    | nil => cases ran
    | cons first rest ih =>
        rw [Dataset.selectClauses] at ran
        cases answer : select first.query with
        | error other =>
            rw [answer] at ran
            obtain rfl := Except.error.inj ran
            exact ⟨[], first, rest, rfl, List.forall_mem_nil _, answer⟩
        | ok found =>
            rw [answer] at ran
            obtain ⟨before, clause, after, rfl, answered, fails⟩ := ih ran
            exact ⟨first :: before, clause, after, rfl,
              List.forall_mem_cons.2 ⟨⟨found, answer⟩, answered⟩, fails⟩
  · rintro ⟨before, clause, after, rfl, answered, fails⟩
    induction before generalizing selected with
    | nil =>
        rw [List.nil_append, Dataset.selectClauses, fails]
        rfl
    | cons first before ih =>
        obtain ⟨⟨found, answer⟩, behind⟩ := List.forall_mem_cons.1 answered
        rw [List.cons_append, Dataset.selectClauses, answer]
        exact ih behind

theorem resolve_eq_error {dataset : Dataset} {queries : List String} {fault : TargetFault} :
    resolve dataset queries = .error fault ↔
      Dataset.selectClauses dataset.select (queries.flatMap clauses) [] = .error fault := by
  unfold resolve
  cases Dataset.selectClauses dataset.select (queries.flatMap clauses) [] with
  | ok selected => exact iff_of_false nofun nofun
  | error other => exact Iff.rfl

theorem not_isSettled_iff {answer : Except TargetFault (List Target)} :
    ¬IsSettled answer ↔
      ∃ fault, answer = .error fault ∧ fault.className ≠ "TargetQueryError" := by
  cases answer with
  | ok found =>
      refine iff_of_false (not_not.2 (.inl ⟨found, rfl⟩)) ?_
      rintro ⟨_, failed, -⟩
      cases failed
  | error fault => simp [IsSettled]

end

theorem settled_default {clause : Clause} (isDefault : clause ∈ defaultClauses) (dataset : Dataset) :
    clause.query.Captures ∧ ¬dataset.Misconverts clause.query := by
  have share : isVersionText "0.5".toList = true ∧ "0.5".toList.count '.' ≤ 1 := by decide
  simp only [defaultClauses, List.mem_cons, List.not_mem_nil, or_false] at isDefault
  rcases isDefault with rfl | rfl | rfl | rfl
  · refine ⟨⟨nofun, ?_, nofun, nofun⟩, nofun⟩
    rintro _ _ same
    obtain ⟨-, rfl⟩ := Query.usage.inj same
    exact share
  · exact ⟨⟨nofun, nofun, nofun, nofun⟩, nofun⟩
  · exact ⟨⟨nofun, nofun, nofun, nofun⟩, nofun⟩
  · exact ⟨⟨nofun, nofun, nofun, nofun⟩, nofun⟩

section

variable {dataset : Dataset} (layout : dataset.NamesBrowsers)

include layout

theorem select_of_layout {query : Query} (captures : query.Captures) :
    Judged (dataset.Misconverts query) (dataset.select query) := by
  by_cases isDefaults : query = .defaults
  · subst isDefaults
    refine .inr ⟨nofun, isSettled_selectClauses (fun clause isDefault => ?_) []⟩
    obtain ⟨captured, converts⟩ := settled_default isDefault dataset
    rcases selectPlain_of_layout layout captured with ⟨misconverts, -⟩ | ⟨-, settled⟩
    · exact absurd misconverts converts
    · exact settled
  · rw [select_eq_selectPlain isDefaults]
    exact selectPlain_of_layout layout captures

/-- What the error is if a clause of some queries fails. -/
theorem select_eq_error {queries : List String} {clause : Clause} {fault : TargetFault}
    (here : clause ∈ queries.flatMap clauses) (fails : dataset.select clause.query = .error fault) :
    (dataset.Misconverts clause.query ∧ fault.className = "ValueError") ∨
      (¬dataset.Misconverts clause.query ∧ fault.className = "TargetQueryError") := by
  obtain ⟨text, -, isClause⟩ := List.mem_flatMap.1 here
  rcases select_of_layout layout (captures_of_mem isClause) with
    ⟨misconverts, other, answer, isValue⟩ | ⟨converts, ⟨found, answer⟩ | ⟨other, answer, isQuery⟩⟩
  · rw [fails] at answer
    obtain rfl := Except.error.inj answer
    exact .inl ⟨misconverts, isValue⟩
  · rw [fails] at answer
    cases answer
  · rw [fails] at answer
    obtain rfl := Except.error.inj answer
    exact .inr ⟨converts, isQuery⟩

/--
Against data in the documented layout, queries are answered or refused as queries, unless the first
clause that is not answered is misconverted; then, and only then, another error comes out.
-/
theorem not_isSettled_resolve_iff (queries : List String) :
    (¬IsSettled (resolve dataset queries) ↔
      ∃ before clause after, queries.flatMap clauses = before ++ clause :: after ∧
        (∀ earlier ∈ before, ∃ found, dataset.select earlier.query = .ok found) ∧
        dataset.Misconverts clause.query) ∧
      ∀ fault, resolve dataset queries = .error fault →
        fault.className = "TargetQueryError" ∨ fault.className = "ValueError" := by
  constructor
  · rw [not_isSettled_iff]
    constructor
    · rintro ⟨fault, failed, notQuery⟩
      obtain ⟨before, clause, after, whole, answered, fails⟩ :=
        selectClauses_eq_error.1 (resolve_eq_error.1 failed)
      refine ⟨before, clause, after, whole, answered, ?_⟩
      rcases select_eq_error layout (whole ▸ List.mem_append_right _ List.mem_cons_self) fails with
        ⟨misconverts, -⟩ | ⟨-, isQuery⟩
      · exact misconverts
      · exact absurd isQuery notQuery
    · rintro ⟨before, clause, after, whole, answered, misconverts⟩
      have here : clause ∈ queries.flatMap clauses :=
        whole ▸ List.mem_append_right _ List.mem_cons_self
      obtain ⟨text, -, isClause⟩ := List.mem_flatMap.1 here
      rcases select_of_layout layout (captures_of_mem isClause) with
        ⟨-, fault, fails, isValue⟩ | ⟨converts, -⟩
      · refine ⟨fault, resolve_eq_error.2 (selectClauses_eq_error.2
          ⟨before, clause, after, whole, answered, fails⟩), ?_⟩
        rw [isValue]
        decide
      · exact absurd misconverts converts
  · intro fault failed
    obtain ⟨before, clause, after, whole, -, fails⟩ :=
      selectClauses_eq_error.1 (resolve_eq_error.1 failed)
    rcases select_eq_error layout (whole ▸ List.mem_append_right _ List.mem_cons_self) fails with
      ⟨-, isValue⟩ | ⟨-, isQuery⟩
    · exact .inr isValue
    · exact .inl isQuery

end

theorem namesBrowsers_twoBrowsers : twoBrowsers.NamesBrowsers := by
  refine eachField_object fun field here => ?_
  simp only [List.mem_cons, List.not_mem_nil, or_false] at here
  rcases here with rfl | rfl
  · refine ⟨_, rfl, .inr ⟨rfl, ?_, nofun⟩⟩
    rintro named atVersions
    obtain rfl := Option.some.inj atVersions
    refine ⟨_, rfl, fun version inRow => .inr ?_⟩
    simp only [List.mem_cons, List.not_mem_nil, or_false] at inRow
    rcases inRow with rfl | rfl | rfl <;> exact ⟨_, rfl⟩
  · refine ⟨_, rfl, .inl ⟨_, rfl, fun entry inList => ?_⟩⟩
    simp only [List.mem_cons, List.not_mem_nil, or_false] at inList
    rcases inList with rfl | rfl <;> exact ⟨_, rfl, ⟨_, rfl, _, rfl⟩, nofun⟩

theorem browser_twoBrowsers :
    twoBrowsers.browser "chrome" = .ok "chrome" ∧ twoBrowsers.browser "ie" = .ok "ie" := by
  have browsers : twoBrowsers.browsers = .ok [.string "chrome", .string "ie"] := by cbv
  constructor <;>
  · unfold Dataset.browser
    rw [browsers]
    decide +kernel

theorem not_isSettled_resolve_twoBrowsers :
    twoBrowsers.NamesBrowsers ∧
      ¬IsSettled (resolve twoBrowsers ["ie 11, chrome >= 1.2.3", "dead"]) := by
  have cut : ["ie 11, chrome >= 1.2.3", "dead"].flatMap clauses =
      [⟨false, .exact "ie" "11"⟩, ⟨false, .compared "chrome" .atLeast "1.2.3"⟩, ⟨false, .dead⟩] := by
    decide +kernel
  have answered : twoBrowsers.select (.exact "ie" "11") = .ok [⟨"ie", "11"⟩] := by
    unfold Dataset.select Dataset.selectPlain
    dsimp only
    rw [browser_twoBrowsers.2]
    cbv
  refine ⟨namesBrowsers_twoBrowsers,
    (not_isSettled_resolve_iff namesBrowsers_twoBrowsers _).1.2
      ⟨[⟨false, .exact "ie" "11"⟩], ⟨false, .compared "chrome" .atLeast "1.2.3"⟩, [⟨false, .dead⟩],
        cut, ?_, .limit browser_twoBrowsers.1 (by decide)⟩⟩
  exact List.forall_mem_singleton.2 ⟨_, answered⟩

/-- A version with two points is compared as a number. -/
theorem resolve_two_points :
    twoBrowsers.NamesBrowsers ∧
      resolve twoBrowsers ["chrome >= 1.2.3"] = .error (.data (.badNumber "1.2.3")) ∧
      (TargetFault.data (.badNumber "1.2.3")).className ≠ "TargetQueryError" := by
  have cut : ["chrome >= 1.2.3"].flatMap clauses =
      [⟨false, .compared "chrome" .atLeast "1.2.3"⟩] := by
    decide +kernel
  have unread : readNumber "1.2.3" = .error (.badNumber "1.2.3") := by
    decide +kernel
  have fails : twoBrowsers.select (.compared "chrome" .atLeast "1.2.3") =
      .error (.data (.badNumber "1.2.3")) := by
    unfold Dataset.select Dataset.selectPlain
    dsimp only
    rw [browser_twoBrowsers.1, unread]
    rfl
  refine ⟨namesBrowsers_twoBrowsers, ?_, by decide⟩
  rw [resolve, cut, Dataset.selectClauses, fails]
  rfl

end SheetScript.Prefix
