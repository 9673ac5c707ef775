import SheetScript.Proofs.Prefix.Conversion

/-!
Requests for the last versions. `last 2 versions` selects the end of the released versions of every
browser, and `last 2 chrome versions` that of one; a request for no versions selects all of them.
-/

namespace SheetScript.Prefix

open SheetScript.Text

/-! Words -/

/-- Words in a row with blanks between them, and any blanks at the ends. -/
inductive Spaced : List String → List Char → Prop
  | blanks {gap : List Char} (blank : ∀ c ∈ gap, isBlank c = true) : Spaced [] gap
  | word {gap rest : List Char} {word : String} {words : List String}
      (blank : ∀ c ∈ gap, isBlank c = true) (some : word ≠ "")
      (dark : ∀ c ∈ word.toList, isBlank c = false)
      (apart : rest = [] ∨ rest.head?.any isBlank = true) (behind : Spaced words rest) :
      Spaced (word :: words) (gap ++ (word.toList ++ rest))

theorem fieldsAfter_blanks {gap : List Char} (blank : ∀ c ∈ gap, isBlank c = true)
    (rest : List Char) : fieldsAfter [] (gap ++ rest) = fieldsAfter [] rest := by
  induction gap with
  | nil => rfl
  | cons c gap ih =>
      obtain ⟨isGap, others⟩ := List.forall_mem_cons.1 blank
      rw [List.cons_append, fieldsAfter, if_pos isGap]
      exact ih others

theorem fieldsAfter_dark {word : List Char} (dark : ∀ c ∈ word, isBlank c = false)
    (before rest : List Char) :
    fieldsAfter before (word ++ rest) = fieldsAfter (word.reverse ++ before) rest := by
  induction word generalizing before with
  | nil => rfl
  | cons c word ih =>
      obtain ⟨isDark, others⟩ := List.forall_mem_cons.1 dark
      rw [List.cons_append, fieldsAfter, if_neg (Bool.eq_false_iff.1 isDark), ih others,
        List.reverse_cons, List.append_assoc, List.singleton_append]

theorem fieldsAfter_ends {word rest : List Char} (some : word ≠ [])
    (apart : rest = [] ∨ rest.head?.any isBlank = true) :
    fieldsAfter word rest = String.ofList word.reverse :: fieldsAfter [] rest := by
  have notEmpty : word.isEmpty = false := List.isEmpty_eq_false_iff.2 some
  cases rest with
  | nil => simp [fieldsAfter, notEmpty]
  | cons c rest =>
      have blank : isBlank c = true := apart.resolve_left (List.cons_ne_nil c rest)
      simp [fieldsAfter, notEmpty, blank]

theorem Spaced.fields_eq {words : List String} {text : List Char} (spaced : Spaced words text) :
    fields (String.ofList text) = words := by
  rw [fields, String.toList_ofList]
  induction spaced with
  | blanks blank =>
      have none := fieldsAfter_blanks blank []
      rwa [List.append_nil] at none
  | @word gap rest word words blank some dark apart _ ih =>
      have notEmpty : word.toList ≠ [] := fun empty => some (String.toList_eq_nil_iff.1 empty)
      rw [fieldsAfter_blanks blank, fieldsAfter_dark dark, List.append_nil,
        fieldsAfter_ends (mt List.reverse_eq_nil_iff.1 notEmpty) apart, ih, List.reverse_reverse,
        String.ofList_toList]

theorem fieldsAfter_append_blanks {gap : List Char} (blank : ∀ c ∈ gap, isBlank c = true)
    (before text : List Char) : fieldsAfter before (text ++ gap) = fieldsAfter before text := by
  have none := fieldsAfter_blanks blank []
  rw [List.append_nil] at none
  induction text generalizing before with
  | nil =>
      have apart : gap = [] ∨ gap.head?.any isBlank = true := by
        cases gap with
        | nil => exact .inl rfl
        | cons c gap => exact .inr (blank c List.mem_cons_self)
      cases before with
      | nil => exact none
      | cons c before =>
          have some : c :: before ≠ [] := List.cons_ne_nil c before
          rw [List.nil_append, fieldsAfter_ends some apart, fieldsAfter_ends some (.inl rfl), none]
  | cons c text ih => rw [List.cons_append, fieldsAfter, fieldsAfter, ih, ih]

theorem fields_trimChars (text : List Char) :
    fields (String.ofList (trimChars text)) = fields (String.ofList text) := by
  have front := List.takeWhile_append_dropWhile (p := isBlank) (l := text)
  have back := List.takeWhile_append_dropWhile (p := isBlank) (l := (trimStart text).reverse)
  have whole : trimChars text ++ ((trimStart text).reverse.takeWhile isBlank).reverse =
      trimStart text := by
    rw [trimChars, trimEnd, ← List.reverse_append, back, List.reverse_reverse]
  have before : ∀ c ∈ text.takeWhile isBlank, isBlank c = true :=
    List.all_eq_true.1 List.all_takeWhile
  have behind : ∀ c ∈ ((trimStart text).reverse.takeWhile isBlank).reverse, isBlank c = true :=
    fun c here => List.all_eq_true.1 List.all_takeWhile c (List.mem_reverse.1 here)
  rw [fields, fields, String.toList_ofList, String.toList_ofList,
    ← fieldsAfter_append_blanks behind, whole, ← fieldsAfter_blanks before]
  exact congrArg (fieldsAfter []) front

theorem trimEnd_cons {c : Char} (dark : isBlank c = false) (rest : List Char) :
    trimEnd (c :: rest) = c :: trimEnd rest := by
  unfold trimEnd
  rw [List.reverse_cons, List.dropWhile_append]
  split
  · rename_i allBlank
    rw [List.dropWhile_cons_of_neg (Bool.eq_false_iff.1 dark), List.isEmpty_iff.1 allBlank]
    rfl
  · rw [List.reverse_append]
    rfl

/-- Trimming leaves a row of words beginning with its first word. -/
theorem Spaced.trimChars_eq {word : String} {words : List String} {text : List Char}
    (spaced : Spaced (word :: words) text) {c : Char} {letters : List Char}
    (spelled : word.toList = c :: letters) : ∃ more, trimChars text = c :: more := by
  cases spaced with
  | @word gap rest _ _ blank some dark apart behind =>
      have isDark : isBlank c = false := dark c (spelled ▸ List.mem_cons_self)
      refine ⟨trimEnd (letters ++ rest), ?_⟩
      rw [trimChars, trimStart, List.dropWhile_append_of_pos blank, spelled, List.cons_append,
        List.dropWhile_cons_of_neg (Bool.eq_false_iff.1 isDark), trimEnd_cons isDark]

theorem Spaced.behind_blank {words : List String} {text : List Char} (spaced : Spaced words text)
    {c : Char} (isGap : isBlank c = true) : Spaced words (c :: text) := by
  cases spaced with
  | blanks blank => exact .blanks (List.forall_mem_cons.2 ⟨isGap, blank⟩)
  | @word gap rest _ _ blank some dark apart behind =>
      rw [← List.cons_append]
      exact .word (List.forall_mem_cons.2 ⟨isGap, blank⟩) some dark apart behind

theorem spaced_intercalate {words : List String}
    (plain : ∀ word ∈ words, word ≠ "" ∧ word.toList.any isBlank = false) :
    Spaced words ([' '].intercalate (words.map String.toList)) := by
  induction words with
  | nil => exact .blanks (List.forall_mem_nil _)
  | cons first rest ih =>
      obtain ⟨⟨some, noBlank⟩, others⟩ := List.forall_mem_cons.1 plain
      have dark : ∀ c ∈ first.toList, isBlank c = false := fun c here =>
        Bool.eq_false_iff.2 (List.any_eq_false.1 noBlank c here)
      cases rest with
      | nil =>
          rw [List.map_singleton, List.intercalate_singleton]
          have alone : Spaced [first] ([] ++ (first.toList ++ [])) :=
            .word (List.forall_mem_nil _) some dark (.inl rfl) (.blanks (List.forall_mem_nil _))
          rwa [List.append_nil] at alone
      | cons second rest =>
          rw [List.map_cons, List.map_cons, List.intercalate_cons_cons, ← List.map_cons,
            List.append_assoc, List.singleton_append]
          have isGap : isBlank ' ' = true := by decide
          exact @Spaced.word [] _ _ _ (List.forall_mem_nil _) some dark (.inr isGap)
            ((ih others).behind_blank isGap)

/-! Requests -/

/-- A request for the last versions: its count as written, and the name of the one browser it is about. -/
inductive AsksLast : String → Option String → List Char → Prop
  | every {word count versions : String} {text : List Char}
      (spaced : Spaced [word, count, versions] text) (isLast : isWordAnyCase "last" word = true)
      (isNumber : isCount count = true) (isVersions : isVersionsWord versions = true) :
      AsksLast count none text
  | one {word count name versions : String} {text : List Char}
      (spaced : Spaced [word, count, name, versions] text)
      (isLast : isWordAnyCase "last" word = true) (isNumber : isCount count = true)
      (isName : isBrowserWord name = true) (isVersions : isVersionsWord versions = true) :
      AsksLast count (some name) text

theorem toLower_eq {c : Char} (isSmall : c.toLower = 'l') : c = 'l' ∨ c = 'L' := by
  unfold Char.toLower at isSmall
  split at isSmall
  · have moved : c.val + 32 = 'L'.val + 32 := congrArg Char.val isSmall
    exact .inr (Char.ext ((UInt32.add_left_inj 32).1 moved))
  · exact .inl isSmall

theorem head_last {word : String} (isLast : isWordAnyCase "last" word = true) :
    ∃ c letters, word.toList = c :: letters ∧ (c = 'l' ∨ c = 'L') := by
  have spelled := eq_of_beq isLast
  cases letters : word.toList with
  | nil =>
      rw [letters] at spelled
      cases spelled
  | cons c rest =>
      rw [letters] at spelled
      have first : plainLetter c = 'l' := (List.cons.inj spelled).1
      refine ⟨c, rest, rfl, ?_⟩
      unfold plainLetter at first
      split at first
      · cases first
      · split at first
        · cases first
        · exact toLower_eq first

/-- A text that begins with `last` is no query of one word and no share. -/
theorem read_of_readWords? {text : String} {c : Char} {more : List Char} {query : Query}
    (begins : trimChars text.toList = c :: more) (isL : c = 'l' ∨ c = 'L')
    (long : 2 < (fields (String.ofList (trimChars text.toList))).length)
    (isRead : Query.readWords? (trimChars text.toList) = some query) : Query.read text = query := by
  have small : lowercase (String.ofList (trimChars text.toList)) =
      String.ofList ('l' :: lowercaseAfter [c] more) := by
    rw [begins, lowercase, String.toList_ofList, lowercaseAfter]
    rcases isL with rfl | rfl <;> rfl
  have notWord {word : String} (other : word.toList.head? ≠ some 'l') :
      ¬(lowercase (String.ofList (trimChars text.toList)) == word) = true := by
    intro same
    rw [small] at same
    rw [← eq_of_beq same, String.toList_ofList] at other
    exact other rfl
  have notSupport : Query.readExtendedSupport? (trimChars text.toList) = none := by
    unfold Query.readExtendedSupport?
    split
    · rename_i two
      rw [two] at long
      exact absurd long (Nat.lt_irrefl 2)
    · rfl
  have notUsage : Query.readUsage? (trimChars text.toList) = none := by
    rw [begins]
    rcases isL with rfl | rfl <;> rfl
  unfold Query.read
  dsimp only
  rw [if_neg (notWord (by decide)), if_neg (notWord (by decide)), notSupport, notUsage, isRead]
  rfl

def Query.lastOfName : Option String → Nat → Query
  | none => .last
  | some name => (.lastOf · name)

theorem AsksLast.read_eq {count : String} {name : Option String} {text : String}
    (asks : AsksLast count name text.toList) :
    Query.read text = Query.counted count (.lastOfName name) := by
  cases asks with
  | @every word _ versions _ spaced isLast isNumber isVersions =>
      obtain ⟨c, letters, spelled, isL⟩ := head_last isLast
      obtain ⟨more, begins⟩ := spaced.trimChars_eq spelled
      have words : fields (String.ofList (trimChars text.toList)) = [word, count, versions] := by
        rw [fields_trimChars, spaced.fields_eq]
      refine read_of_readWords? begins isL (by simp [words]) ?_
      rw [Query.readWords?, words]
      simp [isLast, isNumber, isVersions, Query.lastOfName]
  | @one word _ name versions _ spaced isLast isNumber isName isVersions =>
      obtain ⟨c, letters, spelled, isL⟩ := head_last isLast
      obtain ⟨more, begins⟩ := spaced.trimChars_eq spelled
      have words : fields (String.ofList (trimChars text.toList)) =
          [word, count, name, versions] := by
        rw [fields_trimChars, spaced.fields_eq]
      refine read_of_readWords? begins isL (by simp [words]) ?_
      rw [Query.readWords?, words]
      simp [isLast, isNumber, isName, isVersions, Query.lastOfName]

/-! Browsers -/

namespace Dataset

variable {dataset : Dataset}

/-- A browser of the data by its own name in small letters, or else by another usual name. -/
inductive Known (dataset : Dataset) (name : String) : String → Prop
  | own {browsers : List Json} (read : dataset.browsers = .ok browsers)
      (here : .string (lowercase name) ∈ browsers) : Known dataset name (lowercase name)
  | other {browsers : List Json} {browser : String} (read : dataset.browsers = .ok browsers)
      (absent : .string (lowercase name) ∉ browsers)
      (isAlias : browserAliases.get? (lowercase name) = some browser)
      (here : .string browser ∈ browsers) : Known dataset name browser

theorem any_string_iff {browsers : List Json} {name : String} :
    (browsers.any fun
      | .string browser => browser == name
      | _ => false) = true ↔ .string name ∈ browsers := by
  rw [List.any_eq_true]
  constructor
  · rintro ⟨item, inside, same⟩
    cases item with
    | string text =>
        rw [← eq_of_beq same]
        exact inside
    | _ => cases same
  · exact fun inside => ⟨.string name, inside, beq_self_eq_true name⟩

theorem browser_eq_ok_iff {name browser : String} :
    dataset.browser name = .ok browser ↔ dataset.Known name browser := by
  constructor
  · intro found
    obtain ⟨browsers, read, found⟩ := ok_of_bind found
    have read := ok_of_mapError read
    -- A name of the data is looked for first, and an alias of one only behind that.
    dsimp only at found
    split at found
    · rename_i here
      obtain rfl := Except.ok.inj found
      exact .own read (any_string_iff.1 here)
    · rename_i absent
      split at found
      · rename_i other isAlias
        obtain rfl := Except.ok.inj found
        obtain ⟨isAlias, here⟩ := Option.filter_eq_some_iff.1 isAlias
        exact .other read (mt any_string_iff.2 absent) isAlias (any_string_iff.1 here)
      · cases found
  · intro known
    unfold Dataset.browser
    cases known with
    | own read here =>
        rw [read]
        exact if_pos (any_string_iff.2 here)
    | other read absent isAlias here =>
        rw [read]
        refine (if_neg (mt any_string_iff.1 absent)).trans ?_
        split
        · rename_i found same
          rw [isAlias] at same
          rw [← Option.some.inj (Option.filter_eq_some_iff.1 same).1]
          rfl
        · rename_i none
          exact absurd (any_string_iff.2 here) (Option.filter_eq_none_iff.1 none browser isAlias)

/-! Versions -/

theorem versions_of_releasedVersions {browser : String} {row : List String}
    (found : dataset.releasedVersions browser = .ok row) :
    ∃ versions, dataset.versions browser = .ok versions ∧
      row = (versions.filter BrowserVersion.released).map BrowserVersion.version := by
  obtain ⟨versions, answer, same⟩ := ok_of_bind found
  exact ⟨versions, answer, (Except.ok.inj same).symm⟩

/-- The browsers that a request is about, with the released versions of each. -/
inductive Covers (dataset : Dataset) (released : String → List String) :
    Option String → List String → Prop
  | every {browsers : List String} (read : dataset.browsers = .ok (browsers.map .string))
      (versions : ∀ browser ∈ browsers,
        dataset.releasedVersions browser = .ok (released browser)) :
      Covers dataset released none browsers
  | one {name browser : String} (known : dataset.Known name browser)
      (versions : dataset.releasedVersions browser = .ok (released browser)) :
      Covers dataset released (some name) [browser]

variable {released : String → List String} {name : Option String} {browsers : List String}

theorem exists_names {browsers : List Json}
    (texts : ∀ browser ∈ browsers, ∃ text, browser = .string text) :
    ∃ names : List String, browsers = names.map .string := by
  induction browsers with
  | nil => exact ⟨[], rfl⟩
  | cons browser rest ih =>
      obtain ⟨⟨text, rfl⟩, others⟩ := List.forall_mem_cons.1 texts
      obtain ⟨names, rfl⟩ := ih others
      exact ⟨text :: names, rfl⟩

/-- In data of the documented layout every browser can be asked for its versions. -/
theorem exists_covers (layout : dataset.NamesBrowsers)
    (known : ∀ one, name = some one → ∃ browser, dataset.Known one browser) :
    ∃ released browsers, dataset.Covers released name browsers := by
  have each (browser : String) : ∃ row, dataset.releasedVersions browser = .ok row := by
    obtain ⟨versions, found⟩ := exists_versions layout browser
    exact ⟨_, releasedVersions_eq found⟩
  choose released versions using each
  cases name with
  | some one =>
      obtain ⟨browser, isKnown⟩ := known one rfl
      exact ⟨released, [browser], .one isKnown (versions browser)⟩
  | none =>
      obtain ⟨browsers, read⟩ := exists_browsers layout
      obtain ⟨row, found⟩ := exists_versions layout ""
      obtain ⟨names, rfl⟩ := exists_names (browsers_of_versions found read)
      exact ⟨released, names, .every read fun browser _ => versions browser⟩

theorem lastItems_map {α β : Type} (change : α → β) (count : Nat) (row : List α) :
    lastItems count (row.map change) = (lastItems count row).map change := by
  unfold lastItems
  split
  · rfl
  · rw [List.length_map, List.map_drop]

theorem selectPlain_lastOfName (covers : dataset.Covers released name browsers) (count : Nat) :
    dataset.selectPlain (.lastOfName name count) = .ok (browsers.flatMap fun browser =>
      (lastItems count (released browser)).map (⟨browser, ·⟩)) := by
  cases covers with
  | @one one browser known versions =>
      have found := browser_eq_ok_iff.2 known
      change (do dataset.chosenOf (← dataset.browser one) (lastItems count)) = _
      rw [found, List.flatMap_singleton]
      change dataset.chosenOf browser (lastItems count) = _
      rw [chosenOf, versions]
      rfl
  | every read versions =>
      change dataset.chosen (fun _ row => lastItems count row) = _
      rw [chosen, read]
      dsimp only [Except.mapError, bind, Except.bind]
      rw [List.mapM_map, mapM_eq_ok fun browser =>
        (lastItems count (released browser)).map (⟨browser, ·⟩)]
      · rfl
      · intro browser inside
        obtain ⟨row, found, same⟩ := versions_of_releasedVersions (versions browser inside)
        rw [same, lastItems_map, List.map_map]
        change (dataset.versions browser).mapError TargetFault.data >>= _ = _
        rw [found]
        rfl

theorem covers_of_selectPlain {count : Nat} {found : List Target}
    (answer : dataset.selectPlain (.lastOfName name count) = .ok found) :
    ∃ released browsers, dataset.Covers released name browsers := by
  cases name with
  | some one =>
      obtain ⟨browser, isBrowser, answer⟩ := ok_of_bind answer
      obtain ⟨row, versions, -⟩ := ok_of_bind answer
      exact ⟨fun _ => row, [browser], .one (browser_eq_ok_iff.1 isBrowser) (ok_of_mapError versions)⟩
  | none =>
      obtain ⟨browsers, read, answer⟩ := ok_of_bind answer
      obtain ⟨rows, each, -⟩ := ok_of_bind answer
      have read := ok_of_mapError read
      have answered : ∀ browser ∈ browsers, ∃ versions,
          dataset.versions (display browser) = .ok versions := by
        intro browser inside
        obtain ⟨result, answer⟩ := answers_of_mapM each browser inside
        obtain ⟨versions, found, -⟩ := ok_of_bind answer
        exact ⟨versions, ok_of_mapError found⟩
      -- A browser that has versions is named by a text.
      have texts : ∀ browser ∈ browsers, ∃ text, browser = .string text := by
        intro browser inside
        obtain ⟨versions, found⟩ := answered browser inside
        exact browsers_of_versions found read browser inside
      obtain ⟨names, rfl⟩ := exists_names texts
      have released : ∀ browser, ∃ row, browser ∈ names →
          dataset.releasedVersions browser = .ok row := by
        intro browser
        by_cases inside : browser ∈ names
        · obtain ⟨versions, found⟩ := answered _ (List.mem_map_of_mem inside)
          exact ⟨_, fun _ => releasedVersions_eq found⟩
        · exact ⟨[], fun here => absurd here inside⟩
      choose released versions using released
      exact ⟨released, names, .every read versions⟩

end Dataset

/-! Answers -/

theorem mem_lastItems {α : Type} {count : Nat} (some : count ≠ 0) {row : List α} {item : α} :
    item ∈ lastItems count row ↔
      ∃ final, final <:+ row ∧ final.length = min count row.length ∧ item ∈ final := by
  rw [lastItems, if_neg some]
  constructor
  · intro inside
    refine ⟨_, List.drop_suffix _ row, ?_, inside⟩
    rw [List.length_drop]
    omega
  · rintro ⟨final, isEnd, length, inside⟩
    have same : row.length - count = row.length - final.length := by omega
    rwa [same, ← List.suffix_iff_eq_drop.1 isEnd]

theorem select_counted {dataset : Dataset} {count : String} (name : Option String) :
    dataset.select (.counted count (.lastOfName name)) =
      if Json.integerLimit < count.length then .error (.data (.countTooLong count.length))
      else dataset.selectPlain (.lastOfName name (digitsValue count.toList)) := by
  unfold Query.counted
  split
  · rfl
  · cases name <;> rfl

/--
A request for the last versions of every browser or of one. It selects, of each browser it is about,
the end of the row of released versions, as long as the count says or the whole row; but no versions
at all are taken for all of them, and a count of too many digits is none. It is answered if the data
can be read that far, as data of the documented layout always can.
-/
theorem select_lastVersions {dataset : Dataset} {count text : String} {name : Option String}
    (asks : AsksLast count name text.toList) :
    (count.length ≤ Json.integerLimit →
      (∀ released browsers, dataset.Covers released name browsers →
        ∃ found, dataset.select (.read text) = .ok found ∧ ∀ target, target ∈ found ↔
          target.browser ∈ browsers ∧
            if digitsValue count.toList = 0 then target.version ∈ released target.browser
            else ∃ final, final <:+ released target.browser ∧
              final.length = min (digitsValue count.toList) (released target.browser).length ∧
              target.version ∈ final) ∧
      ∀ found, dataset.select (.read text) = .ok found →
        ∃ released browsers, dataset.Covers released name browsers) ∧
    (dataset.NamesBrowsers → (∀ one, name = some one → ∃ browser, dataset.Known one browser) →
      ∃ released browsers, dataset.Covers released name browsers) ∧
    (Json.integerLimit < count.length →
      dataset.select (.read text) = .error (.data (.countTooLong count.length))) := by
  rw [asks.read_eq, select_counted]
  refine ⟨fun short => ?_, Dataset.exists_covers, fun long => if_pos long⟩
  rw [if_neg (Nat.not_lt.2 short)]
  refine ⟨fun released browsers covers => ⟨_, Dataset.selectPlain_lastOfName covers _, ?_⟩,
    fun found => Dataset.covers_of_selectPlain⟩
  intro target
  -- Each browser adds the end of its own row, so only the row of the target counts.
  have inRow : target ∈ (browsers.flatMap fun browser =>
      (lastItems (digitsValue count.toList) (released browser)).map (Target.mk browser)) ↔
        target.browser ∈ browsers ∧
          target.version ∈ lastItems (digitsValue count.toList) (released target.browser) := by
    rw [List.mem_flatMap]
    constructor
    · rintro ⟨browser, isBrowser, inside⟩
      obtain ⟨version, isVersion, rfl⟩ := List.mem_map.1 inside
      exact ⟨isBrowser, isVersion⟩
    · rintro ⟨isBrowser, isVersion⟩
      exact ⟨target.browser, isBrowser, List.mem_map.2 ⟨target.version, isVersion, rfl⟩⟩
  rw [inRow]
  refine and_congr_right fun _ => ?_
  split
  · rename_i none
    rw [none, lastItems, if_pos rfl]
  · rename_i some
    exact mem_lastItems some

def twoReleased (browser : String) : List String :=
  if browser = "ie" then ["9", "10", "11"] else ["4"]

theorem covers_twoBrowsers : twoBrowsers.Covers twoReleased none ["chrome", "ie"] := by
  refine .every (by cbv) ?_
  intro browser inside
  simp only [List.mem_cons, List.not_mem_nil, or_false] at inside
  rcases inside with rfl | rfl <;> cbv

theorem asksLast_words {count : String} (isNumber : isCount count = true) (some : count ≠ "")
    (noBlank : count.toList.any isBlank = false) :
    AsksLast count none ([' '].intercalate (["last", count, "versions"].map String.toList)) := by
  refine .every (spaced_intercalate ?_) (by decide) isNumber (by decide)
  intro word inside
  simp only [List.mem_cons, List.not_mem_nil, or_false] at inside
  rcases inside with rfl | rfl | rfl
  · decide
  · exact ⟨some, noBlank⟩
  · decide

/-- Of `chrome` there is one version only, and one that is not released; of `ie` there are three. -/
theorem select_lastVersions_twoBrowsers :
    AsksLast "2" none "last 2 versions".toList ∧
      ∃ found, twoBrowsers.select (.read "last 2 versions") = .ok found ∧
        ⟨"chrome", "4"⟩ ∈ found ∧ ⟨"chrome", "TP"⟩ ∉ found ∧
        ⟨"ie", "11"⟩ ∈ found ∧ ⟨"ie", "9"⟩ ∉ found := by
  have asks : AsksLast "2" none "last 2 versions".toList :=
    asksLast_words (by decide) (by decide) (by decide)
  obtain ⟨found, answer, selected⟩ :=
    ((select_lastVersions asks).1 (by decide)).1 _ _ covers_twoBrowsers
  have value : digitsValue "2".toList = 2 := by decide
  simp only [value, if_neg (Nat.succ_ne_zero 1), ← mem_lastItems (Nat.succ_ne_zero 1)] at selected
  refine ⟨asks, found, answer, ?_⟩
  simp only [selected]
  decide

/-- A request for no versions selects every one. -/
theorem select_zero_versions :
    AsksLast "0" none "last 0 versions".toList ∧ digitsValue "0".toList = 0 ∧
      twoBrowsers.releasedVersions "ie" = .ok ["9", "10", "11"] ∧
      ∃ found, twoBrowsers.select (.read "last 0 versions") = .ok found ∧ ⟨"ie", "9"⟩ ∈ found ∧
        ¬∃ final, final <:+ ["9", "10", "11"] ∧ final.length = min 0 3 ∧ "9" ∈ final := by
  have asks : AsksLast "0" none "last 0 versions".toList :=
    asksLast_words (by decide) (by decide) (by decide)
  refine ⟨asks, by decide, by cbv, ?_⟩
  rw [asks.read_eq, select_counted, if_neg (by decide),
    Dataset.selectPlain_lastOfName covers_twoBrowsers]
  refine ⟨_, rfl, by decide, ?_⟩
  rintro ⟨final, -, none, inside⟩
  rw [List.length_eq_zero_iff.1 none] at inside
  cases inside

end SheetScript.Prefix
