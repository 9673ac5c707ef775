import SheetScript.Proofs.Css.WrittenText
import SheetScript.Proofs.Css.WrittenValues
import SheetScript.Proofs.Prefix.Insertion

/-!
What a declaration needs before it: the value that it has, with a vendor's name before its own, or
the older names of its value.
-/

namespace SheetScript.Prefix

open SheetScript.Css SheetScript.Text

section

variable {ε α β : Type} {f : α → Except ε (Option β)}

theorem mem_of_filterMapM {row : List α} {result : List β} (ran : row.filterMapM f = .ok result)
    {value : β} (inside : value ∈ result) : ∃ x ∈ row, f x = .ok (some value) := by
  have answers := answers_of_filterMapM ran
  choose! found answer using answers
  rw [filterMapM_eq_ok found answer] at ran
  obtain rfl := Except.ok.inj ran
  obtain ⟨x, inRow, isValue⟩ := List.mem_filterMap.1 inside
  exact ⟨x, inRow, by rw [answer x inRow, isValue]⟩

end

/-! Vendors -/

def vendors : List String := ["webkit", "moz", "ms"]

theorem vendor_of_prefixFor? {support : Json} {target : Target} {vendor : String}
    (found : Tables.prefixFor? support target = .ok (some vendor)) : vendor ∈ vendors := by
  have known : ∀ entry ∈ browserPrefixes, entry.2 ∈ vendors := by decide
  unfold Tables.prefixFor? at found
  obtain ⟨table, -, found⟩ := ok_of_bind found
  dsimp only at found
  split at found
  · cases found
  · obtain ⟨flags, -, found⟩ := ok_of_bind found
    obtain ⟨needed, -, found⟩ := ok_of_bind found
    cases needed with
    | false => cases found
    | true => exact known _ (mem_of_get? (Except.ok.inj found))

theorem vendor_of_vendorPrefixes {tables : Tables} {property : String} {found : List String}
    (answer : tables.vendorPrefixes property = .ok found) {vendor : String}
    (inside : vendor ∈ found) : vendor ∈ vendors ∧ property ∈ commonProperties := by
  unfold Tables.vendorPrefixes at answer
  split at answer
  · rename_i dataset feature _ isFeature
    have common : property ∈ commonProperties := by
      by_contra other
      rw [if_neg (by simpa using other)] at isFeature
      cases isFeature
    refine ⟨?_, common⟩
    obtain ⟨support, -, answer⟩ := ok_of_bind answer
    split at answer
    · obtain rfl := Except.ok.inj answer
      cases inside
    · obtain ⟨targets, -, answer⟩ := ok_of_bind answer
      obtain ⟨all, ran, answer⟩ := ok_of_bind answer
      obtain rfl := Except.ok.inj answer
      obtain ⟨target, -, isVendor⟩ := mem_of_filterMapM ran (List.mem_eraseDups.1 inside)
      exact vendor_of_prefixFor? (ok_of_mapError isVendor)
  · obtain rfl := Except.ok.inj answer
    cases inside

/-! Names -/

def isPlainName (name : String) : Bool :=
  startsIdent name.toList && name.toList.all isNameChar

theorem plainName_of_isPlainName {name : String} (plain : isPlainName name = true) :
    PlainName name.toList := by
  rw [isPlainName, Bool.and_eq_true, List.all_eq_true] at plain
  exact ⟨plain.1, plain.2⟩

theorem plainName_prefixed {vendor property : String} (isVendor : vendor ∈ vendors)
    (common : property ∈ commonProperties) : PlainName s!"-{vendor}-{property}".toList := by
  have starts : ∀ vendor ∈ vendors, vendor.toList.head?.any isNameStart = true := by decide
  have vendorChars : ∀ vendor ∈ vendors, vendor.toList.all isNameChar = true := by decide
  have propertyChars : ∀ property ∈ commonProperties, property.toList.all isNameChar = true := by
    decide +kernel
  have text : s!"-{vendor}-{property}".toList = '-' :: (vendor.toList ++ '-' :: property.toList) := by
    simp [toString]
  rw [text]
  constructor
  · obtain ⟨first, isFirst, isStart⟩ := (Option.any_eq_true _ _).1 (starts vendor isVendor)
    obtain ⟨rest, whole⟩ := List.head?_eq_some_iff.1 isFirst
    rw [whole, List.cons_append, startsIdent_cons]
    simp [isStart]
  · intro c here
    simp only [List.mem_cons, List.mem_append] at here
    rcases here with rfl | inVendor | rfl | inProperty
    · decide
    · exact List.all_eq_true.1 (vendorChars vendor isVendor) c inVendor
    · decide
    · exact List.all_eq_true.1 (propertyChars property common) c inProperty

theorem plainName_special {property value : String} {pair : String × String}
    (isSpecial : pair ∈ (((specialValues.get? property).getD []).get? value).getD []) :
    PlainName pair.1.toList ∧ PlainName pair.2.toList := by
  have all : ∀ values ∈ specialValues, ∀ entry ∈ values.2, ∀ pair ∈ entry.2,
      isPlainName pair.1 = true ∧ isPlainName pair.2 = true := by decide +kernel
  cases atProperty : specialValues.get? property with
  | none =>
      rw [atProperty] at isSpecial
      cases isSpecial
  | some values =>
      rw [atProperty, Option.getD_some] at isSpecial
      cases atValue : values.get? value with
      | none =>
          rw [atValue] at isSpecial
          cases isSpecial
      | some pairs =>
          rw [atValue] at isSpecial
          have plain := all _ (mem_of_get? atProperty) _ (mem_of_get? atValue) pair isSpecial
          exact ⟨plainName_of_isPlainName plain.1, plainName_of_isPlainName plain.2⟩

/-- Every declaration that is needed has a plain name, and the value at hand or a plain name. -/
theorem plain_of_prefixedDeclarations {tables : Tables} {property value : String}
    {needed : List (String × String)}
    (answer : tables.prefixedDeclarations property value = .ok needed) {pair : String × String}
    (inside : pair ∈ needed) :
    PlainName pair.1.toList ∧ (pair.2 = value ∨ PlainName pair.2.toList) := by
  unfold Tables.prefixedDeclarations at answer
  obtain ⟨vendors, found, answer⟩ := ok_of_bind answer
  obtain rfl := Except.ok.inj answer
  rcases List.mem_append.1 inside with plain | special
  · obtain ⟨vendor, isVendor, rfl⟩ := List.mem_map.1 plain
    obtain ⟨known, common⟩ := vendor_of_vendorPrefixes found isVendor
    exact ⟨plainName_prefixed known common, .inl rfl⟩
  · obtain ⟨plain, plainValue⟩ := plainName_special (List.mem_filter.1 special).1
    exact ⟨plain, .inr plainValue⟩

/-! Values -/

theorem isBlank_of_isBlankChar {c : Char} (blank : isBlankChar c = true) : isBlank c = true := by
  simp only [isBlankChar, Bool.or_eq_true, beq_iff_eq] at blank
  rcases blank with (rfl | rfl) | rfl <;> rfl

/-- A value is read from its text as it was: no two of its tokens merge, and nothing of it is cut. -/
structure IsClear (declaration : Declaration) : Prop where
  row : rowIsClear (tidy declaration.value) = true
  uncut : trimChars (write (tidy declaration.value)) = write (tidy declaration.value)

variable {tables : Tables} {source : List Char} {declaration : Declaration}

theorem valueText_of_clear (sound : RowSound declaration.value) (clear : IsClear declaration) :
    (valueText declaration).toList = write (tidy declaration.value) := by
  obtain ⟨lead, tail, whole, leadBlank, tailBlank⟩ := write_tidy sound clear.row
  have front : ∀ c ∈ lead, isBlank c = true :=
    fun c here => isBlank_of_isBlankChar (leadBlank c here)
  have back : ∀ c ∈ tail, isBlank c = true :=
    fun c here => isBlank_of_isBlankChar (tailBlank c here)
  have cut : trimChars (write declaration.value) = trimChars (write (tidy declaration.value)) := by
    change strip isBlank _ = strip isBlank _
    rw [whole, strip_tail back, strip_front front]
  rw [valueText, String.toList_ofList, cut, clear.uncut]

def entryOf (pair : String × String) : Entry :=
  ⟨pair.1.toList, tidy (components pair.2.toList)⟩

/-- The value of a declaration that is needed is the text of what it reads as. -/
structure Legible (important : Bool) (pair : String × String) : Prop where
  text : write (entryOf pair).value = pair.2.toList
  writable : Writable important (entryOf pair).name (entryOf pair).value

theorem legible_of_writable {important : Bool} {pair : String × String} {value : List Component}
    (writable : Writable important pair.1.toList value) (text : write value = pair.2.toList) :
    Legible important pair := by
  have read : (entryOf pair).value = value := by
    rw [entryOf, ← text]
    exact writable.tidy_components
  constructor
  · rw [read, text]
  · rw [read]
    exact writable

theorem legible_of_needs (clean : Clean source)
    (inSheet : declaration ∈ sheetDeclarations (components source))
    (clear : needs tables declaration ≠ [] → IsClear declaration) {pair : String × String}
    (inside : pair ∈ needs tables declaration) : Legible declaration.important pair := by
  have answer : ∃ added, prefixed tables declaration = .ok added := by
    unfold needs at inside
    cases answer : prefixed tables declaration with
    | error fault =>
        rw [answer] at inside
        cases inside
    | ok added => exact ⟨added, rfl⟩
  obtain ⟨plain, same | plainValue⟩ :=
    plain_of_prefixedDeclarations (prefixed_eq_needs answer) inside
  · have isClear := clear (List.ne_nil_of_mem inside)
    refine legible_of_writable (writable_of_declaration clean inSheet isClear.row plain) ?_
    rw [same, valueText_of_clear (rowSound_of_declaration clean inSheet) isClear]
  · exact legible_of_writable (writable_plainName _ plain plainValue) (write_plainName plainValue)

/-- The text of needed declarations is that of declarations written one after another. -/
theorem declarationsText_eq (gap : List Char) {important : Bool} {needed : List (String × String)}
    (legible : ∀ pair ∈ needed, Legible important pair) :
    declarationsText gap important needed =
      (needed.map entryOf).flatMap (entryText gap important) := by
  unfold declarationsText
  rw [List.flatMap_map]
  refine List.flatMap_congr fun pair inside => ?_
  unfold entryText declarationText
  rw [(legible pair inside).text]
  rfl

theorem clean_declarationsText {gap : List Char} (isSpacing : Spacing gap) {important : Bool}
    {needed : List (String × String)} (legible : ∀ pair ∈ needed, Legible important pair) :
    Clean (declarationsText gap important needed) := by
  have blank : Clean gap := fun c here => isClean_of (by decide) (isSpacing.blank c here)
  rw [declarationsText_eq gap legible]
  intro c here
  obtain ⟨entry, isEntry, inText⟩ := List.mem_flatMap.1 here
  obtain ⟨pair, inside, rfl⟩ := List.mem_map.1 isEntry
  have writable := (legible pair inside).writable
  have name : Clean (entryOf pair).name :=
    fun c here => isClean_of (by decide) (writable.name.chars c here)
  have mark : Clean (if important then " !important".toList else []) := by
    split
    · exact clean_of_all (by decide)
    · exact clean_of_all rfl
  have whole : Clean (entryText gap important (entryOf pair)) :=
    (((name.append (clean_of_all (by decide))).append
      (clean_writeAfter none _ writable.fits.sound)).append mark).append
        (.cons (by decide) blank)
  exact whole c inText

end SheetScript.Prefix
