import SheetScript.Css.Structure
import SheetScript.Proofs.Prefix.Needs

/-!
A prefixed style sheet, read again: every rule declares what it did, with the needed declarations
before the one that they are for.
-/

namespace SheetScript.Prefix

open SheetScript.Css SheetScript.Text

/-! What stands on a line before a declaration -/

def EndsInGap (front : List Char) : Prop :=
  ∀ lead, lead <:+ front → (∀ c ∈ lead, isBlank c = true) → ∀ c ∈ lead, isBlankChar c = true

theorem endsInGap_of_last {front : List Char} {last : Char} (isLast : front.getLast? = some last)
    (dark : isBlank last = false) : EndsInGap front := by
  intro lead isSuffix blank c here
  obtain ⟨before, rfl⟩ := isSuffix
  have notEmpty : lead ≠ [] := List.ne_nil_of_mem here
  rw [List.getLast?_append_of_ne_nil _ notEmpty] at isLast
  rw [blank last (List.mem_of_getLast? isLast)] at dark
  cases dark

theorem EndsInGap.append {front : List Char} (gap : EndsInGap front) {text : List Char}
    (blank : ∀ c ∈ text, isBlankChar c = true) : EndsInGap (front ++ text) := by
  intro lead isSuffix leadBlank
  rcases List.suffix_or_suffix_of_suffix isSuffix (List.suffix_append front text) with inside | longer
  · exact fun c here => blank c (inside.subset here)
  · obtain ⟨before, rfl⟩ := longer
    obtain ⟨start, whole⟩ := isSuffix
    rw [← List.append_assoc] at whole
    have inFront : before <:+ front := ⟨start, List.append_cancel_right whole⟩
    intro c here
    rcases List.mem_append.1 here with earlier | last
    · exact gap before inFront (fun c here => leadBlank c (List.mem_append_left _ here)) c earlier
    · exact blank c last

/-- Behind a token a declaration can begin only if the white space there is that of style sheets. -/
theorem endsInGap_token {front : List Char} {scanned : Scanned} {later : List Scanned}
    (read : tokens (scanned.text ++ later.flatMap Scanned.text) = scanned :: later)
    (followed : later ≠ []) {fresh : Bool} (starts : fresh = true → EndsInGap front)
    (fresh_after : scanned.token.freshAfter fresh = true) : EndsInGap (front ++ scanned.text) := by
  obtain ⟨c, more, found, -, readLater⟩ := found_of_tokens read
  have behind : later.flatMap Scanned.text ≠ [] := by
    intro nothing
    rw [nothing, tokens_nil] at readLater
    exact followed readLater.symm
  unfold Token.freshAfter at fresh_after
  rw [Bool.or_eq_true, Bool.and_eq_true] at fresh_after
  rw [found.text]
  rcases fresh_after with stop | ⟨gap, isFresh⟩
  · obtain ⟨isChar, rfl⟩ := found.stop stop
    refine endsInGap_of_last (List.getLast?_concat ..) ?_
    rcases stop_cases isChar with rfl | rfl | rfl <;> rfl
  · rw [← found.token] at gap
    rcases blank_or_comment_of_isGap gap with blank | ⟨inside, slash, star⟩
    · have run := found.run_of_blank blank
      exact (starts isFresh).append (blank_of_runLength (Nat.le_of_eq run.symm))
    · obtain ⟨body, closes, rfl⟩ := found.closes_of_comment slash star behind
      have last := getLast?_of_commentBody? closes
      have isLast : (front ++ c :: '*' :: body).getLast? = some '/' := by
        rw [List.getLast?_append_of_ne_nil _ (List.cons_ne_nil _ _), List.getLast?_cons,
          List.getLast?_cons, last]
        rfl
      exact endsInGap_of_last isLast rfl

theorem endsInGap_place {scanned : List Scanned} {front : List Char} {fresh : Bool} {offset : Nat}
    (read : tokens (scanned.flatMap Scanned.text) = scanned)
    (starts : fresh = true → EndsInGap front) {place : Nat}
    (here : (place, true) ∈ tokenPlaces fresh offset scanned) :
    EndsInGap (front ++ (scanned.flatMap Scanned.text).take (place - offset)) := by
  induction scanned generalizing front fresh offset with
  | nil => cases here
  | cons first later ih =>
      obtain ⟨c, more, -, -, readLater⟩ := found_of_tokens read
      rw [List.flatMap_cons] at read ⊢
      rcases mem_tokenPlaces_cons here with ⟨-, isFirst⟩ | behind
      · obtain ⟨rfl, isFresh⟩ := Prod.mk.inj isFirst
        rw [Nat.sub_self, List.take_zero, List.append_nil]
        exact starts isFresh.symm
      · have notEmpty : later ≠ [] := by
          rintro rfl
          cases behind
        have after := offset_le_of_tokenPlaces behind
        have onward := ih readLater (endsInGap_token read notEmpty starts) behind
        have split : place - offset = first.text.length + (place - (offset + first.text.length)) := by
          dsimp only at after
          omega
        rw [List.append_assoc] at onward
        rw [split, List.take_length_add_append]
        exact onward

variable {source : List Char} {declaration : Declaration}

theorem place_of_declaration (inSheet : declaration ∈ sheetDeclarations (components source)) :
    (declaration.offset, true) ∈ tokenPlaces false 0 (tokens source) := by
  rw [← rowPlaces_components]
  exact (places_declarationsIn true false (components source)).subset (List.mem_map_of_mem inSheet)

/-- What separates declarations is white space of style sheets. -/
theorem spacing_separator (inSheet : declaration ∈ sheetDeclarations (components source)) :
    Spacing (separator source declaration) := by
  unfold separator separatorAt
  dsimp only
  split
  · rename_i empty
    have blank := strip_eq_nil_iff.1 (List.isEmpty_iff.1 empty)
    have read : tokens ((tokens source).flatMap Scanned.text) = tokens source := by
      rw [flatMap_text_tokens]
    have nothing : false = true → EndsInGap [] := nofun
    have gap := endsInGap_place read nothing (place_of_declaration inSheet)
    rw [flatMap_text_tokens, List.nil_append, Nat.sub_zero] at gap
    refine ⟨List.cons_ne_nil _ _, fun c here => ?_⟩
    rcases List.mem_cons.1 here with rfl | inLead
    · rfl
    · exact gap _ (List.drop_suffix _ _) blank c inLead
  · exact ⟨List.cons_ne_nil _ _, forall_of_all (by decide)⟩

/-! Texts put in where declarations begin -/

/-- Texts put in only before names that can begin a declaration are put in token by token. -/
theorem woven_eq_putText {put : Nat → List Char} {scanned : List Scanned} {fresh : Bool}
    {offset : Nat} (read : tokens (scanned.flatMap Scanned.text) = scanned)
    (only : ∀ place, offset ≤ place → put place ≠ [] →
      (place, true) ∈ tokenPlaces fresh offset scanned) :
    woven (fun place => put (place + offset)) (scanned.flatMap Scanned.text) =
      putText put fresh offset scanned := by
  induction scanned generalizing fresh offset with
  | nil => rfl
  | cons first later ih =>
      -- The first token takes the text at its start; inside it there is none, by `only`.
      obtain ⟨c, more, found, -, readLater⟩ := found_of_tokens read
      have notEmpty : 0 < first.text.length := by
        rw [found.text]
        exact Nat.succ_pos _
      have behind : woven (fun place => put (place + (offset + first.text.length)))
          (later.flatMap Scanned.text) =
            putText put (first.token.freshAfter fresh) (offset + first.text.length) later := by
        refine ih readLater fun place after some => ?_
        rcases mem_tokenPlaces_cons (only place (by omega) some) with ⟨-, same⟩ | isLater
        · have same := (Prod.mk.inj same).1
          omega
        · exact isLater
      have before : put offset = putAt put fresh offset first.token := by
        unfold putAt
        split
        · rfl
        · rename_i notHere
          by_contra some
          rcases mem_tokenPlaces_cons (only offset (Nat.le_refl _) some) with ⟨isIdent, same⟩ | isLater
          · obtain ⟨-, rfl⟩ := Prod.mk.inj same
            exact notHere (by rw [isIdent]; rfl)
          · have after : offset + first.text.length ≤ offset := offset_le_of_tokenPlaces isLater
            omega
      have inside : woven (fun place => put (place + 1 + offset)) more = more := by
        refine woven_nothing fun place within => ?_
        by_contra some
        rcases mem_tokenPlaces_cons (only (place + 1 + offset) (by omega) some) with
          ⟨-, same⟩ | isLater
        · have same := (Prod.mk.inj same).1
          omega
        · have after : offset + first.text.length ≤ place + 1 + offset :=
            offset_le_of_tokenPlaces isLater
          rw [found.text, List.length_cons] at after
          omega
      have shift : (fun place => put (place + first.text.length + offset)) =
          fun place => put (place + (offset + first.text.length)) := by
        funext place
        rw [Nat.add_assoc, Nat.add_comm first.text.length]
      rw [List.flatMap_cons, woven_append, shift, behind, putText, ← before, found.text, woven_cons,
        inside, Nat.zero_add, List.append_assoc]

theorem clean_woven {put : Nat → List Char} {source : List Char} (clean : Clean source)
    (each : ∀ offset, Clean (put offset)) : Clean (woven put source) := by
  induction source generalizing put with
  | nil =>
      intro c here
      cases here
  | cons first rest ih =>
      have behind : Clean rest := fun c here => clean c (List.mem_cons_of_mem _ here)
      rw [woven_cons]
      exact (each 0).append
        (.cons (clean first List.mem_cons_self) (ih behind fun offset => each (offset + 1)))

/-! Reading a prefixed style sheet -/

/-- What a declaration that is prefixed says: first what it needs, then what it said. -/
def prefixedContents (tables : Tables) (declaration : Declaration) : List Content :=
  (needs tables declaration).map (fun pair => entryContent declaration.important (entryOf pair)) ++
    [declaration.content]

def declarationAt (source : List Char) (offset : Nat) : Option Declaration :=
  (sheetDeclarations (components source)).find? fun declaration => declaration.offset == offset

theorem declarationAt_eq_some {offset : Nat} (found : declarationAt source offset = some declaration) :
    declaration ∈ sheetDeclarations (components source) ∧ declaration.offset = offset :=
  ⟨List.mem_of_find?_eq_some found, by simpa using List.find?_some found⟩

theorem declarationAt_eq_none {offset : Nat} (nothing : declarationAt source offset = none) :
    ∀ declaration ∈ sheetDeclarations (components source), declaration.offset ≠ offset :=
  fun declaration inSheet => by simpa using List.find?_eq_none.1 nothing declaration inSheet

theorem declarationAt_offset (inSheet : declaration ∈ sheetDeclarations (components source)) :
    declarationAt source declaration.offset = some declaration := by
  cases found : declarationAt source declaration.offset with
  | none => exact absurd rfl (declarationAt_eq_none found declaration inSheet)
  | some other =>
      obtain ⟨otherInSheet, same⟩ := declarationAt_eq_some found
      have symmetric : Std.Symm fun left right : Declaration => left.offset ≠ right.offset :=
        ⟨fun _ _ apart same => apart same.symm⟩
      have apart : (sheetDeclarations (components source)).Pairwise fun left right =>
          left.offset ≠ right.offset := (offsets_rise source).imp Nat.ne_of_lt
      by_contra different
      exact apart.forall otherInSheet inSheet (fun isSame => different (by rw [isSame])) same

section

variable (source) (tables : Tables)

def entriesFor (declaration : Declaration) : List Entry :=
  (needs tables declaration).map entryOf

def componentsAt (offset : Nat) : List Component :=
  (declarationAt source offset).elim [] fun declaration =>
    (entriesFor tables declaration).flatMap
      (entryComponents (separator source declaration) declaration.important)

/-- What is said at an offset that was not said before. -/
def contentsAt (offset : Nat) : List Content :=
  (declarationAt source offset).elim [] fun declaration =>
    (entriesFor tables declaration).map (entryContent declaration.important)

/-- A source can be read, and so can the value of each declaration that needs something. -/
structure ClearSource : Prop where
  clean : Clean source
  values : ∀ declaration ∈ sheetDeclarations (components source),
    needs tables declaration ≠ [] → IsClear declaration

end

namespace ClearSource

variable {tables : Tables} (isClear : ClearSource source tables)

include isClear

theorem legible (inSheet : declaration ∈ sheetDeclarations (components source)) :
    ∀ pair ∈ needs tables declaration, Legible declaration.important pair :=
  fun _ inside => legible_of_needs isClear.clean inSheet (isClear.values declaration inSheet) inside

theorem writable (inSheet : declaration ∈ sheetDeclarations (components source)) :
    ∀ entry ∈ entriesFor tables declaration,
      Writable declaration.important entry.name entry.value := by
  intro entry isEntry
  obtain ⟨pair, inside, rfl⟩ := List.mem_map.1 isEntry
  exact (isClear.legible inSheet pair inside).writable

/-- Either nothing is put in at an offset, or the text of what the declaration there needs. -/
theorem textAt_cases (offset : Nat) :
    (declarationAt source offset = none ∧
        Insertion.textAt (insertionsFor tables source) offset = []) ∨
      ∃ declaration ∈ sheetDeclarations (components source),
        declarationAt source offset = some declaration ∧ declaration.offset = offset ∧
        Insertion.textAt (insertionsFor tables source) offset =
          (entriesFor tables declaration).flatMap
            (entryText (separator source declaration) declaration.important) := by
  cases found : declarationAt source offset with
  | none => exact .inl ⟨rfl, textAt_elsewhere tables source (declarationAt_eq_none found)⟩
  | some declaration =>
      obtain ⟨inSheet, rfl⟩ := declarationAt_eq_some found
      exact .inr ⟨declaration, inSheet, rfl, rfl, (textAt_declaration tables source inSheet).trans
        (declarationsText_eq _ (isClear.legible inSheet))⟩

variable {offset : Nat}

theorem chunk_textAt (some : Insertion.textAt (insertionsFor tables source) offset ≠ []) :
    Chunk (Insertion.textAt (insertionsFor tables source) offset) := by
  rcases isClear.textAt_cases offset with ⟨-, nothing⟩ | ⟨declaration, inSheet, -, -, text⟩
  · exact absurd nothing some
  · rw [text] at some ⊢
    refine chunk_entryTexts (spacing_separator inSheet) ?_ (isClear.writable inSheet)
    intro none
    rw [none] at some
    exact some rfl

theorem adds_textAt (some : Insertion.textAt (insertionsFor tables source) offset ≠ []) :
    Adds (Insertion.textAt (insertionsFor tables source) offset)
      (componentsAt source tables offset) := by
  rcases isClear.textAt_cases offset with ⟨-, nothing⟩ | ⟨declaration, inSheet, found, -, text⟩
  · exact absurd nothing some
  · rw [text, componentsAt, found, Option.elim_some]
    exact adds_entryTexts (spacing_separator inSheet) (isClear.writable inSheet)

theorem componentsAt_eq_nil (nothing : Insertion.textAt (insertionsFor tables source) offset = []) :
    componentsAt source tables offset = [] := by
  unfold componentsAt
  rcases isClear.textAt_cases offset with ⟨none, -⟩ | ⟨declaration, -, found, -, text⟩
  · rw [none, Option.elim_none]
  · rw [text, List.flatMap_eq_nil_iff] at nothing
    rw [found, Option.elim_some]
    refine List.flatMap_eq_nil_iff.2 fun entry isEntry => ?_
    exact absurd (nothing entry isEntry)
      (List.append_ne_nil_of_right_ne_nil _ (List.cons_ne_nil _ _))

theorem declares_componentsAt (offset : Nat) :
    Declares (componentsAt source tables offset) (contentsAt source tables offset) := by
  unfold componentsAt contentsAt
  rcases isClear.textAt_cases offset with ⟨none, -⟩ | ⟨declaration, inSheet, found, -, -⟩
  · rw [none]
    exact fun rest => rfl
  · rw [found]
    exact declares_entries (isClear.writable inSheet)

omit isClear in
theorem offset_of_textAt (some : Insertion.textAt (insertionsFor tables source) offset ≠ []) :
    ∃ declaration ∈ sheetDeclarations (components source), declaration.offset = offset := by
  by_contra none
  refine some (textAt_elsewhere tables source fun declaration inSheet same => none ?_)
  exact ⟨declaration, inSheet, same⟩

theorem clean_textAt (offset : Nat) :
    Clean (Insertion.textAt (insertionsFor tables source) offset) := by
  by_cases nothing : Insertion.textAt (insertionsFor tables source) offset = []
  · rw [nothing]
    exact clean_of_all rfl
  · obtain ⟨declaration, inSheet, rfl⟩ := offset_of_textAt nothing
    rw [textAt_declaration tables source inSheet]
    exact clean_declarationsText (spacing_separator inSheet) (isClear.legible inSheet)

omit isClear in
/-- A prefixed source is the source with its texts put in token by token. -/
theorem insertAll_eq_putText : insertAll source (insertionsFor tables source) =
    putText (Insertion.textAt (insertionsFor tables source)) false 0 (tokens source) := by
  have read : tokens ((tokens source).flatMap Scanned.text) = tokens source := by
    rw [flatMap_text_tokens]
  have only (place : Nat) (_ : 0 ≤ place)
      (some : Insertion.textAt (insertionsFor tables source) place ≠ []) :
      (place, true) ∈ tokenPlaces false 0 (tokens source) := by
    obtain ⟨declaration, inSheet, rfl⟩ := offset_of_textAt some
    exact place_of_declaration inSheet
  rw [insertAll_insertionsFor, ← woven_eq_putText read only, flatMap_text_tokens]
  rfl

theorem normalise_insertAll : normalise (insertAll source (insertionsFor tables source)) =
    insertAll source (insertionsFor tables source) := by
  refine normalise_clean ?_
  rw [insertAll_insertionsFor]
  exact clean_woven isClear.clean isClear.clean_textAt

omit isClear in
theorem declared_of_textAt (offset : Nat)
    (some : Insertion.textAt (insertionsFor tables source) offset ≠ []) :
    offset ∈ (sheetDeclarations (components source)).map Declaration.offset := by
  obtain ⟨declaration, inSheet, same⟩ := offset_of_textAt some
  exact List.mem_map.2 ⟨declaration, inSheet, same⟩

/-- The components of a prefixed source, but for their offsets. -/
theorem components_insertAll :
    bareList (components (normalise (insertAll source (insertionsFor tables source)))) =
      splicedList (componentsAt source tables) (components source) := by
  rw [isClear.normalise_insertAll, insertAll_eq_putText]
  exact components_putText (fun _ => isClear.chunk_textAt) (fun _ => isClear.adds_textAt)
    (fun _ => isClear.componentsAt_eq_nil) (placed_of_declared declared_of_textAt)

theorem outline_insertAll :
    outline (components (normalise (insertAll source (insertionsFor tables source)))) =
      outlineIn (prefixedContents tables) true (components source) := by
  have read := outline_putText (fun _ => isClear.chunk_textAt) (fun _ => isClear.adds_textAt)
    (fun _ => isClear.componentsAt_eq_nil) isClear.declares_componentsAt declared_of_textAt
  rw [isClear.normalise_insertAll, insertAll_eq_putText, read]
  refine outlineIn_congr fun declaration inSheet => ?_
  rw [sayBehind, prefixedContents, contentsAt, declarationAt_offset inSheet, Option.elim_some,
    entriesFor, List.map_map]
  rfl

end ClearSource

/--
With data and targets at hand, an output read again has the rules of its style sheet, and each
declaration stands in its place with its name, value and importance, right behind the declarations
that it needs; each of those has the needed name, the value that its text reads as, and the
importance of the one that it is for. This is so where each value that needs something is clear.
-/
theorem declarations_of_apply (dataset : Dataset) (targets : List Target) (css output : String)
    (applied : Tables.apply ⟨some dataset, .ok targets⟩ css = .ok output)
    (clear : ∀ declaration ∈ sheetDeclarations (components (normalise css.toList)),
      needs ⟨some dataset, .ok targets⟩ declaration ≠ [] → IsClear declaration) :
    (∀ declaration ∈ sheetDeclarations (components (normalise css.toList)),
        prefixed ⟨some dataset, .ok targets⟩ declaration =
          .ok (needs ⟨some dataset, .ok targets⟩ declaration)) ∧
      outline (components (normalise output.toList)) =
        outlineIn (prefixedContents ⟨some dataset, .ok targets⟩) true (components (normalise css.toList)) := by
  have applied : (insertions ⟨some dataset, .ok targets⟩ (normalise css.toList)).map
      (fun added => String.ofList (insertAll (normalise css.toList) added)) = .ok output := applied
  cases ran : insertions ⟨some dataset, .ok targets⟩ (normalise css.toList) with
  | error fault =>
      rw [ran] at applied
      cases applied
  | ok added =>
      have known (declaration : Declaration)
          (inSheet : declaration ∈ sheetDeclarations (components (normalise css.toList))) :
          ∃ added, prefixed ⟨some dataset, .ok targets⟩ declaration = .ok added := by
        obtain ⟨found, answer⟩ := answers_of_filterMapM ran declaration inSheet
        exact prefixed_of_insertion? answer
      obtain rfl : insertionsFor ⟨some dataset, .ok targets⟩ (normalise css.toList) = added :=
        Except.ok.inj ((insertions_eq known).symm.trans ran)
      rw [ran] at applied
      obtain rfl := Except.ok.inj applied
      refine ⟨fun declaration inSheet => prefixed_eq_needs (known declaration inSheet), ?_⟩
      rw [String.toList_ofList]
      exact ClearSource.outline_insertAll ⟨clean_normalise _, clear⟩

/-- A declaration in a rule inside a rule, with its importance. -/
theorem declarations_of_apply_media :
    ∃ output, Tables.apply ⟨some transformData, .ok [⟨"chrome", "4"⟩]⟩
        "@media print\x7ba\x7btransform:scale(2)!important;color:red\x7d\x7d" = .ok output ∧
      (∀ declaration ∈ sheetDeclarations (components (normalise
          "@media print\x7ba\x7btransform:scale(2)!important;color:red\x7d\x7d".toList)),
        IsClear declaration) ∧
      outline (components (normalise output.toList)) =
        outlineIn (prefixedContents ⟨some transformData, .ok [⟨"chrome", "4"⟩]⟩) true
          (components (normalise
            "@media print\x7ba\x7btransform:scale(2)!important;color:red\x7d\x7d".toList)) := by
  have clear : ∀ declaration ∈ sheetDeclarations (components (normalise
      "@media print\x7ba\x7btransform:scale(2)!important;color:red\x7d\x7d".toList)),
      rowIsClear (tidy declaration.value) = true ∧
        trimChars (write (tidy declaration.value)) = write (tidy declaration.value) := by
    decide +kernel
  have isClear (declaration : Declaration) (inSheet : declaration ∈ sheetDeclarations (components
      (normalise "@media print\x7ba\x7btransform:scale(2)!important;color:red\x7d\x7d".toList))) :
      IsClear declaration := ⟨(clear declaration inSheet).1, (clear declaration inSheet).2⟩
  have applied : Tables.apply ⟨some transformData, .ok [⟨"chrome", "4"⟩]⟩
      "@media print\x7ba\x7btransform:scale(2)!important;color:red\x7d\x7d" =
        .ok ("@media print\x7ba\x7b-webkit-transform: scale(2) !important; " ++
          "transform:scale(2)!important;color:red\x7d\x7d") := by
    decide +kernel
  exact ⟨_, applied, isClear, (declarations_of_apply transformData [⟨"chrome", "4"⟩] _ _ applied
    fun declaration inSheet _ => isClear declaration inSheet).2⟩

/--
A backslash before a line break ends a value. Without the line break it takes the semicolon behind
it, so that the declaration put in and the one that it is for are read as one.
-/
theorem declarations_merge_behind_backslash :
    checkStructure "a\x7btransform:\\\n;color:red\x7d" = [] ∧
      ∃ output, Tables.apply ⟨some transformData, .ok [⟨"chrome", "4"⟩]⟩
          "a\x7btransform:\\\n;color:red\x7d" = .ok output ∧
        (sheetDeclarations (components (normalise output.toList))).length <
          ((sheetDeclarations (components
            (normalise "a\x7btransform:\\\n;color:red\x7d".toList))).flatMap
              (prefixedContents ⟨some transformData, .ok [⟨"chrome", "4"⟩]⟩)).length :=
  ⟨by decide +kernel, "a\x7b-webkit-transform: \\; transform:\\\n;color:red\x7d",
    by decide +kernel, by decide +kernel⟩

end SheetScript.Prefix
