import SheetScript.Proofs.Css.WrittenDeclarations

/-! The values of declarations, written without the blanks at their ends, and read again. -/

namespace SheetScript.Css

open SheetScript.Text

/-! Blanks at the ends -/

theorem eq_blankOf {component : Component} (blank : component.isBlank = true)
    (placeless : component.unplaced = component) (sound : component.Sound) :
    ∃ text, component = blankOf text ∧ ∀ c ∈ text, isBlankChar c = true := by
  obtain ⟨offset, text, rfl⟩ := eq_blank_of_isBlank blank
  rw [Component.Sound] at sound
  exact ⟨text, placeless.symm, sound.2⟩

theorem writeAfter_blanks {row : List Component}
    (each : ∀ component ∈ row, ∃ text, component = blankOf text ∧ ∀ c ∈ text, isBlankChar c = true)
    {previous : Option Shape} (notBackslash : previous ≠ some (.char '\\')) :
    ∀ c ∈ writeAfter previous row, isBlankChar c = true := by
  induction row generalizing previous with
  | nil =>
      intro c here
      rw [writeAfter] at here
      cases here
  | cons component rest ih =>
      obtain ⟨text, rfl, blank⟩ := each component List.mem_cons_self
      rw [writeAfter_blank _ notBackslash]
      intro c here
      rcases List.mem_append.1 here with inText | behind
      · exact blank c inText
      · exact ih (fun other here => each other (List.mem_cons_of_mem _ here)) (by decide) c behind

theorem write_blanks_append {front : List Component}
    (each : ∀ component ∈ front, ∃ text, component = blankOf text ∧ ∀ c ∈ text, isBlankChar c = true)
    (row : List Component) : write (front ++ row) = write front ++ write row := by
  induction front with
  | nil => rfl
  | cons component front ih =>
      obtain ⟨text, rfl, -⟩ := each component List.mem_cons_self
      have here (behind : List Component) : write (blankOf text :: behind) = text ++ write behind := by
        unfold write
        rw [writeAfter_blank none nofun, writeAfter_some_blank, write]
      rw [List.cons_append, here, here, ih fun other here => each other (List.mem_cons_of_mem _ here),
        List.append_assoc]

theorem write_append_blanks {row back : List Component} (clear : rowIsClear row = true)
    (each : ∀ component ∈ back, ∃ text, component = blankOf text ∧ ∀ c ∈ text, isBlankChar c = true) :
    ∃ tail, write (row ++ back) = write row ++ tail ∧ ∀ c ∈ tail, isBlankChar c = true := by
  cases back with
  | nil =>
      refine ⟨[], by simp, ?_⟩
      intro c here
      cases here
  | cons component more =>
      obtain ⟨text, rfl, blank⟩ := each component List.mem_cons_self
      refine ⟨text ++ writeAfter (some .blank) more, ?_, ?_⟩
      · exact writeAfter_append_blank (fun _ isLast => shape_getLast?_of_clear clear isLast) none
          nofun text more
      · have behind : ∀ c ∈ writeAfter (some .blank) more, isBlankChar c = true :=
          writeAfter_blanks (fun other here => each other (List.mem_cons_of_mem _ here)) (by decide)
        exact fun c here => (List.mem_append.1 here).elim (blank c) (behind c)

theorem rowSound_of_subset {row part : List Component} (sound : RowSound row) (subset : part ⊆ row) :
    RowSound part :=
  rowSound_iff.2 fun component here => rowSound_iff.1 sound component (subset here)

theorem rowSound_tidy {value : List Component} (sound : RowSound value) : RowSound (tidy value) :=
  rowSound_of_subset (sound_joined value sound) (isInfix_strip (joined value)).sublist.subset

/-- A value is written as it is without the blanks at its ends, between blanks. -/
theorem write_tidy {value : List Component} (sound : RowSound value)
    (clear : rowIsClear (tidy value) = true) :
    ∃ lead tail, write value = lead ++ write (tidy value) ++ tail ∧
      (∀ c ∈ lead, isBlankChar c = true) ∧ ∀ c ∈ tail, isBlankChar c = true := by
  obtain ⟨front, back, whole, frontBlank, backBlank⟩ :=
    exists_strip Component.isBlank (joined value)
  have isTidy : strip Component.isBlank (joined value) = tidy value := rfl
  rw [isTidy] at whole
  have placeless := bareList_eq_self_iff.1 (bareList_joined value)
  have soundJoined := rowSound_iff.1 (sound_joined value sound)
  have inFront (component : Component) (here : component ∈ front) :=
    have inside : component ∈ joined value :=
      whole ▸ List.mem_append_left _ (List.mem_append_left _ here)
    eq_blankOf (frontBlank component here) (placeless component inside) (soundJoined component inside)
  have inBack (component : Component) (here : component ∈ back) :=
    have inside : component ∈ joined value := whole ▸ List.mem_append_right _ here
    eq_blankOf (backBlank component here) (placeless component inside) (soundJoined component inside)
  obtain ⟨tail, behind, tailBlank⟩ := write_append_blanks clear inBack
  refine ⟨write front, tail, ?_, writeAfter_blanks inFront nofun, tailBlank⟩
  have same : write value = write (joined value) := ((written_joined value sound).1 none).symm
  rw [same, whole, List.append_assoc, write_blanks_append inFront, behind, List.append_assoc]

/-! What is written is read again -/

theorem bareList_components_write {row : List Component} (fits : RowFits row) :
    bareList (components (write row)) = bareList row := by
  have nothing : startsEdge [] = true := rfl
  have read := tokens_write row fits nothing
  rw [List.append_nil, tokens_nil, List.append_nil] at read
  obtain ⟨frames, inner⟩ := gains_spelledAfter none row fits.clear .start
  unfold components write
  dsimp only
  rw [read, frames]
  exact inner

theorem tidy_of_bareList {row other : List Component} (same : bareList row = bareList other) :
    tidy row = tidy other := by
  unfold tidy
  rw [← joined_bareList, same, joined_bareList]

theorem Writable.tidy_eq {important : Bool} {name : List Char} {value : List Component}
    (writable : Writable important name value) : tidy value = value := by
  rw [tidy, joined_of_clear value writable.fits.clear, writable.placeless, writable.ends]

/-- The value of a written declaration is what its text is read as. -/
theorem Writable.tidy_components {important : Bool} {name : List Char} {value : List Component}
    (writable : Writable important name value) : tidy (components (write value)) = value :=
  (tidy_of_bareList (bareList_components_write writable.fits)).trans writable.tidy_eq

/-! Declarations of a source -/

theorem isMark_tidied (component : Component) (text : String) :
    component.tidied.isMark text = component.isMark text := by
  cases component with
  | leaf offset leaf => cases leaf <;> simp [Component.tidied, Component.isMark]
  | _ => simp [Component.tidied, Component.isMark]

theorem mem_joinBefore {component other : Component} {row : List Component}
    (here : other ∈ joinBefore component row) :
    other.isBlank = true ∨ other = component ∨ other ∈ row := by
  unfold joinBefore at here
  split at here
  · rcases List.mem_cons.1 here with rfl | behind
    · exact .inl rfl
    · exact .inr (.inr (List.mem_cons_of_mem _ behind))
  · exact .inr (List.mem_cons.1 here)

theorem isMark_of_isBlank {component : Component} (blank : component.isBlank = true)
    (text : String) : component.isMark text = false := by
  obtain ⟨offset, found, rfl⟩ := eq_blank_of_isBlank blank
  rfl

theorem isMark_joined {row : List Component} {text : String}
    (none : ∀ component ∈ row, component.isMark text = false) :
    ∀ component ∈ joined row, component.isMark text = false := by
  induction row with
  | nil =>
      intro component here
      rw [joined] at here
      cases here
  | cons first rest ih =>
      intro component here
      rw [joined] at here
      rcases mem_joinBefore here with blank | rfl | behind
      · exact isMark_of_isBlank blank text
      · rw [isMark_tidied, none first List.mem_cons_self]
      · exact ih (fun other here => none other (List.mem_cons_of_mem _ here)) component behind

section

variable {source : List Char} (clean : Clean source) {declaration : Declaration}
  (inSheet : declaration ∈ sheetDeclarations (components source))

include clean inSheet

theorem rowSound_of_declaration : RowSound declaration.value := by
  have inward (row : List Component) (sound : RowSound row) (offset : Nat)
      (content : List Component) (here : Component.block offset .curly content ∈ row) :
      RowSound content := by
    have block := rowSound_iff.1 sound _ here
    rwa [Component.Sound] at block
  obtain ⟨content, sound, inBlock⟩ :=
    block_of_declarationsIn RowSound inward (rowSound_components clean) inSheet
  exact rowSound_of_subset sound (proper_of_blockDeclarations inBlock).1

/-- The value of a declaration can be written again, also with another name. -/
theorem writable_of_declaration (clear : rowIsClear (tidy declaration.value) = true)
    {name : List Char} (plain : PlainName name) :
    Writable declaration.important name (tidy declaration.value) := by
  have proper := proper_of_declarationsIn inSheet
  constructor
  · exact plain
  · exact ⟨rowSound_tidy (rowSound_of_declaration clean inSheet), clear⟩
  · exact strip_strip _
  · exact bareList_tidy _
  · intro component here
    exact isMark_joined proper.semicolon component ((isInfix_strip _).sublist.subset here)
  · rw [Look.after_tidy]
    exact proper.look

end

/-- A plain name is a value that can be written. -/
theorem writable_plainName (important : Bool) {name value : List Char} (plain : PlainName name)
    (plainValue : PlainName value) : Writable important name [.leaf 0 (.ident value)] := by
  constructor
  · exact plain
  · exact ⟨⟨plainValue.nameText, trivial⟩, rfl⟩
  · rfl
  · rfl
  · intro component here
    rw [List.mem_singleton.1 here]
    rfl
  · cases important with
    | false => exact ⟨rfl, nofun⟩
    | true => exact ⟨rfl, rfl⟩

theorem write_plainName {value : List Char} (plain : PlainName value) :
    write [.leaf 0 (.ident value)] = value := by
  unfold write
  rw [writeAfter, writeAfter, List.append_nil]
  exact plain.written

end SheetScript.Css
