import SheetScript.Proofs.Css.WrittenComponents

/-! Whatever is written can stand in a normalised source. -/

namespace SheetScript.Css

open SheetScript.Text

theorem Clean.cons {first : Char} {rest : List Char} (isClean : isClean first = true)
    (clean : Clean rest) : Clean (first :: rest) := by
  intro c here
  rcases List.mem_cons.1 here with rfl | behind
  · exact isClean
  · exact clean c behind

theorem clean_of_all {text : List Char} (all : text.all isClean = true) : Clean text :=
  List.all_eq_true.1 all

theorem clean_flatMap {text : List Char} {write : Char → List Char}
    (each : ∀ c ∈ text, Clean (write c)) : Clean (text.flatMap write) := by
  intro c here
  obtain ⟨origin, inText, inWritten⟩ := List.mem_flatMap.1 here
  exact each origin inText c inWritten

/-- Characters that no source can hold are none of those with a use of their own. -/
theorem isClean_of {condition : Char → Bool}
    (none : ['\x00', '\r', '\x0c'].any condition = false) {c : Char} (holds : condition c = true) :
    isClean c = true := by
  simp only [List.any_cons, List.any_nil, Bool.or_false, Bool.or_eq_false_iff] at none
  simp only [isClean, Bool.and_eq_true, bne_iff_ne, ne_eq]
  refine ⟨⟨?_, ?_⟩, ?_⟩
  · rintro rfl
    rw [none.1] at holds
    cases holds
  · rintro rfl
    rw [none.2.1] at holds
    cases holds
  · rintro rfl
    rw [none.2.2] at holds
    cases holds

theorem isClean_of_ne {c : Char} (notZero : c ≠ '\x00') (notReturn : c ≠ '\r')
    (notFeed : c ≠ '\x0c') : isClean c = true := by
  simp [isClean, notZero, notReturn, notFeed]

/-! Names -/

theorem clean_escapeSpecial {c : Char} (notZero : c ≠ '\x00') : Clean (escapeSpecial c) := by
  unfold escapeSpecial
  split
  · exact clean_of_all (by decide)
  · exact clean_of_all (by decide)
  · exact clean_of_all (by decide)
  · rename_i notNewline notReturn notFeed
    exact .cons (by decide) (.cons (isClean_of_ne notZero notReturn notFeed) (clean_of_all rfl))

theorem clean_writeNameChar {c : Char} (notZero : c ≠ '\x00') : Clean (writeNameChar c) := by
  unfold writeNameChar
  split
  · rename_i isChar
    exact clean_of_all (by simp [isClean_of (by decide) isChar])
  · exact clean_escapeSpecial notZero

theorem clean_writeNameStart {c : Char} (notZero : c ≠ '\x00') : Clean (writeNameStart c) := by
  unfold writeNameStart
  split
  · rename_i isStart
    exact clean_of_all (by simp [isClean_of (by decide) isStart])
  · split
    · rename_i digit
      have isCleanDigit := isClean_of (by decide) digit
      refine clean_of_all ?_
      simp only [List.all_cons, List.all_nil, isCleanDigit]
      decide
    · exact clean_escapeSpecial notZero

variable {name : List Char}

theorem clean_writeName (noZero : '\x00' ∉ name) : Clean (writeName name) :=
  clean_flatMap fun _ here => clean_writeNameChar fun same => noZero (same ▸ here)

theorem clean_writeIdent (noZero : '\x00' ∉ name) : Clean (writeIdent name) := by
  have minus : isClean '-' = true := by decide
  unfold writeIdent
  split
  · exact clean_of_all rfl
  · exact clean_of_all (by decide)
  · rename_i rest
    have behind : '\x00' ∉ rest := fun here =>
      noZero (List.mem_cons_of_mem _ (List.mem_cons_of_mem _ here))
    exact .cons minus (.cons minus (clean_writeName behind))
  · rename_i c rest _
    have first : c ≠ '\x00' := by
      rintro rfl
      exact noZero (List.mem_cons_of_mem _ List.mem_cons_self)
    have behind : '\x00' ∉ rest := fun here =>
      noZero (List.mem_cons_of_mem _ (List.mem_cons_of_mem _ here))
    exact .cons minus ((clean_writeNameStart first).append (clean_writeName behind))
  · rename_i c rest _ _ _
    have first : c ≠ '\x00' := by
      rintro rfl
      exact noZero List.mem_cons_self
    exact (clean_writeNameStart first).append
      (clean_writeName fun here => noZero (List.mem_cons_of_mem _ here))

theorem clean_writeUnit (noZero : '\x00' ∉ name) : Clean (writeUnit name) := by
  unfold writeUnit
  split
  · split
    · exact (clean_of_all (by decide)).append
        (clean_writeName fun here => noZero (List.mem_cons_of_mem _ here))
    · exact clean_writeIdent noZero
  · exact clean_of_all rfl

/-! Leaves -/

theorem clean_writeQuotedChar {c : Char} (notZero : c ≠ '\x00') : Clean (writeQuotedChar c) := by
  unfold writeQuotedChar
  split
  · exact clean_of_all (by decide)
  · exact clean_of_all (by decide)
  · exact clean_of_all (by decide)
  · exact clean_of_all (by decide)
  · exact clean_of_all (by decide)
  · rename_i notReturn notFeed
    exact .cons (isClean_of_ne notZero notReturn notFeed) (clean_of_all rfl)

theorem clean_writeAddressChar {c : Char} (notZero : c ≠ '\x00') : Clean (writeAddressChar c) := by
  unfold writeAddressChar
  split
  · exact clean_of_all (by decide)
  · exact clean_of_all (by decide)
  · exact clean_of_all (by decide)
  · exact clean_of_all (by decide)
  · exact clean_of_all (by decide)
  · exact clean_writeQuotedChar notZero

theorem clean_upperHex (n : Nat) : Clean (upperHex n) := fun c here =>
  isClean_of (by decide) (isHexDigit_upperHex n c here)

theorem clean_writeLeaf {leaf : Leaf} (sound : leaf.Sound) : Clean (writeLeaf leaf) := by
  have noZero {value : List Char} (noZero : '\x00' ∉ value) (c : Char) (here : c ∈ value) :
      c ≠ '\x00' := fun same => noZero (same ▸ here)
  cases leaf with
  | blank text => exact fun c here => isClean_of (by decide) (sound.2 c here)
  | mark text =>
      rcases sound with long | ⟨c, isMark, rfl⟩
      · have all : ∀ text ∈ longMarks, text.all isClean = true := by decide
        exact clean_of_all (all text long)
      · simp only [isMarkChar, Bool.and_eq_true] at isMark
        exact .cons isMark.1.1.1.1 (clean_of_all rfl)
  | ident name => exact clean_writeIdent sound.2
  | atKeyword name => exact .cons (by decide) (clean_writeIdent sound.2)
  | hash name isIdent =>
      refine .cons (by decide) ?_
      split
      · exact clean_writeIdent sound.1.2
      · exact clean_writeName sound.1.2
  | quoted value closed =>
      refine .cons (by decide) ((clean_flatMap fun c here =>
        clean_writeQuotedChar (noZero sound c here)).append ?_)
      split
      · exact clean_of_all (by decide)
      · exact clean_of_all rfl
  | address value closed =>
      refine ((clean_of_all (by decide)).append (clean_flatMap fun c here =>
        clean_writeAddressChar (noZero sound c here))).append ?_
      split
      · exact clean_of_all (by decide)
      · exact clean_of_all rfl
  | characterRange first last =>
      have start : Clean "U+".toList := clean_of_all (by decide)
      have minus : isClean '-' = true := by decide
      rw [writeLeaf]
      split
      · exact start.append (clean_upperHex first)
      · exact (start.append (clean_upperHex first)).append (.cons minus (clean_upperHex last))
  | number text => exact sound.2.2
  | percentage text => exact sound.2.2.append (clean_of_all (by decide))
  | dimension text unit => exact sound.1.2.2.append (clean_writeUnit sound.2.2)

/-! Rows -/

theorem clean_separator (previous : Option Shape) (component : Component) :
    Clean (separator previous component) := by
  cases previous with
  | none => exact clean_of_all rfl
  | some shape =>
      rw [separator_eq]
      split
      · exact clean_of_all (by decide)
      · split
        · exact clean_of_all (by decide)
        · exact clean_of_all rfl

theorem clean_writeFault (fault : Fault) : Clean (writeFault fault) := by
  cases fault with
  | unmatched bracket => cases bracket <;> exact clean_of_all (by decide)
  | _ => exact clean_of_all (by decide)

mutual

theorem clean_writeComponent (component : Component) (sound : component.Sound) :
    Clean (writeComponent component) := by
  cases component with
  | leaf offset leaf =>
      rw [writeComponent]
      exact clean_writeLeaf sound
  | fault offset fault =>
      rw [writeComponent]
      exact clean_writeFault fault
  | block offset bracket content =>
      rw [Component.Sound] at sound
      have isOpening : isClean bracket.opening = true := by cases bracket <;> decide
      have isClosing : isClean bracket.closing = true := by cases bracket <;> decide
      rw [writeComponent]
      exact (Clean.cons isOpening (clean_writeAfter none content sound)).append
        (.cons isClosing (clean_of_all rfl))
  | function offset name arguments =>
      rw [Component.Sound] at sound
      have parenthesis : isClean '(' = true := by decide
      rw [writeComponent]
      refine ((clean_writeIdent sound.1.2).append
        (.cons parenthesis (clean_writeAfter none arguments sound.2))).append ?_
      split
      · exact clean_of_all rfl
      · exact clean_of_all (by decide)

theorem clean_writeAfter (previous : Option Shape) (row : List Component) (sound : RowSound row) :
    Clean (writeAfter previous row) := by
  cases row with
  | nil =>
      rw [writeAfter]
      exact clean_of_all rfl
  | cons component rest =>
      rw [RowSound] at sound
      rw [writeAfter]
      exact ((clean_separator previous component).append
        (clean_writeComponent component sound.1)).append (clean_writeAfter _ rest sound.2)

end

end SheetScript.Css
