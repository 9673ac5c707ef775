import SheetScript.Proofs.Css.Values
import SheetScript.Proofs.Css.WrittenComponents

/-!
Declarations written in a row: in front of anything that begins with no blank they are read as they
were meant.
-/

namespace SheetScript.Css

open SheetScript.Text

/-! Clear rows -/

theorem joinBefore_of_apart {component : Component} {rest : List Component}
    (apart : slips component rest = false) :
    joinBefore component.unplaced (bareList rest) = component.unplaced :: bareList rest := by
  cases component with
  | leaf offset leaf =>
      cases leaf with
      | blank text =>
          cases rest with
          | nil => rfl
          | cons second rest =>
              rw [bareList_cons]
              cases second with
              | leaf place other =>
                  cases other with
                  | blank more => cases apart
                  | _ => rfl
              | _ => simp [Component.unplaced, joinBefore]
      | _ => rfl
  | _ => simp [Component.unplaced, joinBefore]

mutual

theorem Component.tidied_of_clear (component : Component) (clear : component.isClear = true) :
    component.tidied = component.unplaced := by
  cases component with
  | leaf offset leaf => rw [Component.tidied, Component.unplaced]
  | fault offset fault => rw [Component.tidied, Component.unplaced]
  | block offset bracket content =>
      rw [Component.isClear] at clear
      rw [Component.tidied, Component.unplaced, joined_of_clear content clear]
  | function offset name arguments =>
      rw [Component.isClear, Bool.and_eq_true] at clear
      rw [Component.tidied, Component.unplaced, joined_of_clear arguments clear.2]

theorem joined_of_clear (row : List Component) (clear : rowIsClear row = true) :
    joined row = bareList row := by
  cases row with
  | nil => rw [joined]; rfl
  | cons component rest =>
      simp only [rowIsClear_cons, Bool.and_eq_true, Bool.not_eq_true'] at clear
      rw [joined, Component.tidied_of_clear component clear.1.1, joined_of_clear rest clear.2,
        joinBefore_of_apart clear.1.2, bareList_cons]

end

/-! Blanks behind a row -/

def blankOf (text : List Char) : Component :=
  .leaf 0 (.blank text)

theorem slips_before_blank {component : Component} (clear : slips component [] = false)
    (dark : component.isBlank = false) (text : List Char) (more : List Component) :
    slips component (blankOf text :: more) = false := by
  cases component with
  | leaf offset leaf =>
      cases leaf with
      | blank found => cases dark
      | mark found =>
          simp only [slips, markSlips, newlineFirst, Bool.not_false, Bool.and_true,
            Bool.or_false] at clear
          simp [slips, markSlips, clear, blankOf]
      | _ => rfl
  | _ => rfl

theorem nameFirst_before_blank (condition : List Char → Bool) (row : List Component)
    (text : List Char) (more : List Component) :
    nameFirst condition (row ++ blankOf text :: more) = nameFirst condition row := by
  cases row <;> rfl

theorem head?_isMark_before_blank (mark : String) (row : List Component) (text : List Char)
    (more : List Component) :
    (row ++ blankOf text :: more).head?.any (Component.isMark mark) =
      row.head?.any (Component.isMark mark) := by
  cases row <;> rfl

theorem slips_append_blank (component second : Component) (rest : List Component)
    (text : List Char) (more : List Component) :
    slips component (second :: (rest ++ blankOf text :: more)) =
      slips component (second :: rest) := by
  have range : rangeDigitFirst (rest ++ blankOf text :: more) = rangeDigitFirst rest := by
    unfold rangeDigitFirst
    rw [nameFirst_before_blank, head?_isMark_before_blank]
  have dashes : twoDashesFirst (rest ++ blankOf text :: more) = twoDashesFirst rest := by
    unfold twoDashesFirst
    rw [nameFirst_before_blank, head?_isMark_before_blank]
  -- Only what stands up to the second component can slip into the first one.
  cases component with
  | leaf offset leaf =>
      cases leaf with
      | ident found =>
          cases second with
          | leaf place other => cases other <;> simp [slips, range]
          | _ => rfl
      | mark found =>
          cases second with
          | leaf place other =>
              cases other <;> simp [slips, markSlips, newlineFirst, dashes]
          | _ => simp [slips, markSlips, newlineFirst]
      | blank found =>
          cases second with
          | leaf place other => cases other <;> rfl
          | _ => rfl
      | number found =>
          cases second with
          | leaf place other => cases other <;> rfl
          | _ => rfl
      | _ => rfl
  | _ => rfl

theorem rowIsClear_append_blank {row : List Component} (clear : rowIsClear row = true)
    (last : ∀ component, row.getLast? = some component → component.isBlank = false)
    {text : List Char} {more : List Component}
    (clearBehind : rowIsClear (blankOf text :: more) = true) :
    rowIsClear (row ++ blankOf text :: more) = true := by
  induction row with
  | nil => exact clearBehind
  | cons component rest ih =>
      simp only [rowIsClear_cons, Bool.and_eq_true, Bool.not_eq_true'] at clear
      obtain ⟨⟨isClear, apart⟩, clearRest⟩ := clear
      rw [List.cons_append, rowIsClear_cons, isClear, Bool.true_and, Bool.and_eq_true,
        Bool.not_eq_true']
      cases rest with
      | nil => exact ⟨slips_before_blank apart (last component rfl) text more, clearBehind⟩
      | cons second rest =>
          refine ⟨?_, ih clearRest fun other isLast => last other isLast⟩
          rw [List.cons_append, slips_append_blank]
          exact apart

/-- A clear row does not end in a backslash, which would read what comes behind it. -/
theorem shape_getLast?_of_clear {row : List Component} (clear : rowIsClear row = true)
    {last : Component} (isLast : row.getLast? = some last) : last.shape ≠ .char '\\' := by
  induction row with
  | nil => cases isLast
  | cons component rest ih =>
      simp only [rowIsClear_cons, Bool.and_eq_true, Bool.not_eq_true'] at clear
      cases rest with
      | nil =>
          obtain rfl := Option.some.inj isLast
          intro backslash
          obtain ⟨offset, rfl⟩ := eq_mark_of_shape backslash
          have newline := newlineFirst_of_slips clear.1.2
          cases newline
      | cons second rest => exact ih clear.2 isLast

theorem separator_blank {previous : Option Shape} (notBackslash : previous ≠ some (.char '\\'))
    (text : List Char) : separator previous (blankOf text) = [] := by
  cases previous with
  | none => rfl
  | some shape =>
      have apart : shape.merges .blank = false := by
        unfold Shape.merges
        simp [Shape.mergingPairs, Shape.char]
      exact separator_of_apart [] apart fun backslash => absurd (congrArg some backslash) notBackslash

theorem writeAfter_append_blank {row : List Component}
    (last : ∀ component, row.getLast? = some component → component.shape ≠ .char '\\')
    (previous : Option Shape) (empty : row = [] → previous ≠ some (.char '\\'))
    (text : List Char) (more : List Component) :
    writeAfter previous (row ++ blankOf text :: more) =
      writeAfter previous row ++ (text ++ writeAfter (some .blank) more) := by
  induction row generalizing previous with
  | nil =>
      rw [List.nil_append, writeAfter, writeAfter, separator_blank (empty rfl)]
      rfl
  | cons component rest ih =>
      rw [List.cons_append, writeAfter, writeAfter, ih ?_ _ ?_]
      · simp
      · intro other isLast
        refine last other ?_
        rw [List.getLast?_cons, isLast]
        rfl
      · rintro rfl backslash
        exact last component rfl (Option.some.inj backslash)

/-! Plain names -/

structure PlainName (name : List Char) : Prop where
  starts : startsIdent name = true
  chars : ∀ c ∈ name, isNameChar c = true

theorem writeName_of_chars {text : List Char} (chars : ∀ c ∈ text, isNameChar c = true) :
    writeName text = text := by
  induction text with
  | nil => rfl
  | cons c rest ih =>
      have behind := ih fun other here => chars other (List.mem_cons_of_mem _ here)
      unfold writeName at behind ⊢
      rw [List.flatMap_cons, behind, writeNameChar, if_pos (chars c List.mem_cons_self)]
      rfl

theorem startsEscape_of_nameChar {c : Char} (isChar : isNameChar c = true) (rest : List Char) :
    startsEscape (c :: rest) = false := by
  have other : c ≠ '\\' := by
    rintro rfl
    cases isChar
  simp [startsEscape_cons, other]

namespace PlainName

variable {name : List Char} (plain : PlainName name)

include plain

theorem nameText : NameText name := by
  constructor
  · rintro rfl
    cases plain.starts
  · intro zero
    exact absurd (plain.chars _ zero) (by decide)

theorem written : writeIdent name = name := by
  have starts := plain.starts
  have chars := plain.chars
  -- Only a digit or a lone hyphen at the start would be escaped, and no identifier starts so.
  unfold writeIdent
  split
  · cases starts
  · cases starts
  · rename_i rest
    have behind : ∀ c ∈ rest, isNameChar c = true := fun c here =>
      chars c (List.mem_cons_of_mem _ (List.mem_cons_of_mem _ here))
    rw [writeName_of_chars behind]
  · rename_i c rest notMinus
    have isChar := chars c (List.mem_cons_of_mem _ List.mem_cons_self)
    have behind : ∀ c ∈ rest, isNameChar c = true := fun c here =>
      chars c (List.mem_cons_of_mem _ (List.mem_cons_of_mem _ here))
    have isStart : isNameStart c = true := by
      rw [startsIdent_cons, if_pos rfl, startsEscape_of_nameChar isChar] at starts
      have either : isNameStart c = true ∨ c = '-' := by simpa using starts
      exact either.resolve_right notMinus
    rw [writeName_of_chars behind, writeNameStart, if_pos isStart]
    rfl
  · rename_i c rest notAlone notDashes notMinus
    have isChar := chars c List.mem_cons_self
    have behind : ∀ c ∈ rest, isNameChar c = true := fun c here =>
      chars c (List.mem_cons_of_mem _ here)
    have isStart : isNameStart c = true := by
      by_cases minus : c = '-'
      · cases rest with
        | nil => exact absurd rfl (notAlone minus)
        | cons second rest => exact absurd rfl (notMinus second rest minus)
      · rw [startsIdent_cons, if_neg minus, startsEscape_of_nameChar isChar] at starts
        simpa using starts
    rw [writeName_of_chars behind, writeNameStart, if_pos isStart]
    rfl

theorem dark : ∃ c rest, name = c :: rest ∧ isBlankChar c = false := by
  cases name with
  | nil => cases plain.starts
  | cons c rest =>
      refine ⟨c, rest, rfl, Bool.eq_false_iff.2 fun blank => ?_⟩
      have isChar := plain.chars c List.mem_cons_self
      simp only [isBlankChar, Bool.or_eq_true, beq_iff_eq] at blank
      rcases blank with (rfl | rfl) | rfl <;> cases isChar

end PlainName

/-! One declaration -/

structure Writable (important : Bool) (name : List Char) (value : List Component) : Prop where
  name : PlainName name
  fits : RowFits value
  ends : strip Component.isBlank value = value
  placeless : bareList value = value
  semicolon : ∀ component ∈ value, component.isMark ";" = false
  look : (Look.after value).Fits important

/-- A value between single blanks, which are one blank if there is no value. -/
def padded (value : List Component) : List Component :=
  if value.isEmpty then [blankOf [' ', ' ']] else blankOf [' '] :: value ++ [blankOf [' ']]

def importantMark : List Component :=
  [.leaf 0 (.mark ['!']), .leaf 0 (.ident "important".toList)]

def valueRow (important : Bool) (value : List Component) : List Component :=
  if important then padded value ++ importantMark else blankOf [' '] :: value

def declarationRow (important : Bool) (name : List Char) (value : List Component) :
    List Component :=
  .leaf 0 (.ident name) :: .leaf 0 (.mark [':']) :: valueRow important value

def declarationText (important : Bool) (name : List Char) (value : List Component) : List Char :=
  name ++ ": ".toList ++ write value ++ if important then " !important".toList else []

section

variable {important : Bool} {name : List Char} {value : List Component}

theorem writeAfter_blank (previous : Option Shape) (notBackslash : previous ≠ some (.char '\\'))
    (text : List Char) (row : List Component) :
    writeAfter previous (blankOf text :: row) = text ++ writeAfter (some .blank) row := by
  rw [writeAfter, separator_blank notBackslash]
  rfl

/-- What comes first, or behind a blank, needs nothing before it. -/
theorem writeAfter_some_blank (row : List Component) : writeAfter (some .blank) row = write row := by
  cases row with
  | nil => rfl
  | cons component rest =>
      have apart : Shape.blank.merges component.shape = false := by
        unfold Shape.merges
        simp [Shape.mergingPairs, Shape.char]
      have separated : separator (some .blank) component = [] :=
        separator_of_apart [] apart fun backslash => by cases backslash
      rw [write, writeAfter, writeAfter, separated]
      rfl

theorem write_padded (clear : rowIsClear value = true) :
    writeAfter (some (.mark [':'])) (padded value ++ importantMark) =
      ' ' :: write value ++ " !important".toList := by
  have mark : writeAfter (some .blank) importantMark = "!important".toList := by decide
  cases value with
  | nil =>
      have row : padded [] ++ importantMark = blankOf [' ', ' '] :: importantMark := rfl
      rw [row, writeAfter_blank _ (by decide), mark]
      rfl
  | cons first rest =>
      have row : padded (first :: rest) ++ importantMark =
          blankOf [' '] :: (first :: rest ++ blankOf [' '] :: importantMark) := by
        simp [padded]
      rw [row, writeAfter_blank _ (by decide), writeAfter_append_blank
        (fun _ last => shape_getLast?_of_clear clear last) _ (by simp), mark, writeAfter_some_blank]
      rfl

theorem write_valueRow (clear : rowIsClear value = true) :
    writeAfter (some (.mark [':'])) (valueRow important value) =
      ' ' :: write value ++ if important then " !important".toList else [] := by
  unfold valueRow
  cases important with
  | true => exact write_padded clear
  | false =>
      rw [if_neg Bool.false_ne_true, if_neg Bool.false_ne_true, writeAfter_blank _ (by decide),
        writeAfter_some_blank, List.append_nil]
      rfl

theorem write_declarationRow (plain : PlainName name) (clear : rowIsClear value = true) :
    write (declarationRow important name value) = declarationText important name value := by
  have colon : separator (some .ident) (.leaf 0 (.mark [':'])) = [] := by decide
  unfold write declarationRow
  rw [writeAfter, writeAfter]
  change [] ++ writeIdent name ++ (separator (some .ident) (.leaf 0 (.mark [':'])) ++ [':'] ++
    writeAfter (some (.mark [':'])) (valueRow important value)) = _
  have colonBlank : ": ".toList = [':', ' '] := rfl
  rw [plain.written, colon, write_valueRow clear, declarationText, colonBlank]
  simp only [List.append_assoc, List.cons_append, List.nil_append]

theorem fits_blankOf {text : List Char} (some : text ≠ [])
    (blank : ∀ c ∈ text, isBlankChar c = true) {row : List Component} (fits : RowFits row)
    (first : ∀ component, row.head? = Option.some component → component.isBlank = false) :
    RowFits (blankOf text :: row) := by
  constructor
  · rw [RowSound]
    exact ⟨⟨some, blank⟩, fits.sound⟩
  · rw [rowIsClear_cons, fits.clear, Bool.and_true, Bool.and_eq_true, Bool.not_eq_true']
    refine ⟨rfl, ?_⟩
    cases row with
    | nil => rfl
    | cons component rest =>
        have dark := first component rfl
        cases component with
        | leaf offset leaf =>
            cases leaf with
            | blank found => cases dark
            | _ => rfl
        | _ => rfl

theorem rowSound_append {front rest : List Component} (front_sound : RowSound front)
    (rest_sound : RowSound rest) : RowSound (front ++ rest) :=
  rowSound_iff.2 fun component here => (List.mem_append.1 here).elim
    (rowSound_iff.1 front_sound component) (rowSound_iff.1 rest_sound component)

theorem fits_importantMark : RowFits importantMark := by
  refine ⟨?_, by decide⟩
  refine rowSound_iff.2 fun component here => ?_
  simp only [importantMark, List.mem_cons, List.not_mem_nil, or_false] at here
  rcases here with rfl | rfl
  · exact .inr ⟨'!', by decide, rfl⟩
  · exact PlainName.nameText ⟨by decide, forall_of_all (by decide)⟩

theorem Writable.first (writable : Writable important name value) {component : Component}
    (isFirst : value.head? = some component) : component.isBlank = false := by
  rw [← writable.ends] at isFirst
  exact head?_strip isFirst

theorem Writable.last (writable : Writable important name value) {component : Component}
    (isLast : value.getLast? = some component) : component.isBlank = false := by
  rw [← writable.ends] at isLast
  exact getLast?_strip isLast

theorem fits_padded (writable : Writable important name value) :
    RowFits (padded value ++ importantMark) := by
  have blank : ∀ c ∈ [' '], isBlankChar c = true := forall_of_all (by decide)
  have blanks : ∀ c ∈ [' ', ' '], isBlankChar c = true := forall_of_all (by decide)
  have markFirst : ∀ component, importantMark.head? = some component → component.isBlank = false := by
    intro component isFirst
    obtain rfl := Option.some.inj isFirst
    rfl
  have behind := fits_blankOf (List.cons_ne_nil _ _) blank fits_importantMark markFirst
  unfold padded
  split
  · exact fits_blankOf (List.cons_ne_nil _ _) blanks fits_importantMark markFirst
  · rename_i notEmpty
    rw [List.cons_append, List.cons_append, List.append_assoc, List.singleton_append]
    refine fits_blankOf (List.cons_ne_nil _ _) blank ⟨?_, ?_⟩ ?_
    · exact rowSound_append writable.fits.sound behind.sound
    · exact rowIsClear_append_blank writable.fits.clear (fun _ isLast => writable.last isLast)
        behind.clear
    · intro component isFirst
      rw [List.isEmpty_iff] at notEmpty
      obtain ⟨first, rest, rfl⟩ := List.exists_cons_of_ne_nil notEmpty
      exact writable.first isFirst

theorem fits_valueRow (writable : Writable important name value) :
    RowFits (valueRow important value) := by
  unfold valueRow
  split
  · exact fits_padded writable
  · exact fits_blankOf (List.cons_ne_nil _ _) (forall_of_all (by decide)) writable.fits
      fun _ isFirst => writable.first isFirst

theorem valueRow_cons (important : Bool) (value : List Component) :
    ∃ text rest, valueRow important value = blankOf text :: rest := by
  unfold valueRow padded
  split
  · split
    · exact ⟨_, _, rfl⟩
    · exact ⟨_, _, rfl⟩
  · exact ⟨_, _, rfl⟩

theorem fits_declarationRow (writable : Writable important name value) :
    RowFits (declarationRow important name value) := by
  have behind := fits_valueRow writable
  obtain ⟨text, rest, same⟩ := valueRow_cons important value
  unfold declarationRow
  constructor
  · rw [RowSound, RowSound]
    exact ⟨writable.name.nameText, .inr ⟨':', by decide, rfl⟩, behind.sound⟩
  · have apart : slips (.leaf 0 (.ident name)) (.leaf 0 (.mark [':']) :: valueRow important value) =
        false := by
      simp [slips]
    have apartToo : slips (.leaf 0 (.mark [':'])) (valueRow important value) = false := by
      rw [same]
      rfl
    rw [rowIsClear_cons, rowIsClear_cons, apart, apartToo, behind.clear]
    rfl

/-! Read again -/

theorem after_padded (value : List Component) : Look.after (padded value) = Look.after value := by
  unfold padded
  split
  · rename_i empty
    rw [List.isEmpty_iff.1 empty]
    rfl
  · unfold Look.after
    rw [List.cons_append, List.foldl_cons, Look.step_blank _ rfl, List.foldl_append]
    rfl

theorem phase_eq {value : ValueRead} (plain : value.look.phase = .plain) : value.ending = .plain := by
  unfold ValueRead.look at plain
  dsimp only at plain
  cases ending : value.ending with
  | plain => rfl
  | bang before =>
      rw [ending] at plain
      cases plain
  | important before =>
      rw [ending] at plain
      cases plain

/-- The mark of an important declaration ends a value that is plain so far. -/
theorem foldl_importantMark {row : List Component} (look : (Look.after row).Fits true) :
    ∃ found, (row ++ importantMark).foldl ValueRead.add .start = found ∧
      found.ending = .important row.reverse ∧ found.blockBehind = false := by
  have looks := ValueRead.look_after row
  have reads := ValueRead.read_foldl row .start
  have ending := phase_eq (looks ▸ look.2)
  have block : (row.foldl ValueRead.add .start).blockBehind = false := by
    have same := congrArg Look.blockBehind looks
    exact same.trans look.1
  refine ⟨_, rfl, ?_⟩
  rw [List.foldl_append]
  generalize row.foldl ValueRead.add .start = value at reads ending block
  obtain ⟨read, found, filled, blockBehind⟩ := value
  dsimp only at reads ending block
  rw [ending, block, reads]
  exact ⟨by simp [importantMark, ValueRead.add, Component.isBlank, Component.isMark,
    ValueRead.isImportant, ValueRead.start], by simp [importantMark, ValueRead.add,
      Component.isBlank, Component.isMark, ValueRead.isImportant]⟩

theorem ofComponents?_important (name : List Char) {value before : List Component}
    (ending : (value.foldl ValueRead.add .start).ending = .important before)
    (block : (value.foldl ValueRead.add .start).blockBehind = false) :
    Declaration.ofComponents? (.leaf 0 (.ident name) :: .leaf 0 (.mark [':']) :: value) =
      some ⟨0, name, before.reverse, true⟩ := by
  unfold Declaration.ofComponents?
  simp [Component.isBlank, Component.isMark, ending, block]

theorem ofComponents?_plain (name : List Char) {value : List Component}
    (phase : (value.foldl ValueRead.add .start).look.phase ≠ .important)
    (block : (value.foldl ValueRead.add .start).blockBehind = false) :
    Declaration.ofComponents? (.leaf 0 (.ident name) :: .leaf 0 (.mark [':']) :: value) =
      some ⟨0, name, value, false⟩ := by
  unfold Declaration.ofComponents?
  unfold ValueRead.look at phase
  cases ending : (value.foldl ValueRead.add .start).ending with
  | important before => exact absurd (by rw [ending]; rfl) phase
  | plain => simp [Component.isBlank, Component.isMark, ending, block]
  | bang before => simp [Component.isBlank, Component.isMark, ending, block]

def declared (important : Bool) (value : List Component) : List Component :=
  if important then padded value else blankOf [' '] :: value

theorem ofComponents?_declarationRow (important : Bool) (name : List Char)
    (value : List Component) (look : (Look.after value).Fits important) :
    Declaration.ofComponents? (declarationRow important name value) =
      some ⟨0, name, declared important value, important⟩ := by
  unfold declarationRow valueRow declared
  cases important with
  | true =>
      rw [← after_padded] at look
      obtain ⟨found, read, ending, block⟩ := foldl_importantMark look
      rw [if_pos rfl, if_pos rfl]
      have answer := ofComponents?_important name (read ▸ ending) (read ▸ block)
      rwa [List.reverse_reverse] at answer
  | false =>
      have looks := ValueRead.look_after (blankOf [' '] :: value)
      have same : Look.after (blankOf [' '] :: value) = Look.after value := rfl
      rw [same] at looks
      rw [if_neg Bool.false_ne_true, if_neg Bool.false_ne_true]
      refine ofComponents?_plain name ?_ ((congrArg Look.blockBehind looks).trans look.1)
      rw [looks]
      exact look.2

theorem bareList_blankOf (text : List Char) {row : List Component} (placeless : bareList row = row) :
    bareList (blankOf text :: row) = blankOf text :: row := by
  rw [bareList_cons, placeless]
  rfl

theorem bareList_append (front rest : List Component) :
    bareList (front ++ rest) = bareList front ++ bareList rest := by
  rw [bareList_eq_map, bareList_eq_map, bareList_eq_map, List.map_append]

/-- Without the blanks at its ends the value is what it was. -/
theorem tidy_declared (writable : Writable important name value) :
    tidy (declared important value) = value := by
  have blank : ∀ c ∈ [' '], isBlankChar c = true := forall_of_all (by decide)
  have isBlank : ∀ component ∈ [blankOf [' ']], component.isBlank = true := by
    simp [blankOf, Component.isBlank]
  have spaced : RowFits (blankOf [' '] :: value) :=
    fits_blankOf (List.cons_ne_nil _ _) blank writable.fits fun _ isFirst => writable.first isFirst
  unfold declared tidy
  split
  · unfold padded
    split
    · rename_i empty
      rw [List.isEmpty_iff.1 empty]
      decide
    · have clear : rowIsClear (blankOf [' '] :: value ++ [blankOf [' ']]) = true := by
        refine rowIsClear_append_blank spaced.clear (fun component isLast => ?_) (by decide)
        rename_i notEmpty
        rw [List.isEmpty_iff] at notEmpty
        obtain ⟨first, rest, rfl⟩ := List.exists_cons_of_ne_nil notEmpty
        exact writable.last isLast
      rw [joined_of_clear _ clear, bareList_append, bareList_blankOf [' '] writable.placeless,
        bareList_blankOf [' '] rfl, strip_tail isBlank, ← List.singleton_append,
        strip_front isBlank, writable.ends]
  · rw [joined_of_clear _ spaced.clear, bareList_blankOf [' '] writable.placeless,
      ← List.singleton_append, strip_front isBlank, writable.ends]

end

/-! Declarations in a row -/

structure Entry where
  name : List Char
  value : List Component

structure Spacing (text : List Char) : Prop where
  some : text ≠ []
  blank : ∀ c ∈ text, isBlankChar c = true

section

variable (gap : List Char) (important : Bool)

def entryText (entry : Entry) : List Char :=
  declarationText important entry.name entry.value ++ ';' :: gap

def entryTokens (entry : Entry) : List Scanned :=
  spelledAfter none (declarationRow important entry.name entry.value) ++
    [⟨.leaf (.mark [';']), [';']⟩, ⟨.leaf (.blank gap), gap⟩]

def entryComponents (entry : Entry) : List Component :=
  declarationRow important entry.name entry.value ++ [.leaf 0 (.mark [';']), blankOf gap]

def entryContent (entry : Entry) : Content :=
  ⟨entry.name, entry.value, important⟩

end

variable {gap : List Char} {important : Bool} {entries : List Entry}

theorem tokens_semicolon (rest : List Char) :
    tokens (';' :: rest) = ⟨.leaf (.mark [';']), [';']⟩ :: tokens rest :=
  tokens_bracket rfl (fun _ => rfl) (fun _ => rfl) rest

theorem tokens_gap (isSpacing : Spacing gap) {rest : List Char} (dark : startsDark rest = true) :
    tokens (gap ++ rest) = ⟨.leaf (.blank gap), gap⟩ :: tokens rest := by
  obtain ⟨first, more, rfl⟩ := List.exists_cons_of_ne_nil isSpacing.some
  exact tokens_blank isSpacing.blank dark

theorem tokens_entryText (isSpacing : Spacing gap) {entry : Entry}
    (writable : Writable important entry.name entry.value) {rest : List Char}
    (dark : startsDark rest = true) :
    tokens (entryText gap important entry ++ rest) =
      entryTokens gap important entry ++ tokens rest := by
  unfold entryText entryTokens
  rw [← write_declarationRow writable.name writable.fits.clear, List.append_assoc]
  unfold write
  rw [tokens_write _ (fits_declarationRow writable) rfl, List.cons_append, tokens_semicolon,
    tokens_gap isSpacing dark, List.append_assoc]
  rfl

theorem dark_entryText {entry : Entry} (writable : Writable important entry.name entry.value)
    (rest : List Char) : startsDark (entryText gap important entry ++ rest) = true := by
  obtain ⟨c, more, named, dark⟩ := writable.name.dark
  unfold entryText declarationText
  simp only [List.append_assoc]
  rw [startsDark_append (named ▸ List.cons_ne_nil c more), named, startsDark, List.head?_cons,
    Option.any_some, dark]
  rfl

theorem dark_entryTexts (gap : List Char)
    (writable : ∀ entry ∈ entries, Writable important entry.name entry.value) {rest : List Char}
    (dark : startsDark rest = true) :
    startsDark (entries.flatMap (entryText gap important) ++ rest) = true := by
  cases entries with
  | nil => exact dark
  | cons first more =>
      rw [List.flatMap_cons, List.append_assoc]
      exact dark_entryText (writable first List.mem_cons_self) _

theorem tokens_entryTexts (isSpacing : Spacing gap)
    (writable : ∀ entry ∈ entries, Writable important entry.name entry.value) {rest : List Char}
    (dark : startsDark rest = true) :
    tokens (entries.flatMap (entryText gap important) ++ rest) =
      entries.flatMap (entryTokens gap important) ++ tokens rest := by
  induction entries with
  | nil => rfl
  | cons first more ih =>
      have behind : ∀ entry ∈ more, Writable important entry.name entry.value :=
        fun entry here => writable entry (List.mem_cons_of_mem _ here)
      rw [List.flatMap_cons, List.flatMap_cons, List.append_assoc, List.append_assoc,
        tokens_entryText isSpacing (writable first List.mem_cons_self) (dark_entryTexts gap behind dark),
        ih behind]

theorem chunk_entryTexts (isSpacing : Spacing gap) (some : entries ≠ [])
    (writable : ∀ entry ∈ entries, Writable important entry.name entry.value) :
    Chunk (entries.flatMap (entryText gap important)) := by
  have nothing : startsDark [] = true := rfl
  have alone := tokens_entryTexts isSpacing writable nothing
  rw [List.append_nil, tokens_nil, List.append_nil] at alone
  constructor
  · have dark := dark_entryTexts gap writable nothing
    rwa [List.append_nil] at dark
  · obtain ⟨first, more, rfl⟩ := List.exists_cons_of_ne_nil some
    rw [List.flatMap_cons]
    simp [entryText]
  · intro rest dark
    rw [tokens_entryTexts isSpacing writable dark, alone]

/-! What the row declares -/

theorem bareList_declarationRow {name : List Char} {value : List Component}
    (placeless : bareList value = value) :
    bareList (declarationRow important name value) = declarationRow important name value := by
  have row : bareList (valueRow important value) = valueRow important value := by
    have mark : bareList importantMark = importantMark := rfl
    unfold valueRow
    split
    · rw [bareList_append, mark]
      unfold padded
      split
      · rfl
      · rw [bareList_append, bareList_blankOf [' '] placeless, bareList_blankOf [' '] rfl]
    · exact bareList_blankOf [' '] placeless
  unfold declarationRow
  rw [bareList_cons, bareList_cons, row]
  rfl

theorem gains_entryTokens {entry : Entry}
    (writable : Writable important entry.name entry.value) (nest : Nest) :
    nest.Gains ((entryTokens gap important entry).foldl Nest.read nest)
      (entryComponents gap important entry) := by
  have row := gains_spelledAfter none _ (fits_declarationRow writable).clear nest
  rw [bareList_declarationRow writable.placeless] at row
  unfold entryTokens entryComponents
  rw [List.foldl_append]
  refine row.trans ?_
  have clearMark : (Leaf.mark [';']).isClear = true := rfl
  have clearBlank : (Leaf.blank gap).isClear = true := rfl
  rw [List.foldl_cons, List.foldl_cons, List.foldl_nil]
  exact (Nest.gains_leaf _ clearMark [';']).trans (Nest.gains_leaf _ clearBlank gap)

theorem adds_entryTexts (isSpacing : Spacing gap)
    (writable : ∀ entry ∈ entries, Writable important entry.name entry.value) :
    Adds (entries.flatMap (entryText gap important))
      (entries.flatMap (entryComponents gap important)) := by
  intro nest
  have nothing : startsDark [] = true := rfl
  have alone := tokens_entryTexts isSpacing writable nothing
  rw [List.append_nil, tokens_nil, List.append_nil] at alone
  rw [alone]
  clear alone
  induction entries generalizing nest with
  | nil => exact .refl nest
  | cons first more ih =>
      rw [List.flatMap_cons, List.flatMap_cons, List.foldl_append]
      exact (gains_entryTokens (writable first List.mem_cons_self) nest).trans
        (ih (fun entry here => writable entry (List.mem_cons_of_mem _ here)) _)

theorem declarationsAfter_segment (read : List Component) {segment : List Component}
    (noSemicolon : ∀ component ∈ segment, component.isMark ";" = false) (rest : List Component) :
    declarationsAfter (.components read) (segment ++ .leaf 0 (.mark [';']) :: rest) =
      (Declaration.ofComponents? (read.reverse ++ segment)).toList ++
        declarationsAfter .between rest := by
  induction segment generalizing read with
  | nil =>
      have semicolon : (Component.leaf 0 (.mark [';'])).isMark ";" = true := rfl
      rw [List.nil_append, List.append_nil, declarationsAfter, if_pos semicolon]
  | cons component segment ih =>
      rw [List.cons_append, declarationsAfter, if_neg]
      · rw [ih _ fun other here => noSemicolon other (List.mem_cons_of_mem _ here),
          List.reverse_cons, List.append_assoc]
        rfl
      · rw [noSemicolon component List.mem_cons_self]
        exact Bool.false_ne_true

theorem noSemicolon_valueRow {value : List Component}
    (noSemicolon : ∀ component ∈ value, component.isMark ";" = false) :
    ∀ component ∈ valueRow important value, component.isMark ";" = false := by
  intro component here
  have blank (text : List Char) : (blankOf text).isMark ";" = false := rfl
  have mark : ∀ component ∈ importantMark, component.isMark ";" = false := by
    simp [importantMark, Component.isMark]
  unfold valueRow at here
  split at here
  · rcases List.mem_append.1 here with inside | behind
    · unfold padded at inside
      split at inside
      · rw [List.mem_singleton.1 inside, blank]
      · rcases List.mem_append.1 inside with front | last
        · rcases List.mem_cons.1 front with rfl | middle
          · exact blank _
          · exact noSemicolon component middle
        · rw [List.mem_singleton.1 last, blank]
    · exact mark component behind
  · rcases List.mem_cons.1 here with rfl | behind
    · exact blank _
    · exact noSemicolon component behind

theorem Declares.append {front back : List Component} {first second : List Content}
    (here : Declares front first) (behind : Declares back second) :
    Declares (front ++ back) (first ++ second) := by
  intro rest
  rw [List.append_assoc, here, behind, List.append_assoc]

theorem declares_entryComponents {entry : Entry}
    (writable : Writable important entry.name entry.value) :
    Declares (entryComponents gap important entry) [entryContent important entry] := by
  intro rest
  have blankBehind : declarationsAfter .between (blankOf gap :: rest) =
      declarationsAfter .between rest := by
    rw [blankOf, declarationsAfter]
  have noSemicolon : ∀ component ∈
      (Component.leaf 0 (.mark [':']) :: valueRow important entry.value),
      component.isMark ";" = false := by
    intro component here
    rcases List.mem_cons.1 here with rfl | behind
    · rfl
    · exact noSemicolon_valueRow writable.semicolon component behind
  have read := ofComponents?_declarationRow important entry.name entry.value writable.look
  -- The components up to the semicolon are one declaration, and the blank behind it is none.
  have segment := declarationsAfter_segment [.leaf 0 (.ident entry.name)] noSemicolon
    (blankOf gap :: rest)
  have row : [Component.leaf 0 (.ident entry.name)].reverse ++
      Component.leaf 0 (.mark [':']) :: valueRow important entry.value =
        declarationRow important entry.name entry.value := rfl
  rw [row, read, blankBehind] at segment
  have begins : declarationsAfter .between (entryComponents gap important entry ++ rest) =
      declarationsAfter (.components [.leaf 0 (.ident entry.name)])
        ((Component.leaf 0 (.mark [':']) :: valueRow important entry.value) ++
          .leaf 0 (.mark [';']) :: blankOf gap :: rest) := by
    unfold entryComponents declarationRow
    rw [List.append_assoc, List.cons_append, List.cons_append]
    exact declarationsAfter_begin (by simp) (by simp) (by simp [Component.isMark])
  rw [begins, segment, List.map_append]
  simp [Declaration.content, entryContent, tidy_declared writable]

theorem declares_entries
    (writable : ∀ entry ∈ entries, Writable important entry.name entry.value) :
    Declares (entries.flatMap (entryComponents gap important))
      (entries.map (entryContent important)) := by
  induction entries with
  | nil => exact fun rest => rfl
  | cons first more ih =>
      rw [List.flatMap_cons, List.map_cons, ← List.singleton_append]
      exact (declares_entryComponents (writable first List.mem_cons_self)).append
        (ih fun entry here => writable entry (List.mem_cons_of_mem _ here))

end SheetScript.Css
