import SheetScript.Proofs.Css.WrittenLeaves

/-!
Rows of components that are read again from what they are written as.

The marks between written neighbours keep most of them apart, but not all: `slips` names the rest.
-/

namespace SheetScript.Css

open SheetScript.Text

def minus : List Char := ['-']

def arrow : List Char := "-->".toList

def Component.name? : Component → Option (List Char)
  | .leaf _ (.ident name) | .function _ name _ => some name
  | _ => none

def nameFirst (condition : List Char → Bool) : List Component → Bool
  | component :: _ => component.name?.any condition
  | [] => false

def rangeDigitFirst (row : List Component) : Bool :=
  nameFirst (fun name => name.head?.any fun c => isNameStart c && isHexDigit c) row ||
    row.head?.any (Component.isMark "?")

def twoDashesFirst (row : List Component) : Bool :=
  nameFirst ("--".toList.isPrefixOf ·) row || row.head?.any (Component.isMark "-->")

def newlineFirst : List Component → Bool
  | .leaf _ (.blank text) :: _ => text.head? == some '\n'
  | _ => false

/-- A mark is read together with what is written behind it. -/
def markSlips (text : List Char) (rest : List Component) : Bool :=
  text == ['\\'] && !newlineFirst rest ||
  match rest with
  | .leaf _ (.mark next) :: more =>
    (text == minus || text == ['#']) && (next == minus || next == arrow) ||
    text == ['@'] && next == arrow ||
    text == ['/'] && next == ['*', '='] ||
    text == ['|'] && (next == "||".toList || next == ['|', '=']) ||
    text == ['<'] && next == ['!'] && twoDashesFirst more
  | _ => false

def slips (component : Component) (rest : List Component) : Bool :=
  match component, rest with
  | .leaf _ (.blank _), .leaf _ (.blank _) :: _ => true
  | .leaf _ (.number _), .leaf _ (.mark text) :: _ => text == ['%'] || text == arrow
  | .leaf _ (.ident name), .leaf _ (.mark text) :: more =>
    name == ['-', '-'] && text == ['>'] ||
    (name == ['u'] || name == ['U']) && text == ['+'] && rangeDigitFirst more
  | .leaf _ (.mark text), rest => markSlips text rest
  | _, _ => false

def Leaf.isClear : Leaf → Bool
  | .quoted _ closed => closed
  | .address value closed => closed && !value.any isUnprintable
  | .dimension text unit => !unitMerges text unit
  | _ => true

def quoteFirst (arguments : List Component) : Bool :=
  match arguments.dropWhile Component.isBlank with
  | .leaf _ (.quoted _ _) :: _ => true
  | _ => false

mutual

def Component.isClear : Component → Bool
  | .leaf _ leaf => leaf.isClear
  | .fault _ _ => false
  | .block _ _ content => rowIsClear content
  | .function _ name arguments =>
    (!isUrlName name || quoteFirst arguments) && rowIsClear arguments

def rowIsClear : List Component → Bool
  | [] => true
  | component :: rest => component.isClear && !slips component rest && rowIsClear rest

end

/-! Components as they can be read -/

mutual

def Component.Sound : Component → Prop
  | .leaf _ leaf => leaf.Sound
  | .fault _ _ => True
  | .block _ _ content => RowSound content
  | .function _ name arguments => NameText name ∧ RowSound arguments

def RowSound : List Component → Prop
  | [] => True
  | component :: rest => component.Sound ∧ RowSound rest

end

/-- A row that can be read and is read again from what it is written as. -/
structure RowFits (row : List Component) : Prop where
  sound : RowSound row
  clear : rowIsClear row = true

section

variable {component : Component} {rest : List Component}

theorem rowIsClear_cons : rowIsClear (component :: rest) =
    (component.isClear && !slips component rest && rowIsClear rest) := by
  rw [rowIsClear]

theorem RowFits.head (fits : RowFits (component :: rest)) :
    component.Sound ∧ component.isClear = true ∧ slips component rest = false := by
  have sound := fits.sound
  have clear := fits.clear
  rw [RowSound] at sound
  simp only [rowIsClear_cons, Bool.and_eq_true, Bool.not_eq_true'] at clear
  exact ⟨sound.1, clear.1.1, clear.1.2⟩

theorem RowFits.tail (fits : RowFits (component :: rest)) : RowFits rest := by
  have sound := fits.sound
  have clear := fits.clear
  rw [RowSound] at sound
  simp only [rowIsClear_cons, Bool.and_eq_true] at clear
  exact ⟨sound.2, clear.2⟩

end

/-! Edges -/

/-- Characters that end whatever is written before them. -/
def edges : List Char := [';', ')', ']', '\x7d', '/']

def startsEdge (text : List Char) : Bool :=
  text.head?.all edges.contains

theorem startsEdge_cases {text : List Char} (edge : startsEdge text = true) :
    text = [] ∨ ∃ c rest, text = c :: rest ∧ c ∈ edges := by
  cases text with
  | nil => exact .inl rfl
  | cons first rest => exact .inr ⟨first, rest, rfl, List.contains_iff_mem.1 edge⟩

theorem endsName_of_edge {text : List Char} (edge : startsEdge text = true) :
    endsName text = true := by
  rcases startsEdge_cases edge with rfl | ⟨c, rest, rfl, isEdge⟩
  · rfl
  · simp only [edges, List.mem_cons, List.not_mem_nil, or_false] at isEdge
    rcases isEdge with rfl | rfl | rfl | rfl | rfl <;> rfl

theorem head?_of_edge {text : List Char} (edge : startsEdge text = true) {c : Char}
    (other : edges.contains c = false) : text.head? ≠ some c := by
  intro same
  rw [startsEdge, same, Option.all_some, other] at edge
  cases edge

/-! What is written behind a component -/

def textBehind (component : Component) (rest : List Component) (after : List Char) : List Char :=
  writeAfter (some component.shape) rest ++ after

theorem eq_mark_of_shape {component : Component} {text : List Char}
    (shape : component.shape = .mark text) : ∃ offset, component = .leaf offset (.mark text) := by
  cases component with
  | leaf offset leaf =>
      cases leaf with
      | mark found =>
          injection shape with same
          exact ⟨offset, by rw [same]⟩
      | _ => cases shape
  | _ => cases shape

theorem blank_of_newlineFirst {rest : List Component} (newline : newlineFirst rest = true) :
    ∃ offset more later, rest = .leaf offset (.blank ('\n' :: more)) :: later := by
  unfold newlineFirst at newline
  split at newline
  · rename_i offset text later
    obtain ⟨more, rfl⟩ := List.head?_eq_some_iff.1 (eq_of_beq newline)
    exact ⟨offset, more, later, rfl⟩
  · cases newline

theorem newlineFirst_of_slips {offset : Nat} {rest : List Component}
    (clear : slips (.leaf offset (.mark ['\\'])) rest = false) : newlineFirst rest = true := by
  simp only [slips, markSlips, Bool.or_eq_false_iff, Bool.and_eq_false_iff, Bool.not_eq_false'] at clear
  rcases clear.1 with other | newline
  · cases other
  · exact newline

theorem textBehind_nil (component : Component) (after : List Char) :
    textBehind component [] after = after := by
  rw [textBehind, writeAfter, List.nil_append]

theorem separator_of_apart {left : Shape} {right : Component} (more : List Component)
    (apart : left.merges right.shape = false)
    (newline : left = .char '\\' → newlineFirst (right :: more) = true) :
    separator (some left) right = [] := by
  unfold separator
  simp only [apart, Bool.false_eq_true, if_false]
  split
  · rename_i backslash
    obtain ⟨offset, text, later, same⟩ := blank_of_newlineFirst (newline backslash)
    obtain ⟨rfl, -⟩ := List.cons.inj same
    rfl
  · rfl

theorem textBehind_cons {component right : Component} {more : List Component}
    (clear : slips component (right :: more) = false) (after : List Char) :
    textBehind component (right :: more) after =
      (if component.shape.merges right.shape then "/**/".toList else []) ++
        (writeComponent right ++ textBehind right more after) := by
  have newline : component.shape = .char '\\' → newlineFirst (right :: more) = true := by
    intro backslash
    obtain ⟨offset, rfl⟩ := eq_mark_of_shape backslash
    exact newlineFirst_of_slips clear
  unfold textBehind
  rw [writeAfter, List.append_assoc, List.append_assoc]
  cases merges : component.shape.merges right.shape with
  | true =>
      have comment : separator (some component.shape) right = "/**/".toList := if_pos merges
      rw [comment]
      rfl
  | false =>
      rw [separator_of_apart more merges newline]
      rfl

/-- Behind a component stands the end of its row, an empty comment, or the next component. -/
theorem textBehind_cases {component : Component} {rest : List Component} {after : List Char}
    (clear : slips component rest = false) (edge : startsEdge after = true) :
    startsEdge (textBehind component rest after) = true ∨
      ∃ right more, rest = right :: more ∧ component.shape.merges right.shape = false ∧
        textBehind component rest after = writeComponent right ++ textBehind right more after := by
  cases rest with
  | nil =>
      rw [textBehind_nil]
      exact .inl edge
  | cons right more =>
      rw [textBehind_cons clear]
      cases merges : component.shape.merges right.shape with
      | true => exact .inl rfl
      | false => exact .inr ⟨right, more, rfl, merges, rfl⟩

/-! How components open -/

/-- Shapes that can be read into a name before them. -/
def wordShapes : List Shape :=
  [.ident, .function, .address, .characterRange, .number, .percentage, .dimension]

def letterShapes : List Shape := [.address, .characterRange]

def numberShapes : List Shape := [.number, .percentage, .dimension]

/-- Characters that open components that are neither words nor marks. -/
def openings : List Char := [' ', '\n', '\t', '@', '#', '"', '(', '[', '\x7b']

/-- What the first character of a component says about it. -/
inductive Opens (component : Component) (c : Char) : Prop
  | name (found : List Char) (isName : component.name? = some found)
      (begins : c = '\\' ∨ c = '-' ∨ isNameStart c = true ∧ found.head? = some c)
  | letter (shape : component.shape ∈ letterShapes) (begins : c = 'u' ∨ c = 'U')
  | number (shape : component.shape ∈ numberShapes)
      (begins : c.isDigit = true ∨ c = '+' ∨ c = '-' ∨ c = '.')
  | mark (text : List Char) (shape : component.shape = .mark (c :: text))
  | plain (isOpening : c ∈ openings) (round : c = '(' → component.shape = .block .round)
      (blank : isBlankChar c = true → component.shape = .blank)

theorem number_opens {text sign whole fraction exponent : List Char}
    (parts : NumberParts text sign whole fraction exponent) :
    ∃ c more, text = c :: more ∧ (c.isDigit = true ∨ c = '+' ∨ c = '-' ∨ c = '.') := by
  obtain ⟨c, more, mantissa, begins⟩ := mantissa_cons parts.allDigits parts.isFraction parts.some
  rw [parts.joined, mantissa]
  rcases parts.isSign with rfl | rfl | rfl
  · exact ⟨c, _, rfl, begins.imp_right fun point => .inr (.inr point)⟩
  · exact ⟨'+', _, rfl, .inr (.inl rfl)⟩
  · exact ⟨'-', _, rfl, .inr (.inr (.inl rfl))⟩

theorem name_opens {found : List Char} (named : found ≠ []) :
    ∃ c more, writeIdent found = c :: more ∧
      (c = '\\' ∨ c = '-' ∨ isNameStart c = true ∧ found.head? = some c) := by
  rcases writeIdent_cases named with ⟨more, written⟩ | ⟨more, written⟩ | whole
  · exact ⟨'\\', more, written, .inl rfl⟩
  · exact ⟨'-', more, written, .inr (.inl rfl)⟩
  · obtain ⟨c, more, rfl, isStart, written⟩ := whole
    exact ⟨c, _, written, .inr (.inr ⟨isStart, rfl⟩)⟩

theorem longMarks_ne_nil : ∀ text ∈ longMarks, text ≠ [] := by
  decide

theorem Leaf.opens {offset : Nat} {leaf : Leaf} (sound : leaf.Sound) :
    ∃ c more, writeLeaf leaf = c :: more ∧ Opens (.leaf offset leaf) c := by
  -- The first character that each kind of leaf is written with.
  cases leaf with
  | blank text =>
      obtain ⟨c, more, rfl⟩ := List.exists_cons_of_ne_nil sound.1
      refine ⟨c, more, rfl, .plain ?_ ?_ fun _ => rfl⟩
      · have blank := sound.2 c List.mem_cons_self
        simp only [isBlankChar, Bool.or_eq_true, beq_iff_eq] at blank
        rcases blank with (rfl | rfl) | rfl <;> decide
      · rintro rfl
        exact absurd (sound.2 '(' List.mem_cons_self) (by decide)
  | mark text =>
      rcases sound with long | ⟨c, -, rfl⟩
      · obtain ⟨c, more, rfl⟩ := List.exists_cons_of_ne_nil (longMarks_ne_nil text long)
        exact ⟨c, more, rfl, .mark more rfl⟩
      · exact ⟨c, [], rfl, .mark [] rfl⟩
  | ident name =>
      obtain ⟨c, more, written, begins⟩ := name_opens sound.1
      exact ⟨c, more, written, .name name rfl begins⟩
  | atKeyword name => exact ⟨'@', _, rfl, .plain (by decide) (by simp) (by simp [isBlankChar])⟩
  | hash name isIdent => exact ⟨'#', _, rfl, .plain (by decide) (by simp) (by simp [isBlankChar])⟩
  | quoted value closed => exact ⟨'"', _, rfl, .plain (by decide) (by simp) (by simp [isBlankChar])⟩
  | address value closed =>
      exact ⟨'u', _, rfl, .letter (List.mem_cons_self) (.inl rfl)⟩
  | characterRange first last =>
      have isRange : Shape.characterRange ∈ letterShapes := by decide
      refine ⟨'U', (writeLeaf (.characterRange first last)).tail, ?_, .letter isRange (.inr rfl)⟩
      rw [writeLeaf]
      split <;> rfl
  | number text =>
      obtain ⟨sign, whole, fraction, exponent, parts⟩ := sound.1
      obtain ⟨c, more, rfl, begins⟩ := number_opens parts
      exact ⟨c, more, rfl, .number (show Shape.number ∈ numberShapes by decide) begins⟩
  | percentage text =>
      obtain ⟨sign, whole, fraction, exponent, parts⟩ := sound.1
      obtain ⟨c, more, rfl, begins⟩ := number_opens parts
      exact ⟨c, _, rfl, .number (show Shape.percentage ∈ numberShapes by decide) begins⟩
  | dimension text unit =>
      obtain ⟨sign, whole, fraction, exponent, parts⟩ := sound.1.1
      obtain ⟨c, more, rfl, begins⟩ := number_opens parts
      exact ⟨c, _, rfl, .number (show Shape.dimension ∈ numberShapes by decide) begins⟩

theorem Component.opens {component : Component} (sound : component.Sound)
    (clear : component.isClear = true) :
    ∃ c more, writeComponent component = c :: more ∧ Opens component c := by
  cases component with
  | leaf offset leaf =>
      rw [writeComponent]
      rw [Component.Sound] at sound
      exact leaf.opens sound
  | fault offset fault =>
      rw [Component.isClear] at clear
      cases clear
  | block offset bracket content =>
      rw [writeComponent]
      refine ⟨bracket.opening, _, rfl, ?_⟩
      cases bracket with
      | round => exact .plain (by decide) (fun _ => rfl) nofun
      | square => exact .plain (by decide) nofun nofun
      | curly => exact .plain (by decide) nofun nofun
  | function offset name arguments =>
      rw [Component.Sound] at sound
      obtain ⟨c, more, written, begins⟩ := name_opens sound.1.1
      rw [writeComponent, written]
      exact ⟨c, _, rfl, .name name rfl begins⟩

/-! What can stand behind a component -/

theorem endsName_cons {c : Char} (notChar : isNameChar c = false) (notBackslash : c ≠ '\\')
    (rest : List Char) : endsName (c :: rest) = true := by
  simp [endsName, startsEscape_cons, notChar, notBackslash]

theorem longMark_opens : ∀ text ∈ longMarks, text ≠ arrow →
    text.head?.all (fun c => !isNameChar c && c != '\\') = true := by
  decide

theorem shape_of_name? {component : Component} {found : List Char}
    (isName : component.name? = some found) :
    component.shape = .ident ∨ component.shape = .function := by
  cases component with
  | leaf offset leaf => cases leaf <;> first | exact .inl rfl | cases isName
  | function => exact .inr rfl
  | _ => cases isName

theorem wordShape_of_name? {component : Component} {found : List Char}
    (isName : component.name? = some found) : component.shape ∈ wordShapes := by
  rcases shape_of_name? isName with shape | shape <;> rw [shape] <;> decide

theorem isMarkChar_cases {c : Char} (isMark : isMarkChar c = true) :
    c = '-' ∨ c = '\\' ∨ isNameChar c = false ∧ c ≠ '\\' := by
  simp only [isMarkChar, Bool.and_eq_true, Bool.not_eq_true'] at isMark
  obtain ⟨⟨⟨-, notStart⟩, notDigit⟩, -⟩ := isMark
  by_cases dash : c = '-'
  · exact .inl dash
  · by_cases backslash : c = '\\'
    · exact .inr (.inl backslash)
    · exact .inr (.inr ⟨by simp [isNameChar, notStart, notDigit, dash], backslash⟩)

section

variable {right : Component} {more : List Component}
  (fits : RowFits (right :: more))

include fits

theorem RowFits.opens : ∃ c rest, writeComponent right = c :: rest ∧ Opens right c :=
  right.opens fits.head.1 fits.head.2.1

theorem newline_behind_backslash (shape : right.shape = .char '\\') (after : List Char) :
    ∃ rest, textBehind right more after = '\n' :: rest := by
  obtain ⟨offset, rfl⟩ := eq_mark_of_shape shape
  obtain ⟨place, text, later, rfl⟩ :=
    blank_of_newlineFirst (newlineFirst_of_slips fits.head.2.2)
  exact ⟨_, rfl⟩

theorem RowFits.word_or_endsName (after : List Char) :
    right.shape ∈ wordShapes ∨ right.shape ∈ [.mark minus, .mark arrow] ∨
      endsName (writeComponent right ++ textBehind right more after) = true := by
  obtain ⟨c, rest, written, opens⟩ := fits.opens
  -- By the first character: only words, a minus sign and an arrow can go on with a name.
  cases opens with
  | name found isName => exact .inl (wordShape_of_name? isName)
  | letter shape =>
      have isWord : ∀ shape ∈ letterShapes, shape ∈ wordShapes := by decide
      exact .inl (isWord _ shape)
  | number shape =>
      have isWord : ∀ shape ∈ numberShapes, shape ∈ wordShapes := by decide
      exact .inl (isWord _ shape)
  | plain isOpening =>
      rw [written]
      simp only [openings, List.mem_cons, List.not_mem_nil, or_false] at isOpening
      rcases isOpening with rfl | rfl | rfl | rfl | rfl | rfl | rfl | rfl | rfl <;>
        exact .inr (.inr rfl)
  | mark text shape =>
      have sound := fits.head.1
      obtain ⟨offset, rfl⟩ := eq_mark_of_shape shape
      rw [Component.Sound] at sound
      rcases sound with long | ⟨single, isMark, same⟩
      · by_cases isArrow : c :: text = arrow
        · rw [isArrow]
          exact .inr (.inl (show Shape.mark arrow ∈ [.mark minus, .mark arrow] by decide))
        · have opening := longMark_opens _ long isArrow
          simp only [List.head?_cons, Option.all_some, Bool.and_eq_true, Bool.not_eq_true',
            bne_iff_ne] at opening
          obtain ⟨notChar, notBackslash⟩ := opening
          rw [written]
          exact .inr (.inr (endsName_cons notChar notBackslash _))
      · obtain ⟨rfl, rfl⟩ := List.cons.inj same
        rcases isMarkChar_cases isMark with rfl | rfl | ⟨notChar, notBackslash⟩
        · exact .inr (.inl (show Shape.mark minus ∈ [.mark minus, .mark arrow] by decide))
        · obtain ⟨later, newline⟩ := newline_behind_backslash fits rfl after
          rw [newline]
          exact .inr (.inr rfl)
        · rw [written]
          exact .inr (.inr (endsName_cons notChar notBackslash _))

end

def nameEnds : List Shape := [.ident, .atKeyword, .hash, .dimension]

def nameMarks : List Shape := [.char '#', .char '-']

theorem merges_word : ∀ left ∈ nameEnds ++ nameMarks, ∀ right ∈ wordShapes,
    left.merges right = true := by
  decide

theorem merges_dash : ∀ left ∈ nameEnds, ∀ right ∈ [.mark minus, .mark arrow],
    left.merges right = true := by
  decide

section

variable {left : Component} {rest : List Component} {after : List Char}
  (fits : RowFits (left :: rest)) (edge : startsEdge after = true)

include fits edge

theorem endsName_behind (shape : left.shape ∈ nameEnds ++ nameMarks) :
    endsName (textBehind left rest after) = true := by
  rcases textBehind_cases fits.head.2.2 edge with atEdge | ⟨right, more, rfl, apart, behind⟩
  · exact endsName_of_edge atEdge
  · rcases fits.tail.word_or_endsName after with isWord | dash | ends
    · rw [merges_word _ shape _ isWord] at apart
      cases apart
    · rcases List.mem_append.1 shape with ends | isMark
      · rw [merges_dash _ ends _ dash] at apart
        cases apart
      · have clear := fits.head.2.2
        obtain ⟨text, isText, same⟩ : ∃ text ∈ [['#'], minus], left.shape = .mark text := by
          simpa [nameMarks, minus, Shape.char] using isMark
        obtain ⟨next, isNext, sameNext⟩ : ∃ next ∈ [minus, arrow], right.shape = .mark next := by
          simpa using dash
        obtain ⟨offset, rfl⟩ := eq_mark_of_shape same
        obtain ⟨place, rfl⟩ := eq_mark_of_shape sameNext
        have slip : ∀ text ∈ [['#'], minus], ∀ next ∈ [minus, arrow],
            ((text == minus || text == ['#']) && (next == minus || next == arrow)) = true := by
          decide
        simp [slips, markSlips, slip text isText next isNext] at clear
    · rw [behind]
      exact ends

/-- What stands behind a component begins with the end of its row or with the next component. -/
theorem opens_behind {c : Char} (head : (textBehind left rest after).head? = some c)
    (notEdge : edges.contains c = false) :
    ∃ right more, rest = right :: more ∧ left.shape.merges right.shape = false ∧
      Opens right c ∧
      textBehind left rest after = writeComponent right ++ textBehind right more after := by
  rcases textBehind_cases fits.head.2.2 edge with atEdge | ⟨right, more, rfl, apart, behind⟩
  · exact absurd head (head?_of_edge atEdge notEdge)
  · obtain ⟨d, text, written, opens⟩ := fits.tail.opens
    rw [behind, written] at head
    obtain rfl := Option.some.inj head
    exact ⟨right, more, rfl, apart, opens, behind⟩

end

def sigils : List Char := ['%', '>', '=', '|', '*', '!', '?']

theorem Opens.mark_of_sigil {component : Component} {c : Char} (opens : Opens component c)
    (sigil : c ∈ sigils) : ∃ text, component.shape = .mark (c :: text) := by
  have others : ∀ c ∈ sigils, isNameStart c = false ∧ c.isDigit = false ∧
      c ∉ ['\\', '-', '+', '.', 'u', 'U'] ∧ c ∉ openings :=
    forall_of_all (by decide)
  obtain ⟨notStart, notDigit, notSign, notOpening⟩ := others c sigil
  simp only [List.mem_cons, List.not_mem_nil, or_false, not_or] at notSign
  cases opens with
  | name found isName begins => simp [notStart, notSign] at begins
  | letter shape begins => simp [notSign] at begins
  | number shape begins => simp [notDigit, notSign] at begins
  | mark text shape => exact ⟨text, shape⟩
  | plain isOpening => exact absurd isOpening notOpening

theorem mark_cases {offset : Nat} {c : Char} {text : List Char}
    (sound : (Component.leaf offset (.mark (c :: text))).Sound) :
    text = [] ∨ c :: text ∈ longMarks := by
  rw [Component.Sound] at sound
  rcases sound with long | ⟨d, -, same⟩
  · exact .inr long
  · exact .inl (List.cons.inj same).2

theorem mark_first {offset : Nat} {c : Char} {text : List Char}
    (sound : (Component.leaf offset (.mark (c :: text))).Sound) :
    isNameStart c = false ∧ c.isDigit = false ∧ isBlankChar c = false := by
  rw [Component.Sound] at sound
  rcases sound with long | ⟨d, isMark, same⟩
  · have all : ∀ text ∈ longMarks,
        text.head?.all (fun c => !isNameStart c && !c.isDigit && !isBlankChar c) = true := by
      decide
    simpa [and_assoc] using all _ long
  · obtain ⟨rfl, rfl⟩ := List.cons.inj same
    simp only [isMarkChar, Bool.and_eq_true, Bool.not_eq_true'] at isMark
    exact ⟨isMark.1.1.2, isMark.1.2, isMark.1.1.1.2⟩

def pointMarks : List Shape := [.char '.', .char '+']

def digitEnds : List Shape := [.char '-', .number, .characterRange]

theorem merges_number : ∀ left ∈ pointMarks ++ digitEnds, ∀ right ∈ numberShapes,
    left.merges right = true := by
  decide

theorem merges_name : ∀ left ∈ digitEnds, ∀ right ∈ [.ident, .function],
    left.merges right = true := by
  decide

section

variable {left : Component} {rest : List Component} {after : List Char}
  (fits : RowFits (left :: rest)) (edge : startsEdge after = true)

include fits edge

theorem no_digit_behind (shape : left.shape ∈ pointMarks ++ digitEnds) :
    (textBehind left rest after).head?.any Char.isDigit = false := by
  refine Bool.eq_false_iff.2 fun digit => ?_
  obtain ⟨c, head, found⟩ := Option.any_eq_true _ _ |>.1 digit
  have notEdge : edges.contains c = false := by
    refine Bool.eq_false_iff.2 fun isEdge => ?_
    have none : ∀ c ∈ edges, c.isDigit = false := forall_of_all (by decide)
    rw [none c (List.contains_iff_mem.1 isEdge)] at found
    cases found
  -- A digit would be the first character of a component, which nothing keeps apart.
  obtain ⟨right, more, rfl, apart, opens, -⟩ := opens_behind fits edge head notEdge
  cases opens with
  | name _ _ begins =>
      rcases begins with rfl | rfl | ⟨isStart, -⟩
      · cases found
      · cases found
      · rw [isDigit_of_isNameStart isStart] at found
        cases found
  | letter shape begins => rcases begins with rfl | rfl <;> cases found
  | number isNumber =>
      rw [merges_number _ shape _ isNumber] at apart
      cases apart
  | mark text isMark =>
      obtain ⟨offset, rfl⟩ := eq_mark_of_shape isMark
      rw [(mark_first fits.tail.head.1).2.1] at found
      cases found
  | plain isOpening =>
      have none : ∀ c ∈ openings, c.isDigit = false := forall_of_all (by decide)
      rw [none c isOpening] at found
      cases found

theorem endsDigits_behind (shape : left.shape ∈ [.char '+', .char '-', .number]) :
    endsDigits (textBehind left rest after) = true := by
  have isEnd : ∀ shape ∈ [.char '+', .char '-', .number], shape ∈ pointMarks ++ digitEnds := by
    decide
  have notDigit := no_digit_behind fits edge (isEnd _ shape)
  unfold endsDigits
  rw [notDigit, Bool.not_false, Bool.true_and, Bool.not_eq_true', Bool.and_eq_false_iff]
  by_cases point : (textBehind left rest after).head? = some '.'
  · right
    obtain ⟨right, more, rfl, apart, opens, behind⟩ := opens_behind fits edge point rfl
    cases opens with
    | name found isName begins =>
        rcases begins with begins | begins | ⟨begins, -⟩ <;> cases begins
    | letter shape begins => rcases begins with begins | begins <;> cases begins
    | number isNumber =>
        rw [merges_number _ (isEnd _ shape) _ isNumber] at apart
        cases apart
    | mark text isMark =>
        obtain ⟨offset, rfl⟩ := eq_mark_of_shape isMark
        rcases mark_cases fits.tail.head.1 with rfl | long
        · rw [behind]
          exact no_digit_behind fits.tail edge (show Shape.char '.' ∈ pointMarks ++ digitEnds by decide)
        · have none : ∀ text ∈ longMarks, text.head? ≠ some '.' := by decide
          exact absurd rfl (none _ long)
    | plain isOpening => exact absurd isOpening (by decide)
  · exact .inl (beq_eq_false_iff_ne.2 point)

end

theorem exponentLength_of_endsName {text : List Char} (ends : endsName text = true) :
    exponentLength text = 0 := by
  cases text with
  | nil => rfl
  | cons first rest =>
      refine exponentLength_of_other ?_ ?_
      · rintro rfl
        cases ends
      · rintro rfl
        cases ends

section

variable {left : Component} {rest : List Component} {after : List Char}
  (fits : RowFits (left :: rest)) (edge : startsEdge after = true)

include fits edge

theorem sigil_behind {c : Char} (head : (textBehind left rest after).head? = some c)
    (sigil : c ∈ sigils) :
    ∃ offset text more, rest = .leaf offset (.mark (c :: text)) :: more ∧
      left.shape.merges (.mark (c :: text)) = false ∧ (text = [] ∨ c :: text ∈ longMarks) ∧
      textBehind left rest after =
        c :: (text ++ textBehind (.leaf offset (.mark (c :: text))) more after) := by
  have notEdge : ∀ c ∈ sigils, edges.contains c = false := forall_of_all (by decide)
  obtain ⟨right, more, rfl, apart, opens, behind⟩ := opens_behind fits edge head (notEdge c sigil)
  obtain ⟨text, shape⟩ := opens.mark_of_sigil sigil
  obtain ⟨offset, rfl⟩ := eq_mark_of_shape shape
  exact ⟨offset, text, more, rfl, apart, mark_cases fits.tail.head.1, behind⟩

end

section

variable {offset : Nat} {rest : List Component} {after : List Char}

theorem hex_of_endsName {text : List Char} (ends : endsName text = true) :
    text.head?.any isHexDigit = false := by
  refine Bool.eq_false_iff.2 fun hex => ?_
  obtain ⟨c, head, isHex⟩ := (Option.any_eq_true _ _).1 hex
  rw [endsName, head, Option.any_some, isNameChar_of_isHexDigit isHex] at ends
  cases ends

theorem endsRange_of_endsName {c : Char} {rest : List Char} (ends : endsName (c :: rest) = true)
    (noQuestion : c ≠ '?') : endsRange (c :: rest) = true := by
  have notHex := hex_of_endsName ends
  have notMinus : c ≠ '-' := by
    rintro rfl
    cases ends
  rw [List.head?_cons, Option.any_some] at notHex
  simp [endsRange, notHex, noQuestion, notMinus]

theorem endsRange_minus {rest : List Char} (ends : endsName rest = true) :
    endsRange ('-' :: rest) = true := by
  have minusHex : isHexDigit '-' = false := rfl
  simp [endsRange, hex_of_endsName ends, minusHex]

def blanks : List Char := [' ', '\n', '\t']

theorem blanks_of_isBlankChar {c : Char} (blank : isBlankChar c = true) : c ∈ blanks := by
  simpa [isBlankChar, blanks, or_assoc] using blank

theorem eq_blank_of_shape {component : Component} (shape : component.shape = .blank) :
    ∃ offset text, component = .leaf offset (.blank text) := by
  cases component with
  | leaf offset leaf =>
      cases leaf with
      | blank text => exact ⟨offset, text, rfl⟩
      | _ => cases shape
  | _ => cases shape

theorem Opens.blank {component : Component} {c : Char} (opens : Opens component c)
    (sound : component.Sound) (blank : c ∈ blanks) : component.shape = .blank := by
  have others : ∀ c ∈ blanks, isBlankChar c = true ∧ isNameStart c = false ∧ c.isDigit = false ∧
      c ∉ ['\\', '-', '+', '.', 'u', 'U'] :=
    forall_of_all (by decide)
  obtain ⟨isBlank, notStart, notDigit, notSign⟩ := others c blank
  simp only [List.mem_cons, List.not_mem_nil, or_false, not_or] at notSign
  cases opens with
  | name found isName begins => simp [notStart, notSign] at begins
  | letter shape begins => simp [notSign] at begins
  | number shape begins => simp [notDigit, notSign] at begins
  | mark text isMark =>
      obtain ⟨place, rfl⟩ := eq_mark_of_shape isMark
      rw [(mark_first sound).2.2] at isBlank
      cases isBlank
  | plain isOpening round isBlankShape => exact isBlankShape isBlank

/-- Behind a number nothing stands that could be its exponent, its unit, or a percent sign. -/
theorem number_behind {text : List Char} (fits : RowFits (.leaf offset (.number text) :: rest))
    (edge : startsEdge after = true) :
    exponentLength (textBehind (.leaf offset (.number text)) rest after) = 0 ∧
      startsIdent (textBehind (.leaf offset (.number text)) rest after) = false ∧
      (textBehind (.leaf offset (.number text)) rest after).head? ≠ some '%' := by
  have clear := fits.head.2.2
  have of_endsName {behind : List Char} (ends : endsName behind = true) :
      exponentLength behind = 0 ∧ startsIdent behind = false :=
    ⟨exponentLength_of_endsName ends, (startsIdent_of_endsName ends).1⟩
  have noUnit : exponentLength (textBehind (.leaf offset (.number text)) rest after) = 0 ∧
      startsIdent (textBehind (.leaf offset (.number text)) rest after) = false := by
    rcases textBehind_cases clear edge with atEdge | ⟨right, more, rfl, apart, behind⟩
    · exact of_endsName (endsName_of_edge atEdge)
    · -- A word would be merged, and is kept apart; a minus sign has no digit behind it.
      rcases fits.tail.word_or_endsName after with isWord | dash | ends
      · have merges : ∀ right ∈ wordShapes, Shape.number.merges right = true := by decide
        have together := merges _ isWord
        rw [show Shape.number.merges right.shape = false from apart] at together
        cases together
      · simp only [List.mem_cons, List.not_mem_nil, or_false] at dash
        rcases dash with isMinus | isArrow
        · obtain ⟨place, rfl⟩ := eq_mark_of_shape isMinus
          have ends := endsName_behind fits.tail edge
            (show Shape.char '-' ∈ nameEnds ++ nameMarks by decide)
          rw [behind]
          exact ⟨exponentLength_of_other (by decide) (by decide), (startsIdent_of_endsName ends).2⟩
        · obtain ⟨place, rfl⟩ := eq_mark_of_shape isArrow
          simp [slips] at clear
      · exact behind ▸ of_endsName ends
  refine ⟨noUnit.1, noUnit.2, fun percent => ?_⟩
  obtain ⟨place, next, more, rfl, -, isMark, -⟩ := sigil_behind fits edge percent (by decide)
  have noLong : ∀ text ∈ longMarks, text.head? ≠ some '%' := by decide
  rcases isMark with rfl | long
  · simp [slips] at clear
  · exact noLong _ long rfl

theorem endsRange_behind {first last : Nat}
    (fits : RowFits (.leaf offset (.characterRange first last) :: rest))
    (edge : startsEdge after = true) :
    endsRange (textBehind (.leaf offset (.characterRange first last)) rest after) = true := by
  rcases textBehind_cases fits.head.2.2 edge with atEdge | ⟨right, more, rfl, apart, behind⟩
  · rcases startsEdge_cases atEdge with same | ⟨c, later, same, isEdge⟩
    · rw [same]
      rfl
    · rw [same]
      simp only [edges, List.mem_cons, List.not_mem_nil, or_false] at isEdge
      rcases isEdge with rfl | rfl | rfl | rfl | rfl <;> rfl
  · -- What could go on with the range is kept apart from it, so no such component is behind.
    have notMerged : Shape.characterRange.merges right.shape = false := apart
    have digitEnd : Shape.characterRange ∈ digitEnds := by decide
    obtain ⟨c, later, written, opens⟩ := fits.tail.opens
    cases opens with
    | name found isName =>
        have isName : right.shape ∈ [.ident, .function] := by
          simpa using shape_of_name? isName
        rw [merges_name _ digitEnd _ isName] at notMerged
        cases notMerged
    | letter shape begins =>
        rw [behind, written]
        rcases begins with rfl | rfl <;> rfl
    | number isNumber =>
        rw [merges_number _ (List.mem_append_right _ digitEnd) _ isNumber] at notMerged
        cases notMerged
    | mark text isMark =>
        have noQuestion : c ≠ '?' := by
          rintro rfl
          obtain ⟨place, rfl⟩ := eq_mark_of_shape isMark
          have noLong : ∀ text ∈ longMarks, text.head? ≠ some '?' := by decide
          rcases mark_cases fits.tail.head.1 with rfl | long
          · cases notMerged
          · exact noLong _ long rfl
        rcases fits.tail.word_or_endsName after with isWord | dash | ends
        · rw [isMark] at isWord
          simp [wordShapes] at isWord
        · simp only [List.mem_cons, List.not_mem_nil, or_false] at dash
          rcases dash with isMinus | isArrow
          · obtain ⟨place, rfl⟩ := eq_mark_of_shape isMinus
            have ends := endsName_behind fits.tail edge
              (show Shape.char '-' ∈ nameEnds ++ nameMarks by decide)
            rw [behind]
            exact endsRange_minus ends
          · obtain ⟨place, rfl⟩ := eq_mark_of_shape isArrow
            rw [behind]
            rfl
        · rw [behind]
          rw [written] at ends ⊢
          exact endsRange_of_endsName ends noQuestion
    | plain isOpening =>
        rw [behind, written]
        simp only [openings, List.mem_cons, List.not_mem_nil, or_false] at isOpening
        rcases isOpening with rfl | rfl | rfl | rfl | rfl | rfl | rfl | rfl | rfl <;> rfl

theorem startsDark_behind {text : List Char} (fits : RowFits (.leaf offset (.blank text) :: rest))
    (edge : startsEdge after = true) :
    startsDark (textBehind (.leaf offset (.blank text)) rest after) = true := by
  unfold startsDark
  rw [Bool.not_eq_true']
  refine Bool.eq_false_iff.2 fun blank => ?_
  obtain ⟨c, head, isBlank⟩ := (Option.any_eq_true _ _).1 blank
  have isBlank := blanks_of_isBlankChar isBlank
  have notEdge : ∀ c ∈ blanks, edges.contains c = false := forall_of_all (by decide)
  obtain ⟨right, more, rfl, -, opens, -⟩ := opens_behind fits edge head (notEdge c isBlank)
  obtain ⟨place, next, rfl⟩ := eq_blank_of_shape (opens.blank fits.tail.head.1 isBlank)
  have clear := fits.head.2.2
  simp [slips] at clear

end

end SheetScript.Css
