import SheetScript.Proofs.Css.Values

/-!
The parts of a style sheet, its preludes and its declarations, as parts of its text. No name of a
declaration stands inside a prelude or inside a value.
-/

namespace SheetScript.Css

/-! Where components start -/

structure Start where
  offset : Nat
  leaf : Option Leaf

def Start.isName (start : Start) : Bool :=
  start.leaf.any Leaf.isIdent

/-- A name starts at a place of its own. -/
def Apart (left right : Start) : Prop :=
  left.isName = true ∨ right.isName = true → left.offset ≠ right.offset

theorem Apart.symm {left right : Start} (apart : Apart left right) : Apart right left := by
  intro named same
  exact apart named.symm same.symm

mutual

def Component.starts : Component → List Start
  | .leaf offset leaf => [⟨offset, some leaf⟩]
  | .fault offset _ => [⟨offset, none⟩]
  | .block offset _ content => ⟨offset, none⟩ :: rowStarts content
  | .function offset _ arguments => ⟨offset, none⟩ :: rowStarts arguments

def rowStarts : List Component → List Start
  | [] => []
  | component :: rest => component.starts ++ rowStarts rest

end

theorem rowStarts_append (front rest : List Component) :
    rowStarts (front ++ rest) = rowStarts front ++ rowStarts rest := by
  induction front with
  | nil => rfl
  | cons first front ih => rw [List.cons_append, rowStarts, rowStarts, ih, List.append_assoc]

theorem rowStarts_sublist {part row : List Component} (sublist : part.Sublist row) :
    (rowStarts part).Sublist (rowStarts row) := by
  induction sublist with
  | slnil => exact List.Sublist.refl _
  | cons component _ ih => exact ih.trans (List.sublist_append_right _ _)
  | cons_cons component _ ih => exact (List.Sublist.refl _).append ih

/-! Starts in a row that is still being read -/

def startsAround : List Frame → List Start
  | [] => []
  | frame :: outer =>
    startsAround outer ++ rowStarts frame.before.reverse ++ [⟨frame.offset, none⟩]

namespace Nest

def starts (nest : Nest) : List Start :=
  startsAround nest.frames ++ rowStarts nest.inner.reverse

theorem starts_add (nest : Nest) (component : Component) :
    (nest.add component).starts = nest.starts ++ component.starts := by
  unfold starts add
  dsimp only
  rw [List.reverse_cons, rowStarts_append, List.append_assoc]
  simp [rowStarts]

theorem starts_addFault (nest : Nest) (fault : Fault) :
    (nest.addFault fault).starts = nest.starts ++ [⟨nest.offset, none⟩] := by
  rw [addFault, starts_add, Component.starts]

theorem starts_openFrame (nest : Nest) (opener : Opener) :
    (nest.openFrame opener).starts = nest.starts ++ [⟨nest.offset, none⟩] := by
  simp [starts, openFrame, startsAround, rowStarts]

theorem starts_close (frame : Frame) (inner : List Component) :
    (frame.close inner).starts = ⟨frame.offset, none⟩ :: rowStarts inner.reverse := by
  unfold Frame.close
  cases frame.opener <;> simp [Component.starts]

theorem starts_closeFrame (nest : Nest) (bracket : Bracket) :
    (nest.closeFrame bracket).starts = nest.starts ∨
      (nest.closeFrame bracket).starts = nest.starts ++ [⟨nest.offset, none⟩] := by
  unfold closeFrame
  cases atFrames : nest.frames with
  | nil => exact .inr (starts_addFault nest _)
  | cons frame outer =>
      dsimp only
      split
      · left
        unfold starts
        rw [atFrames]
        dsimp only
        rw [List.reverse_cons, rowStarts_append, startsAround]
        simp [rowStarts, starts_close]
      · exact .inr (starts_addFault nest _)

/-- What a token starts, at its own offset: components of which a leaf is the token itself. -/
def Begins (nest next : Nest) (token : Token) : Prop :=
  ∃ added, next.starts = nest.starts ++ added ∧ added.Pairwise Apart ∧
    ∀ start ∈ added, start.offset = nest.offset ∧
      ∀ leaf, start.leaf = some leaf → token = .leaf leaf

theorem Begins.nothing {nest next : Nest} (token : Token) (same : next.starts = nest.starts) :
    Begins nest next token :=
  ⟨[], same.trans (List.append_nil _).symm, .nil, by simp⟩

theorem Begins.leafless {nest next : Nest} (token : Token)
    (one : next.starts = nest.starts ++ [⟨nest.offset, none⟩]) : Begins nest next token :=
  ⟨_, one, List.pairwise_singleton _ _, by simp⟩

theorem begins_leaf (nest : Nest) (leaf : Leaf) :
    Begins nest (nest.add (.leaf nest.offset leaf)) (.leaf leaf) :=
  ⟨[⟨nest.offset, some leaf⟩], starts_add nest _, List.pairwise_singleton _ _, by simp⟩

/-- A text without its end starts a fault at its own offset too, but no name. -/
theorem begins_faulty (nest : Nest) {leaf : Leaf} (notName : leaf.isIdent = false) (fault : Fault) :
    Begins nest ((nest.add (.leaf nest.offset leaf)).addFault fault) (.leaf leaf) := by
  refine ⟨[⟨nest.offset, some leaf⟩, ⟨nest.offset, none⟩], ?_, ?_, by simp⟩
  · rw [starts_addFault, starts_add, List.append_assoc]
    rfl
  · simp [Apart, Start.isName, notName]

theorem begins_readToken (nest : Nest) (token : Token) :
    Begins nest (nest.readToken token) token := by
  cases token with
  | leaf leaf =>
      cases leaf with
      | quoted value closed =>
          cases closed with
          | true => exact begins_leaf nest _
          | false => exact begins_faulty nest rfl .openQuoted
      | address value closed =>
          cases closed with
          | true => exact begins_leaf nest _
          | false => exact begins_faulty nest rfl .openAddress
      | _ => exact begins_leaf nest _
  | comment => exact .nothing _ rfl
  | functionOpening name => exact .leafless _ (starts_openFrame nest _)
  | opening bracket => exact .leafless _ (starts_openFrame nest _)
  | closing bracket =>
      rcases starts_closeFrame nest bracket with same | fault
      · exact .nothing _ same
      · exact .leafless _ fault
  | brokenQuoted => exact .leafless _ (starts_addFault nest _)
  | brokenAddress => exact .leafless _ (starts_addFault nest _)

theorem starts_closeAll (offset : Nat) (inner : List Component) (frames : List Frame) :
    rowStarts (closeAll inner frames) = starts ⟨offset, inner, frames⟩ := by
  induction frames generalizing inner with
  | nil => rfl
  | cons frame outer ih =>
      rw [closeAll, ih]
      unfold starts
      dsimp only
      rw [List.reverse_cons, rowStarts_append, startsAround]
      simp [rowStarts, starts_close]

end Nest

def LeafAt (scanned : List Scanned) (offset : Nat) (leaf : Leaf) : Prop :=
  ∃ before text after, scanned = before ++ ⟨.leaf leaf, text⟩ :: after ∧
    (before.flatMap Scanned.text).length = offset

theorem LeafAt.append {scanned : List Scanned} {offset : Nat} {leaf : Leaf}
    (here : LeafAt scanned offset leaf) (more : List Scanned) :
    LeafAt (scanned ++ more) offset leaf := by
  obtain ⟨before, text, after, rfl, length⟩ := here
  exact ⟨before, text, after ++ more, by simp, length⟩

structure Traced (scanned : List Scanned) (nest : Nest) : Prop where
  offset : nest.offset = (scanned.flatMap Scanned.text).length
  before : ∀ start ∈ nest.starts, start.offset < nest.offset
  apart : nest.starts.Pairwise Apart
  leaf : ∀ start ∈ nest.starts, ∀ leaf, start.leaf = some leaf → LeafAt scanned start.offset leaf

theorem Traced.start : Traced [] .start := by
  constructor
  · rfl
  · intro start inside
    cases inside
  · exact .nil
  · intro start inside
    cases inside

theorem Traced.read {scanned : List Scanned} {nest : Nest} (traced : Traced scanned nest)
    {next : Scanned} (notEmpty : next.text ≠ []) :
    Traced (scanned ++ [next]) (nest.read next) := by
  obtain ⟨added, eq, addedApart, isAdded⟩ := nest.begins_readToken next.token
  have starts : (nest.read next).starts = nest.starts ++ added := eq
  have offset : (nest.read next).offset = nest.offset + next.text.length := rfl
  have longer := List.length_pos_iff.2 notEmpty
  -- What is old starts before the token, what is new at it.
  constructor
  · rw [offset, traced.offset]
    simp
  · intro start inside
    rw [starts] at inside
    rcases List.mem_append.1 inside with old | new
    · have := traced.before start old
      omega
    · have := (isAdded start new).1
      omega
  · rw [starts]
    refine List.pairwise_append.2 ⟨traced.apart, addedApart, ?_⟩
    intro old inOld new inNew _
    have isBefore := traced.before old inOld
    have isHere := (isAdded new inNew).1
    omega
  · intro start inside leaf isLeaf
    rw [starts] at inside
    rcases List.mem_append.1 inside with old | new
    · exact (traced.leaf start old leaf isLeaf).append [next]
    · obtain ⟨here, token⟩ := isAdded start new
      refine ⟨scanned, next.text, [], ?_, by rw [here, traced.offset]⟩
      rw [← token leaf isLeaf]

theorem Traced.foldl {scanned : List Scanned} {nest : Nest} (traced : Traced scanned nest)
    {later : List Scanned} (notEmpty : ∀ next ∈ later, next.text ≠ []) :
    Traced (scanned ++ later) (later.foldl Nest.read nest) := by
  induction later generalizing scanned nest with
  | nil => rwa [List.append_nil]
  | cons next later ih =>
      have step := ih (traced.read (notEmpty next List.mem_cons_self))
        fun other inside => notEmpty other (List.mem_cons_of_mem _ inside)
      rwa [List.append_assoc] at step

theorem text_ne_nil {source : List Char} {scanned : Scanned} (read : scanned ∈ tokens source) :
    scanned.text ≠ [] := by
  fun_induction tokens source with
  | case1 => cases read
  | case2 c rest token count found ih =>
      rcases List.mem_cons.1 read with rfl | later
      · exact List.cons_ne_nil _ _
      · exact ih later

theorem traced_tokens (source : List Char) :
    Traced (tokens source) ((tokens source).foldl Nest.read .start) :=
  Traced.start.foldl fun _ read => text_ne_nil read

theorem starts_components (source : List Char) :
    rowStarts (components source) = ((tokens source).foldl Nest.read .start).starts := by
  unfold components
  dsimp only
  exact Nest.starts_closeAll _ _ _

/-! Parts -/

/-- A part of a style sheet whose inside is not to be touched. -/
inductive Part
  | prelude (row : List Component)
  | declaration (declaration : Declaration)

namespace Part

def declaration? : Part → Option Declaration
  | prelude _ => none
  | declaration found => some found

def body : Part → List Component
  | prelude row => row
  | declaration found => found.value

def inside (part : Part) : List Nat :=
  (rowStarts part.body).map Start.offset

/-- Where a part starts: a declaration at its name, which is marked. -/
def starts : Part → List (Bool × Start)
  | prelude row => (rowStarts row).map (false, ·)
  | declaration found =>
    (true, ⟨found.offset, some (.ident found.name)⟩) :: (rowStarts found.value).map (false, ·)

end Part

def partsIn (passMarks : Bool) (row : List Component) : List Part :=
  (rulesAfter passMarks .between row).attach.flatMap fun
    | ⟨.qualified prelude content, _⟩ =>
      .prelude prelude :: (blockDeclarations content).map .declaration
    | ⟨.atRule keyword prelude (some content), _isRule⟩ =>
      .prelude prelude ::
        if holdsRules keyword then partsIn false content
        else (blockDeclarations content).map .declaration
    | ⟨.atRule _ prelude none, _⟩ => [.prelude prelude]
    | ⟨.unfinished _, _⟩ => []
termination_by sizeOf row
decreasing_by exact sizeOf_content_of_mem _isRule

def Rule.parts : Rule → List Part
  | .qualified prelude content => .prelude prelude :: (blockDeclarations content).map .declaration
  | .atRule keyword prelude (some content) =>
    .prelude prelude ::
      if holdsRules keyword then partsIn false content
      else (blockDeclarations content).map .declaration
  | .atRule _ prelude none => [.prelude prelude]
  | .unfinished _ => []

theorem partsIn_eq (passMarks : Bool) (row : List Component) :
    partsIn passMarks row = (rulesAfter passMarks .between row).flatMap Rule.parts := by
  rw [partsIn, List.flatMap_subtype (g := Rule.parts), List.unattach_attach]
  intro rule isRule
  cases rule with
  | qualified prelude content => rfl
  | atRule keyword prelude content => cases content <;> rfl
  | unfinished offset => rfl

def sheetParts (row : List Component) : List Part :=
  partsIn true row

theorem filterMap_declaration? (declarations : List Declaration) :
    (declarations.map Part.declaration).filterMap Part.declaration? = declarations := by
  rw [List.filterMap_map]
  exact List.filterMap_some

theorem declarations_partsIn (passMarks : Bool) (row : List Component) :
    (partsIn passMarks row).filterMap Part.declaration? = declarationsIn passMarks row := by
  rw [partsIn_eq, declarationsIn_eq, List.filterMap_flatMap]
  refine List.flatMap_congr fun rule isRule => ?_
  cases rule with
  | qualified prelude content => exact filterMap_declaration? _
  | atRule keyword prelude content =>
      cases content with
      | none => rfl
      | some content =>
          unfold Rule.parts Rule.declarations
          dsimp only
          split
          · exact declarations_partsIn false content
          · exact filterMap_declaration? _
  | unfinished offset => rfl
termination_by sizeOf row
decreasing_by exact sizeOf_content_of_mem isRule

/-! Parts start in the order of the source -/

namespace Declaration

def starts (declaration : Declaration) : List Start :=
  ⟨declaration.offset, some (.ident declaration.name)⟩ :: rowStarts declaration.value

end Declaration

theorem starts_ofComponents? (row : List Component) :
    ((Declaration.ofComponents? row).toList.flatMap Declaration.starts).Sublist (rowStarts row) := by
  unfold Declaration.ofComponents?
  split
  · rename_i offset name rest
    split
    · rename_i colon value atColon
      have behind : value.Sublist rest :=
        (List.sublist_cons_self colon value).trans (atColon ▸ List.dropWhile_sublist _)
      have whole (part : List Component) (isPart : part.Sublist value) :
          (Declaration.starts ⟨offset, name, part, false⟩).Sublist
            (rowStarts (.leaf offset (.ident name) :: rest)) := by
        rw [rowStarts]
        exact (rowStarts_sublist (isPart.trans behind)).cons_cons _
      have fits := ValueRead.fits_foldl value
      dsimp only
      split
      · exact List.nil_sublist _
      · split
        · rename_i before isImportant
          rw [isImportant] at fits
          simp only [Option.toList_some, List.flatMap_singleton]
          exact whole before.reverse fits.isPrefix.sublist
        · simp only [Option.toList_some, List.flatMap_singleton]
          exact whole value (List.Sublist.refl _)
    · exact List.nil_sublist _
  · exact List.nil_sublist _

def DeclarationPart.starts : DeclarationPart → List Start
  | .components read => rowStarts read.reverse
  | _ => []

theorem starts_declarationsAfter (part : DeclarationPart) (row : List Component) :
    ((declarationsAfter part row).flatMap Declaration.starts).Sublist
      (part.starts ++ rowStarts row) := by
  fun_induction declarationsAfter part row with
  | case1 read => simpa [rowStarts, DeclarationPart.starts] using starts_ofComponents? read.reverse
  | case2 part notReading => exact List.nil_sublist _
  | case3 rest offset text ih => exact ih.trans (List.sublist_append_right _ _)
  | case4 rest offset name ih => exact ih.trans (List.sublist_append_right _ _)
  | case5 rest component notBlank notKeyword semicolon ih =>
      exact ih.trans (List.sublist_append_right _ _)
  | case6 rest component notBlank notKeyword notSemicolon ih =>
      simpa [DeclarationPart.starts, rowStarts] using ih
  | case7 component rest read semicolon ih =>
      rw [List.flatMap_append, rowStarts]
      exact (starts_ofComponents? read.reverse).append
        (ih.trans (List.sublist_append_right _ _))
  | case8 component rest read notSemicolon ih =>
      rw [DeclarationPart.starts, List.reverse_cons, rowStarts_append, List.append_assoc] at ih
      simpa [DeclarationPart.starts, rowStarts] using ih
  | case9 component rest ends ih => exact ih.trans (List.sublist_append_right _ _)
  | case10 component rest stays ih => exact ih.trans (List.sublist_append_right _ _)

def RulePart.starts : RulePart → List Start
  | .between => []
  | .prelude last before => rowStarts (last :: before).reverse
  | .atPrelude _ before => rowStarts before.reverse

def Rule.starts : Rule → List Start
  | .qualified prelude content => rowStarts prelude ++ rowStarts content
  | .atRule _ prelude content => rowStarts prelude ++ rowStarts (content.getD [])
  | .unfinished _ => []

theorem rowStarts_reverse_cons (component : Component) (before : List Component) :
    rowStarts (component :: before).reverse = rowStarts before.reverse ++ component.starts := by
  rw [List.reverse_cons, rowStarts_append]
  simp [rowStarts]

theorem starts_beginRule (passMarks : Bool) (component : Component) :
    (∀ next, beginRule passMarks component = .inl next → next.starts.Sublist component.starts) ∧
      ∀ rule, beginRule passMarks component = .inr rule → rule.starts.Sublist component.starts := by
  unfold beginRule
  split
  · simp [RulePart.starts]
  · simp [RulePart.starts, rowStarts]
  · simp [Rule.starts, rowStarts, Component.starts]
  · split
    · simp [RulePart.starts]
    · simp [RulePart.starts, rowStarts]

theorem starts_readRule (passMarks : Bool) (part : RulePart) (component : Component) :
    (∀ next, part.read passMarks component = .inl next →
        next.starts.Sublist (part.starts ++ component.starts)) ∧
      ∀ rule, part.read passMarks component = .inr rule →
        rule.starts.Sublist (part.starts ++ component.starts) := by
  cases part with
  | between => exact starts_beginRule passMarks component
  | prelude last before =>
      unfold RulePart.read
      dsimp only
      split
      · simp [Rule.starts, RulePart.starts, Component.starts]
      · refine ⟨fun next isNext => ?_, by simp⟩
        obtain rfl := Sum.inl.inj isNext
        rw [RulePart.starts, rowStarts_reverse_cons]
        exact List.Sublist.refl _
  | atPrelude keyword before =>
      unfold RulePart.read
      dsimp only
      split
      · simp [Rule.starts, RulePart.starts, Component.starts]
      · split
        · simp [Rule.starts, RulePart.starts, rowStarts]
        · refine ⟨fun next isNext => ?_, by simp⟩
          obtain rfl := Sum.inl.inj isNext
          rw [RulePart.starts, rowStarts_reverse_cons]
          exact List.Sublist.refl _

theorem starts_rulesAfter (passMarks : Bool) (part : RulePart) (row : List Component) :
    ((rulesAfter passMarks part row).flatMap Rule.starts).Sublist
      (part.starts ++ rowStarts row) := by
  induction row generalizing part with
  | nil => cases part <;> simp [rulesAfter, RulePart.atEnd, Rule.starts, RulePart.starts, rowStarts]
  | cons component rest ih =>
      unfold rulesAfter
      rw [rowStarts, ← List.append_assoc]
      split
      · rename_i next isNext
        exact (ih next).trans
          (((starts_readRule passMarks part component).1 next isNext).append (List.Sublist.refl _))
      · rename_i rule isRule
        rw [List.flatMap_cons]
        exact ((starts_readRule passMarks part component).2 rule isRule).append (ih .between)

theorem starts_prelude (row : List Component) :
    (Part.prelude row).starts.map Prod.snd = rowStarts row := by
  simp [Part.starts, Function.comp_def]

theorem starts_declaration (declaration : Declaration) :
    (Part.declaration declaration).starts.map Prod.snd = declaration.starts := by
  simp [Part.starts, Declaration.starts, Function.comp_def]

theorem starts_blockDeclarations (content : List Component) :
    ((((blockDeclarations content).map Part.declaration).flatMap Part.starts).map
      Prod.snd).Sublist (rowStarts content) := by
  rw [List.map_flatMap, List.flatMap_map]
  simp only [starts_declaration]
  exact starts_declarationsAfter .between content

theorem starts_partsIn (passMarks : Bool) (row : List Component) :
    (((partsIn passMarks row).flatMap Part.starts).map Prod.snd).Sublist (rowStarts row) := by
  have rules := starts_rulesAfter passMarks .between row
  rw [partsIn_eq, List.flatMap_assoc, List.map_flatMap]
  refine List.Sublist.trans (List.Sublist.flatMap_right _ ?_) rules
  intro rule isRule
  cases rule with
  | qualified prelude content =>
      rw [Rule.parts, List.flatMap_cons, List.map_append, starts_prelude]
      exact (List.Sublist.refl _).append (starts_blockDeclarations content)
  | atRule keyword prelude content =>
      cases content with
      | none =>
          rw [Rule.parts, List.flatMap_cons, List.map_append, starts_prelude]
          exact List.Sublist.refl _
      | some content =>
          rw [Rule.parts, List.flatMap_cons, List.map_append, starts_prelude]
          refine (List.Sublist.refl _).append ?_
          split
          · exact starts_partsIn false content
          · exact starts_blockDeclarations content
  | unfinished offset => exact List.nil_sublist _
termination_by sizeOf row
decreasing_by exact sizeOf_content_of_mem isRule

/-! Where declarations stand -/

variable {source : List Char}

theorem part_of_declaration {declaration : Declaration}
    (inSheet : declaration ∈ sheetDeclarations (components source)) :
    .declaration declaration ∈ sheetParts (components source) := by
  unfold sheetDeclarations at inSheet
  rw [← declarations_partsIn] at inSheet
  obtain ⟨part, inParts, isDeclaration⟩ := List.mem_filterMap.1 inSheet
  cases part with
  | prelude row => cases isDeclaration
  | declaration found => exact Option.some.inj isDeclaration ▸ inParts

theorem start_mem_of_declaration {declaration : Declaration}
    (inSheet : declaration ∈ sheetDeclarations (components source)) :
    (true, ⟨declaration.offset, some (.ident declaration.name)⟩) ∈
      (sheetParts (components source)).flatMap Part.starts :=
  List.mem_flatMap.2 ⟨_, part_of_declaration inSheet, List.mem_cons_self⟩

/-- A declaration begins where a token is read that is its name. -/
theorem nameAt_of_declaration {declaration : Declaration}
    (inSheet : declaration ∈ sheetDeclarations (components source)) :
    LeafAt (tokens source) declaration.offset (.ident declaration.name) := by
  have start := (starts_partsIn true (components source)).subset
    (List.mem_map_of_mem (start_mem_of_declaration inSheet))
  rw [starts_components] at start
  exact (traced_tokens source).leaf _ start _ rfl

/-- No declaration begins inside a prelude or inside a value. -/
theorem offset_not_inside {declaration : Declaration}
    (inSheet : declaration ∈ sheetDeclarations (components source)) {part : Part}
    (isPart : part ∈ sheetParts (components source)) : declaration.offset ∉ part.inside := by
  intro isInside
  obtain ⟨start, inBody, sameOffset⟩ := List.mem_map.1 isInside
  have marked : (false, start) ∈ (sheetParts (components source)).flatMap Part.starts := by
    refine List.mem_flatMap.2 ⟨part, isPart, ?_⟩
    cases part with
    | prelude row => exact List.mem_map_of_mem inBody
    | declaration found => exact List.mem_cons_of_mem _ (List.mem_map_of_mem inBody)
  have apart := (traced_tokens source).apart
  rw [← starts_components] at apart
  have pairs := List.pairwise_map.1 (apart.sublist (starts_partsIn true (components source)))
  have different : ((true, ⟨declaration.offset, some (.ident declaration.name)⟩) : Bool × Start) ≠
      (false, start) := by simp
  have symmetric : Std.Symm fun left right : Bool × Start => Apart left.2 right.2 :=
    ⟨fun _ _ apart => apart.symm⟩
  exact pairs.forall (start_mem_of_declaration inSheet) marked different (.inl rfl) sameOffset.symm

theorem offsets_rise (source : List Char) :
    (sheetDeclarations (components source)).Pairwise fun left right =>
      left.offset < right.offset := by
  have read : tokens ((tokens source).flatMap Scanned.text) = tokens source := by
    rw [flatMap_text_tokens]
  have places := tokenPlaces_pairwise false 0 read
  rw [← rowPlaces_components] at places
  have declared := List.pairwise_map.1
    (places.sublist (places_declarationsIn true false (components source)))
  exact declared

end SheetScript.Css
