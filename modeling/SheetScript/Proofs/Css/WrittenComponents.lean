import SheetScript.Proofs.Css.Outline
import SheetScript.Proofs.Css.WrittenRows

/-!
Rows of components are read again from what they are written as, and so is what a source was read
as once blanks that meet are one.
-/

namespace SheetScript.Css

open SheetScript.Text

/-! Reading what was written -/

namespace Nest

theorem Gains.refl (nest : Nest) : nest.Gains nest [] :=
  ⟨rfl, (List.append_nil _).symm⟩

theorem Gains.trans {first second third : Nest} {gained more : List Component}
    (here : first.Gains second gained) (behind : second.Gains third more) :
    first.Gains third (gained ++ more) :=
  ⟨behind.1.trans here.1, by rw [behind.2, here.2, List.append_assoc]⟩

theorem gains_of_cons {before after : Nest} {component : Component}
    (frames : after.frames = before.frames) (inner : after.inner = component :: before.inner) :
    before.Gains after [component.unplaced] := by
  refine ⟨frames, ?_⟩
  rw [inner, List.reverse_cons, bareList_eq_map, bareList_eq_map, List.map_append]
  rfl

theorem gains_leaf (nest : Nest) {leaf : Leaf} (clear : leaf.isClear = true) (text : List Char) :
    nest.Gains (nest.read ⟨.leaf leaf, text⟩) [.leaf 0 leaf] := by
  have isAdd : nest.readToken (.leaf leaf) = nest.add (.leaf nest.offset leaf) := by
    unfold readToken
    dsimp only
    split
    · cases clear
    · cases clear
    · rfl
  have isComponent : [Component.leaf 0 leaf] = [(Component.leaf nest.offset leaf).unplaced] := rfl
  rw [isComponent]
  refine gains_of_cons ?_ ?_
  · change (nest.readToken (.leaf leaf)).frames = _
    rw [isAdd]
    rfl
  · change (nest.readToken (.leaf leaf)).inner = _
    rw [isAdd]
    rfl

theorem gains_comment (nest : Nest) (text : List Char) : nest.Gains (nest.read ⟨.comment, text⟩) [] :=
  ⟨rfl, (List.append_nil _).symm⟩

/-- What was read since a frame was opened becomes one component when it is closed. -/
theorem gains_closing (nest : Nest) {inside : Nest} {frame : Frame} {content : List Component}
    (frames : inside.frames = frame :: nest.frames) (before : frame.before = nest.inner)
    (gained : bareList inside.inner.reverse = bareList content) (text : List Char) :
    nest.Gains (inside.read ⟨.closing frame.bracket, text⟩)
      [(frame.close content.reverse).unplaced] := by
  have isClose : inside.readToken (.closing frame.bracket) =
      { inside with inner := frame.close inside.inner :: frame.before, frames := nest.frames } := by
    unfold readToken closeFrame
    rw [frames]
    dsimp only
    rw [if_pos rfl]
  have same : (frame.close inside.inner).unplaced = (frame.close content.reverse).unplaced := by
    unfold Frame.close
    split <;> simp only [Component.unplaced, List.reverse_reverse, gained]
  rw [← same]
  refine gains_of_cons ?_ ?_
  · change (inside.readToken (.closing frame.bracket)).frames = _
    rw [isClose]
  · change (inside.readToken (.closing frame.bracket)).inner = _
    rw [isClose, ← before]

end Nest

mutual

theorem gains_spelled (component : Component) (clear : component.isClear = true) (nest : Nest) :
    nest.Gains (component.spelled.foldl Nest.read nest) [component.unplaced] := by
  cases component with
  | leaf offset leaf =>
      rw [Component.isClear] at clear
      exact nest.gains_leaf clear _
  | fault offset fault =>
      rw [Component.isClear] at clear
      cases clear
  | block offset bracket content =>
      rw [Component.isClear] at clear
      rw [Component.spelled, List.foldl_cons, List.foldl_append, List.foldl_cons, List.foldl_nil]
      have inside := gains_spelledAfter none content clear
        (nest.read ⟨.opening bracket, [bracket.opening]⟩)
      have closed := nest.gains_closing inside.1 rfl inside.2 [bracket.closing]
      rwa [Frame.close, List.reverse_reverse] at closed
  | function offset name arguments =>
      rw [Component.isClear, Bool.and_eq_true] at clear
      rw [Component.spelled, List.foldl_cons, List.foldl_append, List.foldl_cons, List.foldl_nil]
      have inside := gains_spelledAfter none arguments clear.2
        (nest.read ⟨.functionOpening name, writeIdent name ++ ['(']⟩)
      have closed := nest.gains_closing inside.1 rfl inside.2 [')']
      rwa [Frame.close, List.reverse_reverse] at closed

theorem gains_spelledAfter (previous : Option Shape) (row : List Component)
    (clear : rowIsClear row = true) (nest : Nest) :
    nest.Gains ((spelledAfter previous row).foldl Nest.read nest) (bareList row) := by
  cases row with
  | nil =>
      rw [spelledAfter]
      exact .refl nest
  | cons component rest =>
      simp only [rowIsClear_cons, Bool.and_eq_true] at clear
      rw [spelledAfter, List.foldl_append, List.foldl_append, bareList_cons]
      have behind (nest : Nest) := (gains_spelled component clear.1.1 nest).trans
        (gains_spelledAfter (some component.shape) rest clear.2 _)
      split
      · exact Nest.Gains.trans (nest.gains_comment _) (behind _)
      · exact behind nest

end

/-! Soundness of what is read -/

theorem rowSound_iff {row : List Component} :
    RowSound row ↔ ∀ component ∈ row, component.Sound := by
  induction row with
  | nil => simp [RowSound]
  | cons component rest ih => simp [RowSound, ih]

def Token.Sound : Token → Prop
  | .leaf found => found.Sound
  | .functionOpening name => NameText name
  | _ => True

theorem functionOpening_sound {first : Char} {rest : List Char} (clean : Clean (first :: rest))
    {found : List Char} (isOpening : (scan first rest).1 = .functionOpening found) :
    NameText found := by
  unfold scan at isOpening
  dsimp only at isOpening
  split at isOpening
  · cases isOpening
  · split at isOpening
    · cases isOpening
    · split at isOpening
      · cases isOpening
      · split at isOpening
        · rename_i starts
          unfold nameToken at isOpening
          dsimp only at isOpening
          split at isOpening
          · split at isOpening
            · dsimp only at isOpening
              split at isOpening <;> cases isOpening
            · obtain rfl := Token.functionOpening.inj isOpening
              exact nameText_name clean starts
          · cases isOpening
        · split at isOpening
          · unfold markToken matchMark at isOpening
            grind
          · unfold numberToken at isOpening
            grind

theorem scan_token_sound {first : Char} {rest : List Char} (clean : Clean (first :: rest)) :
    (scan first rest).1.Sound := by
  cases token : (scan first rest).1 with
  | leaf leaf => exact scan_sound clean token
  | functionOpening found => exact functionOpening_sound clean token
  | _ => trivial

theorem tokens_sound {source : List Char} (clean : Clean source) :
    ∀ scanned ∈ tokens source, scanned.token.Sound := by
  fun_induction tokens source with
  | case1 =>
      intro scanned here
      cases here
  | case2 first rest token count found ih =>
      intro scanned here
      rcases List.mem_cons.1 here with rfl | behind
      · have sound := scan_token_sound clean
        rw [found] at sound
        exact sound
      · exact ih (clean.tail.drop _) scanned behind

theorem RowSound.reverse {row : List Component} (sound : RowSound row) : RowSound row.reverse :=
  rowSound_iff.2 fun component here => rowSound_iff.1 sound component (List.mem_reverse.1 here)

def Opener.Sound : Opener → Prop
  | .bracket _ => True
  | .function name => NameText name

structure Frame.Sound (frame : Frame) : Prop where
  opener : frame.opener.Sound
  before : RowSound frame.before

theorem Frame.Sound.close {frame : Frame} (frame_sound : frame.Sound) {inner : List Component}
    (inner_sound : RowSound inner) : (frame.close inner).Sound := by
  have opener_sound := frame_sound.opener
  unfold Frame.close
  cases opener : frame.opener with
  | bracket found =>
      rw [Component.Sound]
      exact inner_sound.reverse
  | function name =>
      rw [opener] at opener_sound
      rw [Component.Sound]
      exact ⟨opener_sound, inner_sound.reverse⟩

structure Nest.Sound (nest : Nest) : Prop where
  inner : RowSound nest.inner
  frames : ∀ frame ∈ nest.frames, frame.Sound

namespace Nest.Sound

variable {nest : Nest} (sound : nest.Sound)

include sound

theorem add {component : Component} (component_sound : component.Sound) :
    (nest.add component).Sound := by
  refine ⟨?_, sound.frames⟩
  rw [Nest.add, RowSound]
  exact ⟨component_sound, sound.inner⟩

theorem addFault (fault : Fault) : (nest.addFault fault).Sound := by
  refine sound.add ?_
  rw [Component.Sound]
  trivial

theorem openFrame {opener : Opener} (opener_sound : opener.Sound) : (nest.openFrame opener).Sound := by
  refine ⟨trivial, fun frame here => ?_⟩
  rcases List.mem_cons.1 here with rfl | behind
  · exact ⟨opener_sound, sound.inner⟩
  · exact sound.frames frame behind

theorem closeFrame (bracket : Bracket) : (nest.closeFrame bracket).Sound := by
  have frames := sound.frames
  unfold Nest.closeFrame
  split
  · rename_i frame rest same
    rw [same] at frames
    split
    · refine ⟨?_, fun other here => frames other (List.mem_cons_of_mem _ here)⟩
      have first := frames frame List.mem_cons_self
      change RowSound (frame.close nest.inner :: frame.before)
      rw [RowSound]
      exact ⟨first.close sound.inner, first.before⟩
    · exact sound.addFault _
  · exact sound.addFault _

theorem read {scanned : Scanned} (token_sound : scanned.token.Sound) : (nest.read scanned).Sound := by
  have next : (nest.readToken scanned.token).Sound := by
    obtain ⟨token, text⟩ := scanned
    cases token with
    | leaf leaf =>
        have added : (nest.add (.leaf nest.offset leaf)).Sound := by
          refine sound.add ?_
          rw [Component.Sound]
          exact token_sound
        unfold Nest.readToken
        dsimp only
        split
        · exact added.addFault _
        · exact added.addFault _
        · exact added
    | comment => exact sound
    | functionOpening name => exact sound.openFrame token_sound
    | opening bracket => exact sound.openFrame trivial
    | closing bracket => exact sound.closeFrame bracket
    | brokenQuoted => exact sound.addFault _
    | brokenAddress => exact sound.addFault _
  exact ⟨next.inner, next.frames⟩

end Nest.Sound

theorem rowSound_closeAll {inner : List Component} {frames : List Frame} (inner_sound : RowSound inner)
    (frames_sound : ∀ frame ∈ frames, frame.Sound) : RowSound (Nest.closeAll inner frames) := by
  induction frames generalizing inner with
  | nil => exact inner_sound.reverse
  | cons frame rest ih =>
      have first := frames_sound frame List.mem_cons_self
      refine ih ?_ fun other here => frames_sound other (List.mem_cons_of_mem _ here)
      rw [RowSound]
      exact ⟨first.close inner_sound, first.before⟩

/-- Everything read from a normalised source is as it can be read. -/
theorem rowSound_components {source : List Char} (clean : Clean source) :
    RowSound (components source) := by
  have run (nest : Nest) {scanned : List Scanned} (sound : nest.Sound)
      (all : ∀ one ∈ scanned, one.token.Sound) : (scanned.foldl Nest.read nest).Sound := by
    induction scanned generalizing nest with
    | nil => exact sound
    | cons first later ih =>
        exact ih _ (sound.read (all first List.mem_cons_self)) fun one here =>
          all one (List.mem_cons_of_mem _ here)
  have sound := run .start ⟨trivial, nofun⟩ (tokens_sound clean)
  exact rowSound_closeAll sound.inner sound.frames

/-! Joined blanks -/

theorem Component.tidied_shape (component : Component) : component.tidied.shape = component.shape := by
  cases component with
  | leaf offset leaf => rfl
  | fault offset fault => rfl
  | block offset bracket content => rw [Component.tidied]; rfl
  | function offset name arguments => rw [Component.tidied]; rfl

theorem separator_eq (previous : Shape) (component : Component) :
    separator (some previous) component =
      if previous.merges component.shape then "/**/".toList
      else if previous = .char '\\' ∧ newlineFirst [component] = false then ['\n'] else [] := by
  unfold separator
  dsimp only
  split
  · rfl
  · by_cases backslash : previous = .char '\\'
    · rw [if_pos backslash]
      split
      · exact (if_neg fun both => Bool.noConfusion both.2).symm
      · rename_i other
        have dark : newlineFirst [component] = false := by
          refine Bool.eq_false_iff.2 fun newline => ?_
          obtain ⟨offset, more, later, same⟩ := blank_of_newlineFirst newline
          exact other offset more (List.cons.inj same).1
        rw [if_pos ⟨backslash, dark⟩]
    · rw [if_neg backslash, if_neg fun both => backslash both.1]

/-- What keeps a component apart depends on its shape and on the line break it may begin with. -/
theorem separator_congr (previous : Option Shape) {component other : Component}
    (shape : other.shape = component.shape)
    (newline : newlineFirst [other] = newlineFirst [component]) :
    separator previous other = separator previous component := by
  cases previous with
  | none => rfl
  | some previous => rw [separator_eq, separator_eq, shape, newline]

theorem separator_tidied (previous : Option Shape) (component : Component) :
    separator previous component.tidied = separator previous component := by
  refine separator_congr previous component.tidied_shape ?_
  cases component with
  | leaf offset leaf => cases leaf <;> rfl
  | fault offset fault => rfl
  | block offset bracket content => rw [Component.tidied]; rfl
  | function offset name arguments => rw [Component.tidied]; rfl

theorem sound_joinBefore {component : Component} {row : List Component} (sound : component.Sound)
    (row_sound : RowSound row) : RowSound (joinBefore component row) := by
  unfold joinBefore
  split
  · rename_i offset text place more rest
    rw [Component.Sound] at sound
    rw [RowSound, Component.Sound] at row_sound ⊢
    refine ⟨⟨?_, fun c here => ?_⟩, row_sound.2⟩
    · exact List.append_ne_nil_of_left_ne_nil sound.1 _
    · exact (List.mem_append.1 here).elim (sound.2 c) (row_sound.1.2 c)
  · rw [RowSound]
    exact ⟨sound, row_sound⟩

mutual

theorem sound_tidied (component : Component) (sound : component.Sound) : component.tidied.Sound := by
  cases component with
  | leaf offset leaf => exact sound
  | fault offset fault => exact sound
  | block offset bracket content =>
      rw [Component.Sound] at sound
      rw [Component.tidied, Component.Sound]
      exact sound_joined content sound
  | function offset name arguments =>
      rw [Component.Sound] at sound
      rw [Component.tidied, Component.Sound]
      exact ⟨sound.1, sound_joined arguments sound.2⟩

theorem sound_joined (row : List Component) (sound : RowSound row) : RowSound (joined row) := by
  cases row with
  | nil => exact sound
  | cons component rest =>
      rw [RowSound] at sound
      rw [joined]
      exact sound_joinBefore (sound_tidied component sound.1) (sound_joined rest sound.2)

end

theorem writeAfter_joinBefore (previous : Option Shape) {component : Component}
    (sound : component.Sound) (row : List Component) :
    writeAfter previous (joinBefore component row) = writeAfter previous (component :: row) := by
  unfold joinBefore
  split
  · rename_i offset text place more rest
    rw [Component.Sound] at sound
    obtain ⟨first, behind, rfl⟩ := List.exists_cons_of_ne_nil sound.1
    have same : separator previous (.leaf 0 (.blank (first :: (behind ++ more)))) =
        separator previous (.leaf offset (.blank (first :: behind))) :=
      separator_congr previous rfl rfl
    have apart : separator (some .blank) (.leaf place (.blank more)) = [] :=
      separator_of_apart [] rfl nofun
    simp [writeAfter, same, apart, writeComponent, writeLeaf, Component.shape, Leaf.shape]
  · rfl

theorem lastEndsInQuote_joinBefore (component : Component) (row : List Component) :
    lastEndsInQuote (joinBefore component row) = lastEndsInQuote (component :: row) := by
  unfold joinBefore
  split
  · rename_i offset text place more rest
    cases rest with
    | nil => rfl
    | cons second rest => rfl
  · rfl

theorem joinBefore_ne_nil (component : Component) (row : List Component) :
    joinBefore component row ≠ [] := by
  unfold joinBefore
  split <;> exact List.cons_ne_nil _ _

theorem lastEndsInQuote_cons (component : Component) {row : List Component} (some : row ≠ []) :
    lastEndsInQuote (component :: row) = lastEndsInQuote row := by
  obtain ⟨second, more, rfl⟩ := List.exists_cons_of_ne_nil some
  rfl

mutual

theorem written_tidied (component : Component) (sound : component.Sound) :
    writeComponent component.tidied = writeComponent component ∧
      endsInQuote component.tidied = endsInQuote component := by
  cases component with
  | leaf offset leaf => exact ⟨rfl, rfl⟩
  | fault offset fault => cases fault <;> exact ⟨rfl, rfl⟩
  | block offset bracket content =>
      rw [Component.Sound] at sound
      obtain ⟨same, -⟩ := written_joined content sound
      rw [Component.tidied]
      exact ⟨by rw [writeComponent, writeComponent, same], rfl⟩
  | function offset name arguments =>
      rw [Component.Sound] at sound
      obtain ⟨same, sameEnd⟩ := written_joined arguments sound.2
      rw [Component.tidied]
      refine ⟨?_, ?_⟩
      · rw [writeComponent, writeComponent, same, sameEnd]
      · rw [endsInQuote, endsInQuote, sameEnd]

theorem written_joined (row : List Component) (sound : RowSound row) :
    (∀ previous, writeAfter previous (joined row) = writeAfter previous row) ∧
      lastEndsInQuote (joined row) = lastEndsInQuote row := by
  cases row with
  | nil => exact ⟨fun _ => rfl, rfl⟩
  | cons component rest =>
      rw [RowSound] at sound
      obtain ⟨sameFirst, sameFirstEnd⟩ := written_tidied component sound.1
      obtain ⟨sameRest, sameRestEnd⟩ := written_joined rest sound.2
      rw [joined]
      refine ⟨fun previous => ?_, ?_⟩
      · rw [writeAfter_joinBefore previous (sound_tidied component sound.1), writeAfter, writeAfter,
          separator_tidied, sameFirst, component.tidied_shape, sameRest]
      · rw [lastEndsInQuote_joinBefore]
        cases rest with
        | nil => exact sameFirstEnd
        | cons second more =>
            have some : joined (second :: more) ≠ [] := by
              rw [joined]
              exact joinBefore_ne_nil _ _
            rw [lastEndsInQuote_cons _ some, sameRestEnd]
            rfl

end

end SheetScript.Css
