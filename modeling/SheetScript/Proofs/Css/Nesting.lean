import SheetScript.Css.Component
import SheetScript.Proofs.Css.Splice

/-!
Components of a style sheet into which texts have been put: those of each text stand in front of the
name at its place, and nothing else changes but the offsets.
-/

namespace SheetScript.Css

def Leaf.isIdent : Leaf → Bool
  | .ident _ => true
  | _ => false

section

-- The components to put in front of the name at an offset.
variable (added : Nat → List Component)

mutual

/-- A component without its offset, behind what is put in front of it. -/
def Component.spliced : Component → List Component
  | .leaf offset leaf => (if leaf.isIdent then added offset else []) ++ [.leaf 0 leaf]
  | .fault _ fault => [.fault 0 fault]
  | .block _ bracket content => [.block 0 bracket (splicedList content)]
  | .function _ name arguments => [.function 0 name (splicedList arguments)]

def splicedList : List Component → List Component
  | [] => []
  | component :: rest => component.spliced ++ splicedList rest

end

theorem splicedList_append (front rest : List Component) :
    splicedList added (front ++ rest) = splicedList added front ++ splicedList added rest := by
  induction front with
  | nil => simp [splicedList]
  | cons first front ih => simp [splicedList, ih]

end

abbrev bareList (components : List Component) : List Component :=
  splicedList (fun _ => []) components

abbrev Component.bare (component : Component) : List Component :=
  component.spliced fun _ => []

section

variable (added : Nat → List Component)

def SplicedRow (before after : List Component) : Prop :=
  bareList after.reverse = splicedList added before.reverse

structure SplicedFrame (before after : Frame) : Prop where
  opener : after.opener = before.opener
  row : SplicedRow added before.before after.before

structure SplicedNest (before after : Nest) : Prop where
  inner : SplicedRow added before.inner after.inner
  frames : List.Forall₂ (SplicedFrame added) before.frames after.frames

end

variable {added : Nat → List Component}

theorem SplicedRow.cons {before after : List Component} (row : SplicedRow added before after)
    {component other : Component} (same : other.bare = component.spliced added) :
    SplicedRow added (component :: before) (other :: after) := by
  unfold SplicedRow at row ⊢
  rw [List.reverse_cons, List.reverse_cons, splicedList_append, bareList, splicedList_append]
  unfold bareList at row
  rw [row]
  simpa [splicedList] using same

theorem SplicedFrame.close {before after : Frame} (frame : SplicedFrame added before after)
    {inner innerAfter : List Component} (row : SplicedRow added inner innerAfter) :
    (after.close innerAfter).bare = (before.close inner).spliced added := by
  unfold Frame.close
  rw [frame.opener]
  unfold SplicedRow at row
  cases before.opener with
  | bracket bracket => simp [Component.spliced, row]
  | function name => simp [Component.spliced, row]

namespace SplicedNest

variable {before after : Nest}

theorem add (nest : SplicedNest added before after) {component other : Component}
    (same : other.bare = component.spliced added) :
    SplicedNest added (before.add component) (after.add other) :=
  ⟨nest.inner.cons same, nest.frames⟩

theorem addFault (nest : SplicedNest added before after) (fault : Fault) :
    SplicedNest added (before.addFault fault) (after.addFault fault) :=
  nest.add (by simp [Component.spliced])

theorem openFrame (nest : SplicedNest added before after) (opener : Opener) :
    SplicedNest added (before.openFrame opener) (after.openFrame opener) :=
  ⟨by simp [SplicedRow, Nest.openFrame, splicedList], .cons ⟨rfl, nest.inner⟩ nest.frames⟩

theorem closeFrame (nest : SplicedNest added before after) (bracket : Bracket) :
    SplicedNest added (before.closeFrame bracket) (after.closeFrame bracket) := by
  have frames := nest.frames
  unfold Nest.closeFrame
  cases atBefore : before.frames with
  | nil =>
      rw [atBefore, List.forall₂_nil_left_iff] at frames
      rw [frames]
      exact nest.addFault _
  | cons frame rest =>
      rw [atBefore, List.forall₂_cons_left_iff] at frames
      obtain ⟨other, restAfter, sameFrame, sameRest, atAfter⟩ := frames
      have sameBracket : other.bracket = frame.bracket := by
        unfold Frame.bracket
        rw [sameFrame.opener]
      rw [atAfter]
      dsimp only
      rw [sameBracket]
      split
      · exact ⟨sameFrame.row.cons (sameFrame.close nest.inner), sameRest⟩
      · exact nest.addFault _

theorem readToken (nest : SplicedNest added before after) {token : Token}
    (nothing : token.isIdent = true → added before.offset = []) :
    SplicedNest added (before.readToken token) (after.readToken token) := by
  cases token with
  | leaf leaf =>
      have same : (Component.leaf after.offset leaf).bare =
          (Component.leaf before.offset leaf).spliced added := by
        cases leaf with
        | ident name => simp [Component.spliced, Leaf.isIdent, nothing rfl]
        | _ => simp [Component.spliced, Leaf.isIdent]
      have next := nest.add same
      unfold Nest.readToken
      dsimp only
      split
      · exact next.addFault _
      · exact next.addFault _
      · exact next
  | comment => exact nest
  | functionOpening name => exact nest.openFrame _
  | opening bracket => exact nest.openFrame _
  | closing bracket => exact nest.closeFrame _
  | brokenQuoted => exact nest.addFault _
  | brokenAddress => exact nest.addFault _

theorem read (nest : SplicedNest added before after) {scanned : Scanned}
    (nothing : scanned.token.isIdent = true → added before.offset = []) :
    SplicedNest added (before.read scanned) (after.read scanned) :=
  ⟨(nest.readToken nothing).inner, (nest.readToken nothing).frames⟩

theorem closeAll {inner innerAfter : List Component} {frames framesAfter : List Frame}
    (row : SplicedRow added inner innerAfter)
    (sameFrames : List.Forall₂ (SplicedFrame added) frames framesAfter) :
    bareList (Nest.closeAll innerAfter framesAfter) =
      splicedList added (Nest.closeAll inner frames) := by
  induction sameFrames generalizing inner innerAfter with
  | nil => exact row
  | cons first rest ih => exact ih (first.row.cons (first.close row))

end SplicedNest

def Nest.Gains (before after : Nest) (gained : List Component) : Prop :=
  after.frames = before.frames ∧
    bareList after.inner.reverse = bareList before.inner.reverse ++ gained

/-- A text whose tokens add components wherever they are read. -/
def Adds (text : List Char) (components : List Component) : Prop :=
  ∀ nest : Nest, nest.Gains ((tokens text).foldl Nest.read nest) components

/-- Texts are put in at places where a declaration can begin. -/
def Placed (put : Nat → List Char) : Bool → Nat → List Scanned → Prop
  | _, _, [] => True
  | fresh, offset, scanned :: later =>
    (scanned.token.isIdent = true → put offset ≠ [] → fresh = true) ∧
      Placed put (scanned.token.freshAfter fresh) (offset + scanned.text.length) later

section

variable {put : Nat → List Char}

theorem SplicedNest.readPut {before after : Nest} (nest : SplicedNest added before after)
    {scanned : Scanned} (isIdent : scanned.token.isIdent = true)
    (adds : Adds (put before.offset) (added before.offset)) :
    SplicedNest added (before.read scanned)
      (((tokens (put before.offset)).foldl Nest.read after).read scanned) := by
  obtain ⟨frames, inner⟩ := adds after
  obtain ⟨token, text⟩ := scanned
  cases token with
  | leaf leaf =>
      cases leaf with
      | ident name =>
          refine ⟨?_, ?_⟩
          · have row := nest.inner
            unfold SplicedRow at row ⊢
            change bareList (_ :: ((tokens (put before.offset)).foldl Nest.read after).inner).reverse =
              splicedList added (_ :: before.inner).reverse
            rw [List.reverse_cons, List.reverse_cons, bareList, splicedList_append,
              splicedList_append, ← bareList, inner, row]
            simp [splicedList, Component.spliced, Leaf.isIdent]
          · change List.Forall₂ _ before.frames
              ((tokens (put before.offset)).foldl Nest.read after).frames
            rw [frames]
            exact nest.frames
      | _ => cases isIdent
  | _ => cases isIdent

theorem foldl_putTokens (adds : ∀ offset, put offset ≠ [] → Adds (put offset) (added offset))
    (nothing : ∀ offset, put offset = [] → added offset = []) {scanned : List Scanned}
    (fresh : Bool) {before after : Nest} (nest : SplicedNest added before after)
    (placed : Placed put fresh before.offset scanned) :
    SplicedNest added (scanned.foldl Nest.read before)
      ((putTokens put fresh before.offset scanned).foldl Nest.read after) := by
  induction scanned generalizing fresh before after with
  | nil => exact nest
  | cons first later ih =>
      obtain ⟨here, behind⟩ := placed
      unfold putTokens
      rw [List.foldl_append, List.foldl_cons, List.foldl_cons]
      refine ih _ ?_ behind
      by_cases isPut : first.token.isIdent = true ∧ put before.offset ≠ []
      · obtain ⟨isIdent, notEmpty⟩ := isPut
        have atOffset : putAt put fresh before.offset first.token = put before.offset := by
          simp [putAt, here isIdent notEmpty, isIdent]
        rw [atOffset]
        exact nest.readPut isIdent (adds _ notEmpty)
      · have nothingHere : putAt put fresh before.offset first.token = [] := by
          unfold putAt
          split
          · rename_i both
            exact Decidable.not_not.1 fun notEmpty =>
              isPut ⟨(Bool.and_eq_true_iff.1 both).2, notEmpty⟩
          · rfl
        rw [nothingHere, tokens_nil]
        refine nest.read fun isIdent => nothing _ ?_
        exact Decidable.not_not.1 fun notEmpty => isPut ⟨isIdent, notEmpty⟩

theorem components_putText (chunks : ∀ offset, put offset ≠ [] → Chunk (put offset))
    (adds : ∀ offset, put offset ≠ [] → Adds (put offset) (added offset))
    (nothing : ∀ offset, put offset = [] → added offset = []) {source : List Char}
    (placed : Placed put false 0 (tokens source)) :
    bareList (components (putText put false 0 (tokens source))) =
      splicedList added (components source) := by
  have read : tokens ((tokens source).flatMap Scanned.text) = tokens source := by
    rw [flatMap_text_tokens]
  have start : SplicedNest added Nest.start Nest.start := ⟨rfl, .nil⟩
  have nest := foldl_putTokens adds nothing false start placed
  unfold components
  rw [tokens_putText chunks false 0 read]
  exact SplicedNest.closeAll nest.inner nest.frames

end

end SheetScript.Css
