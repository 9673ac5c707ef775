import SheetScript.Css.Declaration
import SheetScript.Proofs.Css.Nesting

/-!
The places of names in a style sheet, in the order of the source, each with whether a declaration can
begin there. Every declaration begins at such a place.
-/

namespace SheetScript.Css

/-- Whether a declaration can begin behind a component, given whether one could before it. -/
def Component.freshAfter (fresh : Bool) : Component → Bool
  | .leaf _ (.blank _) => fresh
  | .leaf _ (.mark text) => text == [';']
  | .leaf _ _ => false
  | .fault _ found => found == .unmatched .curly
  | .block _ bracket _ => bracket == .curly
  | .function _ _ _ => false

def rowFresh (fresh : Bool) (row : List Component) : Bool :=
  row.foldl (fun fresh component => component.freshAfter fresh) fresh

mutual

def Component.places (fresh : Bool) : Component → List (Nat × Bool)
  | .leaf offset leaf => if leaf.isIdent then [(offset, fresh)] else []
  | .fault _ _ => []
  | .block _ bracket content => rowPlaces (bracket == .curly) content
  | .function _ _ arguments => rowPlaces false arguments

def rowPlaces (fresh : Bool) : List Component → List (Nat × Bool)
  | [] => []
  | component :: rest => component.places fresh ++ rowPlaces (component.freshAfter fresh) rest

end

theorem rowPlaces_append (fresh : Bool) (front rest : List Component) :
    rowPlaces fresh (front ++ rest) = rowPlaces fresh front ++ rowPlaces (rowFresh fresh front) rest := by
  induction front generalizing fresh with
  | nil => rfl
  | cons first front ih =>
      rw [List.cons_append, rowPlaces, rowPlaces, ih, List.append_assoc]
      rfl

def tokenPlaces : Bool → Nat → List Scanned → List (Nat × Bool)
  | _, _, [] => []
  | fresh, offset, scanned :: later =>
    (if scanned.token.isIdent then [(offset, fresh)] else []) ++
      tokenPlaces (scanned.token.freshAfter fresh) (offset + scanned.text.length) later

/-! Rows that are still being read -/

def Opener.isCurly : Opener → Bool
  | .bracket found => found == .curly
  | .function _ => false

/-- The places before the innermost row, and whether a declaration can begin that row. -/
def context : List Frame → List (Nat × Bool) × Bool
  | [] => ([], false)
  | frame :: outer =>
    ((context outer).1 ++ rowPlaces (context outer).2 frame.before.reverse, frame.opener.isCurly)

namespace Nest

def places (nest : Nest) : List (Nat × Bool) :=
  (context nest.frames).1 ++ rowPlaces (context nest.frames).2 nest.inner.reverse

def fresh (nest : Nest) : Bool :=
  rowFresh (context nest.frames).2 nest.inner.reverse

theorem places_add (nest : Nest) (component : Component) :
    (nest.add component).places = nest.places ++ component.places nest.fresh := by
  unfold places add fresh
  dsimp only
  rw [List.reverse_cons, rowPlaces_append, List.append_assoc]
  simp [rowPlaces]

theorem fresh_add (nest : Nest) (component : Component) :
    (nest.add component).fresh = component.freshAfter nest.fresh := by
  unfold fresh add rowFresh
  dsimp only
  rw [List.reverse_cons, List.foldl_append]
  rfl

theorem places_addFault (nest : Nest) (fault : Fault) :
    (nest.addFault fault).places = nest.places := by
  rw [addFault, places_add]
  simp [Component.places]

theorem places_openFrame (nest : Nest) (opener : Opener) :
    (nest.openFrame opener).places = nest.places := by
  simp [places, openFrame, context, rowPlaces]

theorem places_close (frame : Frame) (inner : List Component) (fresh : Bool) :
    (frame.close inner).places fresh = rowPlaces frame.opener.isCurly inner.reverse := by
  unfold Frame.close
  cases frame.opener with
  | bracket bracket => simp [Component.places, Opener.isCurly]
  | function name => simp [Component.places, Opener.isCurly]

theorem freshAfter_close (frame : Frame) (inner : List Component) (fresh : Bool) :
    (frame.close inner).freshAfter fresh = frame.opener.isCurly := by
  unfold Frame.close
  cases frame.opener <;> rfl

theorem places_closeFrame (nest : Nest) (bracket : Bracket) :
    (nest.closeFrame bracket).places = nest.places := by
  unfold closeFrame
  cases atFrames : nest.frames with
  | nil => exact places_addFault nest _
  | cons frame outer =>
      dsimp only
      split
      · unfold places
        rw [atFrames]
        dsimp only
        rw [List.reverse_cons, rowPlaces_append, context, List.append_assoc]
        simp [rowPlaces, places_close]
      · exact places_addFault nest _

theorem fresh_closeFrame (nest : Nest) (bracket : Bracket) :
    (nest.closeFrame bracket).fresh = (bracket == .curly) := by
  have unmatched : (nest.addFault (.unmatched bracket)).fresh = (bracket == .curly) := by
    rw [addFault, fresh_add]
    cases bracket <;> rfl
  unfold closeFrame
  cases atFrames : nest.frames with
  | nil => exact unmatched
  | cons frame outer =>
      dsimp only
      split
      · rename_i fits
        unfold fresh rowFresh
        dsimp only
        rw [List.reverse_cons, List.foldl_append]
        change (frame.close nest.inner).freshAfter _ = _
        rw [freshAfter_close]
        unfold Frame.bracket at fits
        unfold Opener.isCurly
        cases opener : frame.opener with
        | bracket found =>
            rw [opener] at fits
            rw [← fits]
        | function name =>
            rw [opener] at fits
            rw [← fits]
            rfl
      · exact unmatched

theorem places_readToken (nest : Nest) (token : Token) :
    (nest.readToken token).places =
      nest.places ++ if token.isIdent then [(nest.offset, nest.fresh)] else [] := by
  cases token with
  | leaf leaf =>
      have next := places_add nest (.leaf nest.offset leaf)
      cases leaf with
      | quoted value closed =>
          cases closed <;> simpa [readToken, places_addFault, Token.isIdent, Component.places,
            Leaf.isIdent] using next
      | address value closed =>
          cases closed <;> simpa [readToken, places_addFault, Token.isIdent, Component.places,
            Leaf.isIdent] using next
      | ident name => exact next
      | _ => exact next
  | comment => exact (List.append_nil _).symm
  | functionOpening name => exact (places_openFrame nest _).trans (List.append_nil _).symm
  | opening bracket => exact (places_openFrame nest _).trans (List.append_nil _).symm
  | closing bracket => exact (places_closeFrame nest _).trans (List.append_nil _).symm
  | brokenQuoted => exact (places_addFault nest _).trans (List.append_nil _).symm
  | brokenAddress => exact (places_addFault nest _).trans (List.append_nil _).symm

theorem fresh_readToken (nest : Nest) (token : Token) :
    (nest.readToken token).fresh = token.freshAfter nest.fresh := by
  cases token with
  | leaf leaf =>
      have next := fresh_add nest (.leaf nest.offset leaf)
      cases leaf with
      | quoted value closed => cases closed <;> simp [readToken, addFault, fresh_add,
          Component.freshAfter, Token.freshAfter, Token.isStop, Token.isGap]
      | address value closed => cases closed <;> simp [readToken, addFault, fresh_add,
          Component.freshAfter, Token.freshAfter, Token.isStop, Token.isGap]
      | mark text => exact next.trans (Bool.or_false _).symm
      | _ => exact next
  | comment => simp [readToken, Token.freshAfter, Token.isStop, Token.isGap]
  | functionOpening name => rfl
  | opening bracket => cases bracket <;> rfl
  | closing bracket =>
      rw [readToken, fresh_closeFrame]
      cases bracket <;> rfl
  | brokenQuoted => rw [readToken, addFault, fresh_add]; rfl
  | brokenAddress => rw [readToken, addFault, fresh_add]; rfl

theorem places_foldl (scanned : List Scanned) (nest : Nest) :
    (scanned.foldl read nest).places = nest.places ++ tokenPlaces nest.fresh nest.offset scanned := by
  induction scanned generalizing nest with
  | nil => exact (List.append_nil _).symm
  | cons first later ih =>
      have placesRead : (nest.read first).places = (nest.readToken first.token).places := rfl
      have freshRead : (nest.read first).fresh = (nest.readToken first.token).fresh := rfl
      rw [List.foldl_cons, ih, placesRead, freshRead, places_readToken, fresh_readToken,
        List.append_assoc]
      rfl

theorem places_closeAll (offset : Nat) (inner : List Component) (frames : List Frame) :
    rowPlaces false (closeAll inner frames) = places ⟨offset, inner, frames⟩ := by
  induction frames generalizing inner with
  | nil => rfl
  | cons frame outer ih =>
      rw [closeAll, ih]
      unfold places
      dsimp only
      rw [List.reverse_cons, rowPlaces_append, context, List.append_assoc]
      simp [rowPlaces, places_close]

end Nest

theorem rowPlaces_components (source : List Char) :
    rowPlaces false (components source) = tokenPlaces false 0 (tokens source) := by
  unfold components
  dsimp only
  rw [Nest.places_closeAll ((tokens source).foldl Nest.read .start).offset]
  exact Nest.places_foldl (tokens source) .start

/-! Every place is its own -/

theorem text_ne_nil_of_tokens {source : List Char} {scanned : Scanned} {later : List Scanned}
    (read : tokens source = scanned :: later) : scanned.text ≠ [] := by
  obtain ⟨first, more, found, -, -⟩ := found_of_tokens read
  rw [found.text]
  exact List.cons_ne_nil _ _

theorem mem_tokenPlaces_cons {fresh : Bool} {offset : Nat} {first : Scanned}
    {later : List Scanned} {place : Nat × Bool}
    (found : place ∈ tokenPlaces fresh offset (first :: later)) :
    (first.token.isIdent = true ∧ place = (offset, fresh)) ∨
      place ∈ tokenPlaces (first.token.freshAfter fresh) (offset + first.text.length) later := by
  refine (List.mem_append.1 found).imp_left fun here => ?_
  split at here
  · rename_i isIdent
    exact ⟨isIdent, List.mem_singleton.1 here⟩
  · cases here

theorem offset_le_of_tokenPlaces {fresh : Bool} {offset : Nat} {scanned : List Scanned}
    {place : Nat × Bool} (found : place ∈ tokenPlaces fresh offset scanned) : offset ≤ place.1 := by
  induction scanned generalizing fresh offset with
  | nil => cases found
  | cons first later ih =>
      rcases mem_tokenPlaces_cons found with ⟨-, rfl⟩ | behind
      · exact Nat.le_refl _
      · have after := ih behind
        omega

theorem tokenPlaces_pairwise {scanned : List Scanned} (fresh : Bool) (offset : Nat)
    (read : tokens (scanned.flatMap Scanned.text) = scanned) :
    (tokenPlaces fresh offset scanned).Pairwise fun left right => left.1 < right.1 := by
  induction scanned generalizing fresh offset with
  | nil => exact .nil
  | cons first later ih =>
      have notEmpty := List.length_pos_iff.2 (text_ne_nil_of_tokens read)
      obtain ⟨c, more, -, -, readLater⟩ := found_of_tokens read
      unfold tokenPlaces
      refine List.pairwise_append.2 ⟨?_, ih _ _ readLater, ?_⟩
      · split <;> simp
      · intro here inHere behind inBehind
        split at inHere
        · rw [List.mem_singleton.1 inHere]
          have after := offset_le_of_tokenPlaces inBehind
          dsimp only
          omega
        · cases inHere

theorem rowPlaces_nodup (source : List Char) :
    ((rowPlaces false (components source)).map Prod.fst).Nodup := by
  rw [rowPlaces_components]
  have read : tokens ((tokens source).flatMap Scanned.text) = tokens source := by
    rw [flatMap_text_tokens]
  exact List.pairwise_map.2
    ((tokenPlaces_pairwise false 0 read).imp fun before => Nat.ne_of_lt before)

/-! Where declarations begin -/

def Component.head : Component → List (Nat × Bool)
  | .leaf place found => if found.isIdent then [(place, true)] else []
  | _ => []

def DeclarationPart.heads : DeclarationPart → List (Nat × Bool)
  | .components read => read.getLast?.toList.flatMap Component.head
  | _ => []

def Declaration.place (declaration : Declaration) : Nat × Bool :=
  (declaration.offset, true)

theorem place_ofComponents? (read : List Component) :
    ((Declaration.ofComponents? read.reverse).toList.map Declaration.place).Sublist
      (DeclarationPart.heads (.components read)) := by
  unfold DeclarationPart.heads
  dsimp only
  rw [← List.head?_reverse]
  unfold Declaration.ofComponents?
  split
  · rename_i offset name rest atRead
    split
    · dsimp only
      split
      · exact List.nil_sublist _
      · rw [atRead]
        split <;> exact List.Sublist.refl _
    · exact List.nil_sublist _
  · exact List.nil_sublist _

theorem head_sublist_places (component : Component) :
    component.head.Sublist (component.places true) := by
  cases component with
  | leaf offset leaf =>
      unfold Component.head Component.places
      exact List.Sublist.refl _
  | _ =>
      unfold Component.head
      exact List.nil_sublist _

theorem freshAfter_semicolon {component : Component} (semicolon : component.isMark ";" = true)
    (fresh : Bool) : component.freshAfter fresh = true := by
  cases component with
  | leaf offset leaf =>
      cases leaf with
      | mark text => exact semicolon
      | _ => cases semicolon
  | _ => cases semicolon

theorem freshAfter_curly {component : Component} (curly : ValueRead.isCurly component = true)
    (fresh : Bool) : component.freshAfter fresh = true := by
  cases component with
  | block offset bracket content =>
      cases bracket with
      | curly => rfl
      | _ => cases curly
  | _ => cases curly

theorem heads_components (component : Component) {read : List Component} (begun : read ≠ []) :
    DeclarationPart.heads (.components (component :: read)) =
      DeclarationPart.heads (.components read) := by
  obtain ⟨last, more, rfl⟩ := List.exists_cons_of_ne_nil begun
  rfl

theorem places_declarationsAfter (part : DeclarationPart) (fresh : Bool) (row : List Component)
    (between : part = .between → fresh = true) (begun : part ≠ .components []) :
    ((declarationsAfter part row).map Declaration.place).Sublist
      (part.heads ++ rowPlaces fresh row) := by
  -- Along the reader: `fresh` says whether a declaration can begin at the next component.
  fun_induction declarationsAfter part row generalizing fresh with
  | case1 read => simpa [rowPlaces] using place_ofComponents? read
  | case2 part notReading => exact List.nil_sublist _
  | case3 rest offset text ih => exact ih fresh between (by simp)
  | case4 rest offset name ih => exact ih false (by simp) (by simp)
  | case5 rest component notBlank notKeyword semicolon ih =>
      have starts := freshAfter_semicolon semicolon fresh
      exact (ih true (fun _ => rfl) (by simp)).trans
        (by rw [rowPlaces, starts]; exact List.sublist_append_right _ _)
  | case6 rest component notBlank notKeyword notSemicolon ih =>
      have begins := ih (component.freshAfter fresh) (by simp) (by simp)
      rw [between rfl] at begins ⊢
      rw [rowPlaces]
      have first : (DeclarationPart.heads (.components [component])).Sublist
          (component.places true) := by
        simpa [DeclarationPart.heads] using head_sublist_places component
      exact begins.trans (first.append (List.Sublist.refl _))
  | case7 component rest read semicolon ih =>
      have starts := freshAfter_semicolon semicolon fresh
      rw [List.map_append, rowPlaces, starts]
      refine (place_ofComponents? read).append ((ih true (fun _ => rfl) (by simp)).trans ?_)
      exact List.sublist_append_right _ _
  | case8 component rest read notSemicolon ih =>
      have notEmpty : read ≠ [] := fun empty => begun (by rw [empty])
      have onward := ih (component.freshAfter fresh) (by simp) (by simp)
      rw [heads_components component notEmpty] at onward
      refine onward.trans (List.Sublist.append (List.Sublist.refl _) ?_)
      exact List.sublist_append_right _ _
  | case9 component rest ends ih =>
      have starts : component.freshAfter fresh = true := by
        rcases Bool.or_eq_true_iff.1 ends with semicolon | curly
        · exact freshAfter_semicolon semicolon fresh
        · exact freshAfter_curly curly fresh
      exact (ih true (fun _ => rfl) (by simp)).trans
        (by rw [rowPlaces, starts]; exact List.sublist_append_right _ _)
  | case10 component rest stays ih =>
      exact (ih (component.freshAfter fresh) (by simp) (by simp)).trans
        (by rw [rowPlaces]; exact List.sublist_append_right _ _)

theorem places_blockDeclarations (content : List Component) :
    ((blockDeclarations content).map Declaration.place).Sublist (rowPlaces true content) :=
  places_declarationsAfter .between true content (fun _ => rfl) nofun

def Rule.places : Rule → List (Nat × Bool)
  | .qualified _ content => rowPlaces true content
  | .atRule _ _ (some content) => rowPlaces true content
  | _ => []

theorem places_read {passMarks : Bool} {part : RulePart} {component : Component} {rule : Rule}
    (found : part.read passMarks component = .inr rule) (fresh : Bool) :
    rule.places.Sublist (component.places fresh) := by
  unfold RulePart.read beginRule at found
  cases part with
  | between =>
      dsimp only at found
      split at found
      · cases found
      · cases found
      · obtain rfl := Sum.inr.inj found
        exact List.Sublist.refl _
      · split at found <;> cases found
  | prelude last before =>
      dsimp only at found
      split at found
      · obtain rfl := Sum.inr.inj found
        exact List.Sublist.refl _
      · cases found
  | atPrelude keyword before =>
      dsimp only at found
      split at found
      · obtain rfl := Sum.inr.inj found
        exact List.Sublist.refl _
      · split at found
        · obtain rfl := Sum.inr.inj found
          exact List.nil_sublist _
        · cases found

theorem places_rulesAfter (passMarks : Bool) (part : RulePart) (fresh : Bool)
    (row : List Component) :
    ((rulesAfter passMarks part row).flatMap Rule.places).Sublist (rowPlaces fresh row) := by
  induction row generalizing part fresh with
  | nil => cases part <;> exact List.nil_sublist _
  | cons component rest ih =>
      unfold rulesAfter rowPlaces
      split
      · rename_i next isPart
        exact (ih next _).trans (List.sublist_append_right _ _)
      · rename_i rule isRule
        rw [List.flatMap_cons]
        exact (places_read isRule fresh).append (ih .between _)

def Rule.declarations : Rule → List Declaration
  | .qualified _ content => blockDeclarations content
  | .atRule keyword _ (some content) =>
    if holdsRules keyword then declarationsIn false content else blockDeclarations content
  | _ => []

theorem declarationsIn_eq (passMarks : Bool) (row : List Component) :
    declarationsIn passMarks row =
      (rulesAfter passMarks .between row).flatMap Rule.declarations := by
  rw [declarationsIn]
  rw [List.flatMap_subtype (g := Rule.declarations), List.unattach_attach]
  intro rule isRule
  cases rule with
  | qualified prelude content => rfl
  | atRule keyword prelude content => cases content <;> rfl
  | unfinished offset => rfl

theorem places_declarationsIn (passMarks fresh : Bool) (row : List Component) :
    ((declarationsIn passMarks row).map Declaration.place).Sublist (rowPlaces fresh row) := by
  rw [declarationsIn_eq, List.map_flatMap]
  refine (List.Sublist.flatMap_right _ ?_).trans (places_rulesAfter passMarks .between fresh row)
  intro rule isRule
  cases rule with
  | qualified prelude content => exact places_blockDeclarations content
  | atRule keyword prelude content =>
      cases content with
      | none => exact List.nil_sublist _
      | some content =>
          simp only [Rule.declarations]
          split
          · exact places_declarationsIn false true content
          · exact places_blockDeclarations content
  | unfinished offset => exact List.nil_sublist _
termination_by sizeOf row
decreasing_by exact sizeOf_content_of_mem isRule

theorem Rule.places_declarations (rule : Rule) :
    (rule.declarations.map Declaration.place).Sublist rule.places := by
  cases rule with
  | qualified prelude content => exact places_blockDeclarations content
  | atRule keyword prelude content =>
      cases content with
      | none => exact List.nil_sublist _
      | some content =>
          simp only [Rule.declarations]
          split
          · exact places_declarationsIn false true content
          · exact places_blockDeclarations content
  | unfinished offset => exact List.nil_sublist _

end SheetScript.Css
