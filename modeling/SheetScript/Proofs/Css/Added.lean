import SheetScript.Proofs.Css.Outline

/-!
What a style sheet says when declarations are put in front of some of its own: each rule says what
it said, with the new declarations where they were put.
-/

namespace SheetScript.Css

/-! Reading components without their offsets -/

namespace Component

theorem isBlank_unplaced (component : Component) : component.unplaced.isBlank = component.isBlank := by
  cases component with
  | leaf offset leaf => cases leaf <;> rfl
  | _ => simp [unplaced, isBlank]

theorem isMark_unplaced (component : Component) (text : String) :
    component.unplaced.isMark text = component.isMark text := by
  cases component with
  | leaf offset leaf => cases leaf <;> rfl
  | _ => simp [unplaced, isMark]

end Component

def ValueEnding.unplaced : ValueEnding → ValueEnding
  | .plain => .plain
  | .bang before => .bang (before.map Component.unplaced)
  | .important before => .important (before.map Component.unplaced)

namespace ValueRead

def unplaced (value : ValueRead) : ValueRead :=
  ⟨value.read.map Component.unplaced, value.ending.unplaced, value.filled, value.blockBehind⟩

theorem isImportant_unplaced (component : Component) :
    isImportant component.unplaced = isImportant component := by
  cases component with
  | leaf offset leaf => cases leaf <;> rfl
  | _ => simp [Component.unplaced, isImportant]

theorem isCurly_unplaced (component : Component) : isCurly component.unplaced = isCurly component := by
  cases component with
  | block offset bracket content => cases bracket <;> simp [Component.unplaced, isCurly]
  | _ => simp [Component.unplaced, isCurly]

theorem add_unplaced (value : ValueRead) (component : Component) :
    value.unplaced.add component.unplaced = (value.add component).unplaced := by
  unfold add
  rw [Component.isBlank_unplaced, Component.isMark_unplaced, isImportant_unplaced, isCurly_unplaced]
  dsimp only
  split
  · rfl
  · obtain ⟨read, ending, filled, blockBehind⟩ := value
    cases ending with
    | plain =>
        dsimp only [unplaced, ValueEnding.unplaced]
        split <;> rfl
    | bang before =>
        dsimp only [unplaced, ValueEnding.unplaced]
        split <;> rfl
    | important before => rfl

theorem foldl_unplaced (row : List Component) (value : ValueRead) :
    (row.map Component.unplaced).foldl add value.unplaced = (row.foldl add value).unplaced := by
  induction row generalizing value with
  | nil => rfl
  | cons component rest ih =>
      rw [List.map_cons, List.foldl_cons, List.foldl_cons, add_unplaced, ih]

end ValueRead

def Declaration.unplaced (declaration : Declaration) : Declaration :=
  { declaration with offset := 0, value := declaration.value.map Component.unplaced }

theorem Declaration.content_unplaced (declaration : Declaration) :
    declaration.unplaced.content = declaration.content := by
  unfold Declaration.content unplaced tidy
  dsimp only
  rw [← bareList_eq_map, joined_bareList]

theorem dropWhile_unplaced (row : List Component) :
    (row.map Component.unplaced).dropWhile Component.isBlank =
      (row.dropWhile Component.isBlank).map Component.unplaced := by
  induction row with
  | nil => rfl
  | cons component rest ih =>
      rw [List.map_cons, List.dropWhile_cons, List.dropWhile_cons, Component.isBlank_unplaced, ih]
      split <;> rfl

theorem ofComponents?_unplaced (row : List Component) :
    Declaration.ofComponents? (row.map Component.unplaced) =
      (Declaration.ofComponents? row).map Declaration.unplaced := by
  unfold Declaration.ofComponents?
  cases row with
  | nil => rfl
  | cons first rest =>
      cases first with
      | leaf offset leaf =>
          cases leaf with
          | ident name =>
              -- Offsets play no part in what a name, a colon and a value are told by.
              rw [List.map_cons, Component.unplaced]
              dsimp only
              rw [dropWhile_unplaced]
              cases rest.dropWhile Component.isBlank with
              | nil => rfl
              | cons colon value =>
                  have read := ValueRead.foldl_unplaced value .start
                  have start : ValueRead.start.unplaced = .start := rfl
                  rw [start] at read
                  rw [List.map_cons]
                  dsimp only
                  rw [read, Component.isMark_unplaced, ValueRead.unplaced]
                  dsimp only
                  split
                  · rfl
                  · cases (value.foldl ValueRead.add .start).ending with
                    | important before =>
                        simp [ValueEnding.unplaced, Declaration.unplaced]
                    | _ => rfl
          | _ => rfl
      | _ => simp [Component.unplaced]

/-! Offsets -/

def Component.offsets (component : Component) : List Nat :=
  (component.places false).map Prod.fst

def offsets (row : List Component) : List Nat :=
  (rowPlaces false row).map Prod.fst

theorem map_fst_places (component : Component) (fresh : Bool) :
    (component.places fresh).map Prod.fst = component.offsets := by
  cases component with
  | leaf offset leaf =>
      simp only [Component.offsets, Component.places]
      split <;> rfl
  | _ => simp [Component.offsets, Component.places]

theorem map_fst_rowPlaces (row : List Component) (fresh : Bool) :
    (rowPlaces fresh row).map Prod.fst = offsets row := by
  unfold offsets
  induction row generalizing fresh with
  | nil => rfl
  | cons component rest ih =>
      rw [rowPlaces, rowPlaces, List.map_append, List.map_append, map_fst_places, map_fst_places,
        ih, ih (component.freshAfter false)]

theorem offsets_cons (component : Component) (rest : List Component) :
    offsets (component :: rest) = component.offsets ++ offsets rest := by
  rw [← map_fst_rowPlaces _ false, rowPlaces, List.map_append, map_fst_places, map_fst_rowPlaces]

theorem offsets_append (front rest : List Component) :
    offsets (front ++ rest) = offsets front ++ offsets rest := by
  induction front with
  | nil => rfl
  | cons component front ih =>
      rw [List.cons_append, offsets_cons, offsets_cons, ih, List.append_assoc]

mutual

theorem Component.spliced_untouched {added : Nat → List Component} (component : Component)
    (untouched : ∀ offset ∈ component.offsets, added offset = []) :
    component.spliced added = [component.unplaced] := by
  cases component with
  | leaf offset leaf =>
      simp only [Component.spliced, Component.unplaced, Component.offsets, Component.places] at *
      split
      · rename_i isIdent
        rw [untouched offset (by simp [isIdent])]
        rfl
      · rfl
  | fault offset fault => simp [Component.spliced, Component.unplaced]
  | block offset bracket content =>
      have inside := splicedList_untouched content fun offset within =>
        untouched offset (by
          rw [Component.offsets, Component.places, map_fst_rowPlaces]
          exact within)
      simp [Component.spliced, Component.unplaced, inside]
  | function offset name arguments =>
      have inside := splicedList_untouched arguments fun offset within =>
        untouched offset (by
          rw [Component.offsets, Component.places, map_fst_rowPlaces]
          exact within)
      simp [Component.spliced, Component.unplaced, inside]

theorem splicedList_untouched {added : Nat → List Component} (row : List Component)
    (untouched : ∀ offset ∈ offsets row, added offset = []) :
    splicedList added row = bareList row := by
  cases row with
  | nil => rfl
  | cons component rest =>
      rw [splicedList, bareList_cons, component.spliced_untouched fun offset here =>
          untouched offset (by rw [offsets_cons]; exact List.mem_append_left _ here),
        splicedList_untouched rest fun offset behind =>
          untouched offset (by rw [offsets_cons]; exact List.mem_append_right _ behind)]
      rfl

end

/-! Declarations -/

/-- What is put in front of a declaration reads as declarations of its own. -/
def Declares (front : List Component) (contents : List Content) : Prop :=
  ∀ rest, (declarationsAfter .between (front ++ rest)).map Declaration.content =
    contents ++ (declarationsAfter .between rest).map Declaration.content

theorem Declares.eq_nil {contents : List Content} (declares : Declares [] contents) :
    contents = [] := by
  have same := declares []
  simpa [declarationsAfter] using same.symm

namespace DeclarationPart

def row : DeclarationPart → List Component
  | .components read => read.reverse
  | _ => []

def unplaced : DeclarationPart → DeclarationPart
  | .components read => .components (read.map Component.unplaced)
  | .between => .between
  | .atRule => .atRule

def before (extra : Nat → List Content) (part : DeclarationPart) : List Content :=
  part.heads.flatMap fun place => extra place.1

theorem length_heads (part : DeclarationPart) : part.heads.length ≤ 1 := by
  cases part with
  | components read =>
      unfold heads
      dsimp only
      cases read.getLast? with
      | none => exact Nat.zero_le 1
      | some first =>
          cases first with
          | leaf offset leaf =>
              simp only [Option.toList_some, List.flatMap_singleton, Component.head]
              split <;> simp
          | _ => simp [Component.head]
  | _ => exact Nat.zero_le 1

theorem heads_subset_offsets (part : DeclarationPart) {place : Nat × Bool}
    (found : place ∈ part.heads) : place.1 ∈ offsets part.row := by
  cases part with
  | components read =>
      obtain ⟨first, isFirst, inHead⟩ := List.mem_flatMap.1 found
      rw [← List.head?_reverse] at isFirst
      obtain ⟨rest, atRow⟩ := List.head?_eq_some_iff.1 (Option.mem_toList.1 isFirst)
      rw [row, atRow, offsets_cons, ← map_fst_places first true]
      exact List.mem_append_left _
        (List.mem_map_of_mem ((head_sublist_places first).subset inHead))
  | _ => cases found

end DeclarationPart

/-- Declarations begin where one is being read, or behind that. -/
theorem offset_declarationsAfter {part : DeclarationPart} {row : List Component} {offset : Nat}
    (declared : offset ∈ (declarationsAfter part row).map Declaration.offset)
    (begun : part ≠ .components []) :
    (∃ place ∈ part.heads, place.1 = offset) ∨ offset ∈ offsets row := by
  have places := (places_declarationsAfter part true row (fun _ => rfl) begun).map Prod.fst
  rw [List.map_map, List.map_append, map_fst_rowPlaces] at places
  exact (List.mem_append.1 (places.subset declared)).imp_left List.mem_map.1

section

variable {added : Nat → List Component} {extra : Nat → List Content}

structure OnlyAt (added : Nat → List Component) (row : List Component)
    (declarations : List Declaration) : Prop where
  declared : ∀ offset ∈ offsets row, added offset ≠ [] →
    offset ∈ declarations.map Declaration.offset

theorem content_ofComponents? (declares : ∀ offset, Declares (added offset) (extra offset))
    {read : List Component} (only : OnlyAt added read.reverse
      (Declaration.ofComponents? read.reverse).toList) :
    DeclarationPart.before extra (.components read) ++
        (Declaration.ofComponents? (read.map Component.unplaced).reverse).toList.map
          Declaration.content =
      (Declaration.ofComponents? read.reverse).toList.flatMap fun declaration =>
        extra declaration.offset ++ [declaration.content] := by
  have starts := place_ofComponents? read
  have atMostOne := DeclarationPart.length_heads (.components read)
  rw [← List.map_reverse, ofComponents?_unplaced]
  unfold DeclarationPart.before
  cases found : Declaration.ofComponents? read.reverse with
  | none =>
      rw [found] at only
      have nothing : ∀ place ∈ DeclarationPart.heads (.components read), extra place.1 = [] := by
        intro place inHeads
        have within := DeclarationPart.heads_subset_offsets _ inHeads
        have empty : added place.1 = [] :=
          Decidable.not_not.1 fun notEmpty => nomatch only.declared _ within notEmpty
        exact Declares.eq_nil (empty ▸ declares place.1)
      simpa using nothing
  | some declaration =>
      rw [found] at starts
      have same := starts.eq_of_length_le atMostOne
      rw [← same]
      simp [Declaration.place, Declaration.content_unplaced]

theorem disjoint_of_nodup {front rest : List Component} (nodup : (offsets (front ++ rest)).Nodup)
    {offset : Nat} (inFront : offset ∈ offsets front) : offset ∉ offsets rest := by
  rw [offsets_append, List.nodup_append] at nodup
  exact fun inRest => nodup.2.2 offset inFront offset inRest rfl

theorem OnlyAt.behind (front : List Component) {rest : List Component}
    {declarations : List Declaration} (only : OnlyAt added (front ++ rest) declarations) :
    OnlyAt added rest declarations :=
  ⟨fun offset inRest => only.declared offset (by
    rw [offsets_append]
    exact List.mem_append_right _ inRest)⟩

theorem nodup_of_append (front : List Component) {rest : List Component}
    (nodup : (offsets (front ++ rest)).Nodup) :
    (offsets rest).Nodup := by
  rw [offsets_append, List.nodup_append] at nodup
  exact nodup.2.1

/-- Nothing is put in for a component that does not begin a declaration. -/
theorem spliced_of_onlyAt (front : List Component) {component : Component}
    {rest : List Component} {declarations : List Declaration}
    (nodup : (offsets (front ++ component :: rest)).Nodup)
    (only : OnlyAt added (front ++ component :: rest) declarations)
    (elsewhere : ∀ offset ∈ declarations.map Declaration.offset,
      offset ∈ offsets front ∨ offset ∈ offsets rest) :
    component.spliced added = [component.unplaced] := by
  refine component.spliced_untouched fun offset here => Decidable.not_not.1 fun notEmpty => ?_
  have inRow : offset ∈ offsets (front ++ component :: rest) := by
    rw [offsets_append, offsets_cons]
    exact List.mem_append_right _ (List.mem_append_left _ here)
  have inTail : offset ∈ offsets (component :: rest) := by
    rw [offsets_cons]
    exact List.mem_append_left _ here
  rcases elsewhere offset (only.declared offset inRow notEmpty) with inFront | inRest
  · exact disjoint_of_nodup nodup inFront inTail
  · have nodupTail := nodup_of_append front nodup
    rw [← List.singleton_append] at nodupTail
    refine disjoint_of_nodup nodupTail ?_ inRest
    rw [offsets_cons]
    exact List.mem_append_left _ here

theorem eq_of_isMark_semicolon {component : Component} (semicolon : component.isMark ";" = true) :
    ∃ offset, component = .leaf offset (.mark [';']) := by
  cases component with
  | leaf offset leaf =>
      cases leaf with
      | mark text => exact ⟨offset, by rw [eq_of_beq semicolon]; rfl⟩
      | _ => cases semicolon
  | _ => cases semicolon

theorem eq_of_head {component : Component} {place : Nat × Bool} {more : List (Nat × Bool)}
    (startsName : component.head = place :: more) :
    ∃ offset name, component = .leaf offset (.ident name) := by
  cases component with
  | leaf offset leaf =>
      cases leaf with
      | ident name => exact ⟨offset, name, rfl⟩
      | _ => simp [Component.head, Leaf.isIdent] at startsName
  | _ => simp [Component.head] at startsName

/-- A semicolon parts what is put in before it from what is put in behind it. -/
theorem OnlyAt.split {read : List Component} {semicolon : Component} {rest : List Component}
    (only : OnlyAt added (read.reverse ++ semicolon :: rest)
      ((Declaration.ofComponents? read.reverse).toList ++ declarationsAfter .between rest))
    (nodup : (offsets (read.reverse ++ semicolon :: rest)).Nodup) :
    OnlyAt added read.reverse (Declaration.ofComponents? read.reverse).toList ∧
      OnlyAt added rest (declarationsAfter .between rest) := by
  have inTail {offset : Nat} (inRest : offset ∈ offsets rest) :
      offset ∈ offsets (semicolon :: rest) := by
    rw [offsets_cons]
    exact List.mem_append_right _ inRest
  refine ⟨⟨fun offset here notEmpty => ?_⟩, ⟨fun offset here notEmpty => ?_⟩⟩
  · have inRow : offset ∈ offsets (read.reverse ++ semicolon :: rest) := by
      rw [offsets_append]
      exact List.mem_append_left _ here
    have declared := only.declared offset inRow notEmpty
    rw [List.map_append] at declared
    refine (List.mem_append.1 declared).resolve_right fun later => ?_
    have inRest := (offset_declarationsAfter later nofun).resolve_left nofun
    exact disjoint_of_nodup nodup here (inTail inRest)
  · have declared := (only.behind _).declared offset (inTail here) notEmpty
    rw [List.map_append] at declared
    refine (List.mem_append.1 declared).resolve_left fun before => ?_
    obtain ⟨declaration, found, rfl⟩ := List.mem_map.1 before
    have inHeads := (place_ofComponents? read).subset (List.mem_map_of_mem found)
    exact disjoint_of_nodup nodup (DeclarationPart.heads_subset_offsets _ inHeads) (inTail here)

theorem declarationsAfter_begin {component : Component} {rest : List Component}
    (notBlank : ∀ offset text, component ≠ .leaf offset (.blank text))
    (notKeyword : ∀ offset name, component ≠ .leaf offset (.atKeyword name))
    (notSemicolon : ¬component.isMark ";" = true) :
    declarationsAfter .between (component :: rest) =
      declarationsAfter (.components [component]) rest := by
  cases component with
  | leaf offset leaf =>
      cases leaf with
      | blank text => exact absurd rfl (notBlank offset text)
      | atKeyword name => exact absurd rfl (notKeyword offset name)
      | _ => simp [declarationsAfter, notSemicolon]
  | _ => simp [declarationsAfter, notSemicolon]

theorem declarationsAfter_unplaced_begin {component : Component} {rest : List Component}
    (notBlank : ∀ offset text, component ≠ .leaf offset (.blank text))
    (notKeyword : ∀ offset name, component ≠ .leaf offset (.atKeyword name))
    (notSemicolon : ¬component.isMark ";" = true) :
    declarationsAfter .between (component.unplaced :: rest) =
      declarationsAfter (.components [component.unplaced]) rest := by
  refine declarationsAfter_begin ?_ ?_ (by rwa [Component.isMark_unplaced])
  · intro offset text same
    cases component with
    | leaf place leaf =>
        obtain ⟨-, rfl⟩ := Component.leaf.inj same
        exact notBlank place text rfl
    | _ => simp [Component.unplaced] at same
  · intro offset name same
    cases component with
    | leaf place leaf =>
        obtain ⟨-, rfl⟩ := Component.leaf.inj same
        exact notKeyword place name rfl
    | _ => simp [Component.unplaced] at same

/-- A component behind which the next declarations begin has nothing put into it. -/
theorem spliced_of_headless (part : DeclarationPart) (front : List Component)
    {component : Component} {rest : List Component} (headless : part.heads = [])
    (begun : part ≠ .components []) (nodup : (offsets (front ++ component :: rest)).Nodup)
    (only : OnlyAt added (front ++ component :: rest) (declarationsAfter part rest)) :
    component.spliced added = [component.unplaced] := by
  refine spliced_of_onlyAt front nodup only fun offset declared => .inr ?_
  refine (offset_declarationsAfter declared begun).resolve_left ?_
  rw [headless]
  rintro ⟨place, inHeads, -⟩
  cases inHeads

theorem content_declarationsAfter_spliced
    (declares : ∀ offset, Declares (added offset) (extra offset))
    (part : DeclarationPart) (row : List Component) (begun : part ≠ .components [])
    (nodup : (offsets (part.row ++ row)).Nodup)
    (only : OnlyAt added (part.row ++ row) (declarationsAfter part row)) :
    part.before extra ++
        (declarationsAfter part.unplaced (splicedList added row)).map Declaration.content =
      (declarationsAfter part row).flatMap fun declaration =>
        extra declaration.offset ++ [declaration.content] := by
  -- Only the first component of a declaration has something before it; all others stay.
  fun_induction declarationsAfter part row with
  | case1 read =>
      rw [DeclarationPart.row, List.append_nil] at only
      simpa [declarationsAfter, splicedList, DeclarationPart.unplaced] using
        content_ofComponents? declares only
  | case2 part notReading =>
      cases part with
      | components read => exact absurd rfl (notReading read)
      | _ => rfl
  | case3 rest offset text ih => exact ih (by simp) nodup (only.behind [_])
  | case4 rest offset name ih => exact ih (by simp) nodup (only.behind [_])
  | case5 rest component notBlank notKeyword semicolon ih =>
      obtain ⟨offset, rfl⟩ := eq_of_isMark_semicolon semicolon
      exact ih (by simp) (nodup_of_append [_] nodup) (only.behind [_])
  | case6 rest component notBlank notKeyword notSemicolon ih =>
      have onward := ih (by simp) nodup only
      rw [← onward, splicedList]
      cases startsName : component.head with
      | nil =>
          have headless : (DeclarationPart.components [component]).heads = [] := by
            simp [DeclarationPart.heads, startsName]
          rw [spliced_of_headless _ [] headless (by simp) nodup only]
          change [] ++ (declarationsAfter .between (component.unplaced :: _)).map _ = _
          rw [declarationsAfter_unplaced_begin notBlank notKeyword notSemicolon]
          simp [DeclarationPart.before, DeclarationPart.heads, startsName, DeclarationPart.unplaced]
      | cons place more =>
          obtain ⟨offset, name, rfl⟩ := eq_of_head startsName
          have spliced : (Component.leaf offset (.ident name)).spliced added =
              added offset ++ [.leaf 0 (.ident name)] := by
            simp [Component.spliced, Leaf.isIdent]
          have front : DeclarationPart.before extra
              (.components [.leaf offset (.ident name)]) = extra offset := by
            simp [DeclarationPart.before, DeclarationPart.heads, Component.head, Leaf.isIdent]
          rw [spliced, List.append_assoc, front]
          exact declares offset _
  | case7 component rest read semicolon ih =>
      obtain ⟨offset, rfl⟩ := eq_of_isMark_semicolon semicolon
      obtain ⟨onlyRead, onlyRest⟩ := only.split nodup
      have onward := ih (by simp) (nodup_of_append [_] (nodup_of_append _ nodup)) onlyRest
      have here := content_ofComponents? declares onlyRead
      rw [List.flatMap_append, ← here, ← onward, List.append_assoc]
      change _ ++ List.map _ (_ ++ _) = _
      rw [List.map_append]
      rfl
  | case8 component rest read notSemicolon ih =>
      have notEmpty : read ≠ [] := fun empty => begun (by rw [empty])
      have sameRow : (DeclarationPart.components (component :: read)).row ++ rest =
          (DeclarationPart.components read).row ++ component :: rest := by
        simp [DeclarationPart.row]
      have onward := ih (by simp) (sameRow ▸ nodup) (sameRow ▸ only)
      have untouched : component.spliced added = [component.unplaced] := by
        refine spliced_of_onlyAt _ nodup only fun offset declared => ?_
        rcases offset_declarationsAfter declared (by simp) with ⟨place, inHeads, rfl⟩ | inRest
        · rw [heads_components component notEmpty] at inHeads
          exact .inl (DeclarationPart.heads_subset_offsets _ inHeads)
        · exact .inr inRest
      rw [splicedList, untouched, List.singleton_append, DeclarationPart.unplaced,
        declarationsAfter, Component.isMark_unplaced, if_neg notSemicolon]
      rw [← onward]
      unfold DeclarationPart.before
      rw [heads_components component notEmpty]
      rfl
  | case9 component rest ends ih =>
      rw [splicedList, spliced_of_headless .between [] rfl (by simp) nodup only,
        List.singleton_append, DeclarationPart.unplaced, declarationsAfter,
        Component.isMark_unplaced, ValueRead.isCurly_unplaced, if_pos ends]
      exact ih (by simp) (nodup_of_append [_] nodup) (only.behind [_])
  | case10 component rest stays ih =>
      rw [splicedList, spliced_of_headless .atRule [] rfl (by simp) nodup only,
        List.singleton_append, DeclarationPart.unplaced, declarationsAfter,
        Component.isMark_unplaced, ValueRead.isCurly_unplaced, if_neg stays]
      exact ih (by simp) (nodup_of_append [_] nodup) (only.behind [_])

/-! Rules -/

namespace RulePart

def unplaced : RulePart → RulePart
  | .between => .between
  | .prelude last before => .prelude last.unplaced (before.map Component.unplaced)
  | .atPrelude keyword before => .atPrelude keyword (before.map Component.unplaced)

def withBlock (content : List Component) : RulePart → Rule
  | .between => .qualified [] content
  | .prelude last before => .qualified (last :: before).reverse content
  | .atPrelude keyword before => .atRule keyword before.reverse (some content)

theorem read_block (passMarks : Bool) (part : RulePart) (offset : Nat) (content : List Component) :
    part.read passMarks (.block offset .curly content) = .inr (part.withBlock content) := by
  cases part <;> rfl

theorem read_eq_inr {passMarks : Bool} {part : RulePart} {component : Component} {rule : Rule}
    (found : part.read passMarks component = .inr rule) :
    (∃ offset content, component = .block offset .curly content) ∨
      component.isMark ";" = true ∧ ∃ keyword before, part = .atPrelude keyword before := by
  cases part with
  | between =>
      unfold read beginRule at found
      dsimp only at found
      split at found
      · cases found
      · cases found
      · exact .inl ⟨_, _, rfl⟩
      · split at found <;> cases found
  | prelude last before =>
      unfold read at found
      dsimp only at found
      split at found
      · exact .inl ⟨_, _, rfl⟩
      · cases found
  | atPrelude keyword before =>
      unfold read at found
      dsimp only at found
      split at found
      · exact .inl ⟨_, _, rfl⟩
      · split at found
        · rename_i semicolon
          exact .inr ⟨semicolon, keyword, before, rfl⟩
        · cases found

theorem read_unplaced {passMarks : Bool} {part next : RulePart} {component : Component}
    (found : part.read passMarks component = .inl next) :
    part.unplaced.read passMarks component.unplaced = .inl next.unplaced := by
  -- What a component begins or ends is told by its kind and its mark alone.
  cases part with
  | between =>
      cases component with
      | leaf offset leaf =>
          cases leaf with
          | mark text =>
              have marks := Component.isMark_unplaced (.leaf offset (.mark text))
              simp only [read, beginRule] at found
              simp only [unplaced, Component.unplaced, read, beginRule] at marks ⊢
              rw [marks, marks]
              split at found
              · rename_i passed
                obtain rfl := Sum.inl.inj found
                rw [if_pos passed]
              · rename_i notPassed
                obtain rfl := Sum.inl.inj found
                rw [if_neg notPassed]
                rfl
          | _ =>
              cases passMarks <;>
              · obtain rfl := Sum.inl.inj found
                rfl
      | block offset bracket content =>
          cases bracket with
          | curly => cases found
          | _ =>
              cases passMarks <;>
              · obtain rfl := Sum.inl.inj found
                rfl
      | _ =>
          cases passMarks <;>
          · obtain rfl := Sum.inl.inj found
            rfl
  | prelude last before =>
      cases component with
      | block offset bracket content =>
          cases bracket with
          | curly => cases found
          | _ =>
              obtain rfl := Sum.inl.inj found
              rfl
      | _ =>
          obtain rfl := Sum.inl.inj found
          rfl
  | atPrelude keyword before =>
      cases component with
      | leaf offset leaf =>
          have marks := Component.isMark_unplaced (.leaf offset leaf) ";"
          simp only [read] at found
          simp only [unplaced, Component.unplaced, read] at marks ⊢
          rw [marks]
          split at found
          · cases found
          · rename_i notSemicolon
            obtain rfl := Sum.inl.inj found
            rw [if_neg notSemicolon]
            rfl
      | block offset bracket content =>
          cases bracket with
          | curly => cases found
          | _ =>
              obtain rfl := Sum.inl.inj found
              rfl
      | _ =>
          obtain rfl := Sum.inl.inj found
          rfl

end RulePart

def sayBehind (extra : Nat → List Content) (declaration : Declaration) : List Content :=
  extra declaration.offset ++ [declaration.content]

theorem flatMap_blockDeclarations_spliced
    (declares : ∀ offset, Declares (added offset) (extra offset)) {content : List Component}
    (nodup : (offsets content).Nodup) (only : OnlyAt added content (blockDeclarations content)) :
    (blockDeclarations (splicedList added content)).flatMap sayAlone =
      (blockDeclarations content).flatMap (sayBehind extra) := by
  have alone (declarations : List Declaration) :
      declarations.flatMap sayAlone = declarations.map Declaration.content :=
    List.map_eq_flatMap.symm
  rw [alone]
  exact content_declarationsAfter_spliced declares .between content nofun nodup only

theorem offset_flatMap_declarations {passMarks : Bool} {part : RulePart} {row : List Component}
    {offset : Nat} (declared : offset ∈
      ((rulesAfter passMarks part row).flatMap Rule.declarations).map Declaration.offset) :
    offset ∈ offsets row := by
  have places : (((rulesAfter passMarks part row).flatMap Rule.declarations).map
      Declaration.place).Sublist (rowPlaces false row) := by
    rw [List.map_flatMap]
    exact (List.Sublist.flatMap_right _ fun rule _ => rule.places_declarations).trans
      (places_rulesAfter passMarks part false row)
  have inRow := (places.map Prod.fst).subset
  rw [List.map_map] at inRow
  exact inRow declared

/-- What is put into the rules inside a block shows in what they say. -/
def SplicedWithin (added : Nat → List Component) (extra : Nat → List Content)
    (content : List Component) : Prop :=
  (offsets content).Nodup → OnlyAt added content (declarationsIn false content) →
    outlineIn sayAlone false (splicedList added content) =
      outlineIn (sayBehind extra) false content

theorem outline_withBlock (declares : ∀ offset, Declares (added offset) (extra offset))
    (part : RulePart) {content : List Component} (nodup : (offsets content).Nodup)
    (only : OnlyAt added content (part.withBlock content).declarations)
    (within : SplicedWithin added extra content) :
    (part.unplaced.withBlock (splicedList added content)).outline sayAlone =
      (part.withBlock content).outline (sayBehind extra) := by
  cases part with
  | between =>
      simp only [RulePart.unplaced, RulePart.withBlock, Rule.outline]
      rw [flatMap_blockDeclarations_spliced declares nodup only]
  | prelude last before =>
      have prelude : bareList ((last.unplaced :: before.map Component.unplaced).reverse) =
          bareList (last :: before).reverse := by
        rw [← List.map_cons, ← List.map_reverse, ← bareList_eq_map, bareList_bareList]
      simp only [RulePart.unplaced, RulePart.withBlock, Rule.outline]
      rw [flatMap_blockDeclarations_spliced declares nodup only, prelude]
  | atPrelude keyword before =>
      have prelude : bareList (before.map Component.unplaced).reverse = bareList before.reverse := by
        rw [← List.map_reverse, ← bareList_eq_map, bareList_bareList]
      simp only [RulePart.unplaced, RulePart.withBlock, Rule.outline, Rule.declarations] at only ⊢
      rw [prelude]
      split
      · rename_i holds
        rw [if_pos holds] at only
        rw [within nodup only]
      · rename_i plain
        rw [if_neg plain] at only
        rw [flatMap_blockDeclarations_spliced declares nodup only]

/-- A block keeps what is put in inside it from what is put in behind it. -/
theorem OnlyAt.block {offset : Nat} {content rest : List Component} {inside behind : List Declaration}
    (only : OnlyAt added (.block offset .curly content :: rest) (inside ++ behind))
    (nodup : (offsets (.block offset .curly content :: rest)).Nodup)
    (insideIn : ∀ place ∈ inside.map Declaration.offset, place ∈ offsets content)
    (behindIn : ∀ place ∈ behind.map Declaration.offset, place ∈ offsets rest) :
    OnlyAt added content inside ∧ OnlyAt added rest behind := by
  have inBlock : (Component.block offset .curly content).offsets = offsets content :=
    map_fst_rowPlaces content true
  rw [offsets_cons, inBlock, List.nodup_append] at nodup
  refine ⟨⟨fun place here notEmpty => ?_⟩, ⟨fun place here notEmpty => ?_⟩⟩
  · have inRow : place ∈ offsets (.block offset .curly content :: rest) := by
      rw [offsets_cons, inBlock]
      exact List.mem_append_left _ here
    have declared := only.declared place inRow notEmpty
    rw [List.map_append] at declared
    refine (List.mem_append.1 declared).resolve_right fun later => ?_
    exact nodup.2.2 place here place (behindIn place later) rfl
  · have declared := (only.behind [_]).declared place here notEmpty
    rw [List.map_append] at declared
    refine (List.mem_append.1 declared).resolve_left fun before => ?_
    exact nodup.2.2 place (insideIn place before) place here rfl

theorem offset_withBlock {part : RulePart} {content : List Component} {offset : Nat}
    (declared : offset ∈ (part.withBlock content).declarations.map Declaration.offset) :
    offset ∈ offsets content := by
  have places : (part.withBlock content).places = rowPlaces true content := by
    cases part <;> rfl
  have inBlock := ((part.withBlock content).places_declarations.map Prod.fst).subset
  rw [List.map_map, places, map_fst_rowPlaces] at inBlock
  exact inBlock declared

theorem map_outline_rulesAfter_spliced
    (declares : ∀ offset, Declares (added offset) (extra offset)) (passMarks : Bool)
    (part : RulePart) {row : List Component} (nodup : (offsets row).Nodup)
    (only : OnlyAt added row ((rulesAfter passMarks part row).flatMap Rule.declarations))
    (within : ∀ content, sizeOf content < sizeOf row → SplicedWithin added extra content) :
    (rulesAfter passMarks part.unplaced (splicedList added row)).map (Rule.outline sayAlone) =
      (rulesAfter passMarks part row).map (Rule.outline (sayBehind extra)) := by
  induction row generalizing part with
  | nil =>
      cases part with
      | atPrelude keyword before =>
          simp only [splicedList, rulesAfter, RulePart.unplaced, RulePart.atEnd, List.map_cons,
            Rule.outline, List.map_nil]
          rw [← List.map_reverse, ← bareList_eq_map, bareList_bareList]
      | _ => rfl
  | cons component rest ih =>
      have nodupRest := nodup_of_append [component] nodup
      have withinRest : ∀ content, sizeOf content < sizeOf rest →
          SplicedWithin added extra content :=
        fun content smaller => within content (by simp only [List.cons.sizeOf_spec]; omega)
      unfold rulesAfter at only
      rw [splicedList, rulesAfter]
      cases read : part.read passMarks component with
      | inl next =>
          rw [read] at only
          -- No declaration begins here, so nothing is put in before the component.
          have untouched : component.spliced added = [component.unplaced] :=
            spliced_of_onlyAt [] nodup only fun offset declared =>
              .inr (offset_flatMap_declarations declared)
          rw [untouched, List.singleton_append, rulesAfter, RulePart.read_unplaced read]
          exact ih next nodupRest (only.behind [component]) withinRest
      | inr rule =>
          rw [read] at only
          dsimp only at only
          rw [List.flatMap_cons] at only
          rcases RulePart.read_eq_inr read with ⟨offset, content, rfl⟩ | ⟨semicolon, isStatement⟩
          · rw [RulePart.read_block] at read
            obtain rfl := Sum.inr.inj read
            obtain ⟨onlyInside, onlyBehind⟩ := only.block nodup
              (fun _ declared => offset_withBlock declared)
              (fun _ declared => offset_flatMap_declarations declared)
            have nodupInside : (offsets content).Nodup := by
              rw [offsets_cons, List.nodup_append] at nodup
              rw [← map_fst_rowPlaces content true]
              exact nodup.1
            -- The inside of a block is smaller than the row, so `within` speaks of it.
            have smaller : sizeOf content <
                sizeOf (Component.block offset .curly content :: rest) := by
              simp only [List.cons.sizeOf_spec, Component.block.sizeOf_spec]
              omega
            have first := outline_withBlock declares part nodupInside onlyInside
              (within content smaller)
            rw [Component.spliced, List.singleton_append, rulesAfter, RulePart.read_block]
            dsimp only
            rw [List.map_cons, List.map_cons, first]
            exact congrArg _ (ih .between nodupRest onlyBehind withinRest)
          · obtain ⟨keyword, before, rfl⟩ := isStatement
            obtain ⟨offset, rfl⟩ := eq_of_isMark_semicolon semicolon
            obtain rfl := Sum.inr.inj read
            have statement : bareList (before.map Component.unplaced).reverse =
                bareList before.reverse := by
              rw [← List.map_reverse, ← bareList_eq_map, bareList_bareList]
            have onward := ih .between nodupRest (only.behind [_]) withinRest
            change Rule.outline _ (.atRule keyword _ none) :: _ = Rule.outline _ (.atRule _ _ none) :: _
            rw [Rule.outline, Rule.outline, statement]
            exact congrArg _ onward

theorem outlineIn_spliced (declares : ∀ offset, Declares (added offset) (extra offset))
    (passMarks : Bool) {row : List Component} (nodup : (offsets row).Nodup)
    (only : OnlyAt added row (declarationsIn passMarks row)) :
    outlineIn sayAlone passMarks (splicedList added row) =
      outlineIn (sayBehind extra) passMarks row := by
  rw [declarationsIn_eq] at only
  rw [outlineIn_eq, outlineIn_eq]
  exact map_outline_rulesAfter_spliced declares passMarks .between nodup only
    fun content _ nodupInside onlyInside => outlineIn_spliced declares false nodupInside onlyInside
termination_by sizeOf row

/-! Texts put into a source -/

theorem placed_of_places {put : Nat → List Char} {fresh : Bool} {offset : Nat}
    {scanned : List Scanned} (starts : ∀ place ∈ tokenPlaces fresh offset scanned,
      put place.1 ≠ [] → place.2 = true) : Placed put fresh offset scanned := by
  induction scanned generalizing fresh offset with
  | nil => trivial
  | cons first later ih =>
      refine ⟨fun isIdent notEmpty => ?_, ih fun place behind => ?_⟩
      · exact starts (offset, fresh) (by simp [tokenPlaces, isIdent]) notEmpty
      · exact starts place (List.mem_append_right _ behind)

theorem eq_true_of_declared {source : List Char} {place : Nat × Bool}
    (here : place ∈ rowPlaces false (components source))
    (declared : place.1 ∈ (sheetDeclarations (components source)).map Declaration.offset) :
    place.2 = true := by
  obtain ⟨declaration, found, same⟩ := List.mem_map.1 declared
  have starts := (places_declarationsIn true false (components source)).subset
    (List.mem_map_of_mem found)
  have unique := List.inj_on_of_nodup_map (rowPlaces_nodup source) here starts same.symm
  rw [unique]
  rfl

theorem placed_of_declared {put : Nat → List Char} {source : List Char}
    (only : ∀ offset, put offset ≠ [] →
      offset ∈ (sheetDeclarations (components source)).map Declaration.offset) :
    Placed put false 0 (tokens source) :=
  placed_of_places fun _ here notEmpty =>
    eq_true_of_declared (rowPlaces_components source ▸ here) (only _ notEmpty)

theorem outline_putText {put : Nat → List Char} {source : List Char}
    (chunks : ∀ offset, put offset ≠ [] → Chunk (put offset))
    (adds : ∀ offset, put offset ≠ [] → Adds (put offset) (added offset))
    (nothing : ∀ offset, put offset = [] → added offset = [])
    (declares : ∀ offset, Declares (added offset) (extra offset))
    (only : ∀ offset, put offset ≠ [] →
      offset ∈ (sheetDeclarations (components source)).map Declaration.offset) :
    outline (components (putText put false 0 (tokens source))) =
      outlineIn (sayBehind extra) true (components source) := by
  have spliced := components_putText chunks adds nothing (placed_of_declared only)
  have onlyAt : OnlyAt added (components source) (declarationsIn true (components source)) :=
    ⟨fun offset _ added => only offset fun empty => added (nothing offset empty)⟩
  have after := outlineIn_spliced declares true (rowPlaces_nodup source) onlyAt
  have bare : outlineIn sayAlone true (bareList (components (putText put false 0 (tokens source)))) =
      outlineIn (sayBehind fun _ => []) true (components (putText put false 0 (tokens source))) :=
    outlineIn_spliced (fun _ _ => rfl) true (rowPlaces_nodup _) ⟨fun _ _ added => absurd rfl added⟩
  rw [← after, ← spliced, bare]
  rfl

end

end SheetScript.Css
