import Mathlib.Data.List.DropRight
import SheetScript.Proofs.Answers
import SheetScript.Proofs.Script.Balance

/-!
Template bodies and the pieces they are cut into. A body is cut at every `${` that is not escaped,
up to the brace that ends the hole there. There is one way to do so, or none if a hole is never
closed.
-/

namespace SheetScript.Script

/-! Escapes -/

/-- An odd number of backslashes at the end: the character behind the text is escaped. -/
def EscapesNext (text : List Char) : Prop :=
  (text.rtakeWhile (· == '\\')).length % 2 = 1

theorem length_rtakeWhile_cons (condition : Char → Bool) (c : Char) (rest : List Char) :
    ((c :: rest).rtakeWhile condition).length =
      if rest.all condition then rest.length + if condition c then 1 else 0
      else (rest.rtakeWhile condition).length := by
  unfold List.rtakeWhile
  rw [List.length_reverse, List.reverse_cons, List.takeWhile_append]
  by_cases all : rest.all condition = true
  · have whole : rest.reverse.takeWhile condition = rest.reverse :=
      List.takeWhile_eq_self_iff.2 fun d here => List.all_eq_true.1 all d (List.mem_reverse.1 here)
    rw [whole, if_pos rfl, if_pos all, List.length_append, List.length_reverse]
    cases holds : condition c <;> simp [holds]
  · have short : (rest.reverse.takeWhile condition).length ≠ rest.reverse.length := by
      intro same
      have whole := (List.takeWhile_prefix (l := rest.reverse) condition).eq_of_length same
      refine all (List.all_eq_true.2 fun d here => ?_)
      exact List.takeWhile_eq_self_iff.1 whole d (List.mem_reverse.2 here)
    rw [if_neg short, if_neg all, List.length_reverse]

theorem length_rtakeWhile_all {condition : Char → Bool} {text : List Char}
    (all : text.all condition = true) : (text.rtakeWhile condition).length = text.length := by
  rw [List.rtakeWhile_eq_self_iff.2 (List.all_eq_true.1 all)]

theorem not_escapesNext_nil : ¬EscapesNext [] := by
  simp [EscapesNext]

theorem escapesNext_backslash : EscapesNext ['\\'] :=
  rfl

theorem escapesNext_plain {c : Char} (notBackslash : c ≠ '\\') (rest : List Char) :
    EscapesNext (c :: rest) ↔ EscapesNext rest := by
  unfold EscapesNext
  rw [length_rtakeWhile_cons]
  split
  · rename_i all
    rw [length_rtakeWhile_all all]
    simp [notBackslash]
  · rfl

theorem escapesNext_escaped (c : Char) (rest : List Char) :
    EscapesNext ('\\' :: c :: rest) ↔ EscapesNext rest := by
  by_cases isBackslash : c = '\\'
  · subst isBackslash
    unfold EscapesNext
    rw [length_rtakeWhile_cons, length_rtakeWhile_cons]
    by_cases all : rest.all (· == '\\') = true
    · rw [length_rtakeWhile_all all]
      simp only [List.all_cons, all, beq_self_eq_true, Bool.and_self, if_true, List.length_cons]
      omega
    · simp [all]
  · have here : EscapesNext ('\\' :: c :: rest) ↔ EscapesNext (c :: rest) := by
      unfold EscapesNext
      rw [length_rtakeWhile_cons, if_neg (by simp [isBackslash])]
    rw [here, escapesNext_plain isBackslash]

/-! Texts between holes -/

def HoleFree (text : List Char) : Prop :=
  ∀ before after, text = before ++ '$' :: '\x7b' :: after → EscapesNext before

namespace HoleFree

theorem nil : HoleFree [] := by
  intro before after same
  simp at same

theorem escaped {c : Char} {rest : List Char} :
    HoleFree ('\\' :: c :: rest) ↔ HoleFree rest := by
  constructor
  · rintro free before after rfl
    exact (escapesNext_escaped c before).1 (free ('\\' :: c :: before) after rfl)
  · rintro free (_ | ⟨first, _ | ⟨second, before⟩⟩) after same
    · simp at same
    · obtain ⟨rfl, -⟩ := List.cons.inj same
      exact escapesNext_backslash
    · obtain ⟨rfl, behind⟩ := List.cons.inj same
      obtain ⟨rfl, inRest⟩ := List.cons.inj behind
      exact (escapesNext_escaped c before).2 (free before after inRest)

theorem plain {c : Char} (notBackslash : c ≠ '\\') {rest : List Char} :
    HoleFree (c :: rest) ↔ ¬(c = '$' ∧ rest.head? = some '\x7b') ∧ HoleFree rest := by
  constructor
  · intro free
    constructor
    · rintro ⟨rfl, starts⟩
      obtain ⟨after, rfl⟩ := List.head?_eq_some_iff.1 starts
      exact not_escapesNext_nil (free [] after rfl)
    · rintro before after rfl
      exact (escapesNext_plain notBackslash before).1 (free (c :: before) after rfl)
  · rintro ⟨notHole, free⟩ (_ | ⟨first, before⟩) after same
    · obtain ⟨rfl, rfl⟩ := List.cons.inj same
      exact absurd ⟨rfl, rfl⟩ notHole
    · obtain ⟨rfl, inRest⟩ := List.cons.inj same
      exact (escapesNext_plain notBackslash before).2 (free before after inRest)

theorem backslash : HoleFree ['\\'] := by
  rintro (_ | ⟨first, before⟩) after same <;> simp at same

end HoleFree

/-! Cutting -/

theorem pieces_char {c : Char} (notBackslash : c ≠ '\\') {rest : List Char}
    (notHole : ¬(c = '$' ∧ rest.head? = some '\x7b')) :
    pieces (c :: rest) = (pieces rest).map (·.prepend [c]) := by
  rw [pieces]
  · rintro _ _ rfl
    exact absurd rfl notBackslash
  · rintro _ rfl rfl
    exact notHole ⟨rfl, rfl⟩

/-- A text without holes stays together. -/
theorem pieces_holeFree {text : List Char} (free : HoleFree text) :
    pieces text = .ok ⟨[], text⟩ := by
  induction text using List.twoStepInduction with
  | nil => rw [pieces]
  | singleton c =>
      rw [pieces, pieces]
      · rfl
      all_goals simp
  | cons_cons c d rest ihRest ih =>
      by_cases isBackslash : c = '\\'
      · subst isBackslash
        rw [pieces, ihRest (HoleFree.escaped.1 free)]
        rfl
      · obtain ⟨notHole, behind⟩ := (HoleFree.plain isBackslash).1 free
        rw [pieces_char isBackslash notHole, ih d behind]
        rfl

/-- A text without holes is what stands in front of the first hole behind it. -/
theorem pieces_beforeHole {text : List Char} (free : HoleFree text) (complete : ¬EscapesNext text)
    (rest : List Char) : pieces (text ++ '$' :: '\x7b' :: rest) =
      (pieces ('$' :: '\x7b' :: rest)).map (·.prepend text) := by
  induction text using List.twoStepInduction with
  | nil =>
      simp only [List.nil_append, prepend_nil]
      cases pieces ('$' :: '\x7b' :: rest) <;> rfl
  | singleton c =>
      have notBackslash : c ≠ '\\' := by
        rintro rfl
        exact complete escapesNext_backslash
      exact pieces_char notBackslash (by simp)
  | cons_cons c d text ihText ih =>
      by_cases isBackslash : c = '\\'
      · subst isBackslash
        rw [escapesNext_escaped] at complete
        rw [List.cons_append, List.cons_append, pieces, ihText (HoleFree.escaped.1 free) complete]
        cases pieces ('$' :: '\x7b' :: rest) <;> simp [Except.map, prepend_prepend]
      · rw [escapesNext_plain isBackslash] at complete
        obtain ⟨notHole, behind⟩ := (HoleFree.plain isBackslash).1 free
        rw [List.cons_append, pieces_char isBackslash (by simpa using notHole),
          ih d behind complete]
        cases pieces ('$' :: '\x7b' :: rest) <;> simp [Except.map, prepend_prepend]

/-! Cuts -/

namespace Pieces

/-- The pieces in order: each text with the source of the hole behind it, the last without one. -/
def row (found : Pieces) : List (List Char × Option (List Char)) :=
  found.holes.map (fun piece => (piece.1, some piece.2)) ++ [(found.last, none)]

/-- Texts without holes, each of which leaves the `${` behind it unescaped, and balanced sources. -/
structure Sound (found : Pieces) : Prop where
  last : HoleFree found.last
  holes : ∀ piece ∈ found.holes, HoleFree piece.1 ∧ ¬EscapesNext piece.1 ∧ Balanced 0 piece.2

theorem Sound.tail {first : List Char × List Char} {holes : List (List Char × List Char)}
    {last : List Char} (sound : (⟨first :: holes, last⟩ : Pieces).Sound) :
    (⟨holes, last⟩ : Pieces).Sound :=
  ⟨sound.last, fun piece here => sound.holes piece (List.mem_cons_of_mem first here)⟩

theorem Sound.prepend_escaped {found : Pieces} (sound : found.Sound) (c : Char) :
    (found.prepend ['\\', c]).Sound := by
  obtain ⟨_ | ⟨first, holes⟩, last⟩ := found
  · exact ⟨HoleFree.escaped.2 sound.last, nofun⟩
  · obtain ⟨free, complete, balanced⟩ := sound.holes first List.mem_cons_self
    have stillComplete : ¬EscapesNext ('\\' :: c :: first.1) :=
      fun escapes => complete ((escapesNext_escaped c first.1).1 escapes)
    refine ⟨sound.last, List.forall_mem_cons.2 ⟨?_, sound.tail.holes⟩⟩
    exact ⟨HoleFree.escaped.2 free, stillComplete, balanced⟩

/-- The text in front starts what the pieces join to, or nothing. -/
theorem Sound.prepend_plain {found : Pieces} (sound : found.Sound) {c : Char}
    (notBackslash : c ≠ '\\') (notHole : ¬(c = '$' ∧ found.join.head? = some '\x7b')) :
    (found.prepend [c]).Sound := by
  obtain ⟨_ | ⟨first, holes⟩, last⟩ := found
  · refine ⟨(HoleFree.plain notBackslash).2 ⟨?_, sound.last⟩, nofun⟩
    simpa [join] using notHole
  · obtain ⟨free, complete, balanced⟩ := sound.holes first List.mem_cons_self
    refine ⟨sound.last, List.forall_mem_cons.2 ⟨⟨?_, ?_, balanced⟩, sound.tail.holes⟩⟩
    · refine (HoleFree.plain notBackslash).2 ⟨?_, free⟩
      rintro ⟨isDollar, starts⟩
      have text : first.1.head? = some '\x7b' := starts
      exact notHole ⟨isDollar, by simp [join, text]⟩
    · exact fun escapes => complete ((escapesNext_plain notBackslash first.1).1 escapes)

theorem Sound.cons {found : Pieces} (sound : found.Sound) {source : List Char}
    (balanced : Balanced 0 source) :
    (⟨([], source) :: found.holes, found.last⟩ : Pieces).Sound :=
  ⟨sound.last, List.forall_mem_cons.2 ⟨⟨.nil, not_escapesNext_nil, balanced⟩, sound.holes⟩⟩

theorem escapesNext_prepend_escaped (found : Pieces) (c : Char) :
    EscapesNext (found.prepend ['\\', c]).last ↔ EscapesNext found.last := by
  obtain ⟨_ | ⟨first, holes⟩, last⟩ := found
  · exact escapesNext_escaped c last
  · rfl

theorem escapesNext_prepend_plain (found : Pieces) {c : Char} (notBackslash : c ≠ '\\') :
    EscapesNext (found.prepend [c]).last ↔ EscapesNext found.last := by
  obtain ⟨_ | ⟨first, holes⟩, last⟩ := found
  · exact escapesNext_plain notBackslash last
  · rfl

theorem join_cons (first : List Char × List Char) (holes : List (List Char × List Char))
    (last : List Char) : (⟨first :: holes, last⟩ : Pieces).join =
      first.1 ++ '$' :: '\x7b' :: (first.2 ++ '\x7d' :: (⟨holes, last⟩ : Pieces).join) := by
  simp [join]

end Pieces

/-- A text begins with a hole that no brace behind it closes. -/
def StartsOpen (text : List Char) : Prop :=
  ∃ inside, text = '$' :: '\x7b' :: inside ∧
    ∀ source after, inside = source ++ '\x7d' :: after → ¬Balanced 0 source

theorem pieces_startsOpen {text : List Char} (opens : StartsOpen text) :
    pieces text = .error text := by
  obtain ⟨inside, rfl, never⟩ := opens
  rw [pieces]
  split
  · rfl
  · rename_i source after closes
    obtain ⟨same, balanced⟩ := closeHole?_eq_some.1 closes
    exact absurd balanced (never source after same)

/-- Sound pieces do not help a body that goes on with a hole that is never closed. -/
theorem pieces_join_append {front : Pieces} (sound : front.Sound)
    (complete : ¬EscapesNext front.last) {rest : List Char} (opens : StartsOpen rest) :
    pieces (front.join ++ rest) = .error rest := by
  have stops := pieces_startsOpen opens
  obtain ⟨inside, rfl, -⟩ := opens
  obtain ⟨holes, last⟩ := front
  induction holes with
  | nil =>
      change pieces (last ++ _) = _
      rw [pieces_beforeHole sound.last complete, stops]
      rfl
  | cons first holes ih =>
      obtain ⟨free, completeFirst, balanced⟩ := sound.holes first List.mem_cons_self
      have behind := ih sound.tail complete
      rw [Pieces.join_cons, List.append_assoc, List.cons_append, List.cons_append,
        List.append_assoc, List.cons_append, pieces_beforeHole free completeFirst,
        pieces_hole (closed_iff_balanced.2 balanced), behind]
      rfl

theorem pieces_join {found : Pieces} (sound : found.Sound) : pieces found.join = .ok found := by
  obtain ⟨holes, last⟩ := found
  induction holes with
  | nil => exact pieces_holeFree sound.last
  | cons first holes ih =>
      obtain ⟨free, complete, balanced⟩ := sound.holes first List.mem_cons_self
      have behind := ih sound.tail
      rw [Pieces.join_cons, pieces_beforeHole free complete,
        pieces_hole (closed_iff_balanced.2 balanced), behind]
      simp [Except.map, Pieces.prepend]

/-- Every body is cut soundly up to its end, or up to a hole that is never closed. -/
theorem exists_front (body : List Char) : ∃ front : Pieces, ∃ rest, front.Sound ∧
    body = front.join ++ rest ∧ (rest = [] ∨ ¬EscapesNext front.last ∧ StartsOpen rest) := by
  -- In the order of the search: an escape, a hole left open, a hole that closes, plain text.
  fun_induction pieces body with
  | case1 => exact ⟨⟨[], []⟩, [], ⟨.nil, nofun⟩, rfl, .inl rfl⟩
  | case2 c rest ih =>
      obtain ⟨front, stop, sound, joins, ends⟩ := ih
      refine ⟨front.prepend ['\\', c], stop, sound.prepend_escaped c, ?_, ?_⟩
      · rw [Pieces.join_prepend, joins]
        rfl
      · rwa [front.escapesNext_prepend_escaped]
  | case3 rest closes =>
      refine ⟨⟨[], []⟩, _, ⟨.nil, nofun⟩, rfl, .inr ⟨not_escapesNext_nil, rest, rfl, ?_⟩⟩
      rintro source after rfl balanced
      rw [closeHole?_eq_some.2 ⟨rfl, balanced⟩] at closes
      cases closes
  | case4 rest source after closes ih =>
      obtain ⟨rfl, balanced⟩ := closeHole?_eq_some.1 closes
      obtain ⟨front, stop, sound, joins, ends⟩ := ih
      refine ⟨_, stop, sound.cons balanced, ?_, ends⟩
      rw [Pieces.join_cons, joins]
      simp
  | case5 c rest notEscape notHole ih =>
      by_cases isBackslash : c = '\\'
      · subst isBackslash
        cases rest with
        | nil => exact ⟨⟨[], ['\\']⟩, [], ⟨.backslash, nofun⟩, rfl, .inl rfl⟩
        | cons d rest => exact (notEscape d rest rfl rfl).elim
      · obtain ⟨front, stop, sound, rfl, ends⟩ := ih
        refine ⟨front.prepend [c], stop, sound.prepend_plain isBackslash ?_, ?_, ?_⟩
        · rintro ⟨rfl, starts⟩
          obtain ⟨more, text⟩ := List.head?_eq_some_iff.1 starts
          exact notHole (more ++ stop) rfl (by rw [text]; rfl)
        · rw [Pieces.join_prepend]
          rfl
        · rwa [front.escapesNext_prepend_plain isBackslash]

/-! The pieces as a row -/

def pieceText : List Char × Option (List Char) → List Char
  | (raw, some source) => raw ++ '$' :: '\x7b' :: (source ++ ['\x7d'])
  | (raw, none) => raw

/-- A way to cut a body: texts without holes, and behind each but the last a `${` that is not
escaped, a source that closes its quotes and braces, and the brace that ends the hole. -/
structure Cut (body : List Char) (row : List (List Char × Option (List Char))) : Prop where
  joins : row.flatMap pieceText = body
  onlyLast : ∃ front raw, row = front ++ [(raw, none)] ∧ ∀ piece ∈ front, piece.2.isSome = true
  texts : ∀ piece ∈ row, HoleFree piece.1
  sources : ∀ piece ∈ row, ∀ source, piece.2 = some source →
    ¬EscapesNext piece.1 ∧ Balanced 0 source

namespace Pieces

theorem flatMap_row (found : Pieces) : found.row.flatMap pieceText = found.join := by
  obtain ⟨holes, last⟩ := found
  induction holes with
  | nil => simp [row, pieceText, join]
  | cons first holes ih =>
      have here : (⟨first :: holes, last⟩ : Pieces).row =
          (first.1, some first.2) :: (⟨holes, last⟩ : Pieces).row := rfl
      rw [here, List.flatMap_cons, ih, join_cons]
      simp [pieceText]

theorem cut_row_iff {found : Pieces} {body : List Char} :
    Cut body found.row ↔ found.Sound ∧ found.join = body := by
  constructor
  · intro cut
    refine ⟨⟨cut.texts _ (List.mem_append_right _ List.mem_cons_self), fun piece here => ?_⟩,
      found.flatMap_row ▸ cut.joins⟩
    have inRow : (piece.1, some piece.2) ∈ found.row :=
      List.mem_append_left _ (List.mem_map.2 ⟨piece, here, rfl⟩)
    exact ⟨cut.texts _ inRow, cut.sources _ inRow piece.2 rfl⟩
  · rintro ⟨sound, joins⟩
    refine ⟨found.flatMap_row.trans joins, ⟨_, found.last, rfl, ?_⟩, ?_, ?_⟩
    · intro piece here
      obtain ⟨hole, -, rfl⟩ := List.mem_map.1 here
      rfl
    · intro piece here
      rcases List.mem_append.1 here with inHoles | isLast
      · obtain ⟨hole, isHole, rfl⟩ := List.mem_map.1 inHoles
        exact (sound.holes hole isHole).1
      · obtain rfl := List.mem_singleton.1 isLast
        exact sound.last
    · intro piece here source isSource
      rcases List.mem_append.1 here with inHoles | isLast
      · obtain ⟨hole, isHole, rfl⟩ := List.mem_map.1 inHoles
        obtain rfl := Option.some.inj isSource
        exact (sound.holes hole isHole).2
      · obtain rfl := List.mem_singleton.1 isLast
        cases isSource

end Pieces

/-- Only pieces make such a row. -/
theorem Cut.exists_pieces {body : List Char} {row : List (List Char × Option (List Char))}
    (cut : Cut body row) : ∃ found : Pieces, found.row = row := by
  obtain ⟨front, raw, rfl, some⟩ := cut.onlyLast
  refine ⟨⟨front.map fun piece => (piece.1, piece.2.getD []), raw⟩, ?_⟩
  unfold Pieces.row
  rw [List.map_map]
  refine congrArg (· ++ _) ((List.map_congr_left fun piece here => ?_).trans (List.map_id front))
  obtain ⟨source, isSource⟩ := Option.isSome_iff_exists.1 (some piece here)
  obtain ⟨text, hole⟩ := piece
  cases isSource
  rfl

theorem pieces_eq_ok_iff {body : List Char} {found : Pieces} :
    pieces body = .ok found ↔ found.Sound ∧ found.join = body := by
  constructor
  · intro cut
    obtain ⟨front, rest, sound, rfl, rfl | ⟨complete, opens⟩⟩ := exists_front body
    · rw [List.append_nil] at cut ⊢
      rw [pieces_join sound] at cut
      obtain rfl := Except.ok.inj cut
      exact ⟨sound, rfl⟩
    · rw [pieces_join_append sound complete opens] at cut
      cases cut
  · rintro ⟨sound, rfl⟩
    exact pieces_join sound

theorem pieces_eq_error_iff {body rest : List Char} :
    pieces body = .error rest ↔ ∃ front : Pieces, front.Sound ∧ ¬EscapesNext front.last ∧
      body = front.join ++ rest ∧ StartsOpen rest := by
  constructor
  · intro stops
    obtain ⟨front, stop, sound, rfl, rfl | ⟨complete, opens⟩⟩ := exists_front body
    · rw [List.append_nil, pieces_join sound] at stops
      cases stops
    · rw [pieces_join_append sound complete opens] at stops
      obtain rfl := Except.error.inj stops
      exact ⟨front, sound, complete, rfl, opens⟩
  · rintro ⟨front, sound, complete, rfl, opens⟩
    exact pieces_join_append sound complete opens

/-- A body begins with pieces and goes on, at `rest`, with a hole that is never closed. -/
def Unclosed (body rest : List Char) : Prop :=
  ∃ front row raw, Cut front (row ++ [(raw, none)]) ∧ ¬EscapesNext raw ∧ body = front ++ rest ∧
    StartsOpen rest

theorem unclosed_iff {body rest : List Char} :
    Unclosed body rest ↔ ∃ front : Pieces, front.Sound ∧ ¬EscapesNext front.last ∧
      body = front.join ++ rest ∧ StartsOpen rest := by
  constructor
  · rintro ⟨front, row, raw, cut, complete, joins, opens⟩
    obtain ⟨found, isRow⟩ := cut.exists_pieces
    rw [← isRow] at cut
    obtain ⟨sound, rfl⟩ := Pieces.cut_row_iff.1 cut
    obtain ⟨-, last⟩ := List.append_inj' isRow rfl
    obtain rfl : found.last = raw := congrArg Prod.fst (List.head_eq_of_cons_eq last)
    exact ⟨found, sound, complete, joins, opens⟩
  · rintro ⟨found, sound, complete, joins, opens⟩
    exact ⟨_, _, found.last, Pieces.cut_row_iff.2 ⟨sound, rfl⟩, complete, joins, opens⟩

/--
A body is cut into the one row of pieces that is a cut of it. If it has none, a hole is never
closed: then the template is refused, with the body from that hole on.
-/
theorem cut_of_body (body : List Char) :
    (∀ row, (pieces body).map Pieces.row = .ok row ↔ Cut body row) ∧
      (∀ rest, pieces body = .error rest ↔ Unclosed body rest) ∧
      ((∃ row, Cut body row) ∨ ∃ rest, Unclosed body rest ∧
        ∀ hole position, templateParts hole body position = .error (.openHole rest position)) := by
  have cutIff (row : List (List Char × Option (List Char))) :
      (pieces body).map Pieces.row = .ok row ↔ Cut body row := by
    constructor
    · intro isRow
      obtain ⟨found, cut, rfl⟩ := ok_of_map isRow
      exact Pieces.cut_row_iff.2 (pieces_eq_ok_iff.1 cut)
    · intro cut
      obtain ⟨found, rfl⟩ := cut.exists_pieces
      rw [pieces_eq_ok_iff.2 (Pieces.cut_row_iff.1 cut)]
      rfl
  refine ⟨cutIff, fun rest => pieces_eq_error_iff.trans unclosed_iff.symm, ?_⟩
  cases cut : pieces body with
  | ok found => exact .inl ⟨found.row, (cutIff _).1 (by rw [cut]; rfl)⟩
  | error rest =>
      refine .inr ⟨rest, unclosed_iff.2 (pieces_eq_error_iff.1 cut), fun hole position => ?_⟩
      unfold templateParts
      rw [cut]
      rfl

end SheetScript.Script
