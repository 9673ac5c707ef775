import Mathlib.Data.List.Infix
import SheetScript.Document.Segment

/-!
Documents and their partitions into literal text and scripts. A document has exactly one partition
whose markers stand where they are read, and it is the one that cutting finds.
-/

namespace SheetScript.Document

/-! The first place of a marker -/

theorem not_infix_of_cut? {first second : Char} {text before after : List Char}
    (found : cut? first second text = some (before, after)) : ¬[first, second] <:+: before := by
  fun_induction cut? first second text generalizing before with
  | case1 a b rest isMarker =>
      obtain ⟨rfl, -⟩ := Prod.mk.inj (Option.some.inj found)
      simp
  | case2 a b rest notMarker ih =>
      obtain ⟨⟨inside, left⟩, inRest, same⟩ := Option.map_eq_some_iff.1 found
      obtain ⟨rfl, rfl⟩ := Prod.mk.inj same
      intro marker
      rcases List.infix_cons_iff.1 marker with starts | behind
      · have whole := eq_append_of_cut? inRest
        cases inside with
        | nil => simp at starts
        | cons c inside =>
            obtain ⟨rfl, -⟩ := List.cons.inj whole
            simp only [List.cons_prefix_cons, List.nil_prefix, and_true] at starts
            exact notMarker ⟨starts.1.symm, starts.2.symm⟩
      · exact ih inRest behind
  | case3 => simp at found

theorem cut?_append {first second : Char} (different : first ≠ second) {before : List Char}
    (free : ¬[first, second] <:+: before) (after : List Char) :
    cut? first second (before ++ first :: second :: after) = some (before, after) := by
  induction before with
  | nil => simp [cut?]
  | cons a before ih =>
      have later := ih fun behind => free (List.infix_cons behind)
      cases before with
      | nil =>
          have notHere : ¬(a = first ∧ first = second) := fun both => different both.2
          simp [cut?, notHere]
      | cons b before =>
          have notHere : ¬(a = first ∧ b = second) := by
            rintro ⟨rfl, rfl⟩
            exact free ⟨[], before, rfl⟩
          simp only [List.cons_append] at later
          simp [cut?, notHere, later]

theorem not_infix_of_cut?_none {first second : Char} {text : List Char}
    (none : cut? first second text = none) : ¬[first, second] <:+: text := by
  fun_induction cut? first second text with
  | case1 a b rest isMarker => simp at none
  | case2 a b rest notMarker ih =>
      intro marker
      rcases List.infix_cons_iff.1 marker with starts | behind
      · simp only [List.cons_prefix_cons, List.nil_prefix, and_true] at starts
        exact notMarker ⟨starts.1.symm, starts.2.symm⟩
      · exact ih (Option.map_eq_none_iff.1 none) behind
  | case3 text short =>
      intro marker
      have long := marker.length_le
      rcases text with _ | ⟨a, _ | ⟨b, rest⟩⟩
      · simp at long
      · simp at long
      · exact short a b rest rfl

/-- Whatever stands behind a marker stands behind its first place. -/
theorem suffix_of_cut? {first second : Char} {text literal body : List Char}
    (found : cut? first second text = some (literal, body)) {before tail : List Char}
    (marker : text = before ++ first :: second :: tail) : tail <:+ body := by
  fun_induction cut? first second text generalizing literal before with
  | case1 a b rest isMarker =>
      obtain ⟨-, rfl⟩ := Prod.mk.inj (Option.some.inj found)
      rcases before with _ | ⟨c, _ | ⟨d, before⟩⟩
      · obtain ⟨-, -, rfl⟩ : a = first ∧ b = second ∧ rest = tail := by simpa using marker
        exact List.suffix_rfl
      · obtain ⟨-, -, rfl⟩ : a = c ∧ b = first ∧ rest = second :: tail := by simpa using marker
        exact List.suffix_cons _ _
      · obtain ⟨-, -, rfl⟩ : a = c ∧ b = d ∧ rest = before ++ first :: second :: tail := by
          simpa using marker
        exact ⟨before ++ [first, second], by simp⟩
  | case2 a b rest notMarker ih =>
      obtain ⟨⟨inside, left⟩, inRest, same⟩ := Option.map_eq_some_iff.1 found
      obtain ⟨-, rfl⟩ := Prod.mk.inj same
      cases before with
      | nil =>
          obtain ⟨rfl, rfl, -⟩ : a = first ∧ b = second ∧ rest = tail := by simpa using marker
          exact absurd ⟨rfl, rfl⟩ notMarker
      | cons c before => exact ih inRest (List.cons.inj marker).2
  | case3 => simp at found

/-! The texts of a document, literal and script in turn -/

def opening : List Char := ['<', '@']

def closing : List Char := ['@', '>']

/-- A text in which a script begins and ends. -/
def HoldsScript (text : List Char) : Prop :=
  ∃ before body after, text = before ++ opening ++ body ++ closing ++ after

/-- Texts whose markers can only be read as the borders between them. -/
def WellCut : List (List Char) → Prop
  | [] => False
  | [last] => ¬HoldsScript last
  | literal :: script :: rest => ¬opening <:+: literal ∧ ¬closing <:+: script ∧ WellCut rest

def joined : List (List Char) → List Char
  | [] => []
  | [last] => last
  | literal :: script :: rest => literal ++ opening ++ script ++ closing ++ joined rest

theorem not_holdsScript_of_cut?_none {text : List Char} (none : cut? '<' '@' text = none) :
    ¬HoldsScript text := by
  rintro ⟨before, body, after, rfl⟩
  exact not_infix_of_cut?_none none ⟨before, body ++ closing ++ after, by simp [opening]⟩

theorem pieces_of_not_holdsScript {text : List Char} (free : ¬HoldsScript text) :
    pieces text = [text] := by
  rw [pieces]
  split
  · rfl
  · rename_i literal body opened
    split
    · rfl
    · rename_i script rest closed
      refine absurd ⟨literal, script, rest, ?_⟩ free
      rw [eq_append_of_cut? opened, eq_append_of_cut? closed]
      simp [opening, closing]

theorem pieces_append {literal script : List Char} (literalFree : ¬opening <:+: literal)
    (scriptFree : ¬closing <:+: script) (rest : List Char) :
    pieces (literal ++ opening ++ script ++ closing ++ rest) =
      literal :: script :: pieces rest := by
  have opened : cut? '<' '@' (literal ++ opening ++ script ++ closing ++ rest) =
      some (literal, script ++ closing ++ rest) := by
    simpa [opening] using cut?_append (by decide) literalFree (script ++ closing ++ rest)
  have closed : cut? '@' '>' (script ++ closing ++ rest) = some (script, rest) := by
    simpa [closing] using cut?_append (by decide) scriptFree rest
  rw [pieces]
  split
  next none => rw [opened] at none; cases none
  next foundLiteral body foundOpening =>
    rw [opened] at foundOpening
    obtain ⟨rfl, rfl⟩ := Prod.mk.inj (Option.some.inj foundOpening)
    split
    next none => rw [closed] at none; cases none
    next foundScript left foundClosing =>
      rw [closed] at foundClosing
      obtain ⟨rfl, rfl⟩ := Prod.mk.inj (Option.some.inj foundClosing)
      rfl

theorem wellCut_pieces (text : List Char) : WellCut (pieces text) ∧ joined (pieces text) = text := by
  fun_induction pieces text with
  | case1 text unopened => exact ⟨not_holdsScript_of_cut?_none unopened, rfl⟩
  | case2 text literal body opened unclosed =>
      refine ⟨?_, rfl⟩
      rintro ⟨before, inside, after, whole⟩
      have marker : text = before ++ '<' :: '@' :: (inside ++ closing ++ after) := by
        simpa [opening] using whole
      have behind := suffix_of_cut? opened marker
      exact not_infix_of_cut?_none unclosed
        (List.IsInfix.trans ⟨inside, after, rfl⟩ behind.isInfix)
  | case3 text literal body opened script rest closed ih =>
      refine ⟨⟨not_infix_of_cut? opened, not_infix_of_cut? closed, ih.1⟩, ?_⟩
      rw [joined, ih.2, eq_append_of_cut? opened, eq_append_of_cut? closed]
      simp [opening, closing]

theorem pieces_joined {texts : List (List Char)} (wellCut : WellCut texts) :
    pieces (joined texts) = texts := by
  fun_induction WellCut texts with
  | case1 => exact absurd wellCut not_false
  | case2 last => exact pieces_of_not_holdsScript wellCut
  | case3 literal script rest ih =>
      obtain ⟨literalFree, scriptFree, restCut⟩ := wellCut
      rw [joined, pieces_append literalFree scriptFree, ih restCut]

/-! Segments -/

def segmentsFrom (index : Nat) : List (List Char) → List Segment
  | [] => []
  | text :: rest => segmentAt text index :: segmentsFrom (index + 1) rest

theorem segmentsFrom_eq (index : Nat) (texts : List (List Char)) :
    texts.mapIdx (fun place text => segmentAt text (index + place)) = segmentsFrom index texts := by
  induction texts generalizing index with
  | nil => rfl
  | cons text rest ih =>
      rw [List.mapIdx_cons, segmentsFrom, ← ih (index + 1)]
      simp [Nat.add_assoc, Nat.add_comm 1]

theorem split_eq_segmentsFrom (document : String) :
    split document = segmentsFrom 0 (pieces document.toList) := by
  rw [← segmentsFrom_eq]
  simp [split]

section

variable {index : Nat} (even : index % 2 = 0)

include even

theorem flatMap_segmentsFrom {texts : List (List Char)} (wellCut : WellCut texts) :
    (segmentsFrom index texts).flatMap (fun segment =>
      if segment.isScript then '<' :: '@' :: segment.text.toList ++ ['@', '>']
      else segment.text.toList) = joined texts := by
  fun_induction joined texts generalizing index with
  | case1 => rfl
  | case2 last => simp [segmentsFrom, segmentAt, Segment.isScript, even]
  | case3 literal script rest ih =>
      have odd : (index + 1) % 2 = 1 := by omega
      have next : (index + 1 + 1) % 2 = 0 := by omega
      rw [segmentsFrom, segmentsFrom, List.flatMap_cons, List.flatMap_cons, ih next wellCut.2.2]
      simp [segmentAt, Segment.isScript, even, odd, opening, closing]

end

/-- Segments whose markers only stand where scripts begin and end. -/
structure MarkersApart (segments : List Segment) : Prop where
  odd : segments.length % 2 = 1
  script : ∀ segment ∈ segments, segment.kind = .script → ¬closing <:+: segment.text.toList
  literal : ∀ segment ∈ segments.dropLast, segment.kind = .literal →
    ¬opening <:+: segment.text.toList
  last : ∀ segment ∈ segments.getLast?, ¬HoldsScript segment.text.toList

/-- Literal segments and scripts in turn, numbered by their places. -/
def Placed (segments : List Segment) : Prop :=
  ∀ index, (within : index < segments.length) → segments[index].index = index ∧
    segments[index].kind = if index % 2 = 0 then .literal else .script

theorem markersApart_cons {first second : Segment} (isLiteral : first.kind = .literal)
    (isScript : second.kind = .script) (rest : List Segment) :
    MarkersApart (first :: second :: rest) ↔ ¬opening <:+: first.text.toList ∧
      ¬closing <:+: second.text.toList ∧ MarkersApart rest := by
  -- A literal and a script in front change neither the parity nor which segment is the last.
  have parity : (first :: second :: rest).length % 2 = rest.length % 2 := by
    simp only [List.length_cons]
    omega
  constructor
  · intro apart
    have some : rest ≠ [] := by
      rintro rfl
      have odd := apart.odd
      simp at odd
    have front : (first :: second :: rest).dropLast = first :: second :: rest.dropLast := by
      rw [List.dropLast_cons_of_ne_nil (by simp), List.dropLast_cons_of_ne_nil some]
    have literal := apart.literal
    rw [front] at literal
    refine ⟨literal first (by simp) isLiteral, apart.script second (by simp) isScript, ?_⟩
    refine ⟨parity ▸ apart.odd, fun segment here => apart.script segment (by simp [here]),
      fun segment here => literal segment (by simp [here]), fun segment isLast => ?_⟩
    refine apart.last segment ?_
    rw [List.getLast?_cons_of_ne_nil (by simp), List.getLast?_cons_of_ne_nil some]
    exact isLast
  · rintro ⟨literalFree, scriptFree, apart⟩
    have some : rest ≠ [] := by
      rintro rfl
      cases apart.odd
    refine ⟨parity ▸ apart.odd, ?_, ?_, ?_⟩
    · simp only [List.mem_cons, forall_eq_or_imp]
      exact ⟨by simp [isLiteral], fun _ => scriptFree, apart.script⟩
    · rw [List.dropLast_cons_of_ne_nil (by simp), List.dropLast_cons_of_ne_nil some]
      simp only [List.mem_cons, forall_eq_or_imp]
      exact ⟨fun _ => literalFree, by simp [isScript], apart.literal⟩
    · rw [List.getLast?_cons_of_ne_nil (by simp), List.getLast?_cons_of_ne_nil some]
      exact apart.last

theorem markersApart_segmentsFrom {index : Nat} (even : index % 2 = 0) (texts : List (List Char)) :
    MarkersApart (segmentsFrom index texts) ↔ WellCut texts := by
  fun_induction WellCut texts generalizing index with
  | case1 =>
      constructor
      · intro apart
        cases apart.odd
      · exact False.elim
  | case2 last =>
      constructor
      · intro apart
        simpa [segmentAt] using apart.last (segmentAt last index) rfl
      · intro free
        refine ⟨rfl, ?_, ?_, ?_⟩
        · simp [segmentsFrom, segmentAt, even]
        · simp [segmentsFrom]
        · simpa [segmentsFrom, segmentAt] using free
  | case3 literal script rest ih =>
      have odd : (index + 1) % 2 = 1 := by omega
      have next : (index + 1 + 1) % 2 = 0 := by omega
      rw [← ih next, segmentsFrom, segmentsFrom, markersApart_cons (by simp [segmentAt, even])
        (by simp [segmentAt, odd])]
      simp [segmentAt]

theorem placed_segmentsFrom (texts : List (List Char)) : Placed (segmentsFrom 0 texts) := by
  rw [← segmentsFrom_eq]
  intro index within
  simp [segmentAt]

theorem Placed.eq_segmentsFrom {segments : List Segment} (placed : Placed segments) :
    segments = segmentsFrom 0 (segments.map fun segment => segment.text.toList) := by
  rw [← segmentsFrom_eq]
  apply List.ext_getElem
  · simp
  · intro index within _
    obtain ⟨isIndex, isKind⟩ := placed index within
    simp only [List.getElem_mapIdx, List.getElem_map, segmentAt, Nat.zero_add, String.ofList_toList]
    rw [← isKind]
    exact congrArg (fun place => ({ segments[index] with index := place } : Segment)) isIndex

/-- Segments are a partition of the document that they join to. -/
structure Partition (segments : List Segment) : Prop where
  placed : Placed segments
  apart : MarkersApart segments

theorem partition_iff {segments : List Segment} :
    Partition segments ↔ ∃ texts, WellCut texts ∧ segments = segmentsFrom 0 texts := by
  constructor
  · rintro ⟨placed, apart⟩
    have same := placed.eq_segmentsFrom
    refine ⟨_, ?_, same⟩
    rw [same] at apart
    exact (markersApart_segmentsFrom rfl _).1 apart
  · rintro ⟨texts, wellCut, rfl⟩
    exact ⟨placed_segmentsFrom texts, (markersApart_segmentsFrom rfl texts).2 wellCut⟩

/--
The segments of a document are the one list of numbered literals and scripts, in turn, that joins to
the document and has no marker where it would be read as a border.
-/
theorem split_eq_iff {document : String} {segments : List Segment} :
    split document = segments ↔ Partition segments ∧ join segments = document := by
  rw [partition_iff, split_eq_segmentsFrom]
  constructor
  · rintro rfl
    obtain ⟨wellCut, whole⟩ := wellCut_pieces document.toList
    refine ⟨⟨_, wellCut, rfl⟩, ?_⟩
    rw [join, flatMap_segmentsFrom rfl wellCut, whole, String.ofList_toList]
  · rintro ⟨⟨texts, wellCut, rfl⟩, rfl⟩
    rw [join, flatMap_segmentsFrom rfl wellCut, String.toList_ofList, pieces_joined wellCut]

end SheetScript.Document
