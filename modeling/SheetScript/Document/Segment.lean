/-!
Documents: literal style text with script blocks between `<@` and `@>`.

A document is cut into an odd number of segments, literal ones at the even places and scripts at the
odd ones. The first `@>` after a `<@` ends the script, and an opening marker that is never closed
is literal text.
-/

namespace SheetScript.Document

inductive SegmentKind
  | literal
  | script
  deriving DecidableEq, Repr

structure Segment where
  kind : SegmentKind
  index : Nat
  text : String
  deriving DecidableEq, Repr

namespace Segment

def isScript (segment : Segment) : Bool :=
  segment.kind = .script

def scriptNumber (segment : Segment) : Nat :=
  (segment.index + 1) / 2

end Segment

/-- The text before and after the first place where `first` is followed by `second`. -/
def cut? (first second : Char) : List Char → Option (List Char × List Char)
  | a :: b :: rest =>
    if a = first ∧ b = second then some ([], rest)
    else (cut? first second (b :: rest)).map fun (before, after) => (a :: before, after)
  | _ => none

theorem eq_append_of_cut? {first second : Char} {text before after : List Char}
    (found : cut? first second text = some (before, after)) :
    text = before ++ first :: second :: after := by
  fun_induction cut? first second text generalizing before with
  | case1 a b rest isMarker =>
    obtain ⟨rfl, rfl⟩ := isMarker
    simp_all
  | case2 a b rest notMarker ih =>
    obtain ⟨pair, inRest, same⟩ := Option.map_eq_some_iff.1 found
    obtain ⟨rfl, rfl⟩ := Prod.mk.inj same
    simp [ih inRest]
  | case3 => simp at found

theorem length_cut? {first second : Char} {text before after : List Char}
    (found : cut? first second text = some (before, after)) : after.length < text.length := by
  rw [eq_append_of_cut? found]
  simp
  omega

def pieces (text : List Char) : List (List Char) :=
  match _opened : cut? '<' '@' text with
  | none => [text]
  | some (literal, body) =>
    match _closed : cut? '@' '>' body with
    | none => [text]
    | some (script, rest) => literal :: script :: pieces rest
termination_by text.length
decreasing_by
  have := length_cut? _opened
  have := length_cut? _closed
  omega

/-- The segment with the given text at a place: literal if the place is even. -/
def segmentAt (text : List Char) (index : Nat) : Segment :=
  ⟨if index % 2 = 0 then .literal else .script, index, String.ofList text⟩

def split (document : String) : List Segment :=
  (pieces document.toList).mapIdx fun index text => segmentAt text index

def join (segments : List Segment) : String :=
  String.ofList <| segments.flatMap fun segment =>
    if segment.isScript then '<' :: '@' :: segment.text.toList ++ ['@', '>']
    else segment.text.toList

end SheetScript.Document
