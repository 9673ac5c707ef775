import SheetScript.Text.Hexadecimal

/-! Escapes of quoted texts, and the pieces of a template body. -/

namespace SheetScript.Script

open SheetScript.Text

/-- What a backslash and a character stand for; an escaped line end stands for nothing. -/
def escapeValue (c : Char) : List Char :=
  match c with
  | 'n' => ['\n']
  | 't' => ['\t']
  | 'r' => ['\r']
  | 'b' => ['\x08']
  | 'f' => ['\x0c']
  | 'v' => ['\x0b']
  | '0' => ['\x00']
  | '\n' => []
  | c => [c]

def unescape : List Char → List Char
  | '\\' :: 'u' :: a :: b :: c :: d :: rest =>
    match hexUnit? a b c d with
    | some unit => unitChar unit :: unescape rest
    | none => 'u' :: unescape (a :: b :: c :: d :: rest)
  | '\\' :: c :: rest => escapeValue c ++ unescape rest
  | c :: rest => c :: unescape rest
  | [] => []

/--
The source of a hole up to the brace that closes it, and what follows. Braces inside nest, and
those between quotes do not count; `quote` is the quote that is open.
-/
def closeHole? (depth : Nat) (quote : Option Char) : List Char → Option (List Char × List Char)
  | [] => none
  | c :: rest =>
    match quote with
    | some q =>
      if c == '\\' then
        match rest with
        | [] => none
        | escaped :: rest =>
          (closeHole? depth quote rest).map fun (source, after) => (c :: escaped :: source, after)
      else
        (closeHole? depth (if c == q then none else quote) rest).map fun (source, after) =>
          (c :: source, after)
    | none =>
      if c == '\x7d' && depth == 0 then some ([], rest)
      else
        let depth := if c == '\x7b' then depth + 1 else if c == '\x7d' then depth - 1 else depth
        let quote := if c == '\'' || c == '"' then some c else none
        (closeHole? depth quote rest).map fun (source, after) => (c :: source, after)

theorem eq_append_of_closeHole? {depth : Nat} {quote : Option Char}
    {text source after : List Char} (found : closeHole? depth quote text = some (source, after)) :
    text = source ++ '\x7d' :: after := by
  fun_induction closeHole? depth quote text generalizing source <;>
    grind [Option.map_eq_some_iff]

/-- A template body: texts and the sources of the holes after them, then a last text. -/
structure Pieces where
  holes : List (List Char × List Char)
  last : List Char
  deriving DecidableEq, Repr

namespace Pieces

def join (pieces : Pieces) : List Char :=
  pieces.holes.flatMap (fun (text, source) => text ++ '$' :: '\x7b' :: source ++ ['\x7d']) ++
    pieces.last

def prepend (text : List Char) : Pieces → Pieces
  | ⟨[], last⟩ => ⟨[], text ++ last⟩
  | ⟨(first, source) :: rest, last⟩ => ⟨(text ++ first, source) :: rest, last⟩

theorem join_prepend (text : List Char) (pieces : Pieces) :
    (pieces.prepend text).join = text ++ pieces.join := by
  obtain ⟨holes, last⟩ := pieces
  cases holes <;> simp [prepend, join]

end Pieces

/--
Cuts a template body at its holes. An escaped dollar sign opens none. If a hole is never closed, the
answer is the body from its dollar sign on.
-/
def pieces : List Char → Except (List Char) Pieces
  | [] => .ok ⟨[], []⟩
  | '\\' :: c :: rest => (pieces rest).map (·.prepend ['\\', c])
  | '$' :: '\x7b' :: rest =>
    match _closed : closeHole? 0 none rest with
    | none => .error ('$' :: '\x7b' :: rest)
    | some (source, after) =>
      (pieces after).map fun found => ⟨([], source) :: found.holes, found.last⟩
  | c :: rest => (pieces rest).map (·.prepend [c])
termination_by body => body.length
decreasing_by
  · simp only [List.length_cons]; omega
  · have := congrArg List.length (eq_append_of_closeHole? _closed)
    simp at this ⊢
    omega
  · simp only [List.length_cons]; omega

end SheetScript.Script
