import SheetScript.Proofs.Script.Holes

/-!
Where a hole ends. A text is balanced if its quotes are closed and the braces outside them match;
the first closing brace behind such a text is the one that ends a hole.
-/

namespace SheetScript.Script

/-- A text that closes its quotes, and whose braces match but for `depth` closing ones left over. -/
inductive Balanced : Nat → List Char → Prop
  | nil : Balanced 0 []
  | plain {depth : Nat} {c : Char} {rest : List Char} (inert : isInert c = true)
    (behind : Balanced depth rest) : Balanced depth (c :: rest)
  | quoted {depth : Nat} {quote : Char} {body rest : List Char}
    (isQuote : quote = '\'' ∨ quote = '"') (isBody : Quotation quote body)
    (behind : Balanced depth rest) : Balanced depth (quote :: (body ++ quote :: rest))
  | opened {depth : Nat} {rest : List Char} (behind : Balanced (depth + 1) rest) :
    Balanced depth ('\x7b' :: rest)
  | closed {depth : Nat} {rest : List Char} (behind : Balanced depth rest) :
    Balanced (depth + 1) ('\x7d' :: rest)

namespace Balanced

theorem append {front rest : List Char} {one two : Nat} (here : Balanced one front)
    (behind : Balanced two rest) : Balanced (one + two) (front ++ rest) := by
  induction here with
  | nil => rwa [Nat.zero_add]
  | plain inert _ ih => exact .plain inert ih
  | quoted isQuote isBody _ ih =>
      rw [List.cons_append, List.append_assoc, List.cons_append]
      exact .quoted isQuote isBody ih
  | opened _ ih =>
      rw [Nat.add_right_comm] at ih
      exact .opened ih
  | closed _ ih =>
      rw [Nat.add_right_comm]
      exact .closed ih

/-- The braces left over close what is open around the text, and nothing else does. -/
theorem closeHole?_append {depth : Nat} {text : List Char} (balanced : Balanced depth text)
    (around : Nat) (more : List Char) :
    closeHole? (around + depth) none (text ++ more) =
      (closeHole? around none more).map fun found => (text ++ found.1, found.2) := by
  induction balanced with
  | nil =>
      rw [List.nil_append, Nat.add_zero]
      cases closeHole? around none more <;> rfl
  | plain inert _ ih =>
      rw [List.cons_append, closeHole?_inert _ _ inert, ih]
      cases closeHole? around none more <;> rfl
  | quoted isQuote isBody _ ih =>
      rw [List.cons_append, List.append_assoc, List.cons_append, closeHole?_quote _ _ isQuote,
        closeHole?_quotation isQuote isBody, ih]
      cases closeHole? around none more <;> simp
  | opened _ ih =>
      rw [List.cons_append, closeHole?_open, Nat.add_assoc, ih]
      cases closeHole? around none more <;> rfl
  | closed _ ih =>
      rw [List.cons_append, ← Nat.add_assoc, closeHole?_close, ih]
      cases closeHole? around none more <;> rfl

end Balanced

/-! What ends a hole -/

/-- What stands in a hole up to its end, behind an open quote or outside of quotes. -/
def FillsHole (depth : Nat) : Option Char → List Char → Prop
  | none, source => Balanced depth source
  | some quote, source => ∃ body rest, source = body ++ quote :: rest ∧
    Quotation quote body ∧ Balanced depth rest

theorem fillsHole_of_closeHole? {depth : Nat} {quote : Option Char} {text source after : List Char}
    (found : closeHole? depth quote text = some (source, after)) : FillsHole depth quote source := by
  fun_induction closeHole? depth quote text generalizing source with
  | case1 => cases found
  | case2 => cases found
  | case3 depth c quote isBackslash escaped rest ih =>
      obtain ⟨⟨inner, behind⟩, atRest, same⟩ := Option.map_eq_some_iff.1 found
      obtain ⟨rfl, rfl⟩ := Prod.mk.inj same
      obtain ⟨body, left, rfl, isBody, balanced⟩ := ih atRest
      rw [beq_iff_eq.1 isBackslash]
      exact ⟨'\\' :: escaped :: body, left, rfl, .escaped escaped isBody, balanced⟩
  | case4 depth c rest quote notBackslash ih =>
      obtain ⟨⟨inner, behind⟩, atRest, same⟩ := Option.map_eq_some_iff.1 found
      obtain ⟨rfl, rfl⟩ := Prod.mk.inj same
      have filled := ih atRest
      -- Behind the quote that ends the quotation, the rest is outside of quotes again.
      by_cases isEnd : c = quote
      · subst isEnd
        rw [beq_self_eq_true, if_pos rfl] at filled
        exact ⟨[], inner, rfl, .nil, filled⟩
      · rw [if_neg (by simpa using isEnd)] at filled
        obtain ⟨body, left, rfl, isBody, balanced⟩ := filled
        exact ⟨c :: body, left, rfl, .plain isEnd (by simpa using notBackslash) isBody, balanced⟩
  | case5 depth c rest ends =>
      obtain ⟨rfl, rfl⟩ := Prod.mk.inj (Option.some.inj found)
      rw [Bool.and_eq_true, beq_iff_eq, beq_iff_eq] at ends
      rw [ends.2]
      exact .nil
  | case6 depth c rest goesOn inside quote =>
      rename_i ih
      obtain ⟨⟨inner, behind⟩, atRest, same⟩ := Option.map_eq_some_iff.1 found
      obtain ⟨rfl, rfl⟩ := Prod.mk.inj same
      have filled := ih atRest
      by_cases isOpen : c = '\x7b'
      · subst isOpen
        exact .opened filled
      by_cases isClose : c = '\x7d'
      · subst isClose
        obtain ⟨outer, rfl⟩ := Nat.exists_eq_succ_of_ne_zero (n := depth) (by simpa using goesOn)
        exact .closed filled
      have sameDepth : inside = depth := by simp [inside, isOpen, isClose]
      by_cases isQuote : c = '\'' ∨ c = '"'
      · have opens : quote = some c := by simp [quote, isQuote]
        rw [opens, sameDepth] at filled
        obtain ⟨body, left, rfl, isBody, balanced⟩ := filled
        exact .quoted isQuote isBody balanced
      · have none : quote = none := by simp [quote, isQuote]
        rw [none, sameDepth] at filled
        exact .plain (by simp_all [isInert]) filled

/-- A hole ends at the brace behind its source if the source is balanced, and only then. -/
theorem closeHole?_eq_some {depth : Nat} {text source after : List Char} :
    closeHole? depth none text = some (source, after) ↔
      text = source ++ '\x7d' :: after ∧ Balanced depth source := by
  constructor
  · intro found
    exact ⟨eq_append_of_closeHole? found, fillsHole_of_closeHole? found⟩
  · rintro ⟨rfl, balanced⟩
    have ends := balanced.closeHole?_append 0 ('\x7d' :: after)
    rw [Nat.zero_add, closeHole?_end] at ends
    simpa using ends

theorem closed_iff_balanced {text : List Char} : Closed text ↔ Balanced 0 text := by
  constructor
  · intro closed
    have ends := closed 0 ['\x7d']
    rw [closeHole?_end] at ends
    exact List.append_nil text ▸ (closeHole?_eq_some.1 ends).2
  · intro balanced depth more
    exact balanced.closeHole?_append depth more

end SheetScript.Script
