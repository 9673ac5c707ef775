import SheetScript.Proofs.Css.Tokens

/-!
Texts put into a style sheet in front of names that can begin a declaration. The tokens of the whole
are the old ones with those of each text between them.
-/

namespace SheetScript.Css

open SheetScript.Text

namespace Token

def isIdent : Token → Bool
  | .leaf (.ident _) => true
  | _ => false

/-- Whether a declaration can begin behind a token, given whether one could before it. -/
def freshAfter (fresh : Bool) (token : Token) : Bool :=
  token.isStop || token.isGap && fresh

end Token

/-- A text that can stand in front of a declaration and is read there as it is by itself. -/
structure Chunk (text : List Char) : Prop where
  dark : startsDark text = true
  notEmpty : text ≠ []
  apart : ∀ rest, startsDark rest = true → tokens (text ++ rest) = tokens text ++ tokens rest

section

-- The text to put in front of the token at an offset.
variable (put : Nat → List Char)

def putAt (fresh : Bool) (offset : Nat) (token : Token) : List Char :=
  if fresh && token.isIdent then put offset else []

def putText : Bool → Nat → List Scanned → List Char
  | _, _, [] => []
  | fresh, offset, scanned :: later =>
    putAt put fresh offset scanned.token ++ (scanned.text ++
      putText (scanned.token.freshAfter fresh) (offset + scanned.text.length) later)

def putTokens : Bool → Nat → List Scanned → List Scanned
  | _, _, [] => []
  | fresh, offset, scanned :: later =>
    tokens (putAt put fresh offset scanned.token) ++ scanned ::
      putTokens (scanned.token.freshAfter fresh) (offset + scanned.text.length) later

end

variable {put : Nat → List Char}

theorem putAt_false (offset : Nat) (token : Token) : putAt put false offset token = [] := rfl

/-- Behind a token that is no gap nothing is put in before the next stop. -/
theorem putText_false (put : Nat → List Char) {scanned : List Scanned} (offset : Nat)
    (read : tokens (scanned.flatMap Scanned.text) = scanned) :
    putText put false offset scanned = scanned.flatMap Scanned.text ∨
      ∃ before c rest other, isStop c = true ∧
        scanned.flatMap Scanned.text = before ++ c :: rest ∧
        putText put false offset scanned = before ++ c :: other := by
  induction scanned generalizing offset with
  | nil => exact .inl rfl
  | cons first later ih =>
      obtain ⟨c, more, found, -, readLater⟩ := found_of_tokens read
      have whole : (first :: later).flatMap Scanned.text =
          first.text ++ later.flatMap Scanned.text := List.flatMap_cons
      unfold putText
      rw [whole, putAt_false, List.nil_append]
      -- Nothing is put in up to the first stop, and from there on anything may be.
      cases stop : first.token.isStop with
      | true =>
          obtain ⟨isChar, rfl⟩ := found.stop stop
          right
          rw [found.text]
          exact ⟨[], c, _, _, isChar, rfl, rfl⟩
      | false =>
          have stays : first.token.freshAfter false = false := by
            simp [Token.freshAfter, stop]
          rw [stays]
          rcases ih (offset + first.text.length) readLater with same | split
          · left
            rw [same]
          · obtain ⟨before, stopChar, rest, other, isChar, inText, inPut⟩ := split
            right
            refine ⟨first.text ++ before, stopChar, rest, other, isChar, ?_, ?_⟩
            · rw [inText, List.append_assoc]
            · rw [inPut, List.append_assoc]

theorem startsDark_append {front rest : List Char} (notEmpty : front ≠ []) :
    startsDark (front ++ rest) = startsDark front := by
  obtain ⟨first, more, rfl⟩ := List.exists_cons_of_ne_nil notEmpty
  rfl

/-- A text put in does not lengthen a blank before it. -/
theorem startsDark_putText (chunks : ∀ offset, put offset ≠ [] → Chunk (put offset)) (fresh : Bool)
    (offset : Nat) {scanned : List Scanned}
    (read : tokens (scanned.flatMap Scanned.text) = scanned)
    (dark : startsDark (scanned.flatMap Scanned.text) = true) :
    startsDark (putText put fresh offset scanned) = true := by
  cases scanned with
  | nil => rfl
  | cons first later =>
      obtain ⟨c, more, found, -, -⟩ := found_of_tokens read
      have notEmpty : first.text ≠ [] := by
        rw [found.text]
        exact List.cons_ne_nil _ _
      rw [List.flatMap_cons, startsDark_append notEmpty] at dark
      unfold putText
      by_cases nothing : putAt put fresh offset first.token = []
      · rw [nothing, List.nil_append, startsDark_append notEmpty, dark]
      · rw [startsDark_append nothing]
        unfold putAt at nothing ⊢
        split at nothing
        · rename_i here
          rw [if_pos here]
          exact (chunks offset nothing).dark
        · exact absurd rfl nothing

/-- A token is read before the texts put in behind it as it was before. -/
theorem tokens_before_putText (chunks : ∀ offset, put offset ≠ [] → Chunk (put offset))
    {scanned : Scanned} {later : List Scanned} (fresh : Bool) (offset : Nat)
    (read : tokens (scanned.text ++ later.flatMap Scanned.text) = scanned :: later) :
    tokens (scanned.text ++ putText put (scanned.token.freshAfter fresh) offset later) =
      scanned :: tokens (putText put (scanned.token.freshAfter fresh) offset later) := by
  obtain ⟨c, more, found, -, readLater⟩ := found_of_tokens read
  rw [found.text, List.cons_append]
  cases stop : scanned.token.isStop with
  | true => exact found.tokens_of_stop stop _
  | false =>
      cases gap : scanned.token.isGap with
      | true =>
          rw [← found.token] at gap
          rcases blank_or_comment_of_isGap gap with blank | ⟨inside, slash, star⟩
          · exact found.tokens_of_blank blank
              (startsDark_putText chunks _ _ readLater (found.dark_of_blank blank))
          · refine found.tokens_of_comment slash star fun empty => ?_
            rw [empty, tokens_nil] at readLater
            rw [← readLater]
            rfl
      | false =>
          have stays : scanned.token.freshAfter fresh = false := by
            simp [Token.freshAfter, stop, gap]
          rw [stays]
          -- The token ends before the stop, so what is put in behind the stop makes no difference.
          rcases putText_false put offset readLater with same | split
          · rw [same, found.tokens, readLater]
          · obtain ⟨before, stopChar, rest, other, isChar, inText, inPut⟩ := split
            have exact := found.exact
            have eq := found.eq
            rw [inText] at exact eq
            have exact := exact.resolve_left (by simp)
            have whole (rest : List Char) : more ++ (before ++ stopChar :: rest) =
                more ++ before ++ stopChar :: rest := (List.append_assoc _ _ _).symm
            have within : (scan c (more ++ before ++ stopChar :: rest)).2 ≤
                (more ++ before).length + 1 := by
              rw [← whole, List.length_append]
              omega
            have same := scan_stop isChar c other within
            rw [← whole, ← whole] at same
            rw [inPut, tokens_of_same_scan same exact, ← eq]

theorem tokens_putText (chunks : ∀ offset, put offset ≠ [] → Chunk (put offset))
    {scanned : List Scanned} (fresh : Bool) (offset : Nat)
    (read : tokens (scanned.flatMap Scanned.text) = scanned) :
    tokens (putText put fresh offset scanned) = putTokens put fresh offset scanned := by
  induction scanned generalizing fresh offset with
  | nil => exact tokens_nil
  | cons first later ih =>
      obtain ⟨c, more, found, -, readLater⟩ := found_of_tokens read
      rw [List.flatMap_cons] at read
      have onward := tokens_before_putText chunks fresh (offset + first.text.length) read
      have behind := ih (first.token.freshAfter fresh) (offset + first.text.length) readLater
      unfold putText putTokens
      rw [← behind, ← onward]
      by_cases nothing : putAt put fresh offset first.token = []
      · rw [nothing, tokens_nil]
        rfl
      · -- Something is put in only before a name, which is dark, so the two are read apart.
        have here : (fresh && first.token.isIdent) = true := by
          unfold putAt at nothing
          split at nothing
          · assumption
          · exact absurd rfl nothing
        have atOffset : putAt put fresh offset first.token = put offset := if_pos here
        have isIdent : first.token.isIdent = true := (Bool.and_eq_true_iff.1 here).2
        have notBlank : ∀ text, first.token ≠ .leaf (.blank text) := by
          intro text same
          rw [same] at isIdent
          cases isIdent
        have dark := found.dark_of_not_blank notBlank
        rw [atOffset] at nothing ⊢
        refine (chunks offset nothing).apart _ ?_
        rw [found.text]
        simp [startsDark, dark]

end SheetScript.Css
