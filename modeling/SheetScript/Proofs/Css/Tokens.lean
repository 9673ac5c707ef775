import SheetScript.Proofs.Css.Stop

/-!
Tokens and the texts they come from: which tokens hold a style sheet together, and when a token is
read in front of another text than the one it was found in.
-/

namespace SheetScript.Css

open SheetScript.Text

namespace Token

def isStructural : Token → Bool
  | .comment | .opening _ | .closing _ | .leaf (.blank _) => true
  | .leaf (.mark text) => text == [';']
  | _ => false

end Token

theorem characterRange_not_structural (text : List Char) :
    (Token.leaf (characterRange text).1).isStructural = false := by
  unfold characterRange
  dsimp only
  split
  · rfl
  · split
    · split <;> rfl
    · rfl

theorem nameToken_not_structural (text : List Char) :
    (nameToken text).1.isStructural = false := by
  unfold nameToken
  dsimp only
  split
  · split
    · dsimp only
      split <;> rfl
    · rfl
  · rfl

theorem numberToken_not_structural (text : List Char) (count : Nat) :
    (numberToken text count).1.isStructural = false := by
  unfold numberToken
  dsimp only
  split
  · rfl
  · split <;> rfl

/-- Structural tokens are blanks, or begin with a mark. -/
theorem scan_structural {first : Char} {rest : List Char}
    (structural : (scan first rest).1.isStructural = true) :
    isBlankChar first = true ∨ scan first rest = markToken first rest := by
  unfold scan at structural ⊢
  dsimp only at structural ⊢
  split at structural
  · rename_i blank
    exact .inl blank
  · rename_i notBlank
    right
    rw [if_neg notBlank]
    split at structural
    · rw [characterRange_not_structural] at structural
      cases structural
    · rename_i notRange
      rw [if_neg notRange]
      split at structural
      · cases structural
      · rename_i notClosing
        rw [if_neg notClosing]
        split at structural
        · rw [nameToken_not_structural] at structural
          cases structural
        · rename_i notIdent
          rw [if_neg notIdent]
          split at structural
          · rfl
          · rw [numberToken_not_structural] at structural
            cases structural

theorem scan_blank {first : Char} (rest : List Char) (blank : isBlankChar first = true) :
    scan first rest =
      (.leaf (.blank ((first :: rest).take (runLength isBlankChar (first :: rest)))),
        runLength isBlankChar (first :: rest)) := by
  unfold scan
  dsimp only
  rw [if_pos blank]

theorem ofOpening?_eq_some {c : Char} {bracket : Bracket} :
    Bracket.ofOpening? c = some bracket ↔ c = bracket.opening := by
  constructor
  · intro found
    have same := List.find?_some found
    exact (eq_of_beq same).symm
  · rintro rfl
    cases bracket <;> rfl

theorem ofClosing?_eq_some {c : Char} {bracket : Bracket} :
    Bracket.ofClosing? c = some bracket ↔ c = bracket.closing := by
  constructor
  · intro found
    have same := List.find?_some found
    exact (eq_of_beq same).symm
  · rintro rfl
    cases bracket <;> rfl

inductive StructuralMark (first : Char) (rest : List Char) : Token → Prop
  | comment (more : List Char) (starts : first = '/') (goes : rest = '*' :: more) :
    StructuralMark first rest .comment
  | opening (bracket : Bracket) (starts : first = bracket.opening) :
    StructuralMark first rest (.opening bracket)
  | closing (bracket : Bracket) (starts : first = bracket.closing) :
    StructuralMark first rest (.closing bracket)
  | semicolon (starts : first = ';') : StructuralMark first rest (.leaf (.mark [';']))

theorem matchMark_structural {first : Char} {rest : List Char}
    (structural : (matchMark first rest).1.isStructural = true) :
    first = ';' ∧ (matchMark first rest).1 = .leaf (.mark [';']) := by
  unfold matchMark at structural ⊢
  split at structural
  · simp [Token.isStructural] at structural
  · rename_i single
    rw [if_neg single]
    have same : first = ';' := by simpa [Token.isStructural] using structural
    exact ⟨same, by rw [same]⟩

theorem plainMark_structural {first : Char} {rest : List Char}
    (structural : (plainMark first rest).1.isStructural = true) :
    StructuralMark first rest (plainMark first rest).1 := by
  unfold plainMark at structural ⊢
  split at structural
  · dsimp only at structural
    split at structural <;> cases structural
  · rename_i notQuote
    rw [if_neg notQuote]
    split at structural
    · rename_i bracket isOpening
      exact .opening bracket (ofOpening?_eq_some.1 isOpening)
    · rename_i bracket notOpening isClosing
      exact .closing bracket (ofClosing?_eq_some.1 isClosing)
    · obtain ⟨starts, same⟩ := matchMark_structural structural
      rw [same]
      exact .semicolon starts

theorem markToken_structural {first : Char} {rest : List Char}
    (structural : (markToken first rest).1.isStructural = true) :
    StructuralMark first rest (markToken first rest).1 := by
  cases isLong : isLongMark first rest with
  | false =>
      rw [markToken_plain isLong] at structural ⊢
      exact plainMark_structural structural
  | true =>
      simp only [isLongMark, Bool.or_eq_true, Bool.and_eq_true, beq_iff_eq] at isLong
      rcases isLong with (((rfl | rfl) | ⟨rfl, star⟩) | ⟨rfl, dashes⟩) | ⟨rfl, bar⟩
      · rw [markToken_at] at structural
        split at structural <;> cases structural
      · rw [markToken_hash] at structural
        split at structural <;> cases structural
      · obtain ⟨more, rfl⟩ := List.head?_eq_some_iff.1 star
        exact .comment more rfl rfl
      · obtain ⟨more, rfl⟩ := List.isPrefixOf_iff_prefix.1 dashes
        cases structural
      · obtain ⟨more, rfl⟩ := List.head?_eq_some_iff.1 bar
        cases structural

/-! Reading on -/

theorem tokens_nil : tokens [] = [] := by
  rw [tokens]

theorem tokens_cons (first : Char) (rest : List Char) :
    tokens (first :: rest) =
      ⟨(scan first rest).1, first :: rest.take ((scan first rest).2 - 1)⟩ ::
        tokens (rest.drop ((scan first rest).2 - 1)) := by
  rw [tokens]

theorem tokens_of_scan {first : Char} {more rest : List Char} {token : Token} {count : Nat}
    (scanned : scan first (more ++ rest) = (token, count)) (exact : count - 1 = more.length) :
    tokens (first :: (more ++ rest)) = ⟨token, first :: more⟩ :: tokens rest := by
  rw [tokens_cons, scanned]
  dsimp only
  rw [exact, List.take_left, List.drop_left]

theorem tokens_of_same_scan {first : Char} {more rest other : List Char}
    (same : scan first (more ++ other) = scan first (more ++ rest))
    (exact : (scan first (more ++ rest)).2 - 1 = more.length) :
    tokens (first :: (more ++ other)) =
      ⟨(scan first (more ++ rest)).1, first :: more⟩ :: tokens other := by
  rw [tokens_cons, same, exact, List.take_left, List.drop_left]

/-- A token as it is found at the start of a text, with the text behind it. -/
structure Found (scanned : Scanned) (first : Char) (more rest : List Char) : Prop where
  text : scanned.text = first :: more
  token : (scan first (more ++ rest)).1 = scanned.token
  covers : more.length ≤ (scan first (more ++ rest)).2 - 1
  exact : rest = [] ∨ (scan first (more ++ rest)).2 - 1 = more.length

theorem found_of_tokens {source : List Char} {scanned : Scanned} {later : List Scanned}
    (read : tokens source = scanned :: later) :
    ∃ first more, Found scanned first more (later.flatMap Scanned.text) ∧
      source = first :: (more ++ later.flatMap Scanned.text) ∧
      tokens (later.flatMap Scanned.text) = later := by
  cases source with
  | nil =>
      rw [tokens_nil] at read
      cases read
  | cons first rest =>
      rw [tokens_cons] at read
      obtain ⟨rfl, rfl⟩ := List.cons.inj read
      have behind := flatMap_text_tokens (rest.drop ((scan first rest).2 - 1))
      refine ⟨first, rest.take ((scan first rest).2 - 1), ⟨rfl, ?_, ?_, ?_⟩, ?_, ?_⟩
      · rw [behind, List.take_append_drop]
      · rw [behind, List.take_append_drop, List.length_take]
        exact Nat.min_le_left _ _
      · rw [behind, List.take_append_drop, List.length_take]
        by_cases all : rest.length ≤ (scan first rest).2 - 1
        · exact .inl (List.drop_eq_nil_of_le all)
        · right
          omega
      · rw [behind, List.take_append_drop]
      · rw [behind]

namespace Token

/-- Tokens behind which a declaration can begin. -/
def isStop : Token → Bool
  | .leaf (.mark text) => text == [';']
  | .opening .curly | .closing .curly => true
  | _ => false

/-- Tokens that can stand before the name of a declaration. -/
def isGap : Token → Bool
  | .comment | .leaf (.blank _) => true
  | _ => false

theorem isStructural_of_isStop {token : Token} (stop : token.isStop = true) :
    token.isStructural = true := by
  cases token with
  | leaf leaf => cases leaf <;> first | exact stop | cases stop
  | opening => rfl
  | closing => rfl
  | _ => cases stop

theorem isStructural_of_isGap {token : Token} (gap : token.isGap = true) :
    token.isStructural = true := by
  cases token with
  | leaf leaf => cases leaf <;> first | rfl | cases gap
  | comment => rfl
  | _ => cases gap

end Token

theorem scan_stopChar {c : Char} (stop : isStop c = true) (rest : List Char) :
    scan c rest = plainMark c [] := by
  have range : startsRange (c :: rest) = false := startsRange_stop stop [] rest
  have ident : startsIdent (c :: rest) = false := startsIdent_stop stop [] rest
  have number : numberLength (c :: rest) = 0 := numberLength_stop stop [] rest
  unfold scan
  dsimp only
  rw [range, ident, number, isBlankChar_stop stop]
  rcases stop_cases stop with rfl | rfl | rfl <;> rfl

theorem stopChar_of_isStop {first : Char} {rest : List Char}
    (stop : (scan first rest).1.isStop = true) : SheetScript.Css.isStop first = true := by
  have structural := Token.isStructural_of_isStop stop
  rcases scan_structural structural with blank | mark
  · rw [scan_blank rest blank] at stop
    cases stop
  · rw [mark] at stop structural
    have shape := markToken_structural structural
    generalize (markToken first rest).1 = token at stop shape
    cases shape with
    | comment more starts goes => cases stop
    | opening bracket starts =>
        subst starts
        cases bracket <;> first | rfl | cases stop
    | closing bracket starts =>
        subst starts
        cases bracket <;> first | rfl | cases stop
    | semicolon starts =>
        subst starts
        rfl

theorem blank_or_comment_of_isGap {first : Char} {rest : List Char}
    (gap : (scan first rest).1.isGap = true) :
    isBlankChar first = true ∨ ∃ more, first = '/' ∧ rest = '*' :: more := by
  have structural := Token.isStructural_of_isGap gap
  rcases scan_structural structural with blank | mark
  · exact .inl blank
  · right
    rw [mark] at gap structural
    have shape := markToken_structural structural
    generalize (markToken first rest).1 = token at gap shape
    cases shape with
    | comment more starts goes => exact ⟨more, starts, goes⟩
    | opening => cases gap
    | closing => cases gap
    | semicolon => cases gap

theorem scan_comment (rest : List Char) : scan '/' ('*' :: rest) = markToken '/' ('*' :: rest) := rfl

theorem ne_nil_of_commentBody? {text body after : List Char}
    (found : commentBody? text = some (body, after)) : body ≠ [] := by
  cases text with
  | nil => cases found
  | cons first rest =>
      by_cases close : first = '*' ∧ rest.head? = some '/'
      · obtain ⟨rfl, slash⟩ := close
        obtain ⟨more, rfl⟩ := List.head?_eq_some_iff.1 slash
        obtain ⟨rfl, -⟩ := Prod.mk.inj (Option.some.inj found)
        exact List.cons_ne_nil _ _
      · rw [commentBody?_char rest (Decidable.not_and_iff_or_not.1 close)] at found
        obtain ⟨pair, -, same⟩ := Option.map_eq_some_iff.1 found
        obtain ⟨rfl, -⟩ := Prod.mk.inj same
        exact List.cons_ne_nil _ _

theorem getLast?_of_commentBody? {text body after : List Char}
    (found : commentBody? text = some (body, after)) : body.getLast? = some '/' := by
  induction text generalizing body with
  | nil => cases found
  | cons first rest ih =>
      by_cases close : first = '*' ∧ rest.head? = some '/'
      · obtain ⟨rfl, slash⟩ := close
        obtain ⟨more, rfl⟩ := List.head?_eq_some_iff.1 slash
        obtain ⟨rfl, -⟩ := Prod.mk.inj (Option.some.inj found)
        rfl
      · rw [commentBody?_char rest (Decidable.not_and_iff_or_not.1 close)] at found
        obtain ⟨⟨inside, behind⟩, inRest, same⟩ := Option.map_eq_some_iff.1 found
        obtain ⟨rfl, rfl⟩ := Prod.mk.inj same
        rw [List.getLast?_cons, ih inRest]
        rfl

/-- A closed comment ends where it ends, whatever stands behind it. -/
theorem commentBody?_append {text body after : List Char}
    (found : commentBody? text = some (body, after)) (other : List Char) :
    commentBody? (body ++ other) = some (body, other) := by
  induction text generalizing body with
  | nil => cases found
  | cons first rest ih =>
      by_cases close : first = '*' ∧ rest.head? = some '/'
      · obtain ⟨rfl, slash⟩ := close
        obtain ⟨more, rfl⟩ := List.head?_eq_some_iff.1 slash
        obtain ⟨rfl, -⟩ := Prod.mk.inj (Option.some.inj found)
        rfl
      · have plain := Decidable.not_and_iff_or_not.1 close
        rw [commentBody?_char rest plain, Option.map_eq_some_iff] at found
        obtain ⟨⟨inside, behind⟩, inRest, same⟩ := found
        obtain ⟨rfl, rfl⟩ := Prod.mk.inj same
        have whole := eq_append_of_commentBody? inRest
        have notEmpty := ne_nil_of_commentBody? inRest
        obtain ⟨second, more, rfl⟩ := List.exists_cons_of_ne_nil notEmpty
        rw [whole] at plain
        have plainOther : first ≠ '*' ∨ (second :: more ++ other).head? ≠ some '/' := plain
        rw [List.cons_append, commentBody?_char _ plainOther, ih inRest]
        rfl

/-! Gaps and stops are read alike in front of almost any text -/

def startsDark (text : List Char) : Bool :=
  !text.head?.any isBlankChar

theorem runLength_append_dark {front rest : List Char}
    (blank : ∀ c ∈ front, isBlankChar c = true) (dark : startsDark rest = true) :
    runLength isBlankChar (front ++ rest) = front.length := by
  unfold runLength
  rw [List.takeWhile_append_of_pos blank, List.length_append]
  cases rest with
  | nil => rfl
  | cons first more =>
      have notBlank : isBlankChar first = false := by simpa [startsDark] using dark
      simp [notBlank]

theorem blank_of_runLength {front rest : List Char}
    (covers : front.length ≤ runLength isBlankChar (front ++ rest)) :
    ∀ c ∈ front, isBlankChar c = true := by
  unfold runLength at covers
  intro c inFront
  have whole : front <+: (front ++ rest).takeWhile isBlankChar :=
    List.prefix_of_prefix_length_le (List.prefix_append _ _) (List.takeWhile_prefix _) covers
  exact List.all_eq_true.1 List.all_takeWhile c (whole.subset inFront)

theorem tokens_blank {first : Char} {more rest : List Char}
    (blank : ∀ c ∈ first :: more, isBlankChar c = true) (dark : startsDark rest = true) :
    tokens (first :: (more ++ rest)) = ⟨.leaf (.blank (first :: more)), first :: more⟩ :: tokens rest := by
  have run : runLength isBlankChar (first :: (more ++ rest)) = more.length + 1 :=
    runLength_append_dark blank dark
  have token : scan first (more ++ rest) = (.leaf (.blank (first :: more)), more.length + 1) := by
    rw [scan_blank _ (blank first List.mem_cons_self), run]
    simp
  exact tokens_of_scan token rfl

namespace Found

variable {scanned : Scanned} {first : Char} {more rest : List Char}

theorem eq (found : Found scanned first more rest) :
    scanned = ⟨(scan first (more ++ rest)).1, first :: more⟩ := by
  rw [found.token, ← found.text]

theorem run_of_blank (found : Found scanned first more rest) (blank : isBlankChar first = true) :
    runLength isBlankChar (first :: (more ++ rest)) = more.length + 1 := by
  have covers := found.covers
  have exact := found.exact
  have fits := runLength_le isBlankChar (first :: (more ++ rest))
  have some : 0 < runLength isBlankChar (first :: (more ++ rest)) := by
    simp [runLength, blank]
  rw [scan_blank _ blank] at covers exact
  dsimp only at covers exact
  rcases exact with rfl | exact
  · simp only [List.length_cons, List.append_nil] at fits covers some ⊢
    omega
  · omega

theorem dark_of_blank (found : Found scanned first more rest) (blank : isBlankChar first = true) :
    startsDark rest = true := by
  have run := found.run_of_blank blank
  have allBlank : ∀ c ∈ first :: more, isBlankChar c = true :=
    blank_of_runLength (Nat.le_of_eq run.symm)
  cases rest with
  | nil => rfl
  | cons second rest =>
      cases isBlank : isBlankChar second with
      | false => simp [startsDark, isBlank]
      | true =>
          unfold runLength at run
          rw [← List.cons_append, List.takeWhile_append_of_pos allBlank] at run
          simp [isBlank] at run

theorem dark_of_not_blank (found : Found scanned first more rest)
    (notBlank : ∀ text, scanned.token ≠ .leaf (.blank text)) : isBlankChar first = false := by
  cases blank : isBlankChar first with
  | false => rfl
  | true =>
      have token := found.token
      rw [scan_blank _ blank] at token
      exact absurd token.symm (notBlank _)

theorem tokens_of_blank (found : Found scanned first more rest) (blank : isBlankChar first = true)
    {other : List Char} (dark : startsDark other = true) :
    Css.tokens (first :: (more ++ other)) = scanned :: Css.tokens other := by
  have run := found.run_of_blank blank
  have allBlank : ∀ c ∈ first :: more, isBlankChar c = true :=
    blank_of_runLength (Nat.le_of_eq run.symm)
  rw [tokens_blank allBlank dark, found.eq, scan_blank _ blank, run]
  simp

theorem tokens (found : Found scanned first more rest) :
    Css.tokens (first :: (more ++ rest)) = scanned :: Css.tokens rest := by
  rw [tokens_cons, found.eq]
  rcases found.exact with rfl | exact
  · rw [List.append_nil] at *
    have covers := found.covers
    rw [List.append_nil] at covers
    rw [List.take_of_length_le covers, List.drop_eq_nil_of_le covers]
  · rw [exact, List.take_left, List.drop_left]

theorem closes_of_comment (found : Found scanned first more rest) {inside : List Char}
    (slash : first = '/') (star : more ++ rest = '*' :: inside) (some : rest ≠ []) :
    ∃ body, commentBody? inside = Option.some (body, rest) ∧ more = '*' :: body := by
  subst slash
  have exact := found.exact.resolve_left some
  have behind := List.length_pos_iff.2 some
  have lengths := congrArg List.length star
  rw [List.length_append, List.length_cons] at lengths
  rw [star, scan_comment, markToken_comment] at exact
  cases closes : commentBody? inside with
  | none =>
      rw [closes] at exact
      simp only [Option.elim_none] at exact
      omega
  | some pair =>
      obtain ⟨body, after⟩ := pair
      rw [closes] at exact
      simp only [Option.elim_some] at exact
      rw [eq_append_of_commentBody? closes] at star
      obtain ⟨rfl, rfl⟩ : more = '*' :: body ∧ rest = after :=
        List.append_inj star (by rw [List.length_cons]; omega)
      exact ⟨body, rfl, rfl⟩

theorem tokens_of_comment (found : Found scanned first more rest) {inside : List Char}
    (slash : first = '/') (star : more ++ rest = '*' :: inside) {other : List Char}
    (ends : rest = [] → other = []) :
    Css.tokens (first :: (more ++ other)) = scanned :: Css.tokens other := by
  by_cases atEnd : rest = []
  · have same := found.tokens
    rwa [atEnd, ← ends atEnd] at same
  · obtain ⟨body, closes, rfl⟩ := found.closes_of_comment slash star atEnd
    subst slash
    have comment (after : List Char) :
        scan '/' ('*' :: body ++ after) = (.comment, 2 + body.length) := by
      rw [List.cons_append, scan_comment, markToken_comment, commentBody?_append closes]
      rfl
    rw [tokens_of_scan (comment other) (by rw [List.length_cons]; omega), found.eq, comment]

theorem stop (found : Found scanned first more rest) (stop : scanned.token.isStop = true) :
    isStop first = true ∧ more = [] := by
  rw [← found.token] at stop
  have isChar := stopChar_of_isStop stop
  have one : (plainMark first []).2 = 1 := by
    rcases stop_cases isChar with rfl | rfl | rfl <;> rfl
  have covers := found.covers
  rw [scan_stopChar isChar, one] at covers
  exact ⟨isChar, List.length_eq_zero_iff.1 (Nat.le_zero.1 covers)⟩

theorem tokens_of_stop (found : Found scanned first more rest) (stop : scanned.token.isStop = true)
    (other : List Char) :
    Css.tokens (first :: (more ++ other)) = scanned :: Css.tokens other := by
  obtain ⟨isChar, rfl⟩ := found.stop stop
  have one : (plainMark first []).2 = 1 := by
    rcases stop_cases isChar with rfl | rfl | rfl <;> rfl
  have token (rest : List Char) : scan first ([] ++ rest) = ((plainMark first []).1, 1) :=
    (scan_stopChar isChar rest).trans (Prod.ext rfl one)
  rw [tokens_of_scan (token other) rfl, found.eq, token]

end Found

end SheetScript.Css
