import SheetScript.Proofs.Script.Lexing

/-!
A line break ends every lexeme before it. So a text that is cut up completely is cut in the same way
in front of a line break, and what comes after begins anew.
-/

namespace SheetScript.Script

open SheetScript.Text

/-! Runs of characters -/

section

variable {condition : Char → Bool} (dark : condition '\n' = false) (text behind : List Char)

include dark

theorem takeWhile_newline :
    (text ++ '\n' :: behind).takeWhile condition = text.takeWhile condition := by
  induction text with
  | nil => rw [List.nil_append, List.takeWhile_cons, dark]; rfl
  | cons c rest ih =>
      rw [List.cons_append, List.takeWhile_cons, List.takeWhile_cons, ih]

theorem dropWhile_newline :
    (text ++ '\n' :: behind).dropWhile condition = text.dropWhile condition ++ '\n' :: behind := by
  induction text with
  | nil => rw [List.nil_append, List.dropWhile_cons, dark]; rfl
  | cons c rest ih =>
      rw [List.cons_append, List.dropWhile_cons, List.dropWhile_cons, ih]
      split <;> rfl

end

theorem isDigit_newline : isDigit '\n' = false := by decide

/-! Bodies: what closes one stands in the text itself, so any text can follow. -/

theorem quotedBody_of_found {quote : Char} {text body after : List Char}
    (found : quotedBody? quote text = some (body, after)) : QuotedBody quote body := by
  fun_induction quotedBody? quote text generalizing body with
  | case1 => cases found
  | case2 => cases found
  | case3 => cases found
  | case4 c rest notNewline ih =>
      obtain ⟨⟨inner, behind⟩, atRest, same⟩ := Option.map_eq_some_iff.1 found
      obtain ⟨rfl, rfl⟩ := Prod.mk.inj same
      exact .escaped (by simpa using notNewline) (ih atRest)
  | case5 c rest =>
      obtain ⟨rfl, rfl⟩ := Prod.mk.inj (Option.some.inj found)
      exact .nil
  | case6 => cases found
  | case7 c rest noEnd noEscape notQuote notNewline ih =>
      obtain ⟨⟨inner, behind⟩, atRest, same⟩ := Option.map_eq_some_iff.1 found
      obtain ⟨rfl, rfl⟩ := Prod.mk.inj same
      have notBackslash : c ≠ '\\' := by
        intro isBackslash
        cases rest with
        | nil => exact noEnd isBackslash rfl
        | cons d rest => exact noEscape d rest isBackslash rfl
      exact .plain (by simpa using notQuote) notBackslash (by simpa using notNewline) (ih atRest)

theorem templateBody_of_found {text body after : List Char}
    (found : templateBody? text = some (body, after)) : TemplateBody body := by
  fun_induction templateBody? text generalizing body with
  | case1 => cases found
  | case2 => cases found
  | case3 c rest ih =>
      obtain ⟨⟨inner, behind⟩, atRest, same⟩ := Option.map_eq_some_iff.1 found
      obtain ⟨rfl, rfl⟩ := Prod.mk.inj same
      exact .escaped c (ih atRest)
  | case4 c rest =>
      obtain ⟨rfl, rfl⟩ := Prod.mk.inj (Option.some.inj found)
      exact .nil
  | case5 c rest noEnd noEscape notBacktick ih =>
      obtain ⟨⟨inner, behind⟩, atRest, same⟩ := Option.map_eq_some_iff.1 found
      obtain ⟨rfl, rfl⟩ := Prod.mk.inj same
      have notBackslash : c ≠ '\\' := by
        intro isBackslash
        cases rest with
        | nil => exact noEnd isBackslash rfl
        | cons d rest => exact noEscape d rest isBackslash rfl
      exact .plain (by simpa using notBacktick) notBackslash (ih atRest)

theorem quotedBody?_append {quote : Char} (isQuote : quote = '\'' ∨ quote = '"')
    {text body after : List Char} (found : quotedBody? quote text = some (body, after))
    (behind : List Char) : quotedBody? quote (text ++ behind) = some (body, after ++ behind) := by
  rw [eq_append_of_quotedBody? found, List.append_assoc, List.cons_append]
  exact quotedBody?_of_body isQuote (quotedBody_of_found found) _

theorem templateBody?_append {text body after : List Char}
    (found : templateBody? text = some (body, after)) (behind : List Char) :
    templateBody? (text ++ behind) = some (body, after ++ behind) := by
  rw [eq_append_of_templateBody? found, List.append_assoc, List.cons_append]
  exact templateBody?_of_body (templateBody_of_found found) _

theorem commentBody?_append {text body after : List Char}
    (found : commentBody? text = some (body, after)) (behind : List Char) :
    commentBody? (text ++ behind) = some (body, after ++ behind) := by
  fun_induction commentBody? text generalizing body with
  | case1 rest =>
      obtain ⟨rfl, rfl⟩ := Prod.mk.inj (Option.some.inj found)
      rfl
  | case2 c rest notEnd ih =>
      obtain ⟨⟨inner, left⟩, atRest, same⟩ := Option.map_eq_some_iff.1 found
      obtain ⟨rfl, rfl⟩ := Prod.mk.inj same
      rw [List.cons_append, commentBody?, ih atRest]
      · rfl
      · intro later isStar starts
        cases rest with
        | nil => cases atRest
        | cons d rest => exact notEnd rest isStar (by rw [(List.cons.inj starts).1])
  | case3 => cases found

theorem comment?_newline {text comment after : List Char}
    (found : comment? text = some (comment, after)) (behind : List Char) :
    comment? (text ++ '\n' :: behind) = some (comment, after ++ '\n' :: behind) := by
  unfold comment? at found
  split at found
  · rename_i line
    obtain ⟨rfl, rfl⟩ := Prod.mk.inj (Option.some.inj found)
    have taken := @takeWhile_newline (fun c => c != '\n') rfl line behind
    have dropped := @dropWhile_newline (fun c => c != '\n') rfl line behind
    rw [List.cons_append, comment?, taken, dropped]
  · obtain ⟨⟨inner, left⟩, inBody, same⟩ := Option.map_eq_some_iff.1 found
    obtain ⟨rfl, rfl⟩ := Prod.mk.inj same
    rw [List.cons_append, comment?, commentBody?_append inBody]
    rfl
  · cases found

/-! Numbers -/

/-- A sign as an exponent has it: one that stands there, or none in front of anything else. -/
def IsSign (sign digits : List Char) : Prop :=
  sign = ['+'] ∨ sign = ['-'] ∨ sign = [] ∧ digits.head? ≠ some '+' ∧ digits.head? ≠ some '-'

theorem exists_sign (text : List Char) : ∃ sign digits, text = sign ++ digits ∧ IsSign sign digits := by
  by_cases plus : text.head? = some '+'
  · obtain ⟨digits, rfl⟩ := List.head?_eq_some_iff.1 plus
    exact ⟨['+'], digits, rfl, .inl rfl⟩
  · by_cases minus : text.head? = some '-'
    · obtain ⟨digits, rfl⟩ := List.head?_eq_some_iff.1 minus
      exact ⟨['-'], digits, rfl, .inr (.inl rfl)⟩
    · exact ⟨[], text, rfl, .inr (.inr ⟨rfl, plus, minus⟩)⟩

theorem exponentPart_sign {mark : Char} (isMark : (mark == 'e' || mark == 'E') = true)
    {sign digits : List Char} (isSign : IsSign sign digits) :
    exponentPart (mark :: (sign ++ digits)) =
      if (digits.takeWhile isDigit).isEmpty then ([], mark :: (sign ++ digits))
      else (mark :: sign ++ digits.takeWhile isDigit, digits.dropWhile isDigit) := by
  rcases isSign with rfl | rfl | ⟨rfl, notPlus, notMinus⟩
  · exact if_pos isMark
  · exact if_pos isMark
  · rw [List.nil_append, exponentPart, if_pos isMark]
    · exact fun more same => notPlus (congrArg List.head? same)
    · exact fun more same => notMinus (congrArg List.head? same)

theorem exponentPart_newline (text behind : List Char) :
    exponentPart (text ++ '\n' :: behind) =
      ((exponentPart text).1, (exponentPart text).2 ++ '\n' :: behind) := by
  cases text with
  | nil => rfl
  | cons mark rest =>
      by_cases isMark : (mark == 'e' || mark == 'E') = true
      · obtain ⟨sign, digits, rfl, isSign⟩ := exists_sign rest
        have stillSign : IsSign sign (digits ++ '\n' :: behind) := by
          refine isSign.imp_right fun other => other.imp_right fun ⟨empty, notPlus, notMinus⟩ => ?_
          cases digits with
          | nil => exact ⟨empty, nofun, nofun⟩
          | cons c digits => exact ⟨empty, notPlus, notMinus⟩
        rw [List.cons_append, List.append_assoc, exponentPart_sign isMark isSign,
          exponentPart_sign isMark stillSign, takeWhile_newline isDigit_newline,
          dropWhile_newline isDigit_newline]
        split
        · rw [List.cons_append, List.append_assoc]
        · rfl
      · have plain (rest : List Char) : exponentPart (mark :: rest) = ([], mark :: rest) :=
          if_neg isMark
        rw [List.cons_append, plain, plain]
        rfl

theorem pointPart_newline (whole text behind : List Char) :
    pointPart whole (text ++ '\n' :: behind) =
      ((pointPart whole text).1, (pointPart whole text).2 ++ '\n' :: behind) := by
  cases text with
  | nil => rfl
  | cons c rest =>
      by_cases isPoint : c = '.'
      · subst isPoint
        rw [List.cons_append, pointPart, pointPart, takeWhile_newline isDigit_newline,
          dropWhile_newline isDigit_newline]
        split <;> rfl
      · have plain (rest : List Char) : pointPart whole (c :: rest) = ([], c :: rest) := by
          unfold pointPart
          split
          · rename_i same
            exact absurd (List.cons.inj same).1 isPoint
          · rfl
        rw [List.cons_append, plain, plain]
        rfl

theorem numberPart?_newline (text behind : List Char) :
    numberPart? (text ++ '\n' :: behind) =
      (numberPart? text).map fun part => (part.1, part.2 ++ '\n' :: behind) := by
  unfold numberPart?
  rw [takeWhile_newline isDigit_newline, dropWhile_newline isDigit_newline]
  dsimp only
  rw [pointPart_newline]
  dsimp only
  rw [exponentPart_newline]
  split <;> rfl

/-! Lexemes -/

theorem isWordChar_newline : isWordChar '\n' = false := by decide

/-- A lexeme ends in front of a line break where it ends by itself. -/
theorem lexeme?_newline {text after : List Char} {lexeme : Lexeme}
    (found : lexeme? text = some (lexeme, after)) (behind : List Char) :
    lexeme? (text ++ '\n' :: behind) = some (lexeme, after ++ '\n' :: behind) := by
  cases text with
  | nil => cases found
  | cons c rest =>
      -- A number may end at the break, all else is found by its first character alone.
      have numbers := numberPart?_newline (c :: rest) behind
      rw [List.cons_append] at numbers ⊢
      rw [lexeme?] at found ⊢
      split at found
      next blank =>
        obtain ⟨rfl, rfl⟩ := Prod.mk.inj (Option.some.inj found)
        rw [if_pos blank]
      next notBlank =>
      rw [if_neg notBlank]
      split at found
      next start =>
        obtain ⟨rfl, rfl⟩ := Prod.mk.inj (Option.some.inj found)
        rw [if_pos start, takeWhile_newline isWordChar_newline, dropWhile_newline isWordChar_newline]
      next notStart =>
      rw [if_neg notStart]
      split at found
      next quote =>
        obtain ⟨⟨body, left⟩, inBody, same⟩ := Option.map_eq_some_iff.1 found
        obtain ⟨rfl, rfl⟩ := Prod.mk.inj same
        have isQuote : c = '\'' ∨ c = '"' := by simpa using quote
        rw [if_pos quote, quotedBody?_append isQuote inBody]
        rfl
      next notQuote =>
      rw [if_neg notQuote]
      split at found
      next backtick =>
        obtain ⟨⟨body, left⟩, inBody, same⟩ := Option.map_eq_some_iff.1 found
        obtain ⟨rfl, rfl⟩ := Prod.mk.inj same
        rw [if_pos backtick, templateBody?_append inBody]
        rfl
      next notBacktick =>
      rw [if_neg notBacktick]
      split at found
      next slash =>
        obtain ⟨⟨comment, left⟩, inComment, same⟩ := Option.map_eq_some_iff.1 found
        obtain ⟨rfl, rfl⟩ := Prod.mk.inj same
        rw [if_pos slash, comment?_newline inComment]
        rfl
      next notSlash =>
      rw [if_neg notSlash, numbers]
      split at found
      next text left isNumber =>
        obtain ⟨rfl, rfl⟩ := Prod.mk.inj (Option.some.inj found)
        rw [isNumber]
        rfl
      next noNumber =>
        obtain ⟨mark, isMark, same⟩ := Option.map_eq_some_iff.1 found
        obtain ⟨rfl, rfl⟩ := Prod.mk.inj same
        rw [noNumber, isMark]
        rfl

/-- A text that is cut up completely is cut in the same way in front of a line break. -/
theorem lexemes_newline {text : List Char} {row : List Lexeme} (complete : lexemes text = (row, []))
    (behind : List Char) :
    lexemes (text ++ '\n' :: behind) =
      (row ++ .blank '\n' :: (lexemes behind).1, (lexemes behind).2) := by
  fun_induction lexemes text generalizing row with
  | case1 text lexeme after found rest stray atAfter ih =>
      obtain ⟨rfl, rfl⟩ := Prod.mk.inj complete
      rw [lexemes, lexeme?_newline found]
      dsimp only
      rw [ih atAfter]
      rfl
  | case2 text none =>
      obtain ⟨rfl, rfl⟩ := Prod.mk.inj complete
      rw [List.nil_append, lexemes]
      rfl

end SheetScript.Script
