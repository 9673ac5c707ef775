import SheetScript.Document.Expand
import SheetScript.Proofs.Script.Joining

/-!
Literals of any text. A text can be written between quotes of either kind or between backticks. Each
way of writing it is read as that text and, assigned to the output, emitted as that text.
-/

namespace SheetScript.Script

open SheetScript.Document SheetScript.Files SheetScript.Text

inductive Quoting
  | single
  | double
  | backtick
  deriving DecidableEq, Repr

namespace Quoting

def body (text : String) : Quoting → List Char
  | single => text.toList.flatMap (escapeBetween '\'')
  | double => text.toList.flatMap (escapeBetween '"')
  | backtick => text.toList.flatMap escapeTemplate

def lexeme (text : String) (quoting : Quoting) : Lexeme :=
  match quoting with
  | single => .quoted '\'' (body text quoting)
  | double => .quoted '"' (body text quoting)
  | backtick => .template (body text quoting)

def source (text : String) (quoting : Quoting) : List Char :=
  (quoting.lexeme text).text

/-- What a literal is read as: a constant, or a template with the text as its only part. -/
def expr (text : String) (quoting : Quoting) : Expr :=
  match quoting with
  | single => .literal (.text text)
  | double => .literal (.text text)
  | backtick => .template (textPart (body text quoting))

/-! Reading -/

theorem unescape_body (text : String) (quoting : Quoting) :
    unescape (quoting.body text) = text.toList := by
  cases quoting with
  | single => exact unescape_between (.inl rfl) text.toList
  | double => exact unescape_between (.inr rfl) text.toList
  | backtick => exact unescape_template text.toList

theorem sound_lexeme (text : String) (quoting : Quoting) : (quoting.lexeme text).Sound := by
  cases quoting with
  | single => exact ⟨.inl rfl, quotedBody_between (.inl rfl) text.toList⟩
  | double => exact ⟨.inr rfl, quotedBody_between (.inr rfl) text.toList⟩
  | backtick => exact templateBody_escaped text.toList

/-- A literal ends wherever it is closed. -/
theorem rowSound_lexeme (text : String) (quoting : Quoting) (after : List Char) :
    RowSound [quoting.lexeme text] after := by
  refine ⟨sound_lexeme text quoting, ?_, trivial⟩
  cases quoting <;> rfl

theorem isSeparator_lexeme (text : String) (quoting : Quoting) :
    (quoting.lexeme text).isSeparator = false := by
  cases quoting <;> rfl

section

variable (hole : List Char → Except SyntaxFault Expr)

/-- No dollar sign opens a hole, because each of them is escaped. -/
theorem templateParts_body (text : String) (position : Position) :
    templateParts hole (body text backtick) position = .ok (textPart (body text backtick)) := by
  have cut : pieces (body text backtick) = .ok ⟨[], body text backtick⟩ := by
    have escaped := pieces_escaped text.toList []
    rw [List.append_nil, pieces] at escaped
    rw [body, escaped]
    simp [Except.map, Pieces.prepend]
  rw [templateParts_eq hole position cut]
  rfl

theorem operandStep?_lexeme (text : String) (quoting : Quoting) (state : ParseState)
    (position : Position) :
    state.operandStep? hole ⟨quoting.lexeme text, position⟩ =
      some { state with focus := .after (quoting.expr text) } := by
  have constant : Constant.text (String.ofList (unescape (quoting.body text))) = .text text := by
    rw [unescape_body, String.ofList_toList]
  cases quoting with
  | single =>
      exact congrArg (fun value => some { state with focus := .after (.literal value) }) constant
  | double =>
      exact congrArg (fun value => some { state with focus := .after (.literal value) }) constant
  | backtick =>
      unfold ParseState.operandStep? lexeme
      dsimp only
      rw [templateParts_body]
      rfl

end

theorem parseExpression_source (text : String) (quoting : Quoting) :
    parseExpression (quoting.source text) = .ok (quoting.expr text) := by
  have leads (hole : List Char → Except SyntaxFault Expr) :
      Leads hole .expressionStart [quoting.lexeme text] fun next =>
        next = { ParseState.expressionStart with focus := .after (quoting.expr text) } :=
    .step _ (isSeparator_lexeme text quoting)
      (operandStep?_lexeme hole text quoting .expressionStart) (.nil rfl)
  obtain ⟨next, last, rfl, isRead⟩ := readSource_written (rowSound_lexeme text quoting []) (leads _)
  rw [List.flatMap_singleton] at isRead
  rw [parseExpression]
  exact parseExpressionWith_ok isRead rfl rfl

/-- A script that ends in a literal is read to its end if the literal can stand there. -/
theorem parseScript_of_front {text : String} {quoting : Quoting} (front : List Lexeme)
    {between ended : ParseState} (sound : RowSound front (quoting.source text))
    (reads : ParseState.programStart.readTokens parseExpression (place .start front) = .ok between)
    (begins : ∀ token : Token, token.lexeme = quoting.lexeme text →
      between.step? parseExpression token = between.operandStep? parseExpression token)
    (ends : ParseState.toProgram? { between with focus := .after (quoting.expr text) } = some ended)
    (sane : ended.fault = none) :
    parseScript (front.flatMap Lexeme.text ++ quoting.source text) = .ok ended.done.reverse := by
  have source : front.flatMap Lexeme.text ++ quoting.source text =
      (front ++ [quoting.lexeme text]).flatMap Lexeme.text := by
    rw [List.flatMap_append, List.flatMap_singleton]
    rfl
  have cut : lexemes (front.flatMap Lexeme.text ++ quoting.source text) =
      (front ++ [quoting.lexeme text], []) := by
    rw [source]
    refine lexemes_source (rowSound_append ?_ (rowSound_lexeme text quoting []))
    rw [List.flatMap_singleton, List.append_nil]
    exact sound
  refine parseScript_eq_ok.2 ⟨_, _, ended, cut, ?_, ends, sane, rfl⟩
  rw [place_append, ParseState.readTokens_append reads, place, isSeparator_lexeme]
  simp only [Bool.false_eq_true, if_false, place, ParseState.readTokens]
  rw [begins _ rfl, operandStep?_lexeme]

theorem opensOperand_lexeme (text : String) (quoting : Quoting) :
    (quoting.lexeme text).opensOperand = true := by
  cases quoting <;> rfl

theorem parseScript_literal (text : String) (quoting : Quoting) :
    parseScript (quoting.source text) = .ok [.expression (quoting.expr text)] := by
  refine parseScript_of_front [] trivial rfl (fun token same => ?_) rfl rfl
  have opens : token.lexeme.opensOperand = true := same ▸ opensOperand_lexeme text quoting
  exact statementStep?_of_opens opens

/-! Assigning to the output -/

def outputAssignment : List Lexeme :=
  [.word "chain".toList, .mark .dot, .word "cssOutput".toList, .blank ' ', .mark .equal, .blank ' ']

theorem parseScript_assignment (text : String) (quoting : Quoting) :
    parseScript (outputAssignment.flatMap Lexeme.text ++ quoting.source text) =
      .ok [.assign (.member (.name "chain" 1) "cssOutput" 1) (quoting.expr text)] := by
  let between : ParseState :=
    ⟨.operand, [.assignment (.member (.name "chain" 1) "cssOutput" 1)], [], none⟩
  have sound : RowSound outputAssignment (quoting.source text) :=
    ⟨⟨by decide, by decide⟩, rfl, trivial, rfl, ⟨by decide, by decide⟩, rfl, rfl, rfl, trivial,
      rfl, rfl, rfl, trivial⟩
  have reads : ParseState.programStart.readTokens parseExpression (place .start outputAssignment) =
      .ok between :=
    rfl
  exact parseScript_of_front outputAssignment sound reads (fun _ _ => rfl) rfl rfl

theorem expr_eq_pure (importFile : Value → Step Value) (scope : Scope) (text : String)
    (quoting : Quoting) : Evaluate.expr importFile scope (quoting.expr text) = pure (.text text) := by
  have parts (raw : List Char) : Evaluate.texts importFile scope (textPart raw) =
      pure (String.ofList (unescape raw)) := by
    unfold textPart
    split
    · rename_i empty
      rw [List.isEmpty_iff.1 empty]
      rfl
    · rw [Evaluate.texts, Evaluate.texts]
      simp only [pure_bind, String.append_empty]
  cases quoting with
  | single => rfl
  | double => rfl
  | backtick =>
      rw [expr, Evaluate.expr, parts, unescape_body, String.ofList_toList]
      rfl

theorem statements_assignment (importFile : Value → Step Value) (text : String) (quoting : Quoting)
    (world : World) :
    Evaluate.statements importFile []
        [.assign (.member (.name "chain" 1) "cssOutput" 1) (quoting.expr text)] world =
      .ok [] { world with output := .text text } := by
  simp only [Evaluate.statements, Evaluate.statement, expr_eq_pure, pure_bind]
  rfl

theorem trimChars_of_ends {text : List Char} (first : text.head?.any isBlank = false)
    (last : text.getLast?.any isBlank = false) : trimChars text = text := by
  have back : text.reverse.head?.any isBlank = false := by rwa [List.head?_reverse]
  rw [trimChars, trimStart, dropWhile_of_ends first, trimEnd, dropWhile_of_ends back,
    List.reverse_reverse]

/-- A literal ends in its quote, so nothing is trimmed from a script that ends in one. -/
theorem trimChars_assignment (text : String) (quoting : Quoting) :
    trimChars (outputAssignment.flatMap Lexeme.text ++ quoting.source text) =
      outputAssignment.flatMap Lexeme.text ++ quoting.source text := by
  refine trimChars_of_ends rfl ?_
  cases quoting <;>
  · rw [source, lexeme, Lexeme.text, List.getLast?_append, List.getLast?_concat]
    decide

theorem execute_assignment (setting : Setting) (number : Option Nat) (text : String)
    (quoting : Quoting) (world : World) :
    execute setting ("chain.cssOutput = " ++ String.ofList (quoting.source text)) number world =
      (.ok (some text, []), { world with output := .text text }) := by
  have source : ("chain.cssOutput = " ++ String.ofList (quoting.source text)).toList =
      outputAssignment.flatMap Lexeme.text ++ quoting.source text := by
    simp only [String.toList_append, String.toList_ofList]
    rfl
  have ran : runScript setting ("chain.cssOutput = " ++ String.ofList (quoting.source text))
      { world with output := .null } = .ok [] { world with output := .text text } := by
    rw [runScript, Evaluate.script, source, trimChars_assignment, parseScript_assignment]
    exact statements_assignment _ text quoting _
  rw [execute, ran]
  rfl

/--
Whatever characters a text holds, its three literals mean it: the quoted ones are read as that
constant, the one between backticks as a template that is evaluated to it without an effect, and a
script that assigns any of them to the output emits it.
-/
theorem literals_of_text (text : String) :
    parseExpression (source text single) = .ok (.literal (.text text)) ∧
      parseExpression (source text double) = .ok (.literal (.text text)) ∧
      (∃ parts, parseExpression (source text backtick) = .ok (.template parts) ∧
        ∀ importFile scope, Evaluate.expr importFile scope (.template parts) = pure (.text text)) ∧
      (∀ quoting, parseScript (source text quoting) = .ok [.expression (expr text quoting)]) ∧
      ∀ (quoting : Quoting) (setting : Setting) (number : Option Nat) (world : World),
        execute setting ("chain.cssOutput = " ++ String.ofList (source text quoting)) number world =
          (.ok (some text, []), { world with output := .text text }) := by
  refine ⟨parseExpression_source text single, parseExpression_source text double, ?_,
    parseScript_literal text,
    fun quoting setting number => execute_assignment setting number text quoting⟩
  exact ⟨_, parseExpression_source text backtick,
    fun importFile scope => expr_eq_pure importFile scope text backtick⟩

example : String.ofList (source "a\\'\n$`" single) = "'a\\\\\\'\\n$`'" ∧
    String.ofList (source "a\\'\n$`" backtick) = "`a\\\\'\n\\$\\``" := by
  decide +kernel

end Quoting

end SheetScript.Script
