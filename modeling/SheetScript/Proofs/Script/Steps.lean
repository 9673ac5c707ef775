import SheetScript.Proofs.Script.Holes

/-!
The parser's way through rows of lexemes: how it begins an operand, ends it, and gets through a list.
-/

namespace SheetScript.Script

open SheetScript.Number SheetScript.Text

/-- The lexemes of a row that are more than separators. -/
def solid (row : List Lexeme) : List Lexeme :=
  row.filter fun lexeme => !lexeme.isSeparator

theorem solid_append (front rest : List Lexeme) :
    solid (front ++ rest) = solid front ++ solid rest :=
  List.filter_append ..

theorem solid_cons {lexeme : Lexeme} (isSolid : lexeme.isSeparator = false) (rest : List Lexeme) :
    solid (lexeme :: rest) = lexeme :: solid rest := by
  unfold solid
  rw [List.filter_cons, isSolid]
  rfl

theorem map_lexeme_place (position : Position) (row : List Lexeme) :
    (place position row).map Token.lexeme = solid row := by
  induction row generalizing position with
  | nil => rfl
  | cons lexeme rest ih =>
      unfold place solid
      rw [List.filter_cons]
      cases lexeme.isSeparator with
      | true => exact ih _
      | false => exact congrArg (lexeme :: ·) (ih _)

variable {hole : List Char → Except SyntaxFault Expr}

/-! Steps -/

section

variable (hole)

def Leads (state : ParseState) (row : List Lexeme) (goal : ParseState → Prop) : Prop :=
  ∀ tokens : List Token, tokens.map Token.lexeme = solid row →
    ∃ next, goal next ∧
      ∀ more, state.readTokens hole (tokens ++ more) = next.readTokens hole more

end

namespace Leads

variable {state : ParseState} {goal : ParseState → Prop}

theorem nil (reached : goal state) : Leads hole state [] goal := by
  intro tokens same
  rw [List.map_eq_nil_iff.1 same]
  exact ⟨state, reached, fun more => rfl⟩

theorem blank {c : Char} {rest : List Lexeme} (behind : Leads hole state rest goal) :
    Leads hole state (.blank c :: rest) goal :=
  behind

theorem cons {lexeme : Lexeme} {rest : List Lexeme} (isSolid : lexeme.isSeparator = false)
    (step : ∀ position, ∃ next, state.step? hole ⟨lexeme, position⟩ = some next ∧
      Leads hole next rest goal) :
    Leads hole state (lexeme :: rest) goal := by
  intro tokens same
  rw [solid_cons isSolid] at same
  cases tokens with
  | nil => cases same
  | cons token later =>
      obtain ⟨rfl, sameLater⟩ := List.cons.inj same
      obtain ⟨next, stepped, leads⟩ := step token.position
      obtain ⟨last, reached, reads⟩ := leads later sameLater
      refine ⟨last, reached, fun more => ?_⟩
      rw [List.cons_append, ParseState.readTokens, stepped]
      exact reads more

/-- A lexeme that is read in the same way wherever it stands. -/
theorem step {lexeme : Lexeme} {rest : List Lexeme} (next : ParseState)
    (isSolid : lexeme.isSeparator = false)
    (step : ∀ position, state.step? hole ⟨lexeme, position⟩ = some next)
    (behind : Leads hole next rest goal) : Leads hole state (lexeme :: rest) goal :=
  cons isSolid fun position => ⟨next, step position, behind⟩

theorem append {front rest : List Lexeme} {between : ParseState → Prop}
    (here : Leads hole state front between)
    (behind : ∀ next, between next → Leads hole next rest goal) :
    Leads hole state (front ++ rest) goal := by
  intro tokens same
  rw [solid_append] at same
  obtain ⟨first, second, rfl, sameFirst, sameSecond⟩ := List.map_eq_append_iff.1 same
  obtain ⟨next, isBetween, reads⟩ := here first sameFirst
  obtain ⟨last, reached, readsOn⟩ := behind next isBetween second sameSecond
  exact ⟨last, reached, fun more => by rw [List.append_assoc, reads, readsOn]⟩

theorem mono {row : List Lexeme} {other : ParseState → Prop} (leads : Leads hole state row goal)
    (weaker : ∀ next, goal next → other next) : Leads hole state row other := by
  intro tokens same
  obtain ⟨next, reached, reads⟩ := leads tokens same
  exact ⟨next, weaker next reached, reads⟩

end Leads

/-! Beginning an operand -/

/-- The lexemes that begin an operand, also where a statement or an item can begin. -/
def Lexeme.opensOperand : Lexeme → Bool
  | .word name => !(["const", "let", "var"].contains (String.ofList name))
  | .number _ => true
  | .quoted _ _ => true
  | .template _ => true
  | .mark sign => sign == .minus || sign == .openParen || sign == .openBracket || sign == .openBrace
  | _ => false

def Opens (row : List Lexeme) : Prop :=
  row.head?.any Lexeme.opensOperand = true

instance (row : List Lexeme) : Decidable (Opens row) :=
  inferInstanceAs (Decidable (row.head?.any Lexeme.opensOperand = true))

theorem Opens.append {row : List Lexeme} (opens : Opens row) (rest : List Lexeme) :
    Opens (row ++ rest) := by
  cases row with
  | nil => cases opens
  | cons lexeme more => exact opens

theorem operandStep?_focus (state : ParseState) (focus : Focus) (token : Token) :
    ParseState.operandStep? hole { state with focus := focus } token =
      state.operandStep? hole token := by
  unfold ParseState.operandStep?
  split <;> rfl

theorem statementStep?_of_opens {state : ParseState} {token : Token}
    (opens : token.lexeme.opensOperand = true) :
    state.statementStep? hole token = state.operandStep? hole token := by
  unfold ParseState.statementStep?
  split
  · rename_i isMark
    rw [isMark] at opens
    cases opens
  · rename_i name isWord
    rw [isWord] at opens
    have other : ["const", "let", "var"].contains (String.ofList name) = false := by
      simpa [Lexeme.opensOperand] using opens
    rw [if_neg (by rw [other]; exact Bool.false_ne_true)]
  · rfl

theorem itemStep?_of_opens {state : ParseState} {token : Token}
    (opens : token.lexeme.opensOperand = true) :
    state.itemStep? hole token = state.operandStep? hole token := by
  unfold ParseState.itemStep?
  split
  · rename_i isMark
    rw [isMark] at opens
    cases opens
  · rename_i isMark
    rw [isMark] at opens
    cases opens
  · rfl

/-- What begins an operand does so where a statement or an item can begin. -/
theorem step?_of_opens {state : ParseState} {token : Token}
    (opens : token.lexeme.opensOperand = true) {focus : Focus}
    (isStart : focus = .statement ∨ focus = .item) :
    ParseState.step? hole { state with focus := focus } token =
      ParseState.step? hole { state with focus := .operand } token := by
  have same := (@operandStep?_focus hole state focus token).trans
    (operandStep?_focus state .operand token).symm
  rcases isStart with rfl | rfl
  · exact (statementStep?_of_opens opens).trans same
  · exact (itemStep?_of_opens opens).trans same

theorem Leads.start (state : ParseState) {row : List Lexeme} {goal : ParseState → Prop}
    (leads : Leads hole { state with focus := .operand } row goal)
    (opens : Opens row) {focus : Focus}
    (isStart : focus = .statement ∨ focus = .item) :
    Leads hole { state with focus := focus } row goal := by
  intro tokens same
  obtain ⟨next, reached, reads⟩ := leads tokens same
  refine ⟨next, reached, fun more => ?_⟩
  rw [← reads more]
  cases row with
  | nil => cases opens
  | cons lexeme rest =>
      have isOpening : lexeme.opensOperand = true := opens
      have isSolid : lexeme.isSeparator = false := by
        cases lexeme with
        | blank c => cases isOpening
        | comment text => cases isOpening
        | _ => rfl
      rw [solid_cons isSolid] at same
      cases tokens with
      | nil => cases same
      | cons token later =>
          obtain ⟨rfl, -⟩ := List.cons.inj same
          rw [List.cons_append, ParseState.readTokens, ParseState.readTokens,
            step?_of_opens isOpening isStart]

/-! Ending an operand -/

/-- The lexemes that neither go on with an operand nor make it a target. -/
def Lexeme.endsOperand : Lexeme → Bool
  | .mark .dot => false
  | .mark .openBracket => false
  | .mark .openParen => false
  | .mark .equal => false
  | _ => true

theorem afterStep?_of_ends {state : ParseState} {token : Token}
    (ends : token.lexeme.endsOperand = true) (operand : Expr) :
    state.afterStep? hole operand token =
      state.closingStep? hole (ParseState.closeSums operand state.frames).1
        (ParseState.closeSums operand state.frames).2 token := by
  unfold ParseState.afterStep?
  split
  · rename_i isMark
    rw [isMark] at ends
    cases ends
  · rename_i isMark
    rw [isMark] at ends
    cases ends
  · rename_i isMark
    rw [isMark] at ends
    cases ends
  · rename_i isMark outermost
    rw [isMark] at ends
    cases ends
  · rfl

theorem closingStep?_outside (state : ParseState) (focus : Focus) (within : List Frame)
    (value : Expr) (frames : List Frame) (token : Token) :
    ParseState.closingStep? hole { state with focus := focus, frames := within } value frames token =
      state.closingStep? hole value frames token := by
  unfold ParseState.closingStep?
  split <;> rfl

/-- Frames that end sums: none of them is waiting for an operand of a sum or a negation. -/
def Sealed (frames : List Frame) : Prop :=
  ∀ operand, ParseState.closeSums operand frames = (operand, frames)

def Makes (operand : Expr) (opened : List Frame) (read : Expr) : Prop :=
  ∀ frames, ParseState.closeSums operand (opened ++ frames) = ParseState.closeSums read frames

theorem Makes.nil (operand : Expr) : Makes operand [] operand :=
  fun _ => rfl

def Ended (state : ParseState) (frames : List Frame) (read : Expr) (next : ParseState) : Prop :=
  ∃ operand opened, Makes operand opened read ∧
    next = { state with focus := .after operand, frames := opened ++ frames }

/-- What ends an operand is read outside of the sums that the operand closes. -/
theorem Ended.step? {state next : ParseState} {frames : List Frame} {read : Expr}
    (ended : Ended state frames read next) (isSealed : Sealed frames) {token : Token}
    (ends : token.lexeme.endsOperand = true) :
    next.step? hole token = state.closingStep? hole read frames token := by
  obtain ⟨operand, opened, makes, rfl⟩ := ended
  have closed := (makes frames).trans (isSealed read)
  have step := @afterStep?_of_ends hole
    { state with focus := .after operand, frames := opened ++ frames } token ends operand
  rw [closed, closingStep?_outside] at step
  exact step

def Reached (state : ParseState) (expr : Expr) (next : ParseState) : Prop :=
  ∃ read, read.unlined = expr.unlined ∧ Ended state state.frames read next

def ReachedWhole (state : ParseState) (expr : Expr) (next : ParseState) : Prop :=
  ∃ read, read.unlined = expr.unlined ∧ next = { state with focus := .after read }

theorem ReachedWhole.reached {state next : ParseState} {expr : Expr}
    (whole : ReachedWhole state expr next) : Reached state expr next := by
  obtain ⟨read, same, rfl⟩ := whole
  exact ⟨read, same, read, [], .nil read, rfl⟩

/-! Lists -/

section

variable {α : Type} {row : α → List Lexeme}
variable {start finished : List α → ParseState} {ended : List α → α → ParseState → Prop}
variable {close : Mark}

/--
A list with commas between its items and a mark behind them. It can begin an item after the ones read
before, which stand newest first.
-/
structure Listing (hole : List Char → Except SyntaxFault Expr) (start : List α → ParseState)
    (ended : List α → α → ParseState → Prop) (close : Mark) (finished : List α → ParseState) :
    Prop where
  comma : ∀ {before read next}, ended before read next → ∀ position,
    next.step? hole ⟨.mark .comma, position⟩ = some (start (read :: before))
  last : ∀ {before read next}, ended before read next → ∀ position,
    next.step? hole ⟨.mark close, position⟩ = some (finished (read :: before).reverse)
  empty : ∀ position, (start []).step? hole ⟨.mark close, position⟩ = some (finished [])

namespace Listing

theorem leads_rest (listing : Listing hole start ended close finished) (plain : α → α) {rest : List α}
    (each : ∀ item ∈ rest, ∀ before, Leads hole (start before) (row item) fun next =>
      ∃ read, plain read = plain item ∧ ended before read next)
    {before : List α} {read : α} {next : ParseState} (reached : ended before read next) :
    Leads hole next
      (rest.flatMap (fun item => .mark .comma :: .blank ' ' :: row item) ++ [.mark close])
      fun last => ∃ reads, reads.map plain = rest.map plain ∧
        last = finished (before.reverse ++ read :: reads) := by
  -- What has been read moves to `before`, so the next comma finds a list like this one.
  induction rest generalizing before read next with
  | nil =>
      refine .step _ rfl (listing.last reached) (.nil ⟨[], rfl, ?_⟩)
      rw [List.reverse_cons]
  | cons item rest ih =>
      rw [List.flatMap_cons, List.append_assoc]
      refine .step _ rfl (listing.comma reached) (.blank (.append (each item List.mem_cons_self _) ?_))
      rintro between ⟨found, same, isEnded⟩
      refine (ih (fun later here => each later (List.mem_cons_of_mem _ here)) isEnded).mono ?_
      rintro last ⟨reads, sameRest, isLast⟩
      refine ⟨found :: reads, ?_, ?_⟩
      · rw [List.map_cons, List.map_cons, same, sameRest]
      · rw [isLast, List.reverse_cons, List.append_assoc, List.singleton_append]

theorem leads (listing : Listing hole start ended close finished) (plain : α → α) {items : List α}
    (each : ∀ item ∈ items, ∀ before, Leads hole (start before) (row item) fun next =>
      ∃ read, plain read = plain item ∧ ended before read next) :
    Leads hole (start []) (commas (items.map row) ++ [.mark close]) fun last =>
      ∃ reads, reads.map plain = items.map plain ∧ last = finished reads := by
  cases items with
  | nil => exact .step _ rfl listing.empty (.nil ⟨[], rfl, rfl⟩)
  | cons item rest =>
      rw [List.map_cons, commas, List.flatMap_map, List.append_assoc]
      refine .append (each item List.mem_cons_self []) ?_
      rintro between ⟨found, same, isEnded⟩
      refine (listing.leads_rest plain (fun later here => each later (List.mem_cons_of_mem _ here))
        isEnded).mono ?_
      rintro last ⟨reads, sameRest, isLast⟩
      refine ⟨found :: reads, ?_, isLast⟩
      rw [List.map_cons, List.map_cons, same, sameRest]

end Listing

end

theorem listing_items (state : ParseState) :
    Listing hole
      (fun before => { state with focus := .item, frames := .items before :: state.frames })
      (fun before => Ended state (.items before :: state.frames)) .closeBracket
      fun items => { state with focus := .after (.array items) } where
  comma isEnded _ := isEnded.step? (fun _ => rfl) rfl
  last isEnded _ := isEnded.step? (fun _ => rfl) rfl
  empty _ := rfl

theorem listing_arguments (state : ParseState) (function : Expr) :
    Listing hole
      (fun before =>
        { state with focus := .item, frames := .arguments function before :: state.frames })
      (fun before => Ended state (.arguments function before :: state.frames)) .closeParen
      fun arguments =>
        { state with focus := .after (.call function arguments function.line?) } where
  comma isEnded _ := isEnded.step? (fun _ => rfl) rfl
  last isEnded _ := isEnded.step? (fun _ => rfl) rfl
  empty _ := rfl

theorem listing_fields (state : ParseState) :
    Listing hole (fun before => { state with focus := .key before })
      (fun before field => Ended state (.field before field.1 :: state.frames) field.2) .closeBrace
      fun fields => { state with focus := .after (.object fields) } where
  comma isEnded _ := isEnded.step? (fun _ => rfl) rfl
  last isEnded _ := isEnded.step? (fun _ => rfl) rfl
  empty _ := rfl

end SheetScript.Script
