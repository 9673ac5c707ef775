import SheetScript.Proofs.Script.Enclosure
import SheetScript.Proofs.Script.Nodes

/-!
The lines of nodes. A name and a member have the line of a token. An index and a call have that of
what stands to the left of them, which may have none.
-/

namespace SheetScript.Script

open SheetScript.Text (Position)

/-! Nodes and the tokens they are read from -/

section

variable (hole : List Char → Except SyntaxFault Expr) (tokens : List Token)

inductive ReadFrom : Expr → Prop
  | literal {value : Constant} (short : value.isShort = true) : ReadFrom (.literal value)
  | template {body : List Char} {position : Position} {parts : List (Part Expr)}
      (inTokens : ⟨.template body, position⟩ ∈ tokens)
      (isRead : templateParts hole body position = .ok parts) : ReadFrom (.template parts)
  | name {token : Token} (inTokens : token ∈ tokens) (id : String) :
      ReadFrom (.name id token.position.line)
  | member {token : Token} {owner : Expr} (inTokens : token ∈ tokens) (readOwner : ReadFrom owner)
      (field : String) : ReadFrom (.member owner field token.position.line)
  | index {owner key : Expr} (readOwner : ReadFrom owner) (readKey : ReadFrom key) :
      ReadFrom (.index owner key owner.line?)
  | call {function : Expr} {arguments : List Expr} (readFunction : ReadFrom function)
      (readEach : ∀ argument ∈ arguments, ReadFrom argument) :
      ReadFrom (.call function arguments function.line?)
  | object {fields : List (String × Expr)} (readEach : ∀ field ∈ fields, ReadFrom field.2) :
      ReadFrom (.object fields)
  | array {items : List Expr} (readEach : ∀ item ∈ items, ReadFrom item) : ReadFrom (.array items)
  | sum {left right : Expr} (readLeft : ReadFrom left) (readRight : ReadFrom right) :
      ReadFrom (.sum left right)
  | negation {operand : Expr} (readOperand : ReadFrom operand) : ReadFrom (.negation operand)

def Frame.IsRead : Frame → Prop
  | sum left => ReadFrom hole tokens left
  | index owner => ReadFrom hole tokens owner
  | arguments function before =>
    ReadFrom hole tokens function ∧ ∀ argument ∈ before, ReadFrom hole tokens argument
  | items before => ∀ item ∈ before, ReadFrom hole tokens item
  | field before _ => ∀ field ∈ before, ReadFrom hole tokens field.2
  | assignment target => ReadFrom hole tokens target
  | _ => True

def Focus.IsRead : Focus → Prop
  | after value => ReadFrom hole tokens value
  | memberName owner => ReadFrom hole tokens owner
  | key before => ∀ field ∈ before, ReadFrom hole tokens field.2
  | afterKey before _ line => (∀ field ∈ before, ReadFrom hole tokens field.2) ∧
      ∀ found, line = some found → ∃ token ∈ tokens, token.position.line = found
  | _ => True

namespace ParseState

structure IsRead (state : ParseState) : Prop where
  focus : state.focus.IsRead hole tokens
  frames : ∀ frame ∈ state.frames, frame.IsRead hole tokens
  done : ∀ single ∈ state.done, ∀ node ∈ single.nodes, ReadFrom hole tokens node

/-- A refused number, template or target is put aside with its fault, and then nothing is said. -/
def Sound (state : ParseState) : Prop :=
  state.fault = none → state.IsRead hole tokens

end ParseState

end

theorem forall_mem_reverse {α : Type} {property : α → Prop} {row : List α}
    (each : ∀ item ∈ row, property item) : ∀ item ∈ row.reverse, property item :=
  fun item inside => each item (List.mem_reverse.1 inside)

namespace ParseState

variable {hole : List Char → Except SyntaxFault Expr} {tokens : List Token}
  {state next ended : ParseState} {token : Token}

theorem sound_withFault (state : ParseState) (fault : SyntaxFault) :
    (state.withFault fault).Sound hole tokens := by
  intro none
  simp [withFault] at none

theorem isShort_of_namedConstant? {name : String} {value : Constant}
    (named : namedConstant? name = some value) : value.isShort = true := by
  unfold namedConstant? at named
  split at named
  case h_5 => cases named
  all_goals
    obtain rfl := Option.some.inj named
    rfl

theorem readFrom_wordOperand (inTokens : token ∈ tokens) (name : String) :
    ReadFrom hole tokens (wordOperand name token.position.line) := by
  unfold wordOperand
  split
  · rename_i value named
    exact .literal (isShort_of_namedConstant? named)
  · exact .name inTokens name

theorem isShort_of_numberConstant? {text : List Char} {value : Constant}
    (isRead : numberConstant? text = some value) : value.isShort = true := by
  unfold numberConstant? at isRead
  split at isRead
  · split at isRead
    · cases isRead
    · rename_i short
      obtain rfl := Option.some.inj isRead
      have below := (digitsValue_lt text).trans_le
        (Nat.pow_le_pow_right (by decide) (not_lt.1 short))
      exact decide_eq_true (decimalLength_le_digitLimit.2 below)
  · obtain rfl := Option.some.inj isRead
    rfl

theorem sound_operandStep? (sound : state.Sound hole tokens) (inTokens : token ∈ tokens)
    (step : state.operandStep? hole token = some next) : next.Sound hole tokens := by
  obtain ⟨lexeme, position⟩ := token
  unfold operandStep? at step
  dsimp only at step
  split at step
  case h_4 body =>
    split at step
    · rename_i parts isRead
      obtain rfl := Option.some.inj step
      exact fun clean => ⟨.template inTokens isRead, (sound clean).frames, (sound clean).done⟩
    · obtain rfl := Option.some.inj step
      exact sound_withFault _ _
  -- No operand starts so. Behind it the operands of one token, and last those that open a frame.
  case h_9 => cases step
  case h_1 name =>
    obtain rfl := Option.some.inj step
    exact fun clean =>
      ⟨readFrom_wordOperand inTokens _, (sound clean).frames, (sound clean).done⟩
  case h_2 text =>
    split at step
    · rename_i value isRead
      obtain rfl := Option.some.inj step
      have short := isShort_of_numberConstant? isRead
      exact fun clean => ⟨.literal short, (sound clean).frames, (sound clean).done⟩
    · obtain rfl := Option.some.inj step
      exact sound_withFault _ _
  case h_3 =>
    obtain rfl := Option.some.inj step
    exact fun clean => ⟨.literal rfl, (sound clean).frames, (sound clean).done⟩
  case h_8 =>
    obtain rfl := Option.some.inj step
    exact fun clean => ⟨nofun, (sound clean).frames, (sound clean).done⟩
  all_goals
    obtain rfl := Option.some.inj step
    intro clean
    refine ⟨trivial, List.forall_mem_cons.2 ⟨?_, (sound clean).frames⟩, (sound clean).done⟩
    first | trivial | exact nofun

theorem sound_statementStep? (sound : state.Sound hole tokens) (inTokens : token ∈ tokens)
    (step : state.statementStep? hole token = some next) : next.Sound hole tokens := by
  unfold statementStep? at step
  split at step
  · obtain rfl := Option.some.inj step
    exact fun clean => ⟨trivial, (sound clean).frames, (sound clean).done⟩
  · split at step
    · obtain rfl := Option.some.inj step
      exact fun clean => ⟨trivial, (sound clean).frames, (sound clean).done⟩
    · exact sound_operandStep? sound inTokens step
  · exact sound_operandStep? sound inTokens step

theorem isRead_closeSums {operand : Expr} {frames : List Frame}
    (readOperand : ReadFrom hole tokens operand)
    (readFrames : ∀ frame ∈ frames, frame.IsRead hole tokens) :
    ReadFrom hole tokens (closeSums operand frames).1 ∧
      ∀ frame ∈ (closeSums operand frames).2, frame.IsRead hole tokens := by
  fun_induction closeSums operand frames with
  | case1 operand frames ih =>
      exact ih (.negation readOperand) (List.forall_mem_cons.1 readFrames).2
  | case2 operand left frames ih =>
      obtain ⟨readLeft, behind⟩ := List.forall_mem_cons.1 readFrames
      exact ih (.sum readLeft readOperand) behind
  | case3 => exact ⟨readOperand, readFrames⟩

def atOperand (state : ParseState) (value : Expr) (frames : List Frame) : ParseState :=
  { state with focus := .after value, frames := frames }

theorem sound_finish {value : Expr} {frames : List Frame}
    (sound : (state.atOperand value frames).Sound hole tokens) {single : Statement}
    (nodes : state.fault = none → ∀ node ∈ single.nodes, ReadFrom hole tokens node) :
    (state.finish single).Sound hole tokens :=
  fun clean => ⟨trivial, nofun, List.forall_mem_cons.2 ⟨nodes clean, (sound clean).done⟩⟩

theorem sound_endStatement? {value : Expr} {frames : List Frame}
    (sound : (state.atOperand value frames).Sound hole tokens)
    (ends : state.endStatement? value frames = some ended) : ended.Sound hole tokens := by
  have readValue (clean : state.fault = none) : ∀ node ∈ [value], ReadFrom hole tokens node :=
    List.forall_mem_singleton.2 (sound clean).focus
  unfold endStatement? at ends
  split at ends
  · obtain rfl := Option.some.inj ends
    exact sound_finish sound readValue
  · obtain rfl := Option.some.inj ends
    exact sound_finish sound readValue
  · split at ends
    · rename_i target found
      obtain rfl := Option.some.inj ends
      refine sound_finish sound fun clean => List.forall_mem_cons.2 ⟨(sound clean).focus, ?_⟩
      rw [Target.toExpr_of_ofExpr? found]
      exact List.forall_mem_singleton.2 ((sound clean).frames _ List.mem_cons_self)
    · obtain rfl := Option.some.inj ends
      exact sound_withFault _ _
  · cases ends

theorem sound_closingStep? {value : Expr} {frames : List Frame}
    (sound : (state.atOperand value frames).Sound hole tokens) (inTokens : token ∈ tokens)
    (step : state.closingStep? hole value frames token = some next) : next.Sound hole tokens := by
  unfold closingStep? at step
  split at step
  -- A token that closes nothing here ends the statement and starts the next one.
  case h_10 =>
    obtain ⟨between, ends, starts⟩ := Option.bind_eq_some_iff.1 step
    exact sound_statementStep? (sound_endStatement? sound ends) inTokens starts
  all_goals
    obtain rfl := Option.some.inj step
    intro clean
    obtain ⟨focus, readFrames, readDone⟩ := sound clean
    have readValue : ReadFrom hole tokens value := focus
  case h_1 => exact ⟨trivial, List.forall_mem_cons.2 ⟨readValue, readFrames⟩, readDone⟩
  all_goals
    obtain ⟨readTop, behind⟩ := List.forall_mem_cons.1 readFrames
  case h_2 => exact ⟨readValue, behind, readDone⟩
  case h_3 => exact ⟨.index readTop readValue, behind, readDone⟩
  case h_4 =>
    have readArguments := List.forall_mem_cons.2 ⟨readValue, readTop.2⟩
    exact ⟨trivial, List.forall_mem_cons.2 ⟨⟨readTop.1, readArguments⟩, behind⟩, readDone⟩
  case h_5 =>
    have readArguments := List.forall_mem_cons.2 ⟨readValue, readTop.2⟩
    exact ⟨.call readTop.1 (forall_mem_reverse readArguments), behind, readDone⟩
  case h_6 before _ _ =>
    have readItems : ∀ item ∈ value :: before, ReadFrom hole tokens item :=
      List.forall_mem_cons.2 ⟨readValue, readTop⟩
    exact ⟨trivial, List.forall_mem_cons.2 ⟨readItems, behind⟩, readDone⟩
  case h_7 before _ _ =>
    have readItems : ∀ item ∈ value :: before, ReadFrom hole tokens item :=
      List.forall_mem_cons.2 ⟨readValue, readTop⟩
    exact ⟨.array (forall_mem_reverse readItems), behind, readDone⟩
  case h_8 => exact ⟨List.forall_mem_cons.2 ⟨readValue, readTop⟩, behind, readDone⟩
  case h_9 before key _ _ =>
    have readFields : ∀ field ∈ (key, value) :: before, ReadFrom hole tokens field.2 :=
      List.forall_mem_cons.2 ⟨readValue, readTop⟩
    exact ⟨.object (forall_mem_reverse readFields), behind, readDone⟩

theorem sound_afterStep? {operand : Expr} (isAfter : state.focus = .after operand)
    (sound : state.Sound hole tokens) (inTokens : token ∈ tokens)
    (step : state.afterStep? hole operand token = some next) : next.Sound hole tokens := by
  have readOperand (clean : state.fault = none) : ReadFrom hole tokens operand := by
    have read := (sound clean).focus
    rwa [isAfter] at read
  unfold afterStep? at step
  split at step
  case h_5 =>
    refine sound_closingStep? (fun clean => ?_) inTokens step
    obtain ⟨readValue, behind⟩ := isRead_closeSums (readOperand clean) (sound clean).frames
    exact ⟨readValue, behind, (sound clean).done⟩
  all_goals
    obtain rfl := Option.some.inj step
    intro clean
  case h_1 => exact ⟨readOperand clean, (sound clean).frames, (sound clean).done⟩
  case h_2 =>
    exact ⟨trivial, List.forall_mem_cons.2 ⟨readOperand clean, (sound clean).frames⟩,
      (sound clean).done⟩
  case h_3 =>
    exact ⟨trivial, List.forall_mem_cons.2 ⟨⟨readOperand clean, nofun⟩, (sound clean).frames⟩,
      (sound clean).done⟩
  case h_4 =>
    exact ⟨trivial, List.forall_mem_singleton.2 (readOperand clean), (sound clean).done⟩

theorem sound_itemStep? (sound : state.Sound hole tokens) (inTokens : token ∈ tokens)
    (step : state.itemStep? hole token = some next) : next.Sound hole tokens := by
  unfold itemStep? at step
  split at step
  · rename_i top _
    obtain rfl := Option.some.inj step
    intro clean
    have frames := (sound clean).frames
    rw [top] at frames
    obtain ⟨readTop, behind⟩ := List.forall_mem_cons.1 frames
    exact ⟨.call readTop.1 (forall_mem_reverse readTop.2), behind, (sound clean).done⟩
  · rename_i top _
    obtain rfl := Option.some.inj step
    intro clean
    have frames := (sound clean).frames
    rw [top] at frames
    obtain ⟨readTop, behind⟩ := List.forall_mem_cons.1 frames
    exact ⟨.array (forall_mem_reverse readTop), behind, (sound clean).done⟩
  · exact sound_operandStep? sound inTokens step

theorem sound_keyStep? {before : List (String × Expr)} (isKey : state.focus = .key before)
    (sound : state.Sound hole tokens) (inTokens : token ∈ tokens)
    (step : state.keyStep? before token = some next) : next.Sound hole tokens := by
  have readBefore (clean : state.fault = none) :
      ∀ field ∈ before, ReadFrom hole tokens field.2 := by
    have read := (sound clean).focus
    rwa [isKey] at read
  unfold keyStep? at step
  split at step
  case h_4 => cases step
  all_goals
    obtain rfl := Option.some.inj step
    intro clean
  case h_1 =>
    have ofToken : ∀ found, some token.position.line = some found →
        ∃ token ∈ tokens, token.position.line = found :=
      fun found same => ⟨token, inTokens, Option.some.inj same⟩
    exact ⟨⟨readBefore clean, ofToken⟩, (sound clean).frames, (sound clean).done⟩
  case h_2 => exact ⟨⟨readBefore clean, nofun⟩, (sound clean).frames, (sound clean).done⟩
  case h_3 =>
    exact ⟨.object (forall_mem_reverse (readBefore clean)), (sound clean).frames,
      (sound clean).done⟩

theorem sound_afterKeyStep? {before : List (String × Expr)} {key : String} {line : Option Nat}
    (isKey : state.focus = .afterKey before key line) (sound : state.Sound hole tokens)
    (step : state.afterKeyStep? before key line token = some next) : next.Sound hole tokens := by
  have readFields (clean : state.fault = none) :
      (∀ field ∈ before, ReadFrom hole tokens field.2) ∧ ∀ found, line = some found →
        ∀ field ∈ (key, .name key found) :: before, ReadFrom hole tokens field.2 := by
    have read := (sound clean).focus
    rw [isKey] at read
    refine ⟨read.1, fun found isLine => List.forall_mem_cons.2 ⟨?_, read.1⟩⟩
    obtain ⟨owner, inTokens, rfl⟩ := read.2 found isLine
    exact .name inTokens key
  unfold afterKeyStep? at step
  split at step
  case h_4 => cases step
  all_goals
    obtain rfl := Option.some.inj step
    intro clean
    obtain ⟨readBefore, readField⟩ := readFields clean
  case h_1 =>
    exact ⟨trivial, List.forall_mem_cons.2 ⟨readBefore, (sound clean).frames⟩, (sound clean).done⟩
  case h_2 => exact ⟨readField _ rfl, (sound clean).frames, (sound clean).done⟩
  case h_3 =>
    exact ⟨.object (forall_mem_reverse (readField _ rfl)), (sound clean).frames,
      (sound clean).done⟩

/-- A token that the parser reads leaves it with nodes that are read from the tokens. -/
theorem sound_step? (sound : state.Sound hole tokens) (inTokens : token ∈ tokens)
    (step : state.step? hole token = some next) : next.Sound hole tokens := by
  unfold step? at step
  split at step
  · exact sound_statementStep? sound inTokens step
  · exact sound_operandStep? sound inTokens step
  · exact sound_itemStep? sound inTokens step
  · rename_i operand isAfter
    exact sound_afterStep? isAfter sound inTokens step
  · rename_i owner isName
    split at step
    · obtain rfl := Option.some.inj step
      intro clean
      have read := (sound clean).focus
      rw [isName] at read
      exact ⟨.member inTokens read _, (sound clean).frames, (sound clean).done⟩
    · cases step
  · split at step
    · obtain rfl := Option.some.inj step
      exact fun clean => ⟨trivial, (sound clean).frames, (sound clean).done⟩
    · cases step
  · split at step
    · obtain rfl := Option.some.inj step
      exact fun clean => ⟨trivial, List.forall_mem_singleton.2 trivial, (sound clean).done⟩
    · cases step
  · rename_i before isKey
    exact sound_keyStep? isKey sound inTokens step
  · rename_i before key line isKey
    exact sound_afterKeyStep? isKey sound step

theorem sound_readTokens {row : List Token} (inTokens : row ⊆ tokens)
    (sound : state.Sound hole tokens) (reads : state.readTokens hole row = .ok ended) :
    ended.Sound hole tokens := by
  induction row generalizing state with
  | nil =>
      obtain rfl := Except.ok.inj reads
      exact sound
  | cons token rest ih =>
      obtain ⟨here, behind⟩ := List.cons_subset.1 inTokens
      rw [readTokens] at reads
      cases step : state.step? hole token with
      | none =>
          rw [step] at reads
          cases reads
      | some between =>
          rw [step] at reads
          exact ih behind (sound_step? sound here step) reads

theorem sound_toProgram? (sound : state.Sound hole tokens)
    (ends : state.toProgram? = some ended) : ended.Sound hole tokens := by
  unfold toProgram? at ends
  split at ends
  · obtain rfl := Option.some.inj ends
    exact sound
  · rename_i operand isAfter
    refine sound_endStatement? (fun clean => ?_) ends
    have read := (sound clean).focus
    rw [isAfter] at read
    obtain ⟨readValue, behind⟩ := isRead_closeSums read (sound clean).frames
    exact ⟨readValue, behind, (sound clean).done⟩
  · cases ends

theorem readFrom_toExpression? (sound : state.Sound hole tokens) (clean : state.fault = none)
    {expr : Expr} (ends : state.toExpression? = some expr) : ReadFrom hole tokens expr := by
  unfold toExpression? at ends
  split at ends
  · rename_i operand isAfter
    split at ends
    · rename_i value closes
      obtain rfl := Option.some.inj ends
      have read := (sound clean).focus
      rw [isAfter] at read
      have whole := (isRead_closeSums read (sound clean).frames).1
      rwa [closes] at whole
    · cases ends
  · cases ends

end ParseState

/-! Sources -/

def tokensOf (source : List Char) : List Token :=
  place .start (lexemes source).1

def lineCount (source : List Char) : Nat :=
  source.count '\n' + 1

theorem line_of_mem_place {position : Position} {row : List Lexeme} {token : Token}
    (here : token ∈ place position row) : position.line ≤ token.position.line ∧
      token.position.line ≤ position.line + (row.flatMap Lexeme.text).count '\n' := by
  induction row generalizing position with
  | nil => cases here
  | cons lexeme rest ih =>
      have behind := line_advance position lexeme.text
      have later (inRest : token ∈ place (position.advance lexeme.text) rest) := ih inRest
      rw [List.flatMap_cons, List.count_append]
      rw [place] at here
      split at here
      · have := later here
        omega
      · rcases List.mem_cons.1 here with rfl | inRest
        · dsimp only
          omega
        · have := later inRest
          omega

/-- Tokens stand on lines of their source. -/
theorem line_of_mem_tokensOf {source : List Char} {token : Token}
    (here : token ∈ tokensOf source) :
    1 ≤ token.position.line ∧ token.position.line ≤ lineCount source := by
  obtain ⟨notBefore, notBehind⟩ := line_of_mem_place here
  have text := congrArg (List.count '\n') (flatMap_text_lexemes source)
  rw [List.count_append] at text
  have first : Position.start.line = 1 := rfl
  unfold lineCount
  omega

theorem mem_of_mem_place {position : Position} {row : List Lexeme} {token : Token}
    (here : token ∈ place position row) : token.lexeme ∈ row := by
  induction row generalizing position with
  | nil => cases here
  | cons lexeme rest ih =>
      rw [place] at here
      split at here
      · exact List.mem_cons_of_mem _ (ih here)
      · rcases List.mem_cons.1 here with rfl | inRest
        · exact List.mem_cons_self
        · exact List.mem_cons_of_mem _ (ih inRest)

/-- A node that is read from the tokens of a source, holes of templates as sources of their own. -/
def ReadIn (source : List Char) (node : Expr) : Prop :=
  ∃ hole, (∀ inner read, hole inner = .ok read → parseExpression inner = .ok read) ∧
    ReadFrom hole (tokensOf source) node

theorem readIn_of_parseScript {source : List Char} {program : List Statement}
    (parsed : parseScript source = .ok program) :
    ∀ single ∈ program, ∀ node ∈ single.nodes, ReadIn source node := by
  obtain ⟨row, state, ended, cut, reads, ends, clean, rfl⟩ := parseScript_eq_ok.1 parsed
  have sound : ParseState.programStart.Sound parseExpression (tokensOf source) :=
    fun _ => ⟨trivial, List.forall_mem_nil _, List.forall_mem_nil _⟩
  have tokens : place .start row = tokensOf source := by
    rw [tokensOf, cut]
  rw [tokens] at reads
  have soundEnd := ParseState.sound_toProgram?
    (ParseState.sound_readTokens (List.Subset.refl _) sound reads) ends
  intro single inProgram node isNode
  exact ⟨parseExpression, fun _ _ read => read,
    (soundEnd clean).done single (List.mem_reverse.1 inProgram) node isNode⟩

theorem readIn_of_parseExpression {source : List Char} {expr : Expr}
    (parsed : parseExpression source = .ok expr) : ReadIn source expr := by
  rw [parseExpression] at parsed
  obtain ⟨row, state, cut, reads, ends, clean⟩ := parseExpressionWith_eq_ok.1 parsed
  have tokens : place .start row = tokensOf source := by
    rw [tokensOf, cut]
  rw [tokens] at reads
  refine ⟨_, fun inner read found => ?_, ParseState.readFrom_toExpression?
    (ParseState.sound_readTokens (List.Subset.refl _) ?_ reads) clean ends⟩
  · split at found
    · exact found
    · cases found
  · exact fun _ => ⟨trivial, List.forall_mem_singleton.2 trivial, List.forall_mem_nil _⟩

/-! What stands below a node -/

def Expr.isTemplate : Expr → Bool
  | template _ => true
  | _ => false

/-- The holes of a template are the sources that its body is cut into, each read on its own. -/
theorem hole_of_templateParts {hole : List Char → Except SyntaxFault Expr} {body : List Char}
    {position : Position} {parts : List (Part Expr)}
    (isRead : templateParts hole body position = .ok parts) {child : Expr}
    (isHole : .hole child ∈ parts) :
    ∃ found piece, pieces body = .ok found ∧ piece ∈ found.holes ∧ hole piece.2 = .ok child := by
  cases cut : pieces body with
  | error rest =>
      unfold templateParts at isRead
      rw [cut] at isRead
      cases isRead
  | ok found =>
      rw [templateParts_eq hole position cut] at isRead
      obtain ⟨rows, ran, rfl⟩ := ok_of_map isRead
      have noText (raw : List Char) : .hole child ∉ textPart raw := by
        rcases textPart_cases raw with ⟨none, -⟩ | ⟨value, some⟩
        · simp [none]
        · simp [some]
      have inRows := (List.mem_append.1 isHole).resolve_right (noText found.last)
      obtain ⟨row, isRow, inRow⟩ := List.mem_flatten.1 inRows
      obtain ⟨piece, isPiece, ofPiece⟩ := mem_of_mapM ran isRow
      obtain ⟨read, isChild, rfl⟩ := hole_of_pieceParts ofPiece
      have same := (List.mem_append.1 inRow).resolve_left (noText piece.1)
      obtain rfl := Part.hole.inj (List.mem_singleton.1 same)
      exact ⟨found, piece, rfl, isPiece, isChild⟩

theorem mem_children_template {parts : List (Part Expr)} {child : Expr}
    (isChild : child ∈ (Expr.template parts).children) : .hole child ∈ parts := by
  obtain ⟨part, isPart, isHole⟩ := List.mem_filterMap.1 isChild
  cases part with
  | text value => cases isHole
  | hole found => exact Option.some.inj isHole ▸ isPart

/-- What stands below a node that is no template is read from the same tokens. -/
theorem ReadFrom.child {hole : List Char → Except SyntaxFault Expr} {tokens : List Token}
    {node child : Expr} (readFrom : ReadFrom hole tokens node)
    (notTemplate : node.isTemplate = false) (isChild : child ∈ node.children) :
    ReadFrom hole tokens child := by
  cases readFrom with
  | literal => cases isChild
  | template => cases notTemplate
  | name => cases isChild
  | member _ readOwner => exact List.mem_singleton.1 isChild ▸ readOwner
  | index readOwner readKey =>
      rcases List.mem_cons.1 isChild with rfl | isKey
      · exact readOwner
      · exact List.mem_singleton.1 isKey ▸ readKey
  | call readFunction readEach =>
      rcases List.mem_cons.1 isChild with rfl | isArgument
      · exact readFunction
      · exact readEach child isArgument
  | object readEach =>
      obtain ⟨field, isField, rfl⟩ := List.mem_map.1 isChild
      exact readEach field isField
  | array readEach => exact readEach child isChild
  | sum readLeft readRight =>
      rcases List.mem_cons.1 isChild with rfl | isRight
      · exact readLeft
      · exact List.mem_singleton.1 isRight ▸ readRight
  | negation readOperand => exact List.mem_singleton.1 isChild ▸ readOperand

theorem ReadIn.child {source : List Char} {node child : Expr} (readIn : ReadIn source node)
    (notTemplate : node.isTemplate = false) (isChild : child ∈ node.children) :
    ReadIn source child := by
  obtain ⟨hole, agrees, readFrom⟩ := readIn
  exact ⟨hole, agrees, readFrom.child notTemplate isChild⟩

/-- What stands in a template of a source is read from a hole of one of its template tokens. -/
theorem ReadIn.hole {source : List Char} {parts : List (Part Expr)} {child : Expr}
    (readIn : ReadIn source (.template parts)) (isHole : .hole child ∈ parts) :
    ∃ body found piece, .template body ∈ (lexemes source).1 ∧ pieces body = .ok found ∧
      piece ∈ found.holes ∧ parseExpression piece.2 = .ok child := by
  obtain ⟨hole, agrees, readFrom⟩ := readIn
  cases readFrom with
  | @template body position _ inTokens isRead =>
      obtain ⟨found, piece, cut, isPiece, read⟩ := hole_of_templateParts isRead isHole
      exact ⟨body, found, piece, mem_of_mem_place inTokens, cut, isPiece, agrees _ _ read⟩

/-! Lines -/

/-- A name, a member, or what indexes and calls behind one of them make. -/
def Expr.hasNamedHead : Expr → Bool
  | name _ _ => true
  | member _ _ _ => true
  | index owner _ _ => owner.hasNamedHead
  | call function _ _ => function.hasNamedHead
  | _ => false

theorem ReadFrom.line {hole : List Char → Except SyntaxFault Expr} {tokens : List Token}
    {node : Expr} (readFrom : ReadFrom hole tokens node) {line : Nat}
    (isLine : node.line? = some line) : ∃ token ∈ tokens, token.position.line = line := by
  induction readFrom with
  | @name token inTokens id => exact ⟨token, inTokens, Option.some.inj isLine⟩
  | @member token owner inTokens => exact ⟨token, inTokens, Option.some.inj isLine⟩
  | index _ _ ih => exact ih isLine
  | call _ _ ih => exact ih isLine
  | _ => cases isLine

theorem ReadFrom.isSome_line? {hole : List Char → Except SyntaxFault Expr} {tokens : List Token}
    {node : Expr} (readFrom : ReadFrom hole tokens node) :
    node.line?.isSome = node.hasNamedHead := by
  induction readFrom with
  | index _ _ ih => exact ih
  | call _ _ ih => exact ih
  | _ => rfl

/-- A node has a line of its source, unless what stands to the left end of it has none. -/
theorem ReadIn.line {source : List Char} {node : Expr} (readIn : ReadIn source node) :
    node.line?.isSome = node.hasNamedHead ∧
      ∀ line, node.line? = some line → 1 ≤ line ∧ line ≤ lineCount source := by
  obtain ⟨hole, -, readFrom⟩ := readIn
  refine ⟨readFrom.isSome_line?, fun line isLine => ?_⟩
  obtain ⟨token, inTokens, rfl⟩ := readFrom.line isLine
  exact line_of_mem_tokensOf inTokens

end SheetScript.Script
