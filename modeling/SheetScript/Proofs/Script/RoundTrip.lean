import Mathlib.Data.List.Induction
import Mathlib.Data.Nat.Digits.Defs
import SheetScript.Proofs.Script.Steps

/-!
Reading what was written: a script in writing is read as the tree that it was written from, apart
from line numbers.
-/

namespace SheetScript.Script

open SheetScript.Number SheetScript.Text

variable {hole : List Char → Except SyntaxFault Expr}

/-! Constants and names -/

theorem digitValue?_digitChar :
    ∀ digit < 10, digitValue? (Nat.digitChar digit) = some digit := by
  decide

theorem digitsValue_snoc (front : List Char) (c : Char) :
    digitsValue (front ++ [c]) = 10 * digitsValue front + (digitValue? c).getD 0 := by
  unfold digitsValue
  rw [List.foldl_append]
  rfl

theorem digitsValue_decimalDigits (n : Nat) : digitsValue (decimalDigits n) = n := by
  unfold decimalDigits
  induction n using Nat.strongRecOn with
  | _ n ih =>
      by_cases small : n < 10
      · rw [Nat.toDigits_of_lt_base small]
        simp [digitsValue, digitValue?_digitChar n small]
      · rw [Nat.toDigits_of_base_le (by decide) (by omega), digitsValue_snoc,
          ih (n / 10) (by omega), digitValue?_digitChar (n % 10) (Nat.mod_lt _ (by decide)),
          Option.getD_some]
        omega

theorem digitValue?_lt {c : Char} {digit : Nat} (isValue : digitValue? c = some digit) :
    digit < 10 := by
  unfold digitValue? at isValue
  obtain ⟨start, found, rfl⟩ := Option.map_eq_some_iff.1 isValue
  have inRun := List.find?_some found
  simp only [Bool.and_eq_true, decide_eq_true_eq] at inRun
  omega

theorem digitsValue_lt (text : List Char) : digitsValue text < 10 ^ text.length := by
  induction text using List.reverseRecOn with
  | nil => decide
  | append_singleton front c ih =>
      have small : (digitValue? c).getD 0 < 10 := by
        cases isValue : digitValue? c with
        | none => decide
        | some digit => exact digitValue?_lt isValue
      rw [digitsValue_snoc, List.length_append, List.length_singleton, Nat.pow_succ]
      omega

/-- The integers that have no more digits than integers are read from. -/
theorem decimalLength_le_digitLimit {n : Nat} :
    decimalLength n ≤ digitLimit ↔ n < 10 ^ digitLimit := by
  constructor
  · intro short
    calc
      n = digitsValue (decimalDigits n) := (digitsValue_decimalDigits n).symm
      _ < 10 ^ decimalLength n := digitsValue_lt _
      _ ≤ 10 ^ digitLimit := Nat.pow_le_pow_right (by decide) short
  · exact Nat.toDigits_length 10 n digitLimit (by decide)

theorem numberConstant?_decimalDigits {n : Nat} (short : decimalLength n ≤ digitLimit) :
    numberConstant? (decimalDigits n) = some (.int n) := by
  have digits : (decimalDigits n).all Text.isDigit = true := by
    rw [List.all_eq_true]
    exact fun c here => isDigit_of_ascii (Nat.isDigit_of_mem_toDigits (by decide) (by decide) here)
  have notLong : ¬ digitLimit < (decimalDigits n).length := not_lt.2 short
  rw [numberConstant?, if_pos digits, if_neg notLong, digitsValue_decimalDigits]

theorem wordOperand_name {name : String} (notKeyword : keywords.contains name = false)
    (line : Nat) : wordOperand name line = .name name line := by
  have none : namedConstant? name = none := by
    unfold namedConstant?
    split
    · cases notKeyword
    · cases notKeyword
    · cases notKeyword
    · cases notKeyword
    · rfl
  rw [wordOperand, none]

theorem operandStep?_constant {constant : Constant} (exact : constant.isFloat = false)
    (short : constant.isShort = true) (state : ParseState) (position : Position) :
    state.operandStep? hole ⟨constant.lexeme, position⟩ =
      some { state with focus := .after (.literal constant) } := by
  cases constant with
  | text value =>
      change some { state with focus := .after (.literal (.text (String.ofList _))) } = _
      rw [unescape_quoted, String.ofList_toList]
  | int value =>
      unfold ParseState.operandStep?
      dsimp only [Constant.lexeme]
      rw [numberConstant?_decimalDigits (of_decide_eq_true short)]
  | float value => cases exact
  | bool value => cases value <;> rfl
  | null => rfl
  | undefined => rfl

theorem operandStep?_name {name : String} (notKeyword : keywords.contains name = false)
    (state : ParseState) (position : Position) :
    state.operandStep? hole ⟨.word name.toList, position⟩ =
      some { state with focus := .after (.name name position.line) } := by
  change some { state with focus := .after (wordOperand (String.ofList name.toList) _) } = _
  rw [String.ofList_toList, wordOperand_name notKeyword]

/-! Operands -/

/-- An expression has been read; behind it, only sums and negations wait for a longer operand. -/
def Parsed (state : ParseState) (expr : Expr) (next : ParseState) : Prop :=
  Reached state expr next ∧ (expr.isPostfix = true → ReachedWhole state expr next)

theorem ReachedWhole.parsed {state next : ParseState} {expr : Expr}
    (whole : ReachedWhole state expr next) : Parsed state expr next :=
  ⟨whole.reached, fun _ => whole⟩

theorem Reached.parsed {state next : ParseState} {expr : Expr} (reached : Reached state expr next)
    (notPostfix : expr.isPostfix = false) : Parsed state expr next :=
  ⟨reached, fun isPostfix => absurd (isPostfix.symm.trans notPostfix) (by decide)⟩

def Reads (hole : List Char → Except SyntaxFault Expr) (expr : Expr) : Prop :=
  ∀ state : ParseState, (expr.isSum = true → Sealed state.frames) →
    Leads hole { state with focus := .operand } expr.written (Parsed state expr)

namespace Reads

theorem inParens {expr : Expr} (reads : Reads hole expr) (state : ParseState) :
    Leads hole { state with focus := .operand } (inParens expr.written)
      (ReachedWhole state expr) := by
  refine .step { state with focus := .operand, frames := .paren :: state.frames } rfl
    (fun _ => rfl) ?_
  refine .append (reads { state with frames := .paren :: state.frames } fun _ _ => rfl) ?_
  rintro next ⟨⟨read, same, ended⟩, -⟩
  exact .step _ rfl (fun _ => ended.step? (fun _ => rfl) rfl) (.nil ⟨read, same, rfl⟩)

theorem owner {expr : Expr} (reads : Reads hole expr) (state : ParseState) :
    Leads hole { state with focus := .operand }
      (if expr.isPostfix then expr.written else Script.inParens expr.written)
      (ReachedWhole state expr) := by
  split
  · rename_i isPostfix
    have notSum : expr.isSum = true → Sealed state.frames := by
      intro isSum
      cases expr with
      | sum left right => cases isPostfix
      | _ => cases isSum
    exact (reads state notSum).mono fun next parsed => parsed.2 isPostfix
  · exact reads.inParens state

theorem operand {expr : Expr} (reads : Reads hole expr) (state : ParseState) :
    Leads hole { state with focus := .operand }
      (if expr.isSum then Script.inParens expr.written else expr.written) (Reached state expr) := by
  split
  · exact (reads.inParens state).mono fun next whole => whole.reached
  · rename_i notSum
    exact (reads state fun isSum => absurd isSum notSum).mono fun next parsed => parsed.1

end Reads

/-! Templates -/

def ReadsWritten (hole : List Char → Except SyntaxFault Expr) : Prop :=
  ∀ expr : Expr, expr.isWritable = true → expr.hasShortIntegers = true →
    expr.source.contains '`' = false →
      ∃ read, hole expr.source = .ok read ∧ read.unlined = expr.unlined

def ReadsTemplates (hole : List Char → Except SyntaxFault Expr) (row : List Lexeme) : Prop :=
  ∀ body, .template body ∈ row → ReadsWritten hole

theorem mem_commas {lexeme : Lexeme} {row : List Lexeme} {rows : List (List Lexeme)}
    (inRow : lexeme ∈ row) (inRows : row ∈ rows) : lexeme ∈ commas rows := by
  cases rows with
  | nil => cases inRows
  | cons first rest =>
      rw [commas, List.mem_append]
      rcases List.mem_cons.1 inRows with rfl | behind
      · exact .inl inRow
      · refine .inr (List.mem_flatMap.2 ⟨row, behind, ?_⟩)
        exact List.mem_cons_of_mem _ (List.mem_cons_of_mem _ inRow)

theorem mem_inParens {lexeme : Lexeme} {row : List Lexeme} (here : lexeme ∈ row) :
    lexeme ∈ inParens row :=
  List.mem_cons_of_mem _ (List.mem_append_left _ here)

namespace ReadsTemplates

variable {row before : List Lexeme}

theorem front (templates : ReadsTemplates hole (before ++ row)) : ReadsTemplates hole before :=
  fun body here => templates body (List.mem_append_left _ here)

theorem behind (templates : ReadsTemplates hole (before ++ row)) : ReadsTemplates hole row :=
  fun body here => templates body (List.mem_append_right _ here)

theorem rest {lexeme : Lexeme} (templates : ReadsTemplates hole (lexeme :: row)) :
    ReadsTemplates hole row :=
  fun body here => templates body (List.mem_cons_of_mem _ here)

theorem inside (templates : ReadsTemplates hole (inParens row)) : ReadsTemplates hole row :=
  fun body here => templates body (mem_inParens here)

theorem owner {condition : Bool}
    (templates : ReadsTemplates hole (if condition then row else inParens row)) :
    ReadsTemplates hole row := by
  split at templates
  · exact templates
  · exact templates.inside

theorem operand {condition : Bool}
    (templates : ReadsTemplates hole (if condition then inParens row else row)) :
    ReadsTemplates hole row := by
  split at templates
  · exact templates.inside
  · exact templates

theorem item {rows : List (List Lexeme)} (templates : ReadsTemplates hole (commas rows))
    (here : row ∈ rows) : ReadsTemplates hole row :=
  fun body inRow => templates body (mem_commas inRow here)

end ReadsTemplates

/-! Trees -/

theorem opensOperand_name {name : String} (notKeyword : keywords.contains name = false) :
    (Lexeme.word name.toList).opensOperand = true := by
  rw [Lexeme.opensOperand, String.ofList_toList]
  simp only [keywords, List.contains_cons, List.contains_nil, Bool.or_eq_false_iff] at notKeyword ⊢
  simp only [notKeyword, Bool.or_self, Bool.not_false]

theorem Opens.owner {row : List Lexeme} (opens : Opens row) (condition : Bool) :
    Opens (if condition then row else inParens row) := by
  split
  · exact opens
  · rfl

theorem Expr.opens_written {expr : Expr} (writable : expr.isWritable = true) :
    Opens expr.written := by
  -- What is written first decides: that of the leftmost part, where the parts stand in a row.
  induction expr using Expr.ind with
  | literal constant =>
      cases constant with
      | float value => cases writable
      | bool value => cases value <;> decide
      | null => decide
      | undefined => decide
      | _ => rfl
  | template parts => rfl
  | name id line =>
      simp only [isWritable, Bool.and_eq_true, Bool.not_eq_true'] at writable
      exact opensOperand_name writable.2
  | member owner field line ih =>
      simp only [isWritable, Bool.and_eq_true] at writable
      rw [written]
      exact ((ih writable.1).owner _).append _
  | index owner key line ihOwner ihKey =>
      simp only [isWritable, Bool.and_eq_true] at writable
      rw [written, List.append_assoc]
      exact ((ihOwner writable.1).owner _).append _
  | call function arguments line ihFunction ihItems =>
      simp only [isWritable, Bool.and_eq_true] at writable
      rw [written, List.append_assoc]
      exact ((ihFunction writable.1).owner _).append _
  | object fields ih => rfl
  | array items ih => rfl
  | sum left right ihLeft ihRight =>
      simp only [isWritable, Bool.and_eq_true] at writable
      rw [written, List.append_assoc]
      exact (ihLeft writable.1).append _
  | negation operand ih => rfl

/-- A list of expressions is read from an item to its end. -/
theorem Reads.each {items : List Expr} (reads : ∀ item ∈ items, Reads hole item)
    (opens : ∀ item ∈ items, Opens item.written) (frame : List Expr → Frame)
    (isSealed : ∀ before frames, Sealed (frame before :: frames)) (state : ParseState) :
    ∀ item ∈ items, ∀ before : List Expr,
      Leads hole { state with focus := .item, frames := frame before :: state.frames } item.written
        fun next => ∃ read, read.unlined = item.unlined ∧
          Ended state (frame before :: state.frames) read next := by
  intro item here before
  refine .start { state with frames := frame before :: state.frames } ?_
    (opens item here) (.inr rfl)
  exact (reads item here { state with frames := frame before :: state.frames }
    fun _ => isSealed before _).mono fun next parsed => parsed.1

theorem keyStep?_key (key : String) (state : ParseState) (before : List (String × Expr))
    (position : Position) :
    ∃ line, state.keyStep? before ⟨keyLexeme key, position⟩ =
      some { state with focus := .afterKey before key line } := by
  unfold keyLexeme
  split
  · refine ⟨some position.line, ?_⟩
    change some { state with focus := .afterKey before (String.ofList key.toList) _ } = _
    rw [String.ofList_toList]
  · refine ⟨none, ?_⟩
    change some { state with focus := .afterKey before (String.ofList (unescape _)) _ } = _
    rw [unescape_quoted, String.ofList_toList]

/-- A field is read from its key to the end of its value. -/
theorem Reads.field {field : String × Expr} (reads : Reads hole field.2) (state : ParseState)
    (before : List (String × Expr)) :
    Leads hole { state with focus := .key before } (Expr.writtenField field) fun next =>
      ∃ read : String × Expr, (read.1, read.2.unlined) = (field.1, field.2.unlined) ∧
        Ended state (.field before read.1 :: state.frames) read.2 next := by
  obtain ⟨key, value⟩ := field
  have isSolid : (keyLexeme key).isSeparator = false := by
    unfold keyLexeme
    split <;> rfl
  refine .cons isSolid fun position => ?_
  obtain ⟨line, step⟩ := keyStep?_key key { state with focus := .key before } before position
  refine ⟨_, step, ?_⟩
  refine .step { state with focus := .operand, frames := .field before key :: state.frames } rfl
    (fun _ => rfl) (.blank ?_)
  refine (reads { state with frames := .field before key :: state.frames } fun _ _ => rfl).mono ?_
  rintro next ⟨⟨read, same, ended⟩, -⟩
  exact ⟨(key, read), by rw [same], ended⟩

/-- A sum is read from its left operand on: what stands left of it keeps out of the frames around. -/
theorem Reads.sum {left right : Expr} (readsLeft : Reads hole left)
    (readsRight : Reads hole right) : Reads hole (.sum left right) := by
  intro state isSealed
  have sealedHere : Sealed state.frames := isSealed rfl
  rw [Expr.written, List.append_assoc]
  refine .append (readsLeft state fun _ => sealedHere) ?_
  rintro next ⟨⟨first, sameFirst, ended⟩, -⟩
  refine .blank (.step { state with focus := .operand, frames := .sum first :: state.frames } rfl
    (fun _ => ended.step? sealedHere rfl) (.blank ?_))
  refine (readsRight.operand { state with frames := .sum first :: state.frames }).mono ?_
  rintro last ⟨second, sameSecond, operand, opened, makes, rfl⟩
  refine Reached.parsed ⟨.sum first second, ?_, operand, opened ++ [.sum first], ?_, ?_⟩ rfl
  · rw [Expr.unlined_sum, Expr.unlined_sum, sameFirst, sameSecond]
  · intro frames
    rw [List.append_assoc, makes]
    rfl
  · rw [List.append_assoc]
    rfl

theorem Reads.negation {operand : Expr} (reads : Reads hole operand) :
    Reads hole (.negation operand) := by
  intro state _
  rw [Expr.written_negation]
  refine .step { state with focus := .operand, frames := .negation :: state.frames } rfl
    (fun _ => rfl) ?_
  refine (reads.operand { state with frames := .negation :: state.frames }).mono ?_
  rintro last ⟨read, same, inner, opened, makes, rfl⟩
  refine Reached.parsed ⟨.negation read, ?_, inner, opened ++ [.negation], ?_, ?_⟩ rfl
  · rw [Expr.unlined, Expr.unlined, same]
  · intro frames
    rw [List.append_assoc, makes]
    rfl
  · rw [List.append_assoc]
    rfl

theorem Reads.member {owner : Expr} (reads : Reads hole owner) (field : String) (line : Nat) :
    Reads hole (.member owner field line) := by
  intro state _
  rw [Expr.written]
  refine .append (reads.owner state) ?_
  rintro next ⟨read, same, rfl⟩
  refine .step { state with focus := .memberName read } rfl (fun _ => rfl) ?_
  refine .cons rfl fun position => ?_
  refine ⟨{ state with focus := .after (.member read field position.line) }, ?_, .nil ?_⟩
  · change some { state with focus := .after (.member read (String.ofList field.toList) _) } = _
    rw [String.ofList_toList]
  · refine ReachedWhole.parsed ⟨_, ?_, rfl⟩
    rw [Expr.unlined, Expr.unlined, same]

theorem Reads.index {owner key : Expr} (readsOwner : Reads hole owner) (readsKey : Reads hole key)
    (line : Option Nat) : Reads hole (.index owner key line) := by
  intro state _
  rw [Expr.written, List.append_assoc]
  refine .append (readsOwner.owner state) ?_
  rintro next ⟨first, sameFirst, rfl⟩
  refine .step { state with focus := .operand, frames := .index first :: state.frames } rfl
    (fun _ => rfl) ?_
  refine .append (readsKey { state with frames := .index first :: state.frames } fun _ _ => rfl) ?_
  rintro between ⟨⟨second, sameSecond, ended⟩, -⟩
  refine .step { state with focus := .after (.index first second first.line?) } rfl
    (fun _ => ended.step? (fun _ => rfl) rfl) (.nil (ReachedWhole.parsed ⟨_, ?_, rfl⟩))
  rw [Expr.unlined, Expr.unlined, sameFirst, sameSecond]

theorem Reads.call {function : Expr} {arguments : List Expr} (readsFunction : Reads hole function)
    (reads : ∀ item ∈ arguments, Reads hole item)
    (opens : ∀ item ∈ arguments, Opens item.written) (line : Option Nat) :
    Reads hole (.call function arguments line) := by
  intro state _
  rw [Expr.written, Expr.writtenEach_eq_map, List.append_assoc]
  refine .append (readsFunction.owner state) ?_
  rintro next ⟨first, sameFirst, rfl⟩
  refine .step { state with focus := .item, frames := .arguments first [] :: state.frames } rfl
    (fun _ => rfl) ?_
  refine ((listing_arguments state first).leads Expr.unlined
    (Reads.each reads opens (.arguments first) (fun _ _ _ => rfl) state)).mono ?_
  rintro last ⟨found, sameEach, rfl⟩
  refine ReachedWhole.parsed ⟨_, ?_, rfl⟩
  rw [Expr.unlined, Expr.unlined, Expr.unlinedEach_eq_map, Expr.unlinedEach_eq_map, sameFirst,
    sameEach]

theorem Reads.array {items : List Expr} (reads : ∀ item ∈ items, Reads hole item)
    (opens : ∀ item ∈ items, Opens item.written) : Reads hole (.array items) := by
  intro state _
  rw [Expr.written, Expr.writtenEach_eq_map]
  refine .step { state with focus := .item, frames := .items [] :: state.frames } rfl
    (fun _ => rfl) ?_
  refine ((listing_items state).leads Expr.unlined
    (Reads.each reads opens .items (fun _ _ _ => rfl) state)).mono ?_
  rintro last ⟨found, sameEach, rfl⟩
  refine ReachedWhole.parsed ⟨_, ?_, rfl⟩
  rw [Expr.unlined, Expr.unlined, Expr.unlinedEach_eq_map, Expr.unlinedEach_eq_map, sameEach]

theorem Reads.object {fields : List (String × Expr)}
    (reads : ∀ field ∈ fields, Reads hole field.2) : Reads hole (.object fields) := by
  intro state _
  rw [Expr.written, Expr.writtenFields_eq_map]
  refine .step { state with focus := .key [] } rfl (fun _ => rfl) ?_
  refine ((listing_fields state).leads (fun field => (field.1, field.2.unlined))
    fun field here before => (reads field here).field state before).mono ?_
  rintro last ⟨found, sameFields, rfl⟩
  refine ReachedWhole.parsed ⟨_, ?_, rfl⟩
  rw [Expr.unlined, Expr.unlined, Expr.unlinedFields_eq_map, Expr.unlinedFields_eq_map, sameFields]

theorem Reads.literal {constant : Constant} (exact : constant.isFloat = false)
    (short : constant.isShort = true) : Reads hole (.literal constant) := by
  intro state _
  have isSolid : constant.lexeme.isSeparator = false := by
    cases constant with
    | bool value => cases value <;> rfl
    | _ => rfl
  exact .step _ isSolid (operandStep?_constant exact short { state with focus := .operand })
    (.nil (ReachedWhole.parsed ⟨_, rfl, rfl⟩))

theorem Reads.name {id : String} (notKeyword : keywords.contains id = false) (line : Nat) :
    Reads hole (.name id line) := by
  intro state _
  refine .cons rfl fun position => ?_
  refine ⟨{ state with focus := .after (.name id position.line) }, ?_,
    .nil (ReachedWhole.parsed ⟨_, ?_, rfl⟩)⟩
  · exact @operandStep?_name hole id notKeyword { state with focus := .operand } position
  · rw [Expr.unlined, Expr.unlined]

theorem Reads.template {parts : List (Part Expr)} (writable : Expr.partsWritable parts = true)
    (reads : ReadsHoles hole parts) : Reads hole (.template parts) := by
  intro state _
  rw [Expr.written]
  refine .cons rfl fun position => ?_
  obtain ⟨found, cut, same⟩ := templateParts_written position writable reads
  refine ⟨{ state with focus := .after (.template found) }, ?_, .nil ?_⟩
  · unfold ParseState.step? ParseState.operandStep?
    dsimp only
    rw [cut]
  · refine ReachedWhole.parsed ⟨_, ?_, rfl⟩
    rw [Expr.unlined, Expr.unlined, same]

/-- A tree is read from its writing, if the holes of its templates are. -/
theorem Expr.reads_written {expr : Expr} (writable : expr.isWritable = true)
    (short : expr.hasShortIntegers = true) (templates : ReadsTemplates hole expr.written) :
    Reads hole expr := by
  -- The frames around are free in `Reads`: each part is read within a frame of the whole.
  induction expr using Expr.ind with
  | literal constant =>
      simp only [isWritable, Bool.not_eq_true'] at writable
      rw [hasShortIntegers] at short
      exact .literal writable short
  | template parts ih =>
      rw [isWritable] at writable
      rw [hasShortIntegers, partsShort_iff] at short
      rw [written] at templates
      refine .template writable fun hole here => ?_
      have holeWritable := hole_of_partsWritable writable here
      exact templates _ (List.mem_singleton_self _) hole holeWritable.1 (short hole here)
        holeWritable.2
  | name id line =>
      simp only [isWritable, Bool.and_eq_true, Bool.not_eq_true'] at writable
      exact .name writable.2 line
  | member owner field line ih =>
      simp only [isWritable, Bool.and_eq_true] at writable
      rw [hasShortIntegers] at short
      rw [written] at templates
      exact (ih writable.1 short templates.front.owner).member field line
  | index owner key line ihOwner ihKey =>
      simp only [isWritable, Bool.and_eq_true] at writable
      simp only [hasShortIntegers, Bool.and_eq_true] at short
      rw [written] at templates
      exact (ihOwner writable.1 short.1 templates.front.front.owner).index
        (ihKey writable.2 short.2 templates.front.behind.rest) line
  | call function arguments line ihFunction ihItems =>
      simp only [isWritable, Bool.and_eq_true, eachWritable_eq_all, List.all_eq_true] at writable
      simp only [hasShortIntegers, Bool.and_eq_true, eachShort_eq_all, List.all_eq_true] at short
      rw [written, writtenEach_eq_map] at templates
      refine (ihFunction writable.1 short.1 templates.front.front.owner).call (fun item here => ?_)
        (fun item here => opens_written (writable.2 item here)) line
      refine ihItems item here (writable.2 item here) (short.2 item here) ?_
      exact templates.front.behind.rest.item (List.mem_map_of_mem here)
  | object fields ih =>
      simp only [isWritable, fieldsWritable_eq_all, List.all_eq_true] at writable
      simp only [hasShortIntegers, fieldsShort_eq_all, List.all_eq_true] at short
      rw [written, writtenFields_eq_map] at templates
      refine .object fun field here => ih field here (writable field here) (short field here) ?_
      have inField := templates.front.rest.item (List.mem_map_of_mem here)
      exact inField.rest.rest.rest
  | array items ih =>
      simp only [isWritable, eachWritable_eq_all, List.all_eq_true] at writable
      simp only [hasShortIntegers, eachShort_eq_all, List.all_eq_true] at short
      rw [written, writtenEach_eq_map] at templates
      refine .array (fun item here => ?_) fun item here => opens_written (writable item here)
      exact ih item here (writable item here) (short item here)
        (templates.front.rest.item (List.mem_map_of_mem here))
  | sum left right ihLeft ihRight =>
      simp only [isWritable, Bool.and_eq_true] at writable
      simp only [hasShortIntegers, Bool.and_eq_true] at short
      rw [written] at templates
      exact .sum (ihLeft writable.1 short.1 templates.front.front)
        (ihRight writable.2 short.2 templates.behind.operand)
  | negation operand ih =>
      rw [isWritable] at writable
      rw [hasShortIntegers] at short
      rw [written] at templates
      exact .negation (ih writable short templates.rest.operand)

/-! Sources -/

/-- A row that is cut as it is and leads to a state is read as a source to that state. -/
theorem readSource_written {state : ParseState} {row : List Lexeme} {goal : ParseState → Prop}
    (sound : RowSound row []) (leads : Leads hole state row goal) :
    ∃ next last, goal next ∧
      state.readSource hole (row.flatMap Lexeme.text) = .ok (next, last) := by
  obtain ⟨next, reached, reads⟩ := leads (place .start row) (map_lexeme_place .start row)
  have whole : state.readTokens hole (place .start row) = .ok next := by
    have same := reads []
    rw [List.append_nil] at same
    exact same
  refine ⟨next, ((place .start row).getLast?.map Token.position).getD .start, reached, ?_⟩
  unfold ParseState.readSource
  rw [lexemes_source sound]
  dsimp only
  rw [whole]
  rfl

theorem parseExpressionWith_ok {source : List Char} {state : ParseState} {last : Position}
    {read : Expr} (isRead : ParseState.expressionStart.readSource hole source = .ok (state, last))
    (isExpression : state.toExpression? = some read) (sane : state.fault = none) :
    parseExpressionWith hole source = .ok read := by
  unfold parseExpressionWith
  rw [isRead]
  dsimp only [bind, Except.bind]
  rw [isExpression, sane]
  rfl

theorem Expr.parseExpressionWith_source {expr : Expr} (writable : expr.isWritable = true)
    (short : expr.hasShortIntegers = true) (templates : ReadsTemplates hole expr.written) :
    ∃ read, parseExpressionWith hole expr.source = .ok read ∧ read.unlined = expr.unlined := by
  have leads : Leads hole .expressionStart expr.written (Parsed .expressionStart expr) :=
    reads_written writable short templates .expressionStart fun _ _ => rfl
  have sound : RowSound expr.written [] := rowSound_written writable rfl
  obtain ⟨next, last, ⟨⟨read, same, operand, opened, makes, rfl⟩, -⟩, isRead⟩ :=
    readSource_written sound leads
  have closed : ParseState.closeSums operand (opened ++ ParseState.expressionStart.frames) =
      (read, [.whole]) := makes [.whole]
  refine ⟨read, parseExpressionWith_ok isRead ?_ rfl, same⟩
  unfold ParseState.toExpression?
  dsimp only
  rw [closed]

theorem parseExpression_readsWritten : ReadsWritten parseExpression := by
  intro expr writable short noBacktick
  rw [parseExpression]
  refine Expr.parseExpressionWith_source writable short fun body here => ?_
  have inSource : '`' ∈ expr.source :=
    List.mem_flatMap.2 ⟨.template body, here, List.mem_cons_self⟩
  rw [← List.contains_iff_mem, noBacktick] at inSource
  cases inSource

/-! Statements -/

/-- A semicolon ends a statement, and no construct that is open around an operand takes it. -/
theorem closingStep?_semicolon (state : ParseState) (value : Expr) (frames : List Frame)
    (position : Position) :
    state.closingStep? hole value frames ⟨.mark .semicolon, position⟩ =
      (state.endStatement? value frames).map fun ended => { ended with focus := .statement } := by
  have last : state.closingStep? hole value frames ⟨.mark .semicolon, position⟩ =
      (state.endStatement? value frames).bind fun ended =>
        ended.statementStep? hole ⟨.mark .semicolon, position⟩ := by
    rcases frames with - | ⟨frame, outer⟩
    · rfl
    · cases frame <;> rfl
  rw [last]
  cases state.endStatement? value frames <;> rfl

/-- The value of a statement is read to the end of the statement. -/
theorem leads_value {expr : Expr} (reads : Reads hole expr) {frames : List Frame}
    (isSealed : Sealed frames) {done : List Statement} {statement : Expr → Statement}
    (ends : ∀ value, ParseState.endStatement? ⟨.operand, frames, done, none⟩ value frames =
      some ⟨.statement, [], statement value :: done, none⟩) :
    Leads hole ⟨.operand, frames, done, none⟩ (expr.written ++ [.mark .semicolon]) fun next =>
      ∃ read : Expr, read.unlined = expr.unlined ∧
        next = ⟨.statement, [], statement read :: done, none⟩ := by
  refine .append (reads ⟨.operand, frames, done, none⟩ fun _ => isSealed) ?_
  rintro next ⟨⟨read, same, ended⟩, -⟩
  refine .step _ rfl (fun position => ?_) (.nil ⟨read, same, rfl⟩)
  rw [ended.step? isSealed rfl, closingStep?_semicolon, ends]
  rfl

theorem Target.of_unlined {target : Target} {read : Expr}
    (same : read.unlined = target.toExpr.unlined) :
    ∃ found, ofExpr? read = some found ∧ found.unlined = target.unlined := by
  cases target with
  | name id line =>
      cases read with
      | name readId readLine =>
          refine ⟨.name readId readLine, rfl, ?_⟩
          simpa [toExpr, Expr.unlined, unlined] using same
      | _ => simp [toExpr, Expr.unlined] at same
  | member owner field line =>
      cases read with
      | member readOwner readField readLine =>
          refine ⟨.member readOwner readField readLine, rfl, ?_⟩
          simpa [toExpr, Expr.unlined, unlined] using same
      | _ => simp [toExpr, Expr.unlined] at same

/-- A statement is read from where a statement can begin to where the next one can. -/
def Statement.Leads (hole : List Char → Except SyntaxFault Expr) (statement : Statement) : Prop :=
  ∀ done, Script.Leads hole ⟨.statement, [], done, none⟩ statement.written fun next =>
    ∃ read : Statement, read.unlined = statement.unlined ∧
      next = ⟨.statement, [], read :: done, none⟩

namespace Statement

theorem leads_declare {name : String} {expr : Expr} (reads : Reads hole expr) :
    (declare name expr).Leads hole := by
  intro done
  have ends (value : Expr) : ParseState.endStatement? ⟨.operand, [.declaration name], done, none⟩
      value [.declaration name] = some ⟨.statement, [], .declare name value :: done, none⟩ :=
    rfl
  have value := leads_value reads (fun _ => rfl) ends
  rw [written, List.append_assoc]
  refine .step ⟨.declaredName, [], done, none⟩ rfl (fun _ => rfl) (.blank (.step
    ⟨.declaredEqual name, [], done, none⟩ rfl ?_ (.blank (.step
      ⟨.operand, [.declaration name], done, none⟩ rfl (fun _ => rfl) (.blank (value.mono ?_))))))
  · intro position
    change some (ParseState.mk (.declaredEqual (String.ofList name.toList)) _ _ _) = _
    rw [String.ofList_toList]
  · rintro next ⟨read, same, rfl⟩
    exact ⟨.declare name read, by rw [unlined, unlined, same], rfl⟩

theorem leads_assign {target : Target} {expr : Expr} (readsTarget : Reads hole target.toExpr)
    (opens : Opens target.toExpr.written) (reads : Reads hole expr) :
    (assign target expr).Leads hole := by
  intro done
  rw [written, List.append_assoc, List.append_assoc]
  refine .append (.start ⟨.statement, [], done, none⟩ (readsTarget ⟨.operand, [], done, none⟩
    fun _ _ => rfl) opens (.inl rfl)) ?_
  rintro next ⟨-, whole⟩
  have isPostfix : target.toExpr.isPostfix = true := by
    cases target <;> rfl
  obtain ⟨place, samePlace, rfl⟩ := whole isPostfix
  obtain ⟨found, isTarget, sameTarget⟩ := Target.of_unlined samePlace
  have ends (value : Expr) : ParseState.endStatement? ⟨.operand, [.assignment place], done, none⟩
      value [.assignment place] = some ⟨.statement, [], .assign found value :: done, none⟩ := by
    unfold ParseState.endStatement?
    dsimp only
    rw [isTarget]
    rfl
  have value := leads_value reads (fun _ => rfl) ends
  refine .blank (.step ⟨.operand, [.assignment place], done, none⟩ rfl (fun _ => rfl)
    (.blank (value.mono ?_)))
  rintro next ⟨read, same, rfl⟩
  exact ⟨.assign found read, by rw [unlined, unlined, same, sameTarget], rfl⟩

theorem leads_expression {expr : Expr} (reads : Reads hole expr) (opens : Opens expr.written) :
    (expression expr).Leads hole := by
  intro done
  have ends (value : Expr) : ParseState.endStatement? ⟨.operand, [], done, none⟩ value [] =
      some ⟨.statement, [], .expression value :: done, none⟩ :=
    rfl
  have value := leads_value reads (fun _ => rfl) ends
  refine (Leads.start ⟨.statement, [], done, none⟩ value (opens.append _) (.inl rfl)).mono ?_
  rintro next ⟨read, same, rfl⟩
  exact ⟨.expression read, by rw [unlined, unlined, same], rfl⟩

theorem leads_written {statement : Statement} (writable : statement.isWritable = true)
    (short : statement.hasShortIntegers = true) (reads : ReadsWritten hole) :
    statement.Leads hole := by
  have readsAll {expr : Expr} (exprWritable : expr.isWritable = true)
      (exprShort : expr.hasShortIntegers = true) : Reads hole expr :=
    Expr.reads_written exprWritable exprShort fun _ _ => reads
  cases statement with
  | declare name expr =>
      rw [isWritable, Bool.and_eq_true] at writable
      rw [hasShortIntegers] at short
      exact leads_declare (readsAll writable.2 short)
  | assign target expr =>
      rw [isWritable, Bool.and_eq_true] at writable
      rw [hasShortIntegers, Bool.and_eq_true] at short
      exact leads_assign (readsAll writable.1 short.1) (Expr.opens_written writable.1)
        (readsAll writable.2 short.2)
  | expression expr =>
      rw [isWritable] at writable
      rw [hasShortIntegers] at short
      exact leads_expression (readsAll writable short) (Expr.opens_written writable)

end Statement

theorem leads_script {script : List Statement} (writable : script.all Statement.isWritable = true)
    (short : script.all Statement.hasShortIntegers = true) (reads : ReadsWritten hole)
    (done : List Statement) :
    Leads hole ⟨.statement, [], done, none⟩ (script.flatMap Statement.written) fun next =>
      ∃ read : List Statement, read.map Statement.unlined = script.map Statement.unlined ∧
        next = ⟨.statement, [], read.reverse ++ done, none⟩ := by
  induction script generalizing done with
  | nil => exact .nil ⟨[], rfl, rfl⟩
  | cons statement rest ih =>
      rw [List.all_cons, Bool.and_eq_true] at writable short
      rw [List.flatMap_cons]
      refine .append (Statement.leads_written writable.1 short.1 reads done) ?_
      rintro next ⟨first, same, rfl⟩
      refine (ih writable.2 short.2 (first :: done)).mono ?_
      rintro last ⟨read, sameRest, rfl⟩
      refine ⟨first :: read, ?_, ?_⟩
      · rw [List.map_cons, List.map_cons, same, sameRest]
      · rw [List.reverse_cons, List.append_assoc, List.singleton_append]

theorem parseScript_ok {source : List Char} {state : ParseState} {last : Position}
    (isRead : ParseState.programStart.readSource parseExpression source = .ok (state, last))
    (isBetween : state.focus = .statement) (sane : state.fault = none) :
    parseScript source = .ok state.done.reverse := by
  have isProgram : state.toProgram? = some state := by
    unfold ParseState.toProgram?
    rw [isBetween]
  unfold parseScript
  rw [isRead]
  dsimp only [bind, Except.bind]
  rw [isProgram]
  dsimp only
  rw [sane]
  rfl

/-- A script of short integers is read from its writing, apart from line numbers. -/
theorem exists_read_source {script : List Statement}
    (writable : script.all Statement.isWritable = true)
    (short : script.all Statement.hasShortIntegers = true) :
    ∃ read, parseScript (source script) = .ok read ∧
      read.map Statement.unlined = script.map Statement.unlined := by
  obtain ⟨next, last, ⟨read, same, rfl⟩, isRead⟩ :=
    readSource_written (rowSound_script writable)
      (leads_script writable short parseExpression_readsWritten [])
  refine ⟨read, ?_, same⟩
  have parsed := parseScript_ok isRead rfl rfl
  rw [List.append_nil, List.reverse_reverse] at parsed
  exact parsed

end SheetScript.Script
