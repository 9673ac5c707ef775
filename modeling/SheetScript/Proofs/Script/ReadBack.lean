import SheetScript.Proofs.Script.NodeLines

/-!
Reading back. Every integer that is read is short, so a script in writing is read as the tree that
it was written from exactly if its integers are short.
-/

namespace SheetScript.Script

/-! Trees without their line numbers -/

theorem all_congr_of_mem {α : Type} {row : List α} {first second : α → Bool}
    (same : ∀ item ∈ row, first item = second item) : row.all first = row.all second := by
  rw [Bool.eq_iff_iff, List.all_eq_true, List.all_eq_true]
  exact forall₂_congr fun item here => by rw [same item here]

namespace Expr

theorem partsShort_unlinedParts {parts : List (Part Expr)}
    (same : ∀ hole, .hole hole ∈ parts → hole.unlined.hasShortIntegers = hole.hasShortIntegers) :
    partsShort (unlinedParts parts) = partsShort parts := by
  induction parts with
  | nil => rfl
  | cons first rest ih =>
      have sameRest := ih fun hole here => same hole (List.mem_cons_of_mem _ here)
      cases first with
      | text value => rw [unlinedParts, partsShort, partsShort, sameRest]
      | hole expr =>
          rw [unlinedParts, partsShort, partsShort, sameRest, same expr List.mem_cons_self]

theorem hasShortIntegers_unlined (expr : Expr) :
    expr.unlined.hasShortIntegers = expr.hasShortIntegers := by
  induction expr using ind with
  | literal constant => rw [unlined]
  | template parts ih =>
      rw [unlined, hasShortIntegers, hasShortIntegers, partsShort_unlinedParts ih]
  | name id line => rw [unlined, hasShortIntegers, hasShortIntegers]
  | member owner field line ih => rw [unlined, hasShortIntegers, hasShortIntegers, ih]
  | index owner key line ihOwner ihKey =>
      rw [unlined, hasShortIntegers, hasShortIntegers, ihOwner, ihKey]
  | call function arguments line ihFunction ihItems =>
      rw [unlined, hasShortIntegers, hasShortIntegers, ihFunction, unlinedEach_eq_map,
        eachShort_eq_all, eachShort_eq_all, List.all_map]
      exact congrArg _ (all_congr_of_mem ihItems)
  | object fields ih =>
      rw [unlined, hasShortIntegers, hasShortIntegers, unlinedFields_eq_map, fieldsShort_eq_all,
        fieldsShort_eq_all, List.all_map]
      exact all_congr_of_mem ih
  | array items ih =>
      rw [unlined, hasShortIntegers, hasShortIntegers, unlinedEach_eq_map, eachShort_eq_all,
        eachShort_eq_all, List.all_map]
      exact all_congr_of_mem ih
  | sum left right ihLeft ihRight =>
      rw [unlined, hasShortIntegers, hasShortIntegers, ihLeft, ihRight]
  | negation operand ih => rw [unlined, hasShortIntegers, hasShortIntegers, ih]

end Expr

theorem Target.toExpr_unlined (target : Target) : target.unlined.toExpr = target.toExpr.unlined := by
  cases target with
  | name id line => rw [unlined, toExpr, toExpr, Expr.unlined]
  | member owner field line => rw [unlined, toExpr, toExpr, Expr.unlined]

theorem Statement.hasShortIntegers_unlined (statement : Statement) :
    statement.unlined.hasShortIntegers = statement.hasShortIntegers := by
  cases statement with
  | declare name value => exact value.hasShortIntegers_unlined
  | assign target value =>
      rw [unlined, hasShortIntegers, hasShortIntegers, Target.toExpr_unlined,
        Expr.hasShortIntegers_unlined, Expr.hasShortIntegers_unlined]
  | expression value => exact value.hasShortIntegers_unlined

/-! What is read -/

/-- Nothing that is read has a long integer in it, not even in a hole of a template in a hole. -/
theorem ReadIn.hasShortIntegers {source : List Char} {node : Expr} (readIn : ReadIn source node) :
    node.hasShortIntegers = true := by
  -- A hole is read in a source of its own, so the source cannot be fixed.
  induction node using Expr.ind generalizing source with
  | literal constant =>
      obtain ⟨hole, -, readFrom⟩ := readIn
      rw [Expr.hasShortIntegers]
      cases readFrom with
      | literal short => exact short
  | template parts ih =>
      rw [Expr.hasShortIntegers, Expr.partsShort_iff]
      intro hole isHole
      obtain ⟨-, -, piece, -, -, -, parsed⟩ := readIn.hole isHole
      exact ih hole isHole (readIn_of_parseExpression parsed)
  | name id line => rw [Expr.hasShortIntegers]
  | member owner field line ih =>
      rw [Expr.hasShortIntegers]
      exact ih (readIn.child rfl (List.mem_singleton_self _))
  | index owner key line ihOwner ihKey =>
      rw [Expr.hasShortIntegers, ihOwner (readIn.child rfl List.mem_cons_self),
        ihKey (readIn.child rfl (List.mem_cons_of_mem _ (List.mem_singleton_self _)))]
      rfl
  | call function arguments line ihFunction ihItems =>
      rw [Expr.hasShortIntegers, Expr.eachShort_eq_all,
        ihFunction (readIn.child rfl List.mem_cons_self), Bool.true_and, List.all_eq_true]
      exact fun item here => ihItems item here (readIn.child rfl (List.mem_cons_of_mem _ here))
  | object fields ih =>
      rw [Expr.hasShortIntegers, Expr.fieldsShort_eq_all, List.all_eq_true]
      exact fun field here => ih field here (readIn.child rfl (List.mem_map_of_mem here))
  | array items ih =>
      rw [Expr.hasShortIntegers, Expr.eachShort_eq_all, List.all_eq_true]
      exact fun item here => ih item here (readIn.child rfl here)
  | sum left right ihLeft ihRight =>
      rw [Expr.hasShortIntegers, ihLeft (readIn.child rfl List.mem_cons_self),
        ihRight (readIn.child rfl (List.mem_cons_of_mem _ (List.mem_singleton_self _)))]
      rfl
  | negation operand ih =>
      rw [Expr.hasShortIntegers]
      exact ih (readIn.child rfl (List.mem_singleton_self _))

theorem Statement.hasShortIntegers_of_nodes {statement : Statement}
    (short : ∀ node ∈ statement.nodes, node.hasShortIntegers = true) :
    statement.hasShortIntegers = true := by
  cases statement with
  | declare name value => exact short value (List.mem_singleton_self _)
  | assign target value =>
      rw [hasShortIntegers, short value List.mem_cons_self,
        short target.toExpr (List.mem_cons_of_mem _ (List.mem_singleton_self _))]
      rfl
  | expression value => exact short value (List.mem_singleton_self _)

/-- A script that has a long integer in it is not what anything is read as. -/
theorem hasShortIntegers_of_parseScript {source : List Char} {read script : List Statement}
    (parsed : parseScript source = .ok read)
    (same : read.map Statement.unlined = script.map Statement.unlined) :
    script.all Statement.hasShortIntegers = true := by
  have readShort : read.all Statement.hasShortIntegers = true := by
    rw [List.all_eq_true]
    intro statement here
    have readIn := readIn_of_parseScript parsed statement here
    exact Statement.hasShortIntegers_of_nodes fun node isNode =>
      (readIn node isNode).hasShortIntegers
  have alike (row : List Statement) :
      (row.map Statement.unlined).all Statement.hasShortIntegers =
        row.all Statement.hasShortIntegers := by
    rw [List.all_map]
    exact List.all_congr rfl fun statement => statement.hasShortIntegers_unlined
  rw [← alike, ← same, alike, readShort]

/-! Scripts in writing -/

/-- A script in writing is read back, apart from line numbers, exactly if its integers are short. -/
theorem parseScript_source_iff {script : List Statement}
    (writable : script.all Statement.isWritable = true) :
    (∃ read, parseScript (source script) = .ok read ∧
        read.map Statement.unlined = script.map Statement.unlined) ↔
      script.all Statement.hasShortIntegers = true := by
  constructor
  · rintro ⟨read, parsed, same⟩
    exact hasShortIntegers_of_parseScript parsed same
  · exact exists_read_source writable

/-- A script with statements of every kind and with every place for parentheses. -/
def sampler : List Statement :=
  [.declare "null" (.sum (.sum (.literal (.int 10)) (.literal (.text "a\"b\n")))
      (.sum (.name "x" 0) (.negation (.sum (.name "y" 0) (.literal .null))))),
    .assign (.member (.name "run" 0) "true" 0) (.template [.text "$`", .hole
      (.index (.member (.literal (.int 5)) "length" 0) (.literal (.text "k")) none), .text " "]),
    .expression (.call (.member (.negation (.name "f" 0)) "of" 0)
      [.array [.literal (.bool true), .array []],
        .object [("var", .literal .undefined), ("1st", .object [])]] none)]

theorem parseScript_source_sampler :
    String.ofList (source sampler) = "const null = 10 + \"a\\\"b\\n\" + (x + -(y + null));" ++
        "run.true = `\\$\\`$\x7b(5).length[\"k\"]\x7d `;" ++
        "(-f).of([true, []], \x7bvar: undefined, \"1st\": \x7b\x7d\x7d);" ∧
      ∃ read, parseScript (source sampler) = .ok read ∧
        read.map Statement.unlined = sampler.map Statement.unlined :=
  ⟨by decide +kernel, (parseScript_source_iff (by decide +kernel)).2 (by decide +kernel)⟩

def longInteger : List Statement :=
  [.expression (.literal (.int (10 ^ digitLimit)))]

theorem parseScript_source_longInteger :
    longInteger.all Statement.isWritable = true ∧
      ¬ ∃ read, parseScript (source longInteger) = .ok read ∧
        read.map Statement.unlined = longInteger.map Statement.unlined := by
  refine ⟨rfl, ?_⟩
  rintro ⟨read, parsed, same⟩
  have short := List.all_eq_true.1 (hasShortIntegers_of_parseScript parsed same) _
    (List.mem_singleton_self _)
  rw [Statement.hasShortIntegers, Expr.hasShortIntegers, Constant.isShort, decide_eq_true_eq,
    decimalLength_le_digitLimit] at short
  exact Nat.lt_irrefl _ short

end SheetScript.Script
