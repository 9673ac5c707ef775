import SheetScript.Proofs.Script.Place
import SheetScript.Proofs.Script.Relocation

/-! Each step of a script, in a world with a past, is the same step moved. -/

namespace SheetScript.Script

open SheetScript.Document SheetScript.Files SheetScript.Style

variable {past : Past}

namespace Step

theorem makeList_moves (past : Past) (items : List Value) :
    Moves past (Value.moved past) (makeList items) (makeList (Value.movedItems past items)) := by
  intro world
  rfl

theorem makeObject_moves (past : Past) (fields : Assoc Value) :
    Moves past (Value.moved past) (makeObject fields) (makeObject (movedFields past fields)) := by
  intro world
  simp [makeObject, World.moved, movedResult, Value.moved]

theorem fieldsOf_moves (reference : Nat) :
    Moves past (movedFields past) (fieldsOf reference)
      (fieldsOf (past.objects.length + reference)) := by
  refine moves_bind moves_get fun world => moves_pure ?_
  rw [World.moved_objects]
  cases world.objects[reference]? <;> rfl

theorem setterAddress_moves (past : Past) : Moves past id setterAddress setterAddress := by
  intro world
  rfl

theorem setField_objects (past : Past) (objects : Objects) (reference : Nat) (field : String)
    (value : Value) :
    (past.objects ++ objects.map (movedFields past)).modify (past.objects.length + reference)
        (·.set field (value.moved past)) =
      past.objects ++ (objects.modify reference (·.set field value)).map (movedFields past) := by
  rw [modify_append_back]
  refine congrArg (past.objects ++ ·) (List.ext_getElem? fun place => ?_)
  rw [List.getElem?_modify, List.getElem?_map, List.getElem?_map, List.getElem?_modify]
  by_cases here : reference = place
  · simp [here, Function.comp_def, Assoc.mapValues_set]
  · simp [here]

theorem setField_moves (reference : Nat) (field : String) (value : Value) :
    Moves past id (setField reference field value)
      (setField (past.objects.length + reference) field (value.moved past)) := by
  refine moves_modify fun world => ?_
  have objects := setField_objects past world.objects reference field value
  unfold World.moved
  dsimp only
  rw [objects]

theorem textOf_moves (value : Value) :
    Moves past id (textOf value) (textOf (value.moved past)) := by
  unfold textOf
  rw [Value.text?_moved]
  cases value.text? with
  | some text => exact moves_pure rfl
  | none => exact moves_throw _

theorem textsOf_moves (values : List Value) :
    Moves past id (textsOf values) (textsOf (Value.movedItems past values)) := by
  induction values with
  | nil => exact moves_pure rfl
  | cons value rest ih =>
      exact moves_bind (textOf_moves value) fun _ => moves_bind ih fun _ => moves_pure rfl

end Step

/-! Builtins -/

namespace Builder

theorem self_moves : Moves past (Value.moved past) self self :=
  moves_bind moves_get fun _ => moves_pure rfl

theorem assign_moves (properties : List (String × String)) :
    Moves past id (assign properties) (assign properties) := by
  refine moves_modify fun world => ?_
  unfold World.moved
  dsimp only
  rw [Store.moved_assign]

theorem finish_moves (selectors : List String) :
    Moves past (Value.moved past) (finish selectors) (finish selectors) := by
  intro world
  unfold finish movedResult World.moved
  dsimp only
  rw [Store.moved_renew]
  rfl

theorem setProperty_moves (property : String) (value : Value) :
    Moves past (Value.moved past) (setProperty property value)
      (setProperty property (value.moved past)) :=
  moves_bind (Step.textOf_moves value) fun _ =>
    moves_bind (assign_moves _) fun _ => self_moves

theorem block_moves (selectors : List Value) :
    Moves past (Value.moved past) (block selectors) (block (Value.movedItems past selectors)) :=
  moves_bind (Step.textsOf_moves selectors) fun _ => finish_moves _

theorem mixin_moves (blocks : List Value) :
    Moves past (Value.moved past) (mixin blocks) (mixin (Value.movedItems past blocks)) := by
  induction blocks with
  | nil => exact self_moves
  | cons value rest ih =>
      cases value with
      | block selectors storage =>
          refine moves_bind moves_get fun world => ?_
          have same : (world.moved past).store.read (past.storage storage) =
              world.store.read storage := Store.read_moved past world.store storage
          rw [same]
          exact moves_bind (assign_moves _) fun _ => ih
      | _ => exact moves_throw _

theorem navBlocks_moves (parts : List NavPart) :
    Moves past (movedFields past) (navBlocks parts) (navBlocks parts) := by
  induction parts with
  | nil => exact moves_pure rfl
  | cons part rest ih =>
      exact moves_bind (assign_moves _) fun _ => moves_bind (finish_moves _) fun _ =>
        moves_bind ih fun _ => moves_pure rfl

theorem navBar_moves (selectors : List Value) :
    Moves past (movedFields past) (navBar selectors) (navBar (Value.movedItems past selectors)) := by
  have firstFour : (Value.movedItems past selectors).take 4 =
      Value.movedItems past (selectors.take 4) := by
    rw [Value.movedItems_eq_map, Value.movedItems_eq_map, List.map_take]
  unfold navBar
  rw [firstFour]
  refine moves_bind (Step.textsOf_moves _) fun texts => ?_
  cases texts with
  | nil => exact moves_throw _
  | cons container inner => exact navBlocks_moves _

theorem borderSideStyle_moves (side value : Value) :
    Moves past (Value.moved past) (borderSideStyle side value)
      (borderSideStyle (side.moved past) (value.moved past)) := by
  cases side with
  | text name =>
      unfold borderSideStyle
      rw [Value.moved]
      dsimp only
      split
      · exact setProperty_moves _ _
      · exact self_moves
  | _ => exact self_moves

theorem textDecoration_moves (value style : Value) :
    Moves past (Value.moved past) (textDecoration value style)
      (textDecoration (value.moved past) (style.moved past)) := by
  cases style <;> exact setProperty_moves _ _

theorem apply_moves (operation : Operation) (arguments : List Value) :
    Moves past (Value.moved past) (apply operation arguments)
      (apply operation (Value.movedItems past arguments)) := by
  -- A missing argument counts as undefined, and one too many stops the call on both sides.
  cases operation with
  | block => exact block_moves arguments
  | mixin => exact mixin_moves arguments
  | navBar =>
      exact moves_bind (navBar_moves arguments) fun fields => Step.makeObject_moves past fields
  | borderSideStyle =>
      rcases arguments with _ | ⟨side, _ | ⟨value, _ | ⟨further, rest⟩⟩⟩
      · exact moves_throw _
      · exact borderSideStyle_moves side .undefined
      · exact borderSideStyle_moves side value
      · exact moves_throw _
  | textDecoration =>
      rcases arguments with _ | ⟨value, _ | ⟨style, _ | ⟨further, rest⟩⟩⟩
      · exact moves_throw _
      · exact textDecoration_moves value .undefined
      · exact textDecoration_moves value style
      · exact moves_throw _
  | setter property =>
      rcases arguments with _ | ⟨value, _ | ⟨further, rest⟩⟩
      · exact setProperty_moves property .undefined
      · exact setProperty_moves property value
      · exact moves_throw _

end Builder

namespace Printing

theorem runBlocks_moved (store : Store) (arguments : List Value) :
    runBlocks (store.moved past) (Value.movedItems past arguments) = runBlocks store arguments := by
  induction arguments with
  | nil => rfl
  | cons value rest ih =>
      cases value with
      | block selectors storage =>
          rw [Value.movedItems, Value.moved, runBlocks, runBlocks, ih, Store.block_moved]
      | _ => rfl

theorem fieldBlocks_moved (store : Store) (fields : Assoc Value) :
    fieldBlocks (store.moved past) (movedFields past fields) = fieldBlocks store fields := by
  induction fields with
  | nil => rfl
  | cons field rest ih =>
      obtain ⟨name, value⟩ := field
      change fieldBlocks _ ((name, value.moved past) :: movedFields past rest) = _
      cases value with
      | block selectors storage =>
          rw [Value.moved, fieldBlocks, fieldBlocks, ih, Store.block_moved]
      | _ => rfl

theorem emit_moves (text : Except ScriptFault String) :
    Moves past (Value.moved past) (emit text) (emit text) := by
  cases text with
  | ok text => exact moves_bind (moves_modify fun _ => rfl) fun _ => moves_pure rfl
  | error fault => exact moves_throw _

theorem run_moves (arguments : List Value) :
    Moves past (Value.moved past) (run arguments) (run (Value.movedItems past arguments)) := by
  refine moves_bind moves_get fun world => ?_
  have same : runText (world.moved past).store (Value.movedItems past arguments) =
      runText world.store arguments := congrArg (Except.map _) (runBlocks_moved world.store arguments)
  rw [same]
  exact emit_moves _

theorem compile_moves (value : Value) :
    Moves past (Value.moved past) (compile value) (compile (value.moved past)) := by
  cases value with
  | object reference =>
      refine moves_bind (Step.fieldsOf_moves reference) fun fields =>
        moves_bind moves_get fun world => ?_
      have same : compileText (world.moved past).store (movedFields past fields) =
          compileText world.store fields := congrArg (Except.map _) (fieldBlocks_moved world.store fields)
      rw [same]
      exact emit_moves _
  | _ => exact moves_throw _

end Printing

/-! Expressions and statements -/

namespace Evaluate

theorem lookup_moves (scope : Scope) (id : String) (line : Nat) :
    Moves past (Value.moved past) (lookup scope id line)
      (lookup (movedFields past scope) id line) := by
  refine moves_bind moves_get fun world => ?_
  have fixed : movedFields past (globals world.memory) = globals world.memory := rfl
  have ofGlobal : ((globals world.memory).get? id).map (Value.moved past) =
      (globals world.memory).get? id := by
    rw [← Assoc.get?_mapValues (Value.moved past)]
    exact congrArg (Assoc.get? · id) fixed
  have memory : (world.moved past).memory = world.memory := rfl
  rw [Assoc.get?_mapValues, memory]
  cases scope.get? id with
  | some value => exact moves_pure rfl
  | none =>
      cases found : (globals world.memory).get? id with
      | some value =>
          rw [found] at ofGlobal
          exact moves_pure (Option.some.inj ofGlobal)
      | none => exact moves_throw _

theorem builderMember_moves (name : String) (line : Option Nat) :
    Moves past (Value.moved past) (builderMember name line) (builderMember name line) := by
  unfold builderMember
  split
  · refine moves_bind moves_get fun world => ?_
    obtain ⟨store, output, objects, nextStamp, base, importing, memory⟩ := world
    cases output <;> exact moves_pure rfl
  · exact moves_bind (Step.setterAddress_moves past) fun _ => moves_pure rfl
  · exact moves_bind moves_get fun _ => moves_pure rfl
  · exact moves_throw _

theorem readField_moves (value : Value) (field : String) (line : Option Nat) :
    Moves past (Value.moved past) (readField value field line)
      (readField (value.moved past) field line) := by
  cases value with
  | object reference =>
      refine moves_bind (Step.fieldsOf_moves reference) fun fields => moves_pure ?_
      rw [Assoc.get?_mapValues]
      cases fields.get? field <;> rfl
  | block selectors storage =>
      have same : Value.movedItems past (selectors.map .text) = selectors.map .text := by
        rw [Value.movedItems_eq_map, List.map_map]
        rfl
      have makesList := Step.makeList_moves past (selectors.map .text)
      rw [same] at makesList
      rw [Value.moved]
      unfold readField
      dsimp only
      split
      · exact makesList
      · refine moves_bind moves_get fun world => ?_
        have read : (world.moved past).store.read (past.storage storage) =
            world.store.read storage := Store.read_moved past world.store storage
        rw [read]
        refine moves_pure ?_
        cases (world.store.read storage).get? field <;> rfl
  | list stamp items =>
      rw [Value.moved]
      unfold readField
      dsimp only
      rw [Value.movedItems_eq_map, List.length_map]
      split <;> exact moves_pure rfl
  | text text =>
      rw [Value.moved]
      unfold readField
      dsimp only
      split <;> exact moves_pure rfl
  | builder address => exact builderMember_moves field line
  | null => exact moves_throw _
  | undefined => exact moves_throw _
  | _ => exact moves_pure rfl

theorem position?_moves (key : Value) :
    Moves past id (position? key) (position? (key.moved past)) := by
  cases key with
  | float x =>
      cases x with
      | nan => exact moves_throw _
      | infinity negative => exact moves_throw _
      | finite => exact moves_pure rfl
  | _ => exact moves_pure rfl

theorem readIndex_moves (value key : Value) (line : Option Nat) :
    Moves past (Value.moved past) (readIndex value key line)
      (readIndex (value.moved past) (key.moved past) line) := by
  have byText : Moves past (Value.moved past)
      (do readField value (← Step.textOf key) line)
      (do readField (value.moved past) (← Step.textOf (key.moved past)) line) :=
    moves_bind (Step.textOf_moves key) fun field => readField_moves value field line
  unfold readIndex
  rw [Value.isNumber_moved]
  cases key.isNumber with
  | false => cases value <;> exact byText
  | true =>
      cases value with
      | list stamp items =>
          refine moves_bind (position?_moves key) fun place => moves_pure ?_
          cases place with
          | none => rfl
          | some place =>
              change (items[place]?.getD .undefined).moved past =
                ((Value.movedItems past items)[place]?).getD .undefined
              rw [Value.movedItems_eq_map, List.getElem?_map]
              cases items[place]? <;> rfl
      | text text =>
          refine moves_bind (position?_moves key) fun place => moves_pure ?_
          change _ = (place.bind (text.toList[·]?)).elim Value.undefined _
          cases place.bind (text.toList[·]?) <;> rfl
      | _ => exact byText

theorem negate_moves (value : Value) :
    Moves past (Value.moved past) (negate value) (negate (value.moved past)) := by
  cases value with
  | int n => exact moves_pure rfl
  | float x => exact moves_pure rfl
  | _ => exact moves_throw _

theorem add_eq_texts {left right : Value} (notNumbers : (left.isNumber && right.isNumber) = false) :
    add left right = do
      let l ← Step.textOf left
      let r ← Step.textOf right
      return .text (l ++ r) := by
  fun_cases add left right
  case case7 => rfl
  all_goals cases notNumbers

theorem add_moves (left right : Value) :
    Moves past (Value.moved past) (add left right) (add (left.moved past) (right.moved past)) := by
  by_cases notNumbers : (left.isNumber && right.isNumber) = false
  · have alsoMoved : ((left.moved past).isNumber && (right.moved past).isNumber) = false := by
      rw [Value.isNumber_moved, Value.isNumber_moved, notNumbers]
    rw [add_eq_texts notNumbers, add_eq_texts alsoMoved]
    exact moves_bind (Step.textOf_moves left) fun _ =>
      moves_bind (Step.textOf_moves right) fun _ => moves_pure rfl
  · have bothStay : left.moved past = left ∧ right.moved past = right := by
      cases left <;> cases right <;> first | exact ⟨rfl, rfl⟩ | exact absurd rfl notNumbers
    rw [bothStay.1, bothStay.2]
    fun_cases add left right
    · exact moves_pure rfl
    · exact moves_pure rfl
    · exact moves_pure rfl
    · exact moves_throw _
    · exact moves_pure rfl
    · exact moves_throw _
    · rename_i ints floats intFloat floatInt
      cases left <;> cases right <;> first
        | exact absurd rfl notNumbers
        | exact (ints _ _ rfl rfl).elim
        | exact (floats _ _ rfl rfl).elim
        | exact (intFloat _ _ rfl rfl).elim
        | exact (floatInt _ _ rfl rfl).elim

section

variable {importFile : Value → Step Value}

abbrev ImportsMove (past : Past) (importFile : Value → Step Value) : Prop :=
  ∀ value, Moves past (Value.moved past) (importFile value) (importFile (value.moved past))

theorem applyFunction_moves (imports : ImportsMove past importFile) (function : Function)
    (arguments : List Value) :
    Moves past (Value.moved past) (applyFunction importFile function arguments)
      (applyFunction importFile function (Value.movedItems past arguments)) := by
  cases function with
  | run => exact Printing.run_moves arguments
  | operation operation => exact Builder.apply_moves operation arguments
  | compile =>
      rcases arguments with _ | ⟨value, _ | ⟨further, rest⟩⟩
      · exact moves_throw _
      · exact Printing.compile_moves value
      · exact moves_throw _
  | get =>
      rcases arguments with _ | ⟨value, _ | ⟨further, rest⟩⟩
      · exact moves_throw _
      · exact imports value
      · exact moves_throw _

theorem constant_moved (constant : Constant) :
    constant.value.moved past = constant.value := by
  cases constant <;> rfl

mutual

theorem expr_moves (imports : ImportsMove past importFile) (scope : Scope) :
    ∀ e, Moves past (Value.moved past) (expr importFile scope e)
      (expr importFile (movedFields past scope) e)
  | .literal constant => by
      rw [expr, expr]
      exact moves_pure (constant_moved constant)
  | .template parts => by
      rw [expr, expr]
      exact moves_bind (texts_moves imports scope parts) fun _ => moves_pure rfl
  | .name id line => by
      rw [expr, expr]
      exact lookup_moves scope id line
  | .member object field line => by
      rw [expr, expr]
      exact moves_bind (expr_moves imports scope object) fun value => readField_moves value field line
  | .index object key line => by
      rw [expr, expr]
      exact moves_bind (expr_moves imports scope object) fun value =>
        moves_bind (expr_moves imports scope key) fun place => readIndex_moves value place line
  | .call function arguments line => by
      rw [expr, expr]
      refine moves_bind (expr_moves imports scope function) fun value => ?_
      cases value with
      | function builtin address =>
          exact moves_bind (exprs_moves imports scope arguments) fun values =>
            applyFunction_moves imports builtin values
      | _ => exact moves_throw _
  | .object fields => by
      rw [expr, expr]
      refine moves_bind (pairs_moves imports scope fields) fun values => ?_
      have fieldsMoved := Assoc.mapValues_setAll (Value.moved past) [] values
      have moves := Step.makeObject_moves past (Assoc.ofPairs values)
      exact (congrArg (fun fields => Moves past _ _ (Step.makeObject fields)) fieldsMoved).mp moves
  | .array items => by
      rw [expr, expr]
      exact moves_bind (exprs_moves imports scope items) fun values => Step.makeList_moves past values
  | .sum left right => by
      rw [expr, expr]
      exact moves_bind (expr_moves imports scope left) fun l =>
        moves_bind (expr_moves imports scope right) fun r => add_moves l r
  | .negation operand => by
      rw [expr, expr]
      exact moves_bind (expr_moves imports scope operand) fun value => negate_moves value

theorem exprs_moves (imports : ImportsMove past importFile) (scope : Scope) :
    ∀ es, Moves past (Value.movedItems past) (exprs importFile scope es)
      (exprs importFile (movedFields past scope) es)
  | [] => by
      rw [exprs, exprs]
      exact moves_pure rfl
  | first :: rest => by
      rw [exprs, exprs]
      exact moves_bind (expr_moves imports scope first) fun _ =>
        moves_bind (exprs_moves imports scope rest) fun _ => moves_pure rfl

theorem pairs_moves (imports : ImportsMove past importFile) (scope : Scope) :
    ∀ fields, Moves past (movedFields past) (pairs importFile scope fields)
      (pairs importFile (movedFields past scope) fields)
  | [] => by
      rw [pairs, pairs]
      exact moves_pure rfl
  | (key, first) :: rest => by
      rw [pairs, pairs]
      exact moves_bind (expr_moves imports scope first) fun _ =>
        moves_bind (pairs_moves imports scope rest) fun _ => moves_pure rfl

theorem texts_moves (imports : ImportsMove past importFile) (scope : Scope) :
    ∀ parts, Moves past id (texts importFile scope parts)
      (texts importFile (movedFields past scope) parts)
  | [] => by
      rw [texts, texts]
      exact moves_pure rfl
  | .text first :: rest => by
      rw [texts, texts]
      exact moves_bind (texts_moves imports scope rest) fun _ => moves_pure rfl
  | .hole hole :: rest => by
      rw [texts, texts]
      exact moves_bind (expr_moves imports scope hole) fun value =>
        moves_bind (Step.textOf_moves value) fun _ =>
          moves_bind (texts_moves imports scope rest) fun _ => moves_pure rfl

end

end

theorem writeField_moves (object : Value) (field : String) (value : Value) (line : Nat) :
    Moves past id (writeField object field value line)
      (writeField (object.moved past) field (value.moved past) line) := by
  cases object with
  | object reference => exact Step.setField_moves reference field value
  | builder address =>
      unfold writeField
      dsimp only [Value.moved]
      split
      · exact moves_modify fun _ => rfl
      · exact moves_throw _
  | _ => exact moves_throw _

section

variable {importFile : Value → Step Value} (imports : ImportsMove past importFile)

include imports

theorem statement_moves (scope : Scope) (statement : Statement) :
    Moves past (movedFields past) (Evaluate.statement importFile scope statement)
      (Evaluate.statement importFile (movedFields past scope) statement) := by
  have set (name : String) (value : Value) :
      movedFields past (Assoc.set name value scope) =
        Assoc.set name (value.moved past) (movedFields past scope) :=
    Assoc.mapValues_set _ _ _ _
  cases statement with
  | declare name value =>
      have declares : Moves past (movedFields past)
          (do
            let given ← expr importFile scope value
            return scope.set name given)
          (do
            let given ← expr importFile (movedFields past scope) value
            return (movedFields past scope).set name given) :=
        moves_bind (expr_moves imports scope value) fun _ => moves_pure (set _ _)
      unfold Evaluate.statement
      dsimp only
      split
      · exact moves_throw _
      · exact declares
  | assign target value =>
      refine moves_bind (expr_moves imports scope value) fun given => ?_
      cases target with
      | name id line =>
          -- Moving the values of a scope keeps its names.
          have declared : ((movedFields past scope).get? id).isSome = (scope.get? id).isSome := by
            rw [Assoc.get?_mapValues, Option.isSome_map]
          dsimp only
          rw [declared]
          split
          · exact moves_pure (set _ _)
          · exact moves_throw _
      | member object field line =>
          exact moves_bind (expr_moves imports scope object) fun owner =>
            moves_bind (writeField_moves owner field given line) fun _ => moves_pure rfl
  | expression value =>
      exact moves_bind (expr_moves imports scope value) fun _ => moves_pure rfl

theorem statements_moves (program : List Statement) : ∀ scope : Scope,
    Moves past (movedFields past) (Evaluate.statements importFile scope program)
      (Evaluate.statements importFile (movedFields past scope) program) := by
  induction program with
  | nil =>
      intro scope
      exact moves_pure rfl
  | cons first rest ih =>
      intro scope
      exact moves_bind (statement_moves imports scope first) fun after => ih after

theorem script_moves (source : String) :
    Moves past (movedFields past) (Evaluate.script importFile source)
      (Evaluate.script importFile source) := by
  unfold Evaluate.script
  split
  · exact statements_moves imports _ []
  · exact moves_throw _

end

end Evaluate

/-! Imports -/

namespace Import

theorem find_moves (setting : Setting) (name : String) :
    Moves past id (find setting name) (find setting name) := by
  refine moves_bind moves_get fun world => ?_
  have same : locate setting (world.moved past).base (world.moved past).importing name =
      locate setting world.base world.importing name := rfl
  rw [same]
  cases locate setting world.base world.importing name with
  | ok path => exact moves_pure rfl
  | error fault => exact moves_throw _

theorem during_moves (path : Path) {step later : Step Value}
    (moves : Moves past (Value.moved past) step later) :
    Moves past (Value.moved past) (during path step) (during path later) := by
  intro world
  have inside := moves
    { world with base := some path.parent, importing := world.importing ++ [path] }
  unfold during
  dsimp only [World.moved] at inside ⊢
  rw [inside]
  cases step { world with base := some path.parent, importing := world.importing ++ [path] } with
  | ok value after => rfl
  | error fault after => rfl

theorem namespaceOf_moves {script : String → Step Scope}
    (scripts : ∀ source, Moves past (movedFields past) (script source) (script source))
    (segments : List Segment) : ∀ names : Scope,
    Moves past (movedFields past) (namespaceOf script names segments)
      (namespaceOf script (movedFields past names) segments) := by
  induction segments with
  | nil =>
      intro names
      exact moves_pure rfl
  | cons segment rest ih =>
      intro names
      unfold namespaceOf
      split
      · refine moves_bind (scripts segment.text) fun declared => ?_
        rw [← Assoc.mapValues_setAll]
        exact ih _
      · exact ih names

theorem load_moves (setting : Setting) {script : String → Step Scope}
    (scripts : ∀ source, Moves past (movedFields past) (script source) (script source))
    (path : Path) :
    Moves past (Value.moved past) (load setting script path) (load setting script path) := by
  refine during_moves path ?_
  cases setting.workspace.readText path with
  | ok source =>
      exact moves_bind (namespaceOf_moves scripts (split source) []) fun names =>
        Step.makeObject_moves past names
  | error reason => exact moves_throw _

theorem importFile_moves (setting : Setting) (depth : Nat) (value : Value) :
    Moves past (Value.moved past) (importFile setting depth value)
      (importFile setting depth (value.moved past)) := by
  induction depth generalizing value with
  | zero =>
      unfold importFile
      refine moves_bind moves_get fun world => ?_
      rw [Value.display?_moved]
      cases value.display? world.store world.objects with
      | none => exact moves_throw _
      | some name => exact moves_bind (find_moves setting name) fun _ => moves_throw _
  | succ depth ih =>
      unfold importFile
      refine moves_bind moves_get fun world => ?_
      rw [Value.display?_moved]
      cases value.display? world.store world.objects with
      | none => exact moves_throw _
      | some name =>
          exact moves_bind (find_moves setting name) fun path =>
            load_moves setting (Evaluate.script_moves ih) path

end Import

theorem runScript_moves (past : Past) (setting : Setting) (source : String) :
    Moves past (movedFields past) (runScript setting source) (runScript setting source) :=
  Evaluate.script_moves (Import.importFile_moves setting _) source

end SheetScript.Script
