import SheetScript.Document.Expand
import SheetScript.Proofs.Preserves

/-!
Where a script stands: the directory that imports start from, the files being imported, and whose
builder and functions it uses. A script leaves all of it as it was, however it ends. None of its steps stops with a syntax fault, and those
that read or write a field stop at the line that they are given.
-/

namespace SheetScript.Script

open SheetScript.Document SheetScript.Files SheetScript.Style

structure Place where
  base : Option Path
  importing : List Path
  builder : Nat
  context : Nat

namespace World

def place (world : World) : Place :=
  ⟨world.base, world.importing, world.memory.builder, world.memory.context⟩

/-- What an import puts aside: the importer's place and what it has emitted. -/
def surroundings (world : World) : Place × Value :=
  (world.place, world.output)

end World

abbrev KeepsPlace {α : Type} (step : Step α) : Prop := Preserves World.place step

namespace ScriptFault

def IsRuntime (fault : ScriptFault) : Prop :=
  ∀ reason, fault ≠ .badSyntax reason

def isRuntimeError : ScriptFault → Bool
  | undefinedName .. | undeclaredName .. | redeclaredName _ | fieldNotSettable ..
  | fieldNotReadable .. | notNegatable _ | notFunction .. | badMember .. => true
  | _ => false

theorem isRuntimeError_iff (fault : ScriptFault) :
    fault.isRuntimeError = true ↔ fault.className = "ScriptRuntimeError" := by
  cases fault <;> simp [isRuntimeError, className]

structure IsAt (line : Option Nat) (fault : ScriptFault) : Prop where
  runtimeError : fault.isRuntimeError = true
  line : fault.line? = line

/-- A fault of what a script uses, neither in its text nor a runtime error. -/
structure IsForeign (fault : ScriptFault) : Prop where
  runtime : fault.IsRuntime
  noRuntimeError : fault.isRuntimeError = false

theorem IsForeign.elim {fault : ScriptFault} (isForeign : fault.IsForeign)
    (isRuntimeError : fault.isRuntimeError = true) {claim : Prop} : claim := by
  rw [isForeign.noRuntimeError] at isRuntimeError
  cases isRuntimeError

theorem IsAt.runtime {line : Option Nat} {fault : ScriptFault} (isAt : fault.IsAt line) :
    fault.IsRuntime := by
  rintro reason rfl
  cases isAt.runtimeError

end ScriptFault

/-- A step that leaves a view of the world as it was, and only stops with some faults. -/
structure Contained {ν α : Type} (faults : ScriptFault → Prop) (view : World → ν)
    (step : Step α) : Prop where
  keeps : Preserves view step
  stops : StopsWith faults step

section

variable {ν α β : Type} {faults : ScriptFault → Prop} {view : World → ν}

theorem Contained.imp {others : ScriptFault → Prop} {step : Step α}
    (contained : Contained faults view step) (weaker : ∀ fault, faults fault → others fault) :
    Contained others view step :=
  ⟨contained.keeps, contained.stops.imp weaker⟩

theorem contained_pure (value : α) : Contained faults view (pure value : Step α) :=
  ⟨preserves_pure _, stopsWith_pure _⟩

theorem contained_throw {fault : ScriptFault} (holds : faults fault) :
    Contained faults view (throw fault : Step α) :=
  ⟨preserves_throw _, stopsWith_throw holds⟩

theorem contained_get : Contained faults view (get : Step World) :=
  ⟨preserves_get, stopsWith_get⟩

theorem contained_modify {change : World → World}
    (same : ∀ world, view (change world) = view world) :
    Contained faults view (modify change : Step PUnit) :=
  ⟨preserves_modify same, stopsWith_modify _⟩

theorem contained_bind {first : Step α} {next : α → Step β}
    (firstStays : Contained faults view first)
    (nextStays : ∀ value, Contained faults view (next value)) :
    Contained faults view (first >>= next) :=
  ⟨preserves_bind firstStays.keeps fun value => (nextStays value).keeps,
    stopsWith_bind firstStays.stops fun value => (nextStays value).stops⟩

theorem fieldsOf_preserves (reference : Nat) : Preserves view (Step.fieldsOf reference) :=
  preserves_bind preserves_get fun _ => preserves_pure _

theorem fieldsOf_contained (reference : Nat) :
    Contained faults view (Step.fieldsOf reference) :=
  ⟨fieldsOf_preserves reference, nofun⟩

/-- Texts are read off values; the world has no part in it. -/
theorem textOf_contained (value : Value) :
    Contained ScriptFault.IsForeign view (Step.textOf value) := by
  unfold Step.textOf
  split
  · exact contained_pure _
  · exact contained_throw ⟨nofun, rfl⟩

theorem textsOf_contained (values : List Value) :
    Contained ScriptFault.IsForeign view (Step.textsOf values) := by
  induction values with
  | nil => exact contained_pure _
  | cons value rest ih =>
      exact contained_bind (textOf_contained value) fun _ =>
        contained_bind ih fun _ => contained_pure _

end

theorem makeList_keepsPlace (items : List Value) : KeepsPlace (Step.makeList items) :=
  fun _ => rfl

theorem makeList_contained {faults : ScriptFault → Prop} (items : List Value) :
    Contained faults World.place (Step.makeList items) :=
  ⟨makeList_keepsPlace items, nofun⟩

theorem makeObject_keepsPlace (fields : Assoc Value) : KeepsPlace (Step.makeObject fields) :=
  fun _ => rfl

theorem makeObject_contained {faults : ScriptFault → Prop} (fields : Assoc Value) :
    Contained faults World.place (Step.makeObject fields) :=
  ⟨makeObject_keepsPlace fields, nofun⟩

/-! Builtins -/

namespace Builder

theorem self_contained {ν : Type} {faults : ScriptFault → Prop} {view : World → ν} :
    Contained faults view self :=
  contained_bind contained_get fun _ => contained_pure _

theorem assign_contained (properties : List (String × String)) :
    Contained ScriptFault.IsForeign World.place (assign properties) :=
  contained_modify fun _ => rfl

theorem finish_contained (selectors : List String) :
    Contained ScriptFault.IsForeign World.place (finish selectors) :=
  ⟨fun _ => rfl, nofun⟩

theorem setProperty_contained (property : String) (value : Value) :
    Contained ScriptFault.IsForeign World.place (setProperty property value) :=
  contained_bind (textOf_contained value) fun _ =>
    contained_bind (assign_contained _) fun _ => self_contained

theorem block_contained (selectors : List Value) :
    Contained ScriptFault.IsForeign World.place (block selectors) :=
  contained_bind (textsOf_contained selectors) fun _ => finish_contained _

theorem mixin_contained (blocks : List Value) :
    Contained ScriptFault.IsForeign World.place (mixin blocks) := by
  induction blocks with
  | nil => exact self_contained
  | cons value rest ih =>
      cases value with
      | block selectors storage =>
          exact contained_bind contained_get fun _ => contained_bind (assign_contained _) fun _ => ih
      | _ => exact contained_throw ⟨nofun, rfl⟩

theorem navBlocks_contained (parts : List NavPart) :
    Contained ScriptFault.IsForeign World.place (navBlocks parts) := by
  induction parts with
  | nil => exact contained_pure _
  | cons part rest ih =>
      exact contained_bind (assign_contained _) fun _ =>
        contained_bind (finish_contained _) fun _ => contained_bind ih fun _ => contained_pure _

theorem navBar_contained (selectors : List Value) :
    Contained ScriptFault.IsForeign World.place (navBar selectors) := by
  refine contained_bind (textsOf_contained _) fun texts => ?_
  split
  · exact contained_throw ⟨nofun, rfl⟩
  · exact navBlocks_contained _

theorem borderSideStyle_contained (side value : Value) :
    Contained ScriptFault.IsForeign World.place (borderSideStyle side value) := by
  unfold borderSideStyle
  split
  · split
    · exact setProperty_contained _ _
    · exact self_contained
  · exact self_contained

theorem textDecoration_contained (value style : Value) :
    Contained ScriptFault.IsForeign World.place (textDecoration value style) := by
  unfold textDecoration
  split <;> exact setProperty_contained _ _

theorem apply_contained (operation : Operation) (arguments : List Value) :
    Contained ScriptFault.IsForeign World.place (apply operation arguments) := by
  unfold apply
  split
  · exact block_contained _
  · exact mixin_contained _
  · exact contained_bind (navBar_contained _) fun _ => makeObject_contained _
  · exact borderSideStyle_contained _ _
  · exact borderSideStyle_contained _ _
  · exact textDecoration_contained _ _
  · exact textDecoration_contained _ _
  · exact setProperty_contained _ _
  · exact setProperty_contained _ _
  · exact contained_throw ⟨nofun, rfl⟩

end Builder

namespace Printing

theorem runBlocks_foreign {store : Store} {values : List Value} {fault : ScriptFault}
    (fails : runBlocks store values = .error fault) : fault.IsForeign := by
  fun_induction runBlocks store values with
  | case1 => cases fails
  | case2 =>
      cases fails
      exact ⟨nofun, rfl⟩
  | case3 selectors storage rest value complete ih =>
      cases behind : runBlocks store rest with
      | ok blocks =>
          rw [behind] at fails
          cases fails
      | error reason =>
          rw [behind] at fails
          cases fails
          exact ih behind
  | case4 =>
      cases fails
      exact ⟨nofun, rfl⟩

theorem fieldBlocks_foreign {store : Store} {fields : Assoc Value} {fault : ScriptFault}
    (fails : fieldBlocks store fields = .error fault) : fault.IsForeign := by
  fun_induction fieldBlocks store fields with
  | case1 => cases fails
  | case2 name selectors storage rest ih =>
      cases behind : fieldBlocks store rest with
      | ok blocks =>
          rw [behind] at fails
          cases fails
      | error reason =>
          rw [behind] at fails
          cases fails
          exact ih behind
  | case3 =>
      cases fails
      exact ⟨nofun, rfl⟩

theorem emit_contained {blocks : Except ScriptFault (List Block)} (write : List Block → String)
    (foreign : ∀ fault, blocks = .error fault → fault.IsForeign) :
    Contained ScriptFault.IsForeign World.place (emit (blocks.map write)) := by
  cases blocks with
  | ok found => exact contained_bind (contained_modify fun _ => rfl) fun _ => contained_pure _
  | error fault => exact contained_throw (foreign fault rfl)

theorem run_contained (arguments : List Value) :
    Contained ScriptFault.IsForeign World.place (run arguments) :=
  contained_bind contained_get fun _ => emit_contained _ fun _ => runBlocks_foreign

theorem compile_contained (value : Value) :
    Contained ScriptFault.IsForeign World.place (compile value) := by
  unfold compile
  split
  · exact contained_bind (fieldsOf_contained _) fun _ =>
      contained_bind contained_get fun _ => emit_contained _ fun _ => fieldBlocks_foreign
  · exact contained_throw ⟨nofun, rfl⟩

end Printing

/-! Expressions and statements -/

namespace Evaluate

theorem lookup_contained (scope : Scope) (id : String) (line : Nat) :
    Contained (ScriptFault.IsAt line) World.place (lookup scope id line) := by
  refine contained_bind contained_get fun world => ?_
  split
  · exact contained_pure _
  · exact contained_pure _
  · exact contained_throw ⟨rfl, rfl⟩

theorem builderMember_contained (name : String) (line : Option Nat) :
    Contained (ScriptFault.IsAt line) World.place (builderMember name line) := by
  unfold builderMember
  split
  · refine contained_bind contained_get fun world => ?_
    split <;> exact contained_pure _
  · exact contained_bind ⟨fun _ => rfl, nofun⟩ fun _ => contained_pure _
  · exact contained_bind contained_get fun _ => contained_pure _
  · exact contained_throw ⟨rfl, rfl⟩

theorem readField_contained (value : Value) (field : String) (line : Option Nat) :
    Contained (ScriptFault.IsAt line) World.place (readField value field line) := by
  unfold readField
  split
  · exact contained_bind (fieldsOf_contained _) fun _ => contained_pure _
  · split
    · exact makeList_contained _
    · exact contained_bind contained_get fun _ => contained_pure _
  · exact contained_pure _
  · exact contained_pure _
  · exact builderMember_contained _ _
  · exact contained_throw ⟨rfl, rfl⟩
  · exact contained_throw ⟨rfl, rfl⟩
  · exact contained_pure _

theorem position?_contained (key : Value) :
    Contained ScriptFault.IsForeign World.place (position? key) := by
  unfold position?
  split
  · exact contained_pure _
  · split
    · exact contained_throw ⟨nofun, rfl⟩
    · exact contained_throw ⟨nofun, rfl⟩
    · exact contained_pure _
  · exact contained_pure _

/-- The fault of a key, which may have no position or no text, is no runtime error. -/
theorem readIndex_contained (value key : Value) (line : Option Nat) :
    Contained (fun fault => fault.IsForeign ∨ fault.IsAt line) World.place
      (readIndex value key line) := by
  unfold readIndex
  split
  · exact contained_bind ((position?_contained _).imp fun _ => .inl) fun _ => contained_pure _
  · exact contained_bind ((position?_contained _).imp fun _ => .inl) fun _ => contained_pure _
  · exact contained_bind ((textOf_contained _).imp fun _ => .inl) fun _ =>
      (readField_contained _ _ _).imp fun _ => .inr

theorem add_contained (left right : Value) :
    Contained ScriptFault.IsForeign World.place (add left right) := by
  fun_cases add left right
  · exact contained_pure _
  · exact contained_pure _
  · exact contained_pure _
  · exact contained_throw ⟨nofun, rfl⟩
  · exact contained_pure _
  · exact contained_throw ⟨nofun, rfl⟩
  · exact contained_bind (textOf_contained _) fun _ =>
      contained_bind (textOf_contained _) fun _ => contained_pure _

theorem negate_contained (value : Value) :
    Contained (ScriptFault.IsAt none) World.place (negate value) := by
  unfold negate
  split
  · exact contained_pure _
  · exact contained_pure _
  · exact contained_throw ⟨rfl, rfl⟩

section

variable {importFile : Value → Step Value}

theorem applyFunction_keepsPlace (imports : ∀ value, KeepsPlace (importFile value))
    (function : Function) (arguments : List Value) :
    KeepsPlace (applyFunction importFile function arguments) := by
  unfold applyFunction
  split
  · exact (Printing.run_contained _).keeps
  · exact (Printing.compile_contained _).keeps
  · exact imports _
  · exact (Builder.apply_contained _ _).keeps
  · exact preserves_throw _

mutual

theorem expr_keepsPlace (imports : ∀ value, KeepsPlace (importFile value)) (scope : Scope) :
    ∀ e, KeepsPlace (expr importFile scope e)
  | .literal constant => by
      rw [expr]
      exact preserves_pure _
  | .template parts => by
      rw [expr]
      exact preserves_bind (texts_keepsPlace imports scope parts) fun _ => preserves_pure _
  | .name id line => by
      rw [expr]
      exact (lookup_contained _ _ _).keeps
  | .member object field line => by
      rw [expr]
      exact preserves_bind (expr_keepsPlace imports scope object) fun _ =>
        (readField_contained _ _ _).keeps
  | .index object key line => by
      rw [expr]
      exact preserves_bind (expr_keepsPlace imports scope object) fun _ =>
        preserves_bind (expr_keepsPlace imports scope key) fun _ =>
          (readIndex_contained _ _ _).keeps
  | .call function arguments line => by
      rw [expr]
      refine preserves_bind (expr_keepsPlace imports scope function) fun value => ?_
      split
      · exact preserves_bind (exprs_keepsPlace imports scope arguments) fun _ =>
          applyFunction_keepsPlace imports _ _
      · exact preserves_throw _
  | .object fields => by
      rw [expr]
      exact preserves_bind (pairs_keepsPlace imports scope fields) fun _ => makeObject_keepsPlace _
  | .array items => by
      rw [expr]
      exact preserves_bind (exprs_keepsPlace imports scope items) fun _ => makeList_keepsPlace _
  | .sum left right => by
      rw [expr]
      exact preserves_bind (expr_keepsPlace imports scope left) fun _ =>
        preserves_bind (expr_keepsPlace imports scope right) fun _ => (add_contained _ _).keeps
  | .negation operand => by
      rw [expr]
      exact preserves_bind (expr_keepsPlace imports scope operand) fun _ =>
        (negate_contained _).keeps

theorem exprs_keepsPlace (imports : ∀ value, KeepsPlace (importFile value)) (scope : Scope) :
    ∀ es, KeepsPlace (exprs importFile scope es)
  | [] => by
      rw [exprs]
      exact preserves_pure _
  | first :: rest => by
      rw [exprs]
      exact preserves_bind (expr_keepsPlace imports scope first) fun _ =>
        preserves_bind (exprs_keepsPlace imports scope rest) fun _ => preserves_pure _

theorem pairs_keepsPlace (imports : ∀ value, KeepsPlace (importFile value)) (scope : Scope) :
    ∀ fields, KeepsPlace (pairs importFile scope fields)
  | [] => by
      rw [pairs]
      exact preserves_pure _
  | (key, first) :: rest => by
      rw [pairs]
      exact preserves_bind (expr_keepsPlace imports scope first) fun _ =>
        preserves_bind (pairs_keepsPlace imports scope rest) fun _ => preserves_pure _

theorem texts_keepsPlace (imports : ∀ value, KeepsPlace (importFile value)) (scope : Scope) :
    ∀ parts, KeepsPlace (texts importFile scope parts)
  | [] => by
      rw [texts]
      exact preserves_pure _
  | .text first :: rest => by
      rw [texts]
      exact preserves_bind (texts_keepsPlace imports scope rest) fun _ => preserves_pure _
  | .hole hole :: rest => by
      rw [texts]
      exact preserves_bind (expr_keepsPlace imports scope hole) fun _ =>
        preserves_bind (textOf_contained _).keeps fun _ =>
          preserves_bind (texts_keepsPlace imports scope rest) fun _ => preserves_pure _

end

end

theorem writeField_contained (object : Value) (field : String) (value : Value) (line : Nat) :
    Contained (ScriptFault.IsAt line) World.place (writeField object field value line) := by
  unfold writeField
  split
  · exact contained_modify fun _ => rfl
  · split
    · exact contained_modify fun _ => rfl
    · exact contained_throw ⟨rfl, rfl⟩
  · exact contained_throw ⟨rfl, rfl⟩

section

variable {importFile : Value → Step Value} (imports : ∀ value, KeepsPlace (importFile value))

include imports

theorem statement_keepsPlace (scope : Scope) (statement : Statement) :
    KeepsPlace (Evaluate.statement importFile scope statement) := by
  cases statement with
  | declare name value =>
      have declares : KeepsPlace (do
          return Assoc.set name (← expr importFile scope value) scope) :=
        preserves_bind (expr_keepsPlace imports scope value) fun _ => preserves_pure _
      unfold Evaluate.statement
      dsimp only
      split
      · exact preserves_throw _
      · exact declares
  | assign target value =>
      refine preserves_bind (expr_keepsPlace imports scope value) fun _ => ?_
      cases target with
      | name id line =>
          dsimp only
          split
          · exact preserves_pure _
          · exact preserves_throw _
      | member object field line =>
          exact preserves_bind (expr_keepsPlace imports scope object) fun _ =>
            preserves_bind (writeField_contained _ _ _ _).keeps fun _ => preserves_pure _
  | expression value =>
      exact preserves_bind (expr_keepsPlace imports scope value) fun _ => preserves_pure _

theorem statements_keepsPlace (program : List Statement) : ∀ scope : Scope,
    KeepsPlace (Evaluate.statements importFile scope program) := by
  induction program with
  | nil =>
      intro scope
      exact preserves_pure _
  | cons first rest ih =>
      intro scope
      exact preserves_bind (statement_keepsPlace imports scope first) fun after => ih after

theorem script_keepsPlace (source : String) : KeepsPlace (Evaluate.script importFile source) := by
  unfold Evaluate.script
  split
  · exact statements_keepsPlace imports _ _
  · exact preserves_throw _

end

end Evaluate

/-! Imports -/

namespace Import

theorem find_preserves {ν : Type} (view : World → ν) (setting : Setting) (name : String) :
    Preserves view (find setting name) := by
  refine preserves_bind preserves_get fun world => ?_
  split
  · exact preserves_pure _
  · exact preserves_throw _

/-- A step inside has to leave the list of imports as long as it was, or the wrong file comes off. -/
theorem during_restores (path : Path) {step : Step Value} (keeps : KeepsPlace step) :
    Preserves World.surroundings (during path step) := by
  intro world
  have kept := keeps { world with base := some path.parent, importing := world.importing ++ [path] }
  unfold during
  dsimp only
  split
  · rename_i value after ran
    rw [ran] at kept
    have balanced : after.importing = world.importing ++ [path] := congrArg Place.importing kept
    have sameBuilder : after.memory.builder = world.memory.builder := congrArg Place.builder kept
    have sameContext : after.memory.context = world.memory.context := congrArg Place.context kept
    simp [stateAfter, World.surroundings, World.place, balanced, sameBuilder, sameContext]
  · rename_i fault after ran
    rw [ran] at kept
    have balanced : after.importing = world.importing ++ [path] := congrArg Place.importing kept
    have sameBuilder : after.memory.builder = world.memory.builder := congrArg Place.builder kept
    have sameContext : after.memory.context = world.memory.context := congrArg Place.context kept
    simp [stateAfter, World.surroundings, World.place, balanced, sameBuilder, sameContext]

theorem namespaceOf_keepsPlace {script : String → Step Scope}
    (scripts : ∀ source, KeepsPlace (script source)) (segments : List Segment) :
    ∀ names : Scope, KeepsPlace (namespaceOf script names segments) := by
  induction segments with
  | nil =>
      intro names
      exact preserves_pure _
  | cons segment rest ih =>
      intro names
      unfold namespaceOf
      split
      · exact preserves_bind (scripts segment.text) fun declared => ih _
      · exact ih names

theorem load_restores (setting : Setting) {script : String → Step Scope}
    (scripts : ∀ source, KeepsPlace (script source)) (path : Path) :
    Preserves World.surroundings (load setting script path) := by
  apply during_restores
  split
  · exact preserves_bind (namespaceOf_keepsPlace scripts _ _) fun names =>
      makeObject_keepsPlace names
  · exact preserves_throw _

/-- By induction on how deep imports may nest: what an import runs can only import less deeply. -/
theorem importFile_restores (setting : Setting) (depth : Nat) (value : Value) :
    Preserves World.surroundings (importFile setting depth value) := by
  induction depth generalizing value with
  | zero =>
      unfold importFile
      refine preserves_bind preserves_get fun world => ?_
      split
      · exact preserves_throw _
      · exact preserves_bind (find_preserves _ _ _) fun path => preserves_throw _
  | succ depth ih =>
      have keeps (value : Value) : KeepsPlace (importFile setting depth value) :=
        fun world => congrArg Prod.fst (ih value world)
      unfold importFile
      refine preserves_bind preserves_get fun world => ?_
      split
      · exact preserves_throw _
      · exact preserves_bind (find_preserves _ _ _) fun path =>
          load_restores setting (Evaluate.script_keepsPlace keeps) path

theorem importFile_keepsPlace (setting : Setting) (depth : Nat) (value : Value) :
    KeepsPlace (importFile setting depth value) :=
  fun world => congrArg Prod.fst (importFile_restores setting depth value world)

end Import

theorem runScript_keepsPlace (setting : Setting) (source : String) :
    KeepsPlace (runScript setting source) :=
  Evaluate.script_keepsPlace (Import.importFile_keepsPlace setting _) source

end SheetScript.Script

namespace SheetScript.Document

open SheetScript.Script

theorem execute_keepsPlace (setting : Setting) (source : String) (number : Option Nat)
    (world : World) : (execute setting source number world).2.place = world.place := by
  have kept := runScript_keepsPlace setting source { world with output := .null }
  unfold execute
  cases ran : runScript setting source { world with output := .null } with
  | ok scope after =>
      rw [ran] at kept
      exact kept
  | error fault after =>
      rw [ran] at kept
      exact kept

/--
However an import ends and however deep others nest in it, the directory that imports start from, the
files being imported and what has been emitted are as they were when it began. So a script leaves the
directory and the files being imported alone.
-/
theorem get_restores_surroundings (setting : Setting) :
    (∀ depth arguments world,
      (stateAfter (Evaluate.applyFunction (Import.importFile setting depth) .get arguments
        world)).surroundings = world.surroundings) ∧
      ∀ source number world, (execute setting source number world).2.place = world.place := by
  refine ⟨fun depth arguments world => ?_, execute_keepsPlace setting⟩
  rcases arguments with _ | ⟨value, _ | ⟨second, rest⟩⟩
  · rfl
  · exact Import.importFile_restores setting depth value world
  · rfl

end SheetScript.Document
