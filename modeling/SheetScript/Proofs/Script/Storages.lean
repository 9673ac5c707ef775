import SheetScript.Proofs.Script.Imports

/-!
A block keeps the storage that the builder wrote to, and the builder goes on with a new one. So at no
moment of a run does a script hold a block whose storage is still written to.
-/

namespace SheetScript.Assoc

variable {α : Type} {property : α → Prop} {entries added : Assoc α}

theorem forall_set (each : ∀ entry ∈ entries, property entry.2) {value : α} (holds : property value)
    (key : String) : ∀ entry ∈ set key value entries, property entry.2 := by
  induction entries with
  | nil => exact List.forall_mem_singleton.2 holds
  | cons first rest ih =>
      obtain ⟨ofFirst, ofRest⟩ := List.forall_mem_cons.1 each
      unfold set
      split
      · exact List.forall_mem_cons.2 ⟨holds, ofRest⟩
      · exact List.forall_mem_cons.2 ⟨ofFirst, ih ofRest⟩

theorem forall_setAll (each : ∀ entry ∈ entries, property entry.2)
    (eachAdded : ∀ entry ∈ added, property entry.2) :
    ∀ entry ∈ setAll entries added, property entry.2 := by
  induction added generalizing entries with
  | nil => exact each
  | cons first rest ih =>
      obtain ⟨ofFirst, ofRest⟩ := List.forall_mem_cons.1 eachAdded
      exact ih (forall_set each ofFirst first.1) ofRest

end SheetScript.Assoc

namespace SheetScript.Script

open SheetScript.Document SheetScript.Files SheetScript.Style

/-! Values and worlds -/

namespace Value

mutual

/-- The storages of the blocks in a value; objects are only referred to. -/
def storages : Value → List Nat
  | list _ items => itemStorages items
  | block _ storage => [storage]
  | _ => []

def itemStorages : List Value → List Nat
  | [] => []
  | item :: rest => storages item ++ itemStorages rest

end

def Sealed (store : Store) (value : Value) : Prop :=
  ∀ storage ∈ value.storages, store.IsSealed storage

theorem sealed_of_plain {store : Store} {value : Value} (plain : value.storages = []) :
    value.Sealed store := by
  rw [Sealed, plain]
  exact List.forall_mem_nil _

theorem Sealed.later {store later : Store} {value : Value} (isSealed : value.Sealed store)
    (isLater : store.Later later) : value.Sealed later :=
  fun storage inside => (isLater storage (isSealed storage inside)).1

end Value

def RowSealed (store : Store) (values : List Value) : Prop :=
  ∀ value ∈ values, value.Sealed store

def FieldsSealed (store : Store) (fields : Assoc Value) : Prop :=
  ∀ field ∈ fields, field.2.Sealed store

theorem RowSealed.later {store later : Store} {values : List Value} (areSealed : RowSealed store values)
    (isLater : store.Later later) : RowSealed later values :=
  fun value inside => (areSealed value inside).later isLater

theorem FieldsSealed.later {store later : Store} {fields : Assoc Value}
    (areSealed : FieldsSealed store fields) (isLater : store.Later later) :
    FieldsSealed later fields :=
  fun field inside => (areSealed field inside).later isLater

theorem sealed_list {store : Store} {stamp : Nat} {items : List Value} :
    (Value.list stamp items).Sealed store ↔ RowSealed store items := by
  induction items with
  | nil => exact ⟨fun _ => List.forall_mem_nil _, fun _ => Value.sealed_of_plain rfl⟩
  | cons item rest ih =>
      unfold RowSealed
      rw [List.forall_mem_cons]
      refine Iff.trans List.forall_mem_append (and_congr Iff.rfl ?_)
      exact ih

theorem sealed_of_get? {store : Store} {fields : Assoc Value} {name : String} {value : Value}
    (areSealed : FieldsSealed store fields) (found : fields.get? name = some value) :
    value.Sealed store := by
  obtain ⟨front, back, rfl, -⟩ := List.lookup_eq_some_iff.1 found
  exact areSealed (name, value) (List.mem_append_right _ List.mem_cons_self)

structure World.Sealed (world : World) : Prop where
  objects : ∀ fields ∈ world.objects, FieldsSealed world.store fields
  output : world.output.Sealed world.store

theorem World.sealed_start (base : Option Path) (memory : Memory) :
    (World.start base memory).Sealed :=
  ⟨List.forall_mem_nil _, Value.sealed_of_plain rfl⟩

theorem World.Sealed.withStore {world : World} (isSealed : world.Sealed) {store : Store}
    (isLater : world.store.Later store) : { world with store := store }.Sealed :=
  ⟨fun fields inside => (isSealed.objects fields inside).later isLater,
    isSealed.output.later isLater⟩

/-! Steps -/

section

variable {α β : Type}

structure SealedEnd (answers : Store → α → Prop) (store : Store)
    (result : EStateM.Result ScriptFault World α) : Prop where
  world : (stateAfter result).Sealed
  later : store.Later (stateAfter result).store
  answer : ∀ {value after}, result = .ok value after → answers after.store value

/-- A step whose values are sealed in a store, in all worlds that come later. -/
def Seals (answers : Store → α → Prop) (store : Store) (step : Step α) : Prop :=
  ∀ world : World, store.Later world.store → world.Sealed →
    SealedEnd answers world.store (step world)

variable {answers : Store → α → Prop} {further : Store → β → Prop} {store : Store}

theorem seals_pure {value : α} (holds : ∀ later, store.Later later → answers later value) :
    Seals answers store (pure value) := by
  refine fun world isLater isSealed => ⟨isSealed, .refl _, fun ends => ?_⟩
  cases ends
  exact holds _ isLater

theorem seals_plain {value : Value} (plain : value.storages = []) :
    Seals Value.Sealed store (pure value) :=
  seals_pure fun _ _ => Value.sealed_of_plain plain

theorem seals_throw (fault : ScriptFault) : Seals answers store (throw fault) :=
  fun _ _ isSealed => ⟨isSealed, .refl _, nofun⟩

theorem Seals.bind {first : Step α} {next : α → Step β} (firstSeals : Seals answers store first)
    (nextSeals : ∀ later value, store.Later later → answers later value →
      Seals further later (next value)) : Seals further store (first >>= next) := by
  intro world isLater isSealed
  have ends := firstSeals world isLater isSealed
  cases ran : first world with
  | ok value middle =>
      rw [ran] at ends
      have last := nextSeals middle.store value (isLater.trans ends.later) (ends.answer rfl) middle
        (.refl _) ends.world
      rw [bind_of_ok ran]
      exact ⟨last.world, ends.later.trans last.later, last.answer⟩
  | error fault middle =>
      rw [ran] at ends
      rw [bind_of_error ran]
      exact ⟨ends.world, ends.later, nofun⟩

theorem seals_get {next : World → Step β}
    (nextSeals : ∀ world, store.Later world.store → world.Sealed →
      Seals further world.store (next world)) : Seals further store (get >>= next) :=
  fun world isLater isSealed => nextSeals world isLater isSealed world (.refl _) isSealed

/-- A step that only reads the world, with an answer that has no blocks. -/
theorem seals_of_reads {step : Step α} (reads : Preserves id step) :
    Seals (fun _ _ => True) store step := by
  intro world isLater isSealed
  have same : stateAfter (step world) = world := reads world
  refine ⟨?_, ?_, fun _ => trivial⟩
  · rw [same]
    exact isSealed
  · rw [same]
    exact .refl _

abbrev SealsWorld (store : Store) (step : Step α) : Prop :=
  Seals (fun _ _ => True) store step

end

section

variable {store : Store}

theorem makeList_seals {items : List Value} (areSealed : RowSealed store items) :
    Seals Value.Sealed store (Step.makeList items) := by
  refine fun world isLater isSealed => ⟨⟨isSealed.objects, isSealed.output⟩, .refl _, fun ends => ?_⟩
  cases ends
  exact sealed_list.2 (areSealed.later isLater)

theorem makeObject_seals {fields : Assoc Value} (areSealed : FieldsSealed store fields) :
    Seals Value.Sealed store (Step.makeObject fields) := by
  refine fun world isLater isSealed => ⟨⟨fun other inside => ?_, isSealed.output⟩, .refl _,
    fun ends => ?_⟩
  · rcases List.mem_append.1 inside with before | isLast
    · exact isSealed.objects other before
    · exact List.mem_singleton.1 isLast ▸ areSealed.later isLater
  · cases ends
    exact Value.sealed_of_plain rfl

theorem fieldsOf_seals (reference : Nat) :
    Seals FieldsSealed store (Step.fieldsOf reference) := by
  refine seals_get fun world _ isSealed => seals_pure fun later isLater => ?_
  cases found : world.objects[reference]? with
  | none => exact List.forall_mem_nil _
  | some fields => exact (isSealed.objects fields (List.mem_of_getElem? found)).later isLater

theorem setField_seals (reference : Nat) (field : String) {value : Value}
    (isSealed : value.Sealed store) : SealsWorld store (Step.setField reference field value) := by
  refine fun world isLater worldSealed => ⟨⟨fun fields inside => ?_, worldSealed.output⟩, .refl _,
    fun _ => trivial⟩
  obtain ⟨place, found⟩ := List.getElem?_of_mem inside
  change (world.objects.modify reference _)[place]? = _ at found
  rw [List.getElem?_modify] at found
  obtain ⟨before, wasThere, rfl⟩ := Option.map_eq_some_iff.1 found
  have beforeSealed := worldSealed.objects before (List.mem_of_getElem? wasThere)
  split
  · exact Assoc.forall_set beforeSealed (isSealed.later isLater) field
  · exact beforeSealed

theorem textOf_seals (value : Value) : SealsWorld store (Step.textOf value) :=
  seals_of_reads (textOf_contained value).keeps

theorem textsOf_seals (values : List Value) : SealsWorld store (Step.textsOf values) :=
  seals_of_reads (textsOf_contained values).keeps

/-! Builtins -/

namespace Builder

theorem self_seals : Seals Value.Sealed store self :=
  seals_get fun _ _ _ => seals_plain rfl

theorem assign_seals (properties : List (String × String)) : SealsWorld store (assign properties) :=
  fun _ _ isSealed => ⟨isSealed.withStore (Store.later_assign _), Store.later_assign _, fun _ => trivial⟩

theorem finish_seals (selectors : List String) : Seals Value.Sealed store (finish selectors) := by
  refine fun world _ isSealed => ⟨isSealed.withStore Store.later_renew, Store.later_renew,
    fun ends => ?_⟩
  cases ends
  exact List.forall_mem_singleton.2 (Store.renew_sealed world.store.inside)

theorem setProperty_seals (property : String) (value : Value) :
    Seals Value.Sealed store (setProperty property value) :=
  (textOf_seals value).bind fun _ _ _ _ => (assign_seals _).bind fun _ _ _ _ => self_seals

theorem mixin_seals (blocks : List Value) : Seals Value.Sealed store (mixin blocks) := by
  induction blocks generalizing store with
  | nil => exact self_seals
  | cons value rest ih =>
      cases value with
      | block selectors storage =>
          exact seals_get fun _ _ _ => (assign_seals _).bind fun _ _ _ _ => ih
      | _ => exact seals_throw _

theorem navBlocks_seals (parts : List NavPart) : Seals FieldsSealed store (navBlocks parts) := by
  induction parts generalizing store with
  | nil => exact seals_pure fun _ _ => List.forall_mem_nil _
  | cons part rest ih =>
      refine (assign_seals _).bind fun _ _ _ _ => (finish_seals _).bind fun _ first _ firstSealed =>
        ih.bind fun _ others isLater othersSealed => seals_pure fun _ isLaterStill => ?_
      exact List.forall_mem_cons.2 ⟨firstSealed.later (isLater.trans isLaterStill),
        othersSealed.later isLaterStill⟩

theorem navBar_seals (selectors : List Value) : Seals FieldsSealed store (navBar selectors) := by
  refine (textsOf_seals _).bind fun _ texts _ _ => ?_
  cases texts with
  | nil => exact seals_throw _
  | cons container inner => exact navBlocks_seals _

theorem borderSideStyle_seals (side value : Value) :
    Seals Value.Sealed store (borderSideStyle side value) := by
  unfold borderSideStyle
  split
  · split
    · exact setProperty_seals _ _
    · exact self_seals
  · exact self_seals

theorem textDecoration_seals (value style : Value) :
    Seals Value.Sealed store (textDecoration value style) := by
  unfold textDecoration
  split <;> exact setProperty_seals _ _

theorem apply_seals (operation : Operation) (arguments : List Value) :
    Seals Value.Sealed store (apply operation arguments) := by
  unfold apply
  split
  · exact (textsOf_seals _).bind fun _ _ _ _ => finish_seals _
  · exact mixin_seals _
  · exact (navBar_seals _).bind fun _ _ _ areSealed => makeObject_seals areSealed
  · exact borderSideStyle_seals _ _
  · exact borderSideStyle_seals _ _
  · exact textDecoration_seals _ _
  · exact textDecoration_seals _ _
  · exact setProperty_seals _ _
  · exact setProperty_seals _ _
  · exact seals_throw _

end Builder

namespace Printing

theorem emit_seals (text : Except ScriptFault String) : Seals Value.Sealed store (emit text) := by
  cases text with
  | error fault => exact seals_throw _
  | ok text =>
      refine fun world _ isSealed => ⟨⟨isSealed.objects, Value.sealed_of_plain rfl⟩, .refl _,
        fun ends => ?_⟩
      cases ends
      exact Value.sealed_of_plain rfl

theorem run_seals (arguments : List Value) : Seals Value.Sealed store (run arguments) :=
  seals_get fun _ _ _ => emit_seals _

theorem compile_seals (value : Value) : Seals Value.Sealed store (compile value) := by
  unfold compile
  split
  · exact (fieldsOf_seals _).bind fun _ _ _ _ => seals_get fun _ _ _ => emit_seals _
  · exact seals_throw _

end Printing

/-! Steps of evaluation -/

namespace Evaluate

theorem lookup_seals {scope : Scope} (areSealed : FieldsSealed store scope) (id : String)
    (line : Nat) : Seals Value.Sealed store (lookup scope id line) := by
  refine seals_get fun world isLater _ => ?_
  split
  · rename_i value found
    exact seals_pure fun _ isLaterStill =>
      (sealed_of_get? areSealed found).later (isLater.trans isLaterStill)
  · rename_i value _ found
    have globalsSealed : FieldsSealed world.store (globals world.memory) := by
      unfold FieldsSealed globals
      simp [Value.Sealed, Value.storages]
    exact seals_pure fun _ isLaterStill => (sealed_of_get? globalsSealed found).later isLaterStill
  · exact seals_throw _

theorem builderMember_seals (name : String) (line : Option Nat) :
    Seals Value.Sealed store (builderMember name line) := by
  unfold builderMember
  split
  · refine seals_get fun world _ isSealed => ?_
    split
    · exact seals_plain rfl
    · exact seals_pure fun _ isLater => isSealed.output.later isLater
  · refine fun world _ isSealed => ⟨⟨isSealed.objects, isSealed.output⟩, .refl _, fun ends => ?_⟩
    cases ends
    exact Value.sealed_of_plain rfl
  · exact seals_get fun _ _ _ => seals_plain rfl
  · exact seals_throw _

theorem readField_seals (value : Value) (field : String) (line : Option Nat) :
    Seals Value.Sealed store (readField value field line) := by
  unfold readField
  split
  · refine (fieldsOf_seals _).bind fun _ fields _ areSealed => seals_pure fun _ isLater => ?_
    cases found : fields.get? field with
    | none => exact Value.sealed_of_plain rfl
    | some value => exact (sealed_of_get? areSealed found).later isLater
  · split
    · refine makeList_seals fun value inside => ?_
      obtain ⟨_, _, rfl⟩ := List.mem_map.1 inside
      exact Value.sealed_of_plain rfl
    · refine seals_get fun world _ _ => seals_pure fun _ _ => ?_
      cases Assoc.get? (world.store.read _) field <;> exact Value.sealed_of_plain rfl
  · exact seals_plain (by split <;> rfl)
  · exact seals_plain (by split <;> rfl)
  · exact builderMember_seals _ _
  · exact seals_throw _
  · exact seals_throw _
  · exact seals_plain rfl

theorem position?_seals (key : Value) : SealsWorld store (position? key) := by
  refine seals_of_reads ?_
  unfold position?
  split
  · exact preserves_pure _
  · split
    · exact preserves_throw _
    · exact preserves_throw _
    · exact preserves_pure _
  · exact preserves_pure _

theorem readIndex_seals {value : Value} (isSealed : value.Sealed store) (key : Value)
    (line : Option Nat) : Seals Value.Sealed store (readIndex value key line) := by
  unfold readIndex
  split
  · rename_i stamp items _
    refine (position?_seals key).bind fun _ place isLater _ => seals_pure fun _ isLaterStill => ?_
    cases found : place.bind (items[·]?) with
    | none => exact Value.sealed_of_plain rfl
    | some item =>
        obtain ⟨index, -, here⟩ := Option.bind_eq_some_iff.1 found
        exact (sealed_list.1 isSealed item (List.mem_of_getElem? here)).later
          (isLater.trans isLaterStill)
  · rename_i text _
    refine (position?_seals key).bind fun _ place _ _ => seals_pure fun _ _ => ?_
    cases place.bind (text.toList[·]?) <;> exact Value.sealed_of_plain rfl
  · exact (textOf_seals _).bind fun _ _ _ _ => readField_seals _ _ _

theorem add_seals (left right : Value) : Seals Value.Sealed store (add left right) := by
  fun_cases add left right
  · exact seals_plain rfl
  · exact seals_plain rfl
  · exact seals_plain rfl
  · exact seals_throw _
  · exact seals_plain rfl
  · exact seals_throw _
  · exact (textOf_seals _).bind fun _ _ _ _ => (textOf_seals _).bind fun _ _ _ _ =>
      seals_plain rfl

theorem negate_seals (value : Value) : Seals Value.Sealed store (negate value) := by
  unfold negate
  split
  · exact seals_plain rfl
  · exact seals_plain rfl
  · exact seals_throw _

theorem writeField_seals (object : Value) (field : String) {value : Value}
    (isSealed : value.Sealed store) (line : Nat) :
    SealsWorld store (writeField object field value line) := by
  unfold writeField
  split
  · exact setField_seals _ _ isSealed
  · split
    · exact fun world isLater worldSealed =>
        ⟨⟨worldSealed.objects, isSealed.later isLater⟩, .refl _, fun _ => trivial⟩
    · exact seals_throw _
  · exact seals_throw _

end Evaluate

end

/-! Tasks -/

namespace Task

def Sealed (store : Store) : Task → Prop
  | expr scope _ | exprs scope _ | pairs scope _ | texts scope _ => FieldsSealed store scope
  | read value _ _ => value.Sealed store
  | apply _ arguments => RowSealed store arguments
  | statement scope _ | statements scope _ => FieldsSealed store scope
  | script _ => True
  | namespaceOf names _ => FieldsSealed store names
  | get value => value.Sealed store

def AnswerSealed : (task : Task) → Store → task.Answer → Prop
  | expr .. | read .. | apply .. | get .. => Value.Sealed
  | exprs .. => RowSealed
  | pairs .. => FieldsSealed
  | texts .. => fun _ _ => True
  | statement .. | statements .. | script .. | namespaceOf .. => FieldsSealed

theorem AnswerSealed.later : ∀ {task : Task} {store later : Store} {answer : task.Answer},
    task.AnswerSealed store answer → store.Later later → task.AnswerSealed later answer
  | expr .., _, _, _, isSealed, isLater | read .., _, _, _, isSealed, isLater
  | apply .., _, _, _, isSealed, isLater | get .., _, _, _, isSealed, isLater =>
      Value.Sealed.later isSealed isLater
  | exprs .., _, _, _, areSealed, isLater => RowSealed.later areSealed isLater
  | texts .., _, _, _, _, _ => trivial
  | pairs .., _, _, _, areSealed, isLater | statement .., _, _, _, areSealed, isLater
  | statements .., _, _, _, areSealed, isLater | script .., _, _, _, areSealed, isLater
  | namespaceOf .., _, _, _, areSealed, isLater => FieldsSealed.later areSealed isLater

theorem Sealed.later : ∀ {task : Task} {store later : Store}, task.Sealed store →
    store.Later later → task.Sealed later
  | read .., _, _, isSealed, isLater | get .., _, _, isSealed, isLater =>
      Value.Sealed.later isSealed isLater
  | apply .., _, _, areSealed, isLater => RowSealed.later areSealed isLater
  | script .., _, _, _, _ => trivial
  | expr .., _, _, areSealed, isLater | exprs .., _, _, areSealed, isLater
  | pairs .., _, _, areSealed, isLater | texts .., _, _, areSealed, isLater
  | statement .., _, _, areSealed, isLater | statements .., _, _, areSealed, isLater
  | namespaceOf .., _, _, areSealed, isLater => FieldsSealed.later areSealed isLater

end Task

/-- Whatever a plan calls is sealed, as long as the answers are, and it finishes with steps that seal. -/
def Plan.Seals {α : Type} (answers : Store → α → Prop) : Store → Plan α → Prop
  | store, finish step => Script.Seals answers store step
  | store, call task next => task.Sealed store ∧
    ∀ later answer, store.Later later → task.AnswerSealed later answer →
      (next answer).Seals answers later
  | store, load value next => value.Sealed store ∧
    ∀ later answer, store.Later later → answer.Sealed later → (next answer).Seals answers later

namespace Task

open Plan

variable {store : Store}

theorem only_seals {task : Task} (isSealed : task.Sealed store) :
    (only task).Seals task.AnswerSealed store :=
  ⟨isSealed, fun _ _ _ holds => seals_pure fun _ isLater => holds.later isLater⟩

theorem exprPlan_seals {scope : Scope} (areSealed : FieldsSealed store scope) (e : Expr) :
    (exprPlan scope e).Seals Value.Sealed store := by
  cases e with
  | literal constant => exact seals_plain (by cases constant <;> rfl)
  | template parts => exact ⟨areSealed, fun _ _ _ _ => seals_plain rfl⟩
  | name id line => exact Evaluate.lookup_seals areSealed id line
  | member object field line =>
      exact ⟨areSealed, fun _ value _ isSealed => @only_seals _ (read value (.text field) line) isSealed⟩
  | index object key line =>
      exact ⟨areSealed, fun _ value isLater isSealed => ⟨areSealed.later isLater,
        fun _ key isLaterStill _ =>
          @only_seals _ (read value key line) (Value.Sealed.later isSealed isLaterStill)⟩⟩
  | call function arguments line =>
      refine ⟨areSealed, fun _ value isLater _ => ?_⟩
      cases value with
      | function builtin address =>
          exact ⟨areSealed.later isLater, fun _ values _ given =>
            @only_seals _ (apply builtin values) given⟩
      | _ => exact seals_throw _
  | object fields =>
      exact ⟨areSealed, fun _ values _ given => makeObject_seals (Assoc.forall_setAll (List.forall_mem_nil _) given)⟩
  | array items => exact ⟨areSealed, fun _ values _ given => makeList_seals given⟩
  | sum left right =>
      exact ⟨areSealed, fun _ _ isLater _ => ⟨areSealed.later isLater, fun _ _ _ _ =>
        Evaluate.add_seals _ _⟩⟩
  | negation operand => exact ⟨areSealed, fun _ _ _ _ => Evaluate.negate_seals _⟩

theorem statementPlan_seals {scope : Scope} (areSealed : FieldsSealed store scope)
    (single : Statement) : (statementPlan scope single).Seals FieldsSealed store := by
  have set {later last : Store} (name : String) {value : Value} (isLater : store.Later later)
      (isSealed : value.Sealed later) (isLaterStill : later.Later last) :
      FieldsSealed last (scope.set name value) :=
    Assoc.forall_set (areSealed.later (isLater.trans isLaterStill)) (isSealed.later isLaterStill) name
  cases single with
  | declare name value =>
      rw [statementPlan]
      split
      · exact seals_throw _
      · exact ⟨areSealed, fun _ value isLater isSealed => seals_pure fun _ => set name isLater isSealed⟩
  | assign target value =>
      cases target with
      | name id line =>
          refine ⟨areSealed, fun _ value isLater isSealed => ?_⟩
          change Script.Seals _ _ (if _ then _ else _)
          split
          · exact seals_pure fun _ => set id isLater isSealed
          · exact seals_throw _
      | member object field line =>
          exact ⟨areSealed, fun _ value isLater isSealed => ⟨areSealed.later isLater,
            fun _ object isLaterStill _ => (Evaluate.writeField_seals object field
              (Value.Sealed.later isSealed isLaterStill) line).bind fun _ _ isLaterYet _ =>
                seals_pure fun _ isLast => areSealed.later
                  (((isLater.trans isLaterStill).trans isLaterYet).trans isLast)⟩⟩
  | expression value =>
      exact ⟨areSealed, fun _ _ isLater _ => seals_pure fun _ isLaterStill =>
        areSealed.later (isLater.trans isLaterStill)⟩

theorem apply_seals {function : Function} {arguments : List Value}
    (areSealed : RowSealed store arguments) :
    (apply function arguments).plan.Seals Value.Sealed store := by
  cases function with
  | run => exact Printing.run_seals _
  | compile =>
      match arguments with
      | [] => exact seals_throw _
      | [value] => exact Printing.compile_seals _
      | _ :: _ :: _ => exact seals_throw _
  | get =>
      match arguments with
      | [] => exact seals_throw _
      | [value] => exact @only_seals _ (get value) (areSealed value List.mem_cons_self)
      | _ :: _ :: _ => exact seals_throw _
  | operation operation => exact Builder.apply_seals _ _

theorem plan_seals : ∀ {task : Task}, task.Sealed store → task.plan.Seals task.AnswerSealed store
  | expr scope e, areSealed => exprPlan_seals areSealed e
  | exprs _ [], _ => seals_pure fun _ _ => List.forall_mem_nil _
  | exprs _ (_ :: _), areSealed =>
      ⟨areSealed, fun _ _ isLater isSealed => ⟨FieldsSealed.later areSealed isLater,
        fun _ _ isLaterStill given => seals_pure fun _ isLast => List.forall_mem_cons.2
          ⟨Value.Sealed.later isSealed (isLaterStill.trans isLast), RowSealed.later given isLast⟩⟩⟩
  | pairs _ [], _ => seals_pure fun _ _ => List.forall_mem_nil _
  | pairs _ ((_, _) :: _), areSealed =>
      ⟨areSealed, fun _ _ isLater isSealed => ⟨FieldsSealed.later areSealed isLater,
        fun _ _ isLaterStill given => seals_pure fun _ isLast => List.forall_mem_cons.2
          ⟨Value.Sealed.later isSealed (isLaterStill.trans isLast), FieldsSealed.later given isLast⟩⟩⟩
  | texts _ [], _ => seals_pure fun _ _ => trivial
  | texts _ (.text _ :: _), areSealed =>
      ⟨areSealed, fun _ _ _ _ => seals_pure fun _ _ => trivial⟩
  | texts _ (.hole _ :: _), areSealed => by
      refine ⟨areSealed, fun _ value isLater _ => ?_⟩
      change Plan.Seals _ _ (Plan.withText value _)
      unfold Plan.withText
      split
      · exact ⟨FieldsSealed.later areSealed isLater, fun _ _ _ _ => seals_pure fun _ _ => trivial⟩
      · exact seals_throw _
  | read _ key line, isSealed => Evaluate.readIndex_seals isSealed key line
  | apply _ _, areSealed => apply_seals areSealed
  | statement _ single, areSealed => statementPlan_seals areSealed single
  | statements _ [], areSealed => seals_pure fun _ isLater => FieldsSealed.later areSealed isLater
  | statements _ (_ :: rest), areSealed =>
      ⟨areSealed, fun _ scope _ given => @only_seals _ (statements scope rest) given⟩
  | script source, _ => by
      rw [plan]
      split
      · rename_i program _
        exact @only_seals _ (statements [] program) (List.forall_mem_nil _)
      · exact seals_throw _
  | namespaceOf _ [], areSealed => seals_pure fun _ isLater => FieldsSealed.later areSealed isLater
  | namespaceOf names (segment :: rest), areSealed => by
      rw [plan]
      split
      · exact ⟨trivial, fun _ declared isLater given => @only_seals _ (namespaceOf _ rest)
          (Assoc.forall_setAll (FieldsSealed.later areSealed isLater) given)⟩
      · exact @only_seals _ (namespaceOf names rest) areSealed
  | get _, isSealed =>
      ⟨isSealed, fun _ _ _ given => seals_pure fun _ isLater => Value.Sealed.later given isLater⟩

end Task

/-! Runs -/

abbrev ImportsSeal (handler : Value → Step Value) : Prop :=
  ∀ store value, Value.Sealed store value → Seals Value.Sealed store (handler value)

section

variable {handler : Value → Step Value} (imports : ImportsSeal handler)

include imports

theorem Plan.run_seals {α : Type} {answers : Store → α → Prop} {plan : Plan α} {store : Store}
    (tasks : plan.All fun task => ∀ store, task.Sealed store →
      Script.Seals task.AnswerSealed store (task.run handler))
    (planSeals : plan.Seals answers store) : Script.Seals answers store (plan.run handler) := by
  induction plan generalizing store with
  | finish step => exact planSeals
  | call task next ih =>
      exact (tasks.1 store planSeals.1).bind fun later answer isLater given =>
        ih answer (tasks.2 answer) (planSeals.2 later answer isLater given)
  | load value next ih =>
      exact (imports store value planSeals.1).bind fun later answer isLater given =>
        ih answer (tasks answer) (planSeals.2 later answer isLater given)

theorem Task.run_seals : ∀ (task : Task) (store : Store), task.Sealed store →
    Seals task.AnswerSealed store (task.run handler) := by
  refine Task.of_plan fun task tasks store isSealed => ?_
  rw [← Task.run_plan]
  exact Plan.run_seals imports tasks (Task.plan_seals isSealed)

end

namespace Import

theorem during_seals (path : Path) {step : Step Value} {store : Store}
    (stepSeals : Seals Value.Sealed store step) :
    Seals Value.Sealed store (during path step) := by
  intro world isLater isSealed
  have ends := stepSeals (world.entered path) isLater ⟨isSealed.objects, isSealed.output⟩
  cases ran : step (world.entered path) with
  | ok value after =>
      rw [ran] at ends
      have given := ends.answer rfl
      rw [during_ok ran]
      refine ⟨⟨ends.world.objects, isSealed.output.later ends.later⟩, ends.later, fun same => ?_⟩
      cases same
      exact given
  | error fault after =>
      rw [ran] at ends
      rw [during_error ran]
      exact ⟨⟨ends.world.objects, isSealed.output.later ends.later⟩, ends.later, nofun⟩

/-- By induction on how deep imports may nest. -/
theorem importFile_seals (setting : Setting) (depth : Nat) : ImportsSeal (importFile setting depth) := by
  induction depth with
  | zero =>
      intro store value isSealed
      unfold importFile
      refine seals_get fun world _ _ => ?_
      split
      · exact seals_throw _
      · exact (seals_of_reads (find_preserves _ _ _)).bind fun _ _ _ _ => seals_throw _
  | succ depth ih =>
      intro store value isSealed
      unfold importFile
      refine seals_get fun world _ _ => ?_
      split
      · exact seals_throw _
      · refine (seals_of_reads (find_preserves _ _ _)).bind fun _ path _ _ => during_seals path ?_
        split
        · rename_i source _
          exact (Task.run_seals ih (.namespaceOf [] (split source)) _ (List.forall_mem_nil _)).bind
            fun _ _ _ given => makeObject_seals given
        · exact seals_throw _

end Import

theorem seals_run (setting : Setting) {task : Task} {store : Store} (isSealed : task.Sealed store) :
    Seals task.AnswerSealed store (task.run (Import.getFile setting)) :=
  Task.run_seals (Import.importFile_seals setting _) task store isSealed

/-! Moments -/

/-- At a moment no block shares the storage that is written to. -/
def Moment.Sealed (moment : Moment) : Prop :=
  moment.1.Sealed moment.2.store ∧ moment.2.Sealed

section

variable {setting : Setting}

theorem Plan.sealed_moments {α : Type} {answers : Store → α → Prop} {plan : Plan α} {store : Store}
    (seals : plan.Seals answers store) : ∀ world : World, store.Later world.store → world.Sealed →
      ∀ part ∈ plan.moments setting world, Moment.Sealed part := by
  induction plan generalizing store with
  | finish step => exact fun _ _ _ => List.forall_mem_nil _
  | call task next ih =>
      intro world isLater isSealed part inside
      rw [moments] at inside
      rcases List.mem_cons.1 inside with rfl | behind
      · exact ⟨seals.1.later isLater, isSealed⟩
      · obtain ⟨answer, after, ran, further⟩ := mem_behindResult.1 behind
        have ends := seals_run setting seals.1 world isLater isSealed
        have given := ends.answer ran
        rw [ran] at ends
        exact ih answer (seals.2 _ answer (isLater.trans ends.later) given) after (.refl _) ends.world
          part further
  | load value next ih =>
      intro world isLater isSealed part inside
      rw [moments] at inside
      rcases List.mem_append.1 inside with opening | behind
      · obtain ⟨source, start, opens, rfl⟩ := mem_importMoments.1 opening
        obtain ⟨_, path, _, _, _, rfl⟩ := Import.opened_eq_ok opens
        exact ⟨List.forall_mem_nil _, isSealed.objects, isSealed.output⟩
      · obtain ⟨answer, after, ran, further⟩ := mem_behindResult.1 behind
        have ends := @seals_run setting (.get value) _ seals.1 world isLater isSealed
        have given := ends.answer ran
        have last : SealedEnd Value.Sealed world.store (.ok answer after) := ran ▸ ends
        exact ih answer (seals.2 _ answer (isLater.trans last.later) given) after (.refl _) last.world
          part further

theorem sealed_part {whole part : Moment} (isSealed : whole.Sealed)
    (inside : part ∈ whole.parts setting) : part.Sealed :=
  Plan.sealed_moments (Task.plan_seals isSealed.1) whole.2 (.refl _) isSealed.2 part inside

theorem sealed_of_happens {start moment : Moment} (isSealed : start.Sealed)
    (happens : Happens setting start moment) : moment.Sealed := by
  induction happens with
  | start => exact isSealed
  | part _ inside ih => exact sealed_part ih inside

def World.afterScripts (setting : Setting) (world : World) (texts : List String) : World :=
  texts.foldl
    (fun world text => stateAfter (runScript setting text { world with output := .null })) world

theorem World.Sealed.cleared {world : World} (isSealed : world.Sealed) :
    { world with output := .null }.Sealed :=
  ⟨isSealed.objects, Value.sealed_of_plain rfl⟩

theorem World.Sealed.afterScripts {world : World} (isSealed : world.Sealed) (texts : List String) :
    (world.afterScripts setting texts).Sealed := by
  induction texts generalizing world with
  | nil => exact isSealed
  | cons text rest ih =>
      have scriptSealed : (Task.script text).Sealed world.store := trivial
      have seals := seals_run setting scriptSealed
      exact ih (seals { world with output := .null } (.refl _) isSealed.cleared).world

/--
At no moment of a run, whatever scripts ran before, does a block share the storage that is written
to.
-/
theorem sealed_of_run {base : Option Path} {memory : Memory} {texts : List String} {text : String}
    {moment : Moment} (happens : Happens setting (.script text,
      { (World.start base memory).afterScripts setting texts with output := .null }) moment) :
    moment.Sealed := by
  refine sealed_of_happens ⟨?_, ?_⟩ happens
  · exact trivial
  · exact ((World.sealed_start base memory).afterScripts texts).cleared

end

end SheetScript.Script
