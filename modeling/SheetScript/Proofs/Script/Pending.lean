import SheetScript.Proofs.Script.Calls
import SheetScript.Proofs.Script.Storages

/-!
What an import has to do with the styles its importer is in the middle of building. The scripts of the
document work on the bag of the importer: they can finish it into a block of their own, and what they
set stays in it. An import that finishes no block and does not read what has been emitted does the
same whatever is pending.
-/

namespace SheetScript.Script

open SheetScript.Document SheetScript.Files SheetScript.Style

inductive BagUse
  | leaves
  /-- Properties are set, but nothing is made of the bag. -/
  | assigns
  /-- The bag is finished into blocks as well. -/
  | finishes

namespace BagUse

def allows : BagUse → Operation → Bool
  | leaves, _ => false
  | assigns, .block => false
  | assigns, .navBar => false
  | _, _ => true

/-- Whoever finishes bags has to find the same ones to make the same blocks. -/
def Ready : BagUse → Bag → Bag → Prop
  | finishes, first, second => first = second
  | _, _, _ => True

/-- From the bags of two runs to those they end with. -/
def Leads : BagUse → Bag → Bag → Bag → Bag → Prop
  | leaves, first, second, firstAfter, secondAfter => firstAfter = first ∧ secondAfter = second
  | assigns, first, second, firstAfter, secondAfter =>
    ∃ assigned, firstAfter = first.assign assigned ∧ secondAfter = second.assign assigned
  | finishes, _, _, firstAfter, secondAfter => firstAfter = secondAfter

variable {use : BagUse} {first second firstMiddle secondMiddle firstAfter secondAfter : Bag}

theorem leads_refl (ready : use.Ready first second) : use.Leads first second first second := by
  cases use with
  | leaves => exact ⟨rfl, rfl⟩
  | assigns => exact ⟨[], rfl, rfl⟩
  | finishes => exact ready

theorem Leads.ready (leads : use.Leads first second firstAfter secondAfter) :
    use.Ready firstAfter secondAfter := by
  cases use with
  | leaves => trivial
  | assigns => trivial
  | finishes => exact leads

theorem Leads.trans (leads : use.Leads first second firstMiddle secondMiddle)
    (further : use.Leads firstMiddle secondMiddle firstAfter secondAfter) :
    use.Leads first second firstAfter secondAfter := by
  cases use with
  | leaves => exact ⟨further.1.trans leads.1, further.2.trans leads.2⟩
  | assigns =>
      obtain ⟨assigned, rfl, rfl⟩ := leads
      obtain ⟨more, rfl, rfl⟩ := further
      exact ⟨assigned ++ more, List.foldl_append.symm, List.foldl_append.symm⟩
  | finishes => exact further

theorem leads_assign (sets : use ≠ .leaves) (ready : use.Ready first second)
    (assigned : List (String × String)) :
    use.Leads first second (first.assign assigned) (second.assign assigned) := by
  cases use with
  | leaves => exact absurd rfl sets
  | assigns => exact ⟨assigned, rfl, rfl⟩
  | finishes => exact congrArg (Bag.assign · assigned) ready

end BagUse

end SheetScript.Script

namespace SheetScript.Style.Store

/-- Stores that differ at most in what the storage holds that is written to. -/
structure Alike (first second : Store) : Prop where
  current : second.current = first.current
  length : second.bags.length = first.bags.length
  reads : ∀ storage, storage ≠ first.current → second.read storage = first.read storage

variable {first second : Store}

theorem Alike.read (alike : first.Alike second) {storage : Nat} (isSealed : first.IsSealed storage) :
    second.read storage = first.read storage :=
  alike.reads storage isSealed.2

theorem Alike.assign (alike : first.Alike second) (properties : List (String × String)) :
    (first.assign properties).Alike (second.assign properties) := by
  refine ⟨alike.current, ?_, fun storage unused => ?_⟩
  · change (List.modify _ _ _).length = (List.modify _ _ _).length
    rw [List.length_modify, List.length_modify, alike.length]
  · have unusedFirst : storage ≠ first.current := unused
    have unusedSecond : storage ≠ second.current := alike.current ▸ unusedFirst
    rw [read_assign, read_assign, if_neg unusedFirst, if_neg unusedSecond]
    exact alike.reads storage unusedFirst

theorem Alike.bag_eq_read (alike : first.Alike second) : second.bag = second.read first.current := by
  rw [bag, alike.current]

/-- Stores that hand over the same bag are alike in all that was handed over. -/
theorem Alike.renew (alike : first.Alike second) (same : first.bag = second.bag) :
    first.renew.Alike second.renew := by
  refine ⟨alike.length, ?_, fun storage _ => ?_⟩
  · change (second.bags ++ [[]]).length = (first.bags ++ [[]]).length
    rw [List.length_append, List.length_append, alike.length]
  · rw [read_renew, read_renew]
    by_cases handedOver : storage = first.current
    · rw [handedOver, ← alike.bag_eq_read, ← same]
      rfl
    · exact alike.reads storage handedOver

end SheetScript.Style.Store

namespace SheetScript.Script

open SheetScript.Document SheetScript.Files SheetScript.Style

/-- Worlds that differ at most in the pending bag and in what has been emitted. -/
structure Alike (first second : World) : Prop where
  stores : first.store.Alike second.store
  objects : second.objects = first.objects
  stamps : second.nextStamp = first.nextStamp
  base : second.base = first.base
  importing : second.importing = first.importing
  memory : second.memory = first.memory

section

variable {first second : World} (alike : Alike first second)

include alike

theorem Alike.withOutput (firstOutput secondOutput : Value) :
    Alike { first with output := firstOutput } { second with output := secondOutput } :=
  ⟨alike.stores, alike.objects, alike.stamps, alike.base, alike.importing, alike.memory⟩

theorem Alike.withStore {firstStore secondStore : Store} (stores : firstStore.Alike secondStore) :
    Alike { first with store := firstStore } { second with store := secondStore } :=
  ⟨stores, alike.objects, alike.stamps, alike.base, alike.importing, alike.memory⟩

end

inductive AlikeEnds (use : BagUse) (first second : Bag) {α : Type} :
    EStateM.Result ScriptFault World α → EStateM.Result ScriptFault World α → Prop
  | ok {answer : α} {after other : World} (alike : Alike after other)
      (bags : use.Leads first second after.bag other.bag) :
      AlikeEnds use first second (.ok answer after) (.ok answer other)
  | error {fault : ScriptFault} {after other : World} (alike : Alike after other)
      (bags : use.Leads first second after.bag other.bag) :
      AlikeEnds use first second (.error fault after) (.error fault other)

/-- A step that does the same in all worlds that are alike. -/
def Oblivious (use : BagUse) {α : Type} (step : Step α) : Prop :=
  ∀ first second : World, Alike first second → use.Ready first.bag second.bag →
    AlikeEnds use first.bag second.bag (step first) (step second)

/-- One that does so as long as the blocks it reads were handed over. -/
def ObliviousIn (given : World → Prop) (use : BagUse) {α : Type} (step : Step α) : Prop :=
  ∀ first second : World, given first → Alike first second → use.Ready first.bag second.bag →
    AlikeEnds use first.bag second.bag (step first) (step second)

section

variable {use : BagUse} {α β : Type}

theorem oblivious_pure (value : α) : Oblivious use (pure value) :=
  fun _ _ alike ready => .ok alike (BagUse.leads_refl ready)

theorem Oblivious.within {step : Step α} (oblivious : Oblivious use step) (given : World → Prop) :
    ObliviousIn given use step :=
  fun first second _ => oblivious first second

theorem oblivious_throw (fault : ScriptFault) : Oblivious use (throw fault : Step α) :=
  fun _ _ alike ready => .error alike (BagUse.leads_refl ready)

theorem AlikeEnds.trans {first second firstMiddle secondMiddle : Bag}
    {result other : EStateM.Result ScriptFault World α}
    (leads : use.Leads first second firstMiddle secondMiddle)
    (ends : AlikeEnds use firstMiddle secondMiddle result other) :
    AlikeEnds use first second result other := by
  cases ends with
  | ok alike bags => exact .ok alike (leads.trans bags)
  | error alike bags => exact .error alike (leads.trans bags)

theorem AlikeEnds.bind {first second : World} {step other : Step α} {next nextOther : α → Step β}
    (ends : AlikeEnds use first.bag second.bag (step first) (other second))
    (further : ∀ {answer after otherAfter}, step first = .ok answer after →
      other second = .ok answer otherAfter → Alike after otherAfter →
      use.Ready after.bag otherAfter.bag →
      AlikeEnds use after.bag otherAfter.bag (next answer after) (nextOther answer otherAfter)) :
    AlikeEnds use first.bag second.bag ((step >>= next) first) ((other >>= nextOther) second) := by
  generalize ran : step first = result at ends
  generalize ranOther : other second = otherResult at ends
  cases ends with
  | ok alike bags =>
      rw [bind_of_ok ran, bind_of_ok ranOther]
      exact (further ran ranOther alike bags.ready).trans bags
  | error alike bags =>
      rw [bind_of_error ran, bind_of_error ranOther]
      exact .error alike bags

theorem oblivious_bind {step : Step α} {next : α → Step β} (first : Oblivious use step)
    (further : ∀ value, Oblivious use (next value)) : Oblivious use (step >>= next) :=
  fun _ _ alike ready => (first _ _ alike ready).bind fun _ _ => further _ _ _

/-- What is read off a world has to be the same in all that are alike. -/
theorem oblivious_get {next : World → Step α}
    (same : ∀ first second, Alike first second → next second = next first)
    (further : ∀ world, Oblivious use (next world)) : Oblivious use (get >>= next) := by
  intro first second alike ready
  rw [bind_of_get, bind_of_get, same first second alike]
  exact further first first second alike ready

theorem oblivious_modify {change : World → World}
    (alikeAfter : ∀ first second, Alike first second → Alike (change first) (change second))
    (sameBag : ∀ world, (change world).bag = world.bag) :
    Oblivious use (modify change : Step PUnit) := by
  intro first second alike ready
  refine .ok (alikeAfter first second alike) ?_
  rw [sameBag, sameBag]
  exact BagUse.leads_refl ready

theorem makeList_oblivious (items : List Value) : Oblivious use (Step.makeList items) := by
  intro first second alike ready
  unfold Step.makeList
  rw [alike.stamps]
  exact .ok ⟨alike.stores, alike.objects, rfl, alike.base, alike.importing, alike.memory⟩
    (BagUse.leads_refl ready)

theorem makeObject_oblivious (fields : Assoc Value) : Oblivious use (Step.makeObject fields) := by
  intro first second alike ready
  unfold Step.makeObject
  rw [alike.objects]
  exact .ok ⟨alike.stores, rfl, alike.stamps, alike.base, alike.importing, alike.memory⟩
    (BagUse.leads_refl ready)

theorem setterAddress_oblivious : Oblivious use Step.setterAddress := by
  intro first second alike ready
  unfold Step.setterAddress
  rw [alike.memory]
  exact .ok ⟨alike.stores, alike.objects, alike.stamps, alike.base, alike.importing, rfl⟩
    (BagUse.leads_refl ready)

theorem fieldsOf_oblivious (reference : Nat) : Oblivious use (Step.fieldsOf reference) :=
  oblivious_get (fun _ _ alike => by rw [alike.objects]) fun _ => oblivious_pure _

theorem setField_oblivious (reference : Nat) (field : String) (value : Value) :
    Oblivious use (Step.setField reference field value) :=
  oblivious_modify
    (fun _ _ alike => ⟨alike.stores, congrArg (List.modify · reference _) alike.objects,
      alike.stamps, alike.base, alike.importing, alike.memory⟩)
    fun _ => rfl

theorem textOf_oblivious (value : Value) : Oblivious use (Step.textOf value) := by
  unfold Step.textOf
  split
  · exact oblivious_pure _
  · exact oblivious_throw _

theorem textsOf_oblivious (values : List Value) : Oblivious use (Step.textsOf values) := by
  induction values with
  | nil => exact oblivious_pure _
  | cons value rest ih =>
      exact oblivious_bind (textOf_oblivious value) fun _ =>
        oblivious_bind ih fun _ => oblivious_pure _

/-! Builtins -/

namespace Builder

theorem self_oblivious : Oblivious use self :=
  oblivious_get (fun _ _ alike => by rw [alike.memory]) fun _ => oblivious_pure _

theorem assign_oblivious (sets : use ≠ .leaves) (assigned : List (String × String)) :
    Oblivious use (assign assigned) := by
  intro first second alike ready
  refine .ok (alike.withStore (alike.stores.assign assigned)) ?_
  have firstBag := first.store.bag_assign assigned
  have secondBag := second.store.bag_assign assigned
  unfold World.bag
  rw [firstBag, secondBag]
  exact BagUse.leads_assign sets ready assigned

theorem setProperty_oblivious (sets : use ≠ .leaves) (property : String) (value : Value) :
    Oblivious use (setProperty property value) :=
  oblivious_bind (textOf_oblivious value) fun text =>
    oblivious_bind (assign_oblivious sets [(property, text)]) fun _ => self_oblivious

theorem mixin_oblivious (sets : use ≠ .leaves) (blocks : List Value) :
    ObliviousIn (fun world => RowSealed world.store blocks) use (mixin blocks) := by
  induction blocks with
  | nil => exact self_oblivious.within _
  | cons value rest ih =>
      cases value with
      | block selectors storage =>
          intro first second areSealed alike ready
          obtain ⟨isSealed, restSealed⟩ := List.forall_mem_cons.1 areSealed
          have same : second.store.read storage = first.store.read storage :=
            alike.stores.read (isSealed storage List.mem_cons_self)
          change AlikeEnds use _ _ ((assign (first.store.read storage) >>= fun _ => mixin rest) first)
            ((assign (second.store.read storage) >>= fun _ => mixin rest) second)
          rw [same]
          refine (assign_oblivious sets _ first second alike ready).bind
            fun ran _ alikeAfter readyAfter => ih _ _ ?_ alikeAfter readyAfter
          cases ran
          exact RowSealed.later restSealed (Store.later_assign _)
      | _ => exact (oblivious_throw _).within _

theorem borderSideStyle_oblivious (sets : use ≠ .leaves) (side value : Value) :
    Oblivious use (borderSideStyle side value) := by
  unfold borderSideStyle
  split
  · split
    · exact setProperty_oblivious sets _ _
    · exact self_oblivious
  · exact self_oblivious

theorem textDecoration_oblivious (sets : use ≠ .leaves) (value style : Value) :
    Oblivious use (textDecoration value style) := by
  unfold textDecoration
  split <;> exact setProperty_oblivious sets _ _

theorem finish_oblivious (selectors : List String) : Oblivious .finishes (finish selectors) := by
  intro first second alike same
  unfold finish
  rw [alike.stores.current]
  refine .ok (alike.withStore (alike.stores.renew same)) ?_
  exact first.store.bag_renew.trans second.store.bag_renew.symm

theorem navBlocks_oblivious (parts : List NavPart) : Oblivious .finishes (navBlocks parts) := by
  induction parts with
  | nil => exact oblivious_pure _
  | cons part rest ih =>
      have sets : BagUse.finishes ≠ .leaves := nofun
      exact oblivious_bind (assign_oblivious sets part.properties) fun _ =>
        oblivious_bind (finish_oblivious _) fun _ => oblivious_bind ih fun _ => oblivious_pure _

theorem navBar_oblivious (selectors : List Value) : Oblivious .finishes (navBar selectors) := by
  refine oblivious_bind (textsOf_oblivious _) fun texts => ?_
  cases texts with
  | nil => exact oblivious_throw _
  | cons container inner => exact navBlocks_oblivious _

theorem apply_oblivious {operation : Operation} (allowed : use.allows operation = true)
    (arguments : List Value) :
    ObliviousIn (fun world => RowSealed world.store arguments) use (apply operation arguments) := by
  have sets : use ≠ .leaves := by
    rintro rfl
    cases allowed
  unfold apply
  split
  · cases use with
    | finishes =>
        exact (oblivious_bind (textsOf_oblivious _) fun _ => finish_oblivious _).within _
    | _ => cases allowed
  · exact mixin_oblivious sets _
  · cases use with
    | finishes =>
        exact (oblivious_bind (navBar_oblivious _) fun _ => makeObject_oblivious _).within _
    | _ => cases allowed
  · exact (borderSideStyle_oblivious sets _ _).within _
  · exact (borderSideStyle_oblivious sets _ _).within _
  · exact (textDecoration_oblivious sets _ _).within _
  · exact (textDecoration_oblivious sets _ _).within _
  · exact (setProperty_oblivious sets _ _).within _
  · exact (setProperty_oblivious sets _ _).within _
  · exact (oblivious_throw _).within _

end Builder

namespace Printing

theorem emit_oblivious (text : Except ScriptFault String) : Oblivious use (emit text) := by
  cases text with
  | ok text =>
      exact oblivious_bind
        (oblivious_modify (fun _ _ alike => alike.withOutput _ _) fun _ => rfl)
        fun _ => oblivious_pure _
  | error fault => exact oblivious_throw _

section

variable {first second : Store} (alike : first.Alike second)

include alike

theorem block_alike {selectors : List String} {storage : Nat}
    (isSealed : (Value.block selectors storage).Sealed first) :
    second.block selectors storage = first.block selectors storage :=
  congrArg (Block.mk selectors) (alike.read (isSealed storage List.mem_cons_self))

theorem runBlocks_alike {values : List Value} (areSealed : RowSealed first values) :
    runBlocks second values = runBlocks first values := by
  induction values with
  | nil => rfl
  | cons value rest ih =>
      obtain ⟨isSealed, restSealed⟩ := List.forall_mem_cons.1 areSealed
      cases value with
      | block selectors storage => rw [runBlocks, runBlocks, ih restSealed, block_alike alike isSealed]
      | _ => rfl

theorem fieldBlocks_alike {fields : Assoc Value} (areSealed : FieldsSealed first fields) :
    fieldBlocks second fields = fieldBlocks first fields := by
  induction fields with
  | nil => rfl
  | cons field rest ih =>
      obtain ⟨isSealed, restSealed⟩ := List.forall_mem_cons.1 areSealed
      obtain ⟨name, value⟩ := field
      cases value with
      | block selectors storage =>
          rw [fieldBlocks, fieldBlocks, ih restSealed, block_alike alike isSealed]
      | _ => rfl

end

theorem run_oblivious (arguments : List Value) :
    ObliviousIn (fun world => RowSealed world.store arguments) use (run arguments) := by
  intro first second areSealed alike ready
  have same : runText second.store arguments = runText first.store arguments :=
    congrArg (Except.map _) (runBlocks_alike alike.stores areSealed)
  change AlikeEnds use _ _ (emit (runText first.store arguments) first)
    (emit (runText second.store arguments) second)
  rw [same]
  exact emit_oblivious _ first second alike ready

theorem compile_oblivious (value : Value) : ObliviousIn World.Sealed use (compile value) := by
  cases value with
  | object reference =>
      intro first second isSealed alike ready
      refine (fieldsOf_oblivious reference first second alike ready).bind
        fun {fields after other} ran ranToo alikeAfter readyAfter => ?_
      cases ran
      change EStateM.Result.ok ((second.objects[reference]?).getD []) second = _ at ranToo
      rw [alike.objects] at ranToo
      cases ranToo
      have areSealed : FieldsSealed first.store ((first.objects[reference]?).getD []) := by
        cases found : first.objects[reference]? with
        | none => exact nofun
        | some fields => exact isSealed.objects fields (List.mem_of_getElem? found)
      have same : compileText second.store ((first.objects[reference]?).getD []) =
          compileText first.store ((first.objects[reference]?).getD []) :=
        congrArg (Except.map _) (fieldBlocks_alike alike.stores areSealed)
      change AlikeEnds use _ _ (emit (compileText first.store _) first)
        (emit (compileText second.store _) second)
      rw [same]
      exact emit_oblivious _ first second alike ready
  | _ => exact (oblivious_throw _).within _

end Printing

/-! Steps of evaluation -/

namespace Evaluate

theorem lookup_oblivious (scope : Scope) (id : String) (line : Nat) :
    Oblivious use (lookup scope id line) := by
  refine oblivious_get (fun _ _ alike => by rw [alike.memory]) fun world => ?_
  split
  · exact oblivious_pure _
  · exact oblivious_pure _
  · exact oblivious_throw _

theorem eq_of_ofName_output {name : String} (isOutput : Member.ofName name = .ok .output) :
    name = "cssOutput" := by
  unfold Member.ofName at isOutput
  split at isOutput
  case h_1 => rfl
  case h_7 => split at isOutput <;> cases isOutput
  all_goals cases isOutput

theorem builderMember_oblivious {name : String} (other : name ≠ "cssOutput")
    (line : Option Nat) : Oblivious use (builderMember name line) := by
  unfold builderMember
  split
  · rename_i isOutput
    exact absurd (eq_of_ofName_output isOutput) other
  · exact oblivious_bind setterAddress_oblivious fun _ => oblivious_pure _
  · exact oblivious_get (fun _ _ alike => by rw [alike.memory]) fun _ => oblivious_pure _
  · exact oblivious_throw _

theorem readField_oblivious {value : Value} {field : String}
    (other : ∀ address, value = .builder address → field ≠ "cssOutput") (line : Option Nat) :
    ObliviousIn (fun world => value.Sealed world.store) use (readField value field line) := by
  unfold readField
  split
  · exact (oblivious_bind (fieldsOf_oblivious _) fun _ => oblivious_pure _).within _
  · rename_i selectors storage
    split
    · exact (makeList_oblivious _).within _
    · intro first second isSealed alike ready
      have same : second.store.read storage = first.store.read storage :=
        alike.stores.read (isSealed storage List.mem_cons_self)
      rw [bind_of_get, bind_of_get, same]
      exact oblivious_pure _ first second alike ready
  · exact (oblivious_pure _).within _
  · exact (oblivious_pure _).within _
  · exact (builderMember_oblivious (other _ rfl) _).within _
  · exact (oblivious_throw _).within _
  · exact (oblivious_throw _).within _
  · exact (oblivious_pure _).within _

theorem position?_oblivious (key : Value) : Oblivious use (position? key) := by
  unfold position?
  split
  · exact oblivious_pure _
  · split
    · exact oblivious_throw _
    · exact oblivious_throw _
    · exact oblivious_pure _
  · exact oblivious_pure _

theorem readIndex_oblivious {value key : Value}
    (other : ∀ address, value = .builder address → key.text? ≠ some "cssOutput")
    (line : Option Nat) :
    ObliviousIn (fun world => value.Sealed world.store) use (readIndex value key line) := by
  unfold readIndex
  split
  · exact (oblivious_bind (position?_oblivious _) fun _ => oblivious_pure _).within _
  · exact (oblivious_bind (position?_oblivious _) fun _ => oblivious_pure _).within _
  · unfold Step.textOf
    cases isText : key.text? with
    | none => exact (oblivious_throw _).within _
    | some text =>
        refine readField_oblivious (fun address isBuilder same => other address isBuilder ?_) line
        rw [isText, same]

theorem add_oblivious (left right : Value) : Oblivious use (add left right) := by
  fun_cases add left right
  · exact oblivious_pure _
  · exact oblivious_pure _
  · exact oblivious_pure _
  · exact oblivious_throw _
  · exact oblivious_pure _
  · exact oblivious_throw _
  · exact oblivious_bind (textOf_oblivious _) fun _ =>
      oblivious_bind (textOf_oblivious _) fun _ => oblivious_pure _

theorem negate_oblivious (value : Value) : Oblivious use (negate value) := by
  unfold negate
  split
  · exact oblivious_pure _
  · exact oblivious_pure _
  · exact oblivious_throw _

theorem writeField_oblivious (object : Value) (field : String) (value : Value) (line : Nat) :
    Oblivious use (writeField object field value line) := by
  unfold writeField
  split
  · exact setField_oblivious _ _ _
  · split
    · exact oblivious_modify (fun _ _ alike => alike.withOutput _ _) fun _ => rfl
    · exact oblivious_throw _
  · exact oblivious_throw _

end Evaluate

end

/-! Tasks -/

/-- A task that does not itself read what has been emitted, and uses the bag no more than it may. -/
def Task.within (use : BagUse) : Task → Bool
  | .read (.builder _) key _ => key.text? != some "cssOutput"
  | .apply (.operation operation) _ => use.allows operation
  | _ => true

namespace Task

variable {use : BagUse}

theorem ordinary_oblivious : Ordinary (Oblivious use) where
  pure := oblivious_pure
  throw fault _ := oblivious_throw fault
  lookup := Evaluate.lookup_oblivious
  makeObject := makeObject_oblivious
  makeList := makeList_oblivious
  add := Evaluate.add_oblivious
  negate := Evaluate.negate_oblivious
  write object field value line _ :=
    oblivious_bind (Evaluate.writeField_oblivious object field value line) fun _ => oblivious_pure _

def readsBlocks : Task → Bool
  | .read .. | .apply .. => true
  | _ => false

theorem finishes_oblivious {task : Task} (ordinary : task.readsBlocks = false) :
    task.plan.Finishes (Oblivious use) := by
  refine finishes_plan ordinary_oblivious ?_ ?_ fun _ _ _ _ => oblivious_throw _
  · rintro value key line rfl
    cases ordinary
  · rintro function arguments rfl
    cases ordinary

end Task

/-! Runs -/

section

variable {setting : Setting} {use : BagUse}

mutual

theorem Value.displayPart?_alike {first second : Store} (alike : first.Alike second)
    (shows : Enclosing → Nat → Option String) : ∀ (value : Value) (around : Enclosing),
    value.Sealed first → displayPart? second shows around value = displayPart? first shows around value
  | .list stamp items, around, isSealed => by
      rw [displayPart?, displayPart?]
      split
      · rfl
      · rw [displayItems?_alike alike shows items _ (sealed_list.1 isSealed)]
  | .block selectors storage, _, isSealed => by
      rw [displayPart?, displayPart?, Printing.block_alike alike isSealed]
  | .text _, _, _ | .int _, _, _ | .float _, _, _ | .bool _, _, _ | .null, _, _ | .undefined, _, _
  | .object _, _, _ | .builder _, _, _ | .function _ _, _, _ => by
      rw [displayPart?, displayPart?]

theorem Value.displayItems?_alike {first second : Store} (alike : first.Alike second)
    (shows : Enclosing → Nat → Option String) : ∀ (items : List Value) (around : Enclosing),
    RowSealed first items →
      displayItems? second shows around items = displayItems? first shows around items
  | [], _, _ => rfl
  | item :: rest, around, areSealed => by
      obtain ⟨isSealed, restSealed⟩ := List.forall_mem_cons.1 areSealed
      rw [displayItems?, displayItems?, displayPart?_alike alike shows item around isSealed,
        displayItems?_alike alike shows rest around restSealed]

end

theorem Value.displayObject?_alike {first second : Store} (alike : first.Alike second)
    {objects : Objects} (areSealed : ∀ fields ∈ objects, FieldsSealed first fields) (depth : Nat) :
    displayObject? second objects depth = displayObject? first objects depth := by
  induction depth with
  | zero => rfl
  | succ depth ih =>
      funext around reference
      rw [displayObject?, displayObject?, ih]
      have fieldsSealed : FieldsSealed first ((objects[reference]?).getD []) := by
        cases found : objects[reference]? with
        | none => exact nofun
        | some fields => exact areSealed fields (List.mem_of_getElem? found)
      generalize (objects[reference]?).getD [] = fields at fieldsSealed
      refine congrArg (Option.bind · _) ?_
      induction fields with
      | nil => rfl
      | cons field rest ih =>
          obtain ⟨isSealed, restSealed⟩ := List.forall_mem_cons.1 fieldsSealed
          rw [List.mapM_cons, List.mapM_cons, ih restSealed]
          dsimp only
          rw [displayPart?_alike alike _ _ _ isSealed]

theorem Value.display?_alike {first second : World} (alike : Alike first second)
    (isSealed : first.Sealed) {value : Value} (valueSealed : value.Sealed first.store) :
    value.display? second.store second.objects = value.display? first.store first.objects := by
  have part := displayPart?_alike alike.stores
    (displayObject? second.store second.objects (second.objects.length + 1)) value ⟨[], []⟩ valueSealed
  rw [alike.objects] at part ⊢
  rw [displayObject?_alike alike.stores isSealed.objects] at part
  cases value with
  | text _ => rfl
  | _ =>
      unfold display?
      rw [displayObject?_alike alike.stores isSealed.objects]
      exact part

theorem Import.opened_alike {first second : World} (alike : Alike first second)
    (isSealed : first.Sealed) {value : Value} (valueSealed : value.Sealed first.store) :
    Import.opened setting value second = (Import.opened setting value first).map fun start =>
      (start.1, { start.2 with store := second.store, output := second.output }) := by
  unfold Import.opened
  rw [Value.display?_alike alike isSealed valueSealed, alike.base, alike.importing]
  cases value.display? first.store first.objects with
  | none => rfl
  | some name =>
      dsimp only
      cases Import.locate setting first.base first.importing name with
      | error fault => rfl
      | ok path =>
          dsimp only
          cases setting.workspace.readText path with
          | error fault => rfl
          | ok source =>
              have same : second.entered path =
                  { first.entered path with store := second.store, output := second.output } := by
                unfold World.entered
                obtain ⟨-, objects, stamps, base, importing, memory⟩ := alike
                cases first
                cases second
                cases objects
                cases stamps
                cases base
                cases importing
                cases memory
                rfl
              rw [same]
              rfl

/-- An import does alike what the scripts of its document do alike. -/
theorem Import.getFile_alike {value : Value} {first second : World}
    (sound : SoundStack setting.workspace first.importing) (isSealed : first.Sealed)
    (valueSealed : value.Sealed first.store) (alike : Alike first second)
    (ready : use.Ready first.bag second.bag)
    (parts : ∀ part ∈ importMoments setting value first, ∀ other, Alike part.2 other →
      use.Ready part.2.bag other.bag → AlikeEnds use part.2.bag other.bag
        (part.1.run (getFile setting) part.2) (part.1.run (getFile setting) other)) :
    AlikeEnds use first.bag second.bag (getFile setting value first)
      (getFile setting value second) := by
  have soundToo : SoundStack setting.workspace second.importing := alike.importing ▸ sound
  have opensToo := @opened_alike setting _ _ alike isSealed value valueSealed
  rw [getFile_eq sound, getFile_eq soundToo]
  cases opens : opened setting value first with
  | error fault =>
      rw [opens] at opensToo
      rw [importWith_error opens, importWith_error opensToo]
      exact .error alike (BagUse.leads_refl ready)
  | ok start =>
      obtain ⟨source, inside⟩ := start
      rw [opens] at opensToo
      obtain ⟨name, path, -, -, -, rfl⟩ := opened_eq_ok opens
      have scripts := parts _ (mem_importMoments.2 ⟨_, _, opens, rfl⟩)
        { first.entered path with store := second.store, output := second.output }
        ⟨alike.stores, rfl, rfl, rfl, rfl, rfl⟩ ready
      dsimp only at scripts
      generalize ran : (Task.namespaceOf [] (split source)).run (getFile setting) _ = result at scripts
      generalize ranToo : (Task.namespaceOf [] (split source)).run (getFile setting)
        { first.entered path with store := second.store, output := second.output } = other at scripts
      cases scripts with
      | ok alikeAfter bags =>
          rw [importWith_ok opens ran, importWith_ok opensToo ranToo, alikeAfter.objects]
          -- The importer gets its output back, but goes on with the bag that the scripts left.
          exact .ok ⟨alikeAfter.stores, rfl, alikeAfter.stamps, alike.base,
            congrArg List.dropLast alikeAfter.importing, alikeAfter.memory⟩ bags
      | error alikeAfter bags =>
          rw [importWith_fault opens ran, importWith_fault opensToo ranToo]
          exact .error ⟨alikeAfter.stores, alikeAfter.objects, alikeAfter.stamps, alike.base,
            congrArg List.dropLast alikeAfter.importing, alikeAfter.memory⟩ bags

theorem Plan.run_alike {α : Type} {answers : Store → α → Prop} {plan : Plan α}
    (finishes : plan.Finishes (Oblivious use)) {first second : World}
    (seals : plan.Seals answers first.store) (isSealed : first.Sealed)
    (sound : SoundStack setting.workspace first.importing) (alike : Alike first second)
    (ready : use.Ready first.bag second.bag)
    (parts : ∀ part ∈ plan.moments setting first, ∀ other, Alike part.2 other →
      use.Ready part.2.bag other.bag → AlikeEnds use part.2.bag other.bag
        (part.1.run (Import.getFile setting) part.2) (part.1.run (Import.getFile setting) other)) :
    AlikeEnds use first.bag second.bag (plan.run (Import.getFile setting) first)
      (plan.run (Import.getFile setting) second) := by
  induction plan generalizing first second with
  | finish step => exact finishes first second alike ready
  | call task next ih =>
      rw [moments] at parts
      have here := parts (task, first) List.mem_cons_self second alike ready
      refine here.bind fun {answer after otherAfter} ran _ alikeAfter readyAfter => ?_
      have ends := seals_run setting seals.1 first (.refl _) isSealed
      have given := ends.answer ran
      rw [ran] at ends
      refine ih answer (finishes answer) (seals.2 _ answer ends.later given) ends.world
        (importing_of_ok ran ▸ sound) alikeAfter readyAfter ?_
      exact fun part inside => parts part
        (List.mem_cons_of_mem _ (mem_behindResult.2 ⟨answer, after, ran, inside⟩))
  | load value next ih =>
      rw [moments] at parts
      have here := Import.getFile_alike sound isSealed seals.1 alike ready fun part inside =>
        parts part (List.mem_append_left _ inside)
      refine here.bind fun {answer after otherAfter} ran _ alikeAfter readyAfter => ?_
      have kept := @importing_of_ok setting (.get value) _ _ _ ran
      have ends := @seals_run setting (.get value) _ seals.1 first (.refl _) isSealed
      have given := ends.answer ran
      have last : SealedEnd Value.Sealed first.store (.ok answer after) := ran ▸ ends
      refine ih answer (finishes answer) (seals.2 _ answer last.later given) last.world
        (kept ▸ sound) alikeAfter readyAfter ?_
      exact fun part inside => parts part
        (List.mem_append_right _ (mem_behindResult.2 ⟨answer, after, ran, inside⟩))

/-- A function that is applied does alike what an import, if it is one, does alike. -/
theorem Task.apply_alike {function : Function} {arguments : List Value}
    (allowed : (Task.apply function arguments).within use = true) {first second : World}
    (isSealed : Moment.Sealed (.apply function arguments, first)) (alike : Alike first second)
    (ready : use.Ready first.bag second.bag)
    (imports : (Task.apply function arguments).plan.Finishes (Oblivious use) →
      AlikeEnds use first.bag second.bag
        ((Task.apply function arguments).plan.run (Import.getFile setting) first)
        ((Task.apply function arguments).plan.run (Import.getFile setting) second)) :
    AlikeEnds use first.bag second.bag
      ((Task.apply function arguments).plan.run (Import.getFile setting) first)
      ((Task.apply function arguments).plan.run (Import.getFile setting) second) := by
  cases function with
  | run => exact Printing.run_oblivious arguments first second isSealed.1 alike ready
  | operation operation =>
      exact Builder.apply_oblivious allowed arguments first second isSealed.1 alike ready
  | compile =>
      match arguments with
      | [] => exact imports (oblivious_throw _)
      | [value] => exact Printing.compile_oblivious value first second isSealed.2 alike ready
      | _ :: _ :: _ => exact imports (oblivious_throw _)
  | get =>
      match arguments with
      | [] => exact imports (oblivious_throw _)
      | [value] => exact imports fun _ => oblivious_pure _
      | _ :: _ :: _ => exact imports (oblivious_throw _)

theorem run_alike {moment : Moment} (sound : SoundStack setting.workspace moment.2.importing)
    (isSealed : moment.Sealed)
    (within : ∀ task now, Happens setting moment (task, now) → task.within use = true)
    {other : World} (alike : Alike moment.2 other) (ready : use.Ready moment.2.bag other.bag) :
    AlikeEnds use moment.2.bag other.bag (moment.1.run (Import.getFile setting) moment.2)
      (moment.1.run (Import.getFile setting) other) := by
  -- By induction on the moments inside one another: a plan is alike once its parts are.
  induction acc_parts sound generalizing other with
  | intro moment _ ih =>
      have allowed := within _ _ .start
      have byParts (finishes : moment.1.plan.Finishes (Oblivious use)) :
          AlikeEnds use moment.2.bag other.bag (moment.1.plan.run (Import.getFile setting) moment.2)
            (moment.1.plan.run (Import.getFile setting) other) :=
        Plan.run_alike finishes (Task.plan_seals isSealed.1) isSealed.2 sound alike ready
          fun part inside other alikePart readyPart => ih part inside (sound_part sound inside)
            (sealed_part isSealed inside)
            (fun task now happens => within task now (happens.inside inside)) alikePart readyPart
      rw [← Task.run_plan]
      obtain ⟨task, first⟩ := moment
      -- Readings and applications are all that looks into blocks.
      match task with
      | .read value key line =>
          refine Evaluate.readIndex_oblivious ?_ line first other isSealed.1 alike ready
          rintro address rfl
          exact bne_iff_ne.1 allowed
      | .apply function arguments => exact Task.apply_alike allowed isSealed alike ready byParts
      | .expr .. | .exprs .. | .pairs .. | .texts .. | .statement .. | .statements .. | .script ..
      | .namespaceOf .. | .get .. => exact byParts (Task.finishes_oblivious rfl)

/-- Whether the moments inside a moment, at most `depth` inside one another, use the bag as they may. -/
def staysWithin (setting : Setting) (use : BagUse) : Nat → Moment → Bool
  | 0, _ => false
  | depth + 1, moment =>
    moment.1.within use && (moment.parts setting).all (staysWithin setting use depth)

theorem within_of_staysWithin {start : Moment} {depth : Nat}
    (stays : staysWithin setting use depth start = true) {moment : Moment}
    (happens : Happens setting start moment) : moment.1.within use = true := by
  -- Every moment is reached with some of the depth left.
  have inside : ∃ left, staysWithin setting use (left + 1) moment = true := by
    induction happens with
    | start =>
        cases depth with
        | zero => cases stays
        | succ depth => exact ⟨depth, stays⟩
    | part _ inside ih =>
        obtain ⟨left, whole⟩ := ih
        rw [staysWithin, Bool.and_eq_true, List.all_eq_true] at whole
        have part := whole.2 _ inside
        cases left with
        | zero => cases part
        | succ left => exact ⟨left, part⟩
  obtain ⟨left, here⟩ := inside
  rw [staysWithin, Bool.and_eq_true] at here
  exact here.1

/--
An import in two worlds that differ at most in the pending bag and in what has been emitted, where no
block shares the storage of that bag. If its scripts never read what has been emitted, it ends alike:
with the same fault, or with the same names, values and blocks. A bag that the scripts leave alone is
then as it was; what they set in one bag they set in the other; and the blocks they finish are the
same if both bags were. No block shares the bag afterwards either.
-/
theorem get_alike (setting : Setting) (value : Value) (use : BagUse) {first second : World}
    (sound : SoundStack setting.workspace first.importing) (isSealed : first.Sealed)
    (valueSealed : value.Sealed first.store) (alike : Alike first second)
    (ready : use.Ready first.bag second.bag)
    (within : ∀ task now, Happens setting (.get value, first) (task, now) →
      task.within use = true) :
    AlikeEnds use first.bag second.bag (Import.getFile setting value first)
        (Import.getFile setting value second) ∧
      SealedEnd Value.Sealed first.store (Import.getFile setting value first) :=
  ⟨@run_alike _ use (.get value, first) sound ⟨valueSealed, isSealed⟩ within _ alike ready,
    @seals_run setting (.get value) _ valueSealed first (.refl _) isSealed⟩

end

/-- Documents to import: one of plain values, and one that finishes a block. -/
def shelf : Setting where
  workspace := ⟨[(["plain.jcss"], .file "<@ const size = 2 + 3; const text = 'n' + size; run() @>".toUTF8),
    (["block.jcss"], .file "<@ const b = chain.block('.b') @>".toUTF8)], []⟩
  extensions := [".jcss"]

def busyWorld : World :=
  { World.start none default with store := .ofBag [("color", "red")] }

theorem alike_busyWorld : Alike busyWorld (World.start none default) := by
  refine ⟨⟨rfl, rfl, fun storage unused => ?_⟩, rfl, rfl, rfl, rfl, rfl⟩
  cases storage with
  | zero => exact absurd rfl unused
  | succ storage => rfl

theorem get_alike_plain :
    faultAfter? (Import.getFile shelf (.text "plain.jcss") busyWorld) = none ∧
      AlikeEnds .leaves busyWorld.bag [] (Import.getFile shelf (.text "plain.jcss") busyWorld)
        (Import.getFile shelf (.text "plain.jcss") (World.start none default)) := by
  have stays : staysWithin shelf .leaves 12 (.get (.text "plain.jcss"), busyWorld) = true := by
    decide +kernel
  have isSealed : busyWorld.Sealed := ⟨nofun, nofun⟩
  have named : (Value.text "plain.jcss").Sealed busyWorld.store := nofun
  exact ⟨by decide +kernel, (get_alike shelf _ .leaves SoundStack.nil isSealed named
    alike_busyWorld trivial fun _ _ happens => within_of_staysWithin stays happens).1⟩

def objectBlocks (world : World) : List Block :=
  world.objects.flatMap fun fields => fields.flatMap fun field => field.2.blocks world.store

/-- The same import, once with a property pending and once with none, makes different blocks, and
takes what was pending with it. -/
theorem get_finishes_pending :
    Alike busyWorld (World.start none default) ∧
      objectBlocks (stateAfter (Import.getFile shelf (.text "block.jcss") busyWorld)) =
        [⟨[".b"], [("color", "red")]⟩] ∧
      objectBlocks (stateAfter (Import.getFile shelf (.text "block.jcss") (World.start none default))) =
        [⟨[".b"], []⟩] ∧
      (stateAfter (Import.getFile shelf (.text "block.jcss") busyWorld)).bag = [] :=
  ⟨alike_busyWorld, by decide +kernel, by decide +kernel, by decide +kernel⟩

end SheetScript.Script
