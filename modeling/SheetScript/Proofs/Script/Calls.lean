import SheetScript.Proofs.Distinct
import SheetScript.Proofs.Preserves
import SheetScript.Script.Evaluate

/-!
What a sequence of builder calls adds up to. Every call comes down to assignments and finalisations.
A block holds the properties assigned since the finalisation before, each in the place of its first
assignment and with the text of its last one.
-/

namespace SheetScript.Style

def lastText (assignments : List (String × String)) (property : String) : String :=
  (assignments.reverse.lookup property).getD ""

/-- The assigned properties in the order of their first assignments, with their last texts. -/
def propertiesOf (assignments : List (String × String)) : Bag :=
  (assignments.map Prod.fst).eraseDups.map fun property => (property, lastText assignments property)

theorem lastText_concat (assignments : List (String × String)) (property text other : String) :
    lastText (assignments ++ [(property, text)]) other =
      if other = property then text else lastText assignments other := by
  unfold lastText
  rw [List.reverse_append, List.reverse_singleton, List.singleton_append, List.lookup_cons]
  by_cases same : other = property
  · simp [same]
  · have different : (other == property) = false := by simpa using same
    simp [same, different]

theorem set_map {keys : List String} (distinct : keys.Nodup) (key value : String)
    (text : String → String) :
    Assoc.set key value (keys.map fun other => (other, text other)) =
      (if key ∈ keys then keys else keys ++ [key]).map fun other =>
        (other, if other = key then value else text other) := by
  induction keys with
  | nil => simp [Assoc.set]
  | cons first rest ih =>
      obtain ⟨notLater, distinctRest⟩ := List.nodup_cons.1 distinct
      rw [List.map_cons, Assoc.set]
      by_cases same : first = key
      · subst same
        have others : ∀ other ∈ rest, other ≠ first := fun other inRest isFirst =>
          notLater (isFirst ▸ inRest)
        rw [if_pos rfl, if_pos List.mem_cons_self, List.map_cons, if_pos rfl]
        exact congrArg _ (List.map_congr_left fun other inRest => by rw [if_neg (others other inRest)])
      · rw [if_neg same, ih distinctRest]
        by_cases later : key ∈ rest
        · rw [if_pos later, if_pos (List.mem_cons_of_mem first later), List.map_cons, if_neg same]
        · have absent : key ∉ first :: rest := fun inside =>
            (List.mem_cons.1 inside).elim (fun isFirst => same isFirst.symm) later
          rw [if_neg later, if_neg absent, List.cons_append, List.map_cons, if_neg same]

theorem set_propertiesOf (assignments : List (String × String)) (property text : String) :
    Assoc.set property text (propertiesOf assignments) =
      propertiesOf (assignments ++ [(property, text)]) := by
  unfold propertiesOf
  rw [set_map (nodup_eraseDups _), List.map_append, List.map_singleton, eraseDups_concat]
  refine List.map_congr_left fun other _ => ?_
  rw [lastText_concat]

theorem setAll_propertiesOf (assignments more : List (String × String)) :
    Assoc.setAll (propertiesOf assignments) more = propertiesOf (assignments ++ more) := by
  induction more generalizing assignments with
  | nil => rw [List.append_nil]; rfl
  | cons entry rest ih =>
      have behind := ih (assignments ++ [entry])
      rw [List.append_assoc, List.singleton_append] at behind
      rw [← behind, ← set_propertiesOf]
      rfl

end SheetScript.Style

namespace SheetScript.Script

open SheetScript.Style

/-! Events -/

inductive Event
  | assign (property text : String)
  | finish (selectors : List String)

namespace Event

/-- The assignments since the last finalisation, when those of `before` were pending. -/
def pending (before : List (String × String)) : List Event → List (String × String)
  | [] => before
  | assign property text :: rest => pending (before ++ [(property, text)]) rest
  | finish _ :: rest => pending [] rest

/-- The finished blocks, each with the properties assigned since the finalisation before it. -/
def blocks (before : List (String × String)) : List Event → List Block
  | [] => []
  | assign property text :: rest => blocks (before ++ [(property, text)]) rest
  | finish selectors :: rest => ⟨selectors, propertiesOf before⟩ :: blocks [] rest

variable (before : List (String × String))

theorem pending_append (events more : List Event) :
    pending before (events ++ more) = pending (pending before events) more := by
  induction events generalizing before with
  | nil => rfl
  | cons event rest ih =>
      cases event with
      | assign property text => exact ih _
      | finish selectors => exact ih _

theorem blocks_append (events more : List Event) :
    blocks before (events ++ more) =
      blocks before events ++ blocks (pending before events) more := by
  induction events generalizing before with
  | nil => rfl
  | cons event rest ih =>
      cases event with
      | assign property text => exact ih _
      | finish selectors => exact congrArg _ (ih _)

theorem pending_of_finish {events : List Event} {selectors : List String}
    (finishes : events.getLast? = some (.finish selectors)) : pending before events = [] := by
  obtain ⟨earlier, rfl⟩ := List.getLast?_eq_some_iff.1 finishes
  exact pending_append before earlier [.finish selectors]

def assignments (properties : Bag) : List Event :=
  properties.map fun entry => .assign entry.1 entry.2

theorem pending_assignments (properties : Bag) (more : List Event) :
    pending before (assignments properties ++ more) = pending (before ++ properties) more := by
  induction properties generalizing before with
  | nil => rw [List.append_nil]; rfl
  | cons entry rest ih =>
      refine (ih (before ++ [entry])).trans ?_
      rw [List.append_assoc, List.singleton_append]

theorem blocks_assignments (properties : Bag) (more : List Event) :
    blocks before (assignments properties ++ more) = blocks (before ++ properties) more := by
  induction properties generalizing before with
  | nil => rw [List.append_nil]; rfl
  | cons entry rest ih =>
      refine (ih (before ++ [entry])).trans ?_
      rw [List.append_assoc, List.singleton_append]

end Event

/-! Calls -/

inductive Caller
  | host
  | script

def Caller.find : Caller → String → Except ScriptFault Operation
  | .host, name => (Operation.ofAttribute name).mapError (.badMember · none)
  | .script, name =>
    match Member.ofName name with
    | .ok (.operation operation) => .ok operation
    | .ok .output => .error (.notFunction name none)
    | .error fault => .error (.badMember fault none)

inductive Call
  | named (caller : Caller) (name : String) (arguments : List Value)
  /-- Sets a property under its identifier. -/
  | set (property : String) (value : Value)

namespace Call

def perform : Call → Step Value
  | named caller name arguments =>
    match caller.find name with
    | .ok operation => Builder.apply operation arguments
    | .error fault => throw fault
  | set property value => Builder.setProperty property value

def performAll : List Call → Step (List Value)
  | [] => pure []
  | call :: rest => do
    let answer ← call.perform
    let answers ← performAll rest
    return answer :: answers

def assignEvents? (property : String) (value : Value) : Option (List Event) :=
  value.text?.map fun text => [.assign property text]

/-- Every block counts with what it holds when its turn comes. -/
def mixinEvents? (store : Store) : List Value → Option (List Event)
  | [] => some []
  | .block _ storage :: rest =>
    let properties := store.read storage
    (mixinEvents? (store.assign properties) rest).map (Event.assignments properties ++ ·)
  | _ :: _ => none

def sideProperties : List (String × String) :=
  [("top", "borderTopStyle"), ("right", "borderRightStyle"), ("bottom", "borderBottomStyle"),
    ("left", "borderLeftStyle")]

def sideEvents? (side value : Value) : Option (List Event) :=
  match side with
  | .text name => (sideProperties.lookup name).elim (some []) (assignEvents? · value)
  | _ => some []

/-- Only the first of the four blocks can have properties that were assigned before. -/
def navBarEvents (container list item link : String) : List Event :=
  [.assign "display" "flex", .assign "listStyle" "none", .assign "margin" "0",
    .assign "padding" "0", .finish [s!"{container} {list}"],
    .assign "margin" "0 10px", .finish [s!"{container} {list} {item}"],
    .assign "color" "#fff", .assign "textDecoration" "none", .assign "fontWeight" "bold",
    .assign "borderRadius" "3px", .finish [s!"{container} {list} {item} {link}"],
    .assign "textDecoration" "underline", .assign "backgroundColor" "#555",
    .finish [s!"{container} {list} {item} {link}:hover"]]

def operationEvents? (store : Store) : Operation → List Value → Option (List Event)
  | .block, selectors => (selectors.mapM Value.text?).map fun texts => [.finish texts]
  | .mixin, blocks => mixinEvents? store blocks
  | .navBar, selectors =>
    match (selectors.take 4).mapM Value.text? with
    | some (container :: inner) =>
      some (navBarEvents container (inner[0]?.getD "ul") (inner[1]?.getD "li") (inner[2]?.getD "a"))
    | _ => none
  | .borderSideStyle, [side] => sideEvents? side .undefined
  | .borderSideStyle, [side, value] => sideEvents? side value
  | .textDecoration, [value] => assignEvents? "textDecoration" value
  | .textDecoration, [value, .undefined] => assignEvents? "textDecoration" value
  | .textDecoration, [value, _] => assignEvents? "textDecorationStyle" value
  | .setter property, [] => assignEvents? property .undefined
  | .setter property, [value] => assignEvents? property value
  | _, _ => none

def events? (store : Store) : Call → Option (List Event)
  | named caller name arguments =>
    (caller.find name).toOption.bind (operationEvents? store · arguments)
  | set property value => assignEvents? property value

def allEvents? (world : World) : List Call → Option (List Event)
  | [] => some []
  | call :: rest =>
    match call.perform world with
    | .ok _ after => do
      let events ← call.events? world.store
      let more ← allEvents? after rest
      return events ++ more
    | .error _ _ => none

end Call

def Value.blocks (store : Store) : Value → List Block
  | .block selectors storage => [store.block selectors storage]
  | _ => []

def fieldsBlocks (store : Store) (fields : Assoc Value) : List Block :=
  fields.flatMap fun field => field.2.blocks store

/-- The blocks in an answer as they read in a world: a block, or those in the fields of an object. -/
def producedBlocks (world : World) : Value → List Block
  | .object reference => fieldsBlocks world.store ((world.objects[reference]?).getD [])
  | answer => answer.blocks world.store

/-- What calls leave alone: objects, and storages that are not written to. -/
structure Succeeds (world later : World) : Prop where
  store : world.store.Later later.store
  objects : world.objects <+: later.objects

theorem Succeeds.refl (world : World) : Succeeds world world :=
  ⟨.refl _, List.prefix_rfl⟩

theorem Succeeds.trans {first second third : World} (early : Succeeds first second)
    (late : Succeeds second third) : Succeeds first third :=
  ⟨early.store.trans late.store, early.objects.trans late.objects⟩

structure Performed (events : List Event) (world : World) (produced : World → List Block)
    (after : World) : Prop where
  bag : ∀ {before}, world.bag = propertiesOf before →
    after.bag = propertiesOf (Event.pending before events)
  succeeds : Succeeds world after
  /-- The blocks read the same in every later world. -/
  blocks : ∀ {before}, world.bag = propertiesOf before → ∀ {later : World}, Succeeds after later →
    produced later = Event.blocks before events

section

variable {world middle after : World} {answer : Value}

theorem performed_nothing : Performed [] world (fun _ => []) world :=
  ⟨id, .refl world, fun _ _ _ => rfl⟩

theorem Performed.append {events more : List Event} {produced behind : World → List Block}
    (first : Performed events world produced middle) (next : Performed more middle behind after) :
    Performed (events ++ more) world (fun later => produced later ++ behind later) after := by
  refine ⟨fun pending => ?_, first.succeeds.trans next.succeeds, fun pending later succeeds => ?_⟩
  · rw [Event.pending_append]
    exact next.bag (first.bag pending)
  · rw [Event.blocks_append, first.blocks pending (next.succeeds.trans succeeds),
      next.blocks (first.bag pending) succeeds]

theorem performed_assign (properties : List (String × String)) :
    Performed (Event.assignments properties) world (fun _ => [])
      { world with store := world.store.assign properties } := by
  refine ⟨fun {before} pending => ?_, ⟨Store.later_assign properties, List.prefix_rfl⟩,
    fun {before} _ _ _ => ?_⟩
  · have all := Event.pending_assignments before properties []
    rw [List.append_nil] at all
    rw [all]
    refine (world.store.bag_assign properties).trans ?_
    exact (congrArg (Assoc.setAll · properties) pending).trans (setAll_propertiesOf before properties)
  · have none := Event.blocks_assignments before properties []
    rw [List.append_nil] at none
    exact none.symm

/-- A block that is finished keeps the storage that was written to, which is not written to again. -/
theorem performed_finish (selectors : List String) :
    Performed [.finish selectors] world
      (fun later => [later.store.block selectors world.store.current])
      { world with store := world.store.renew } := by
  refine ⟨fun _ => world.store.bag_renew, ⟨Store.later_renew, List.prefix_rfl⟩,
    fun pending later succeeds => ?_⟩
  have kept : later.store.read world.store.current = world.bag :=
    Store.read_of_later_renew succeeds.store
  rw [Store.block, kept, pending]
  rfl

/-! Operations -/

theorem textOf_eq_ok {value : Value} {text : String}
    (ran : Step.textOf value world = .ok text after) : value.text? = some text ∧ after = world := by
  unfold Step.textOf at ran
  cases found : value.text? with
  | none =>
      rw [found] at ran
      cases ran
  | some first =>
      rw [found] at ran
      cases ran
      exact ⟨rfl, rfl⟩

theorem textsOf_eq_ok {values : List Value} {texts : List String}
    (ran : Step.textsOf values world = .ok texts after) :
    values.mapM Value.text? = some texts ∧ after = world := by
  induction values generalizing texts after with
  | nil =>
      cases ran
      exact ⟨rfl, rfl⟩
  | cons value rest ih =>
      obtain ⟨text, middle, isText, continues⟩ := bind_eq_ok ran
      obtain ⟨others, last, areTexts, ends⟩ := bind_eq_ok continues
      cases ends
      obtain ⟨found, rfl⟩ := textOf_eq_ok isText
      obtain ⟨behind, rfl⟩ := ih areTexts
      rw [List.mapM_cons, found, behind]
      exact ⟨rfl, rfl⟩

theorem setProperty_performed {property : String} {value : Value}
    (ran : Builder.setProperty property value world = .ok answer after) :
    ∃ events, Call.assignEvents? property value = some events ∧
      Performed events world (producedBlocks · answer) after := by
  obtain ⟨text, middle, isText, changes⟩ := bind_eq_ok ran
  obtain ⟨found, rfl⟩ := textOf_eq_ok isText
  cases changes
  exact ⟨_, congrArg (Option.map _) found, performed_assign [(property, text)]⟩

theorem block_performed {selectors : List Value}
    (ran : Builder.block selectors world = .ok answer after) :
    ∃ events, Call.operationEvents? world.store .block selectors = some events ∧
      Performed events world (producedBlocks · answer) after := by
  obtain ⟨texts, middle, areTexts, ends⟩ := bind_eq_ok ran
  obtain ⟨isTexts, rfl⟩ := textsOf_eq_ok areTexts
  cases ends
  exact ⟨_, congrArg (Option.map fun texts => [Event.finish texts]) isTexts,
    performed_finish texts⟩

theorem mixin_performed {blocks : List Value}
    (ran : Builder.mixin blocks world = .ok answer after) :
    ∃ events, Call.mixinEvents? world.store blocks = some events ∧
      Performed events world (producedBlocks · answer) after := by
  induction blocks generalizing world with
  | nil =>
      cases ran
      exact ⟨[], rfl, performed_nothing⟩
  | cons value rest ih =>
      cases value with
      | block selectors storage =>
          obtain ⟨now, _, gets, copies⟩ := bind_eq_ok ran
          cases gets
          obtain ⟨_, middle, assigns, continues⟩ := bind_eq_ok copies
          cases assigns
          obtain ⟨events, found, performed⟩ := ih continues
          have all : Call.mixinEvents? world.store (.block selectors storage :: rest) =
              some (Event.assignments (world.store.read storage) ++ events) :=
            congrArg (Option.map _) found
          exact ⟨_, all, (performed_assign _).append performed⟩
      | _ => cases ran

def navEvents (parts : List NavPart) : List Event :=
  parts.flatMap fun part => Event.assignments part.properties ++ [.finish [part.selector]]

theorem navBlocks_performed {parts : List NavPart} {fields : Assoc Value}
    (ran : Builder.navBlocks parts world = .ok fields after) :
    Performed (navEvents parts) world (fun later => fieldsBlocks later.store fields) after := by
  induction parts generalizing world fields after with
  | nil =>
      cases ran
      exact performed_nothing
  | cons part rest ih =>
      obtain ⟨_, assigned, assigns, continues⟩ := bind_eq_ok ran
      cases assigns
      obtain ⟨first, finished, finishes, goesOn⟩ := bind_eq_ok continues
      cases finishes
      obtain ⟨others, last, makesOthers, ends⟩ := bind_eq_ok goesOn
      cases ends
      exact ((performed_assign part.properties).append (performed_finish [part.selector])).append
        (ih makesOthers)

theorem producedBlocks_object {objects : Objects} {fields : Assoc Value} {later : World}
    (kept : objects ++ [fields] <+: later.objects) :
    producedBlocks later (.object objects.length) = fieldsBlocks later.store fields := by
  obtain ⟨newer, isLater⟩ := kept
  have found : later.objects[objects.length]? = some fields := by
    rw [← isLater, List.append_assoc, List.getElem?_append_right (Nat.le_refl _), Nat.sub_self]
    rfl
  rw [producedBlocks, found, Option.getD_some]

theorem navBar_performed {selectors : List Value}
    (ran : Builder.apply .navBar selectors world = .ok answer after) :
    ∃ events, Call.operationEvents? world.store .navBar selectors = some events ∧
      Performed events world (producedBlocks · answer) after := by
  obtain ⟨fields, middle, makesFields, makesObject⟩ := bind_eq_ok ran
  obtain ⟨texts, start, areTexts, finishes⟩ := bind_eq_ok makesFields
  obtain ⟨isTexts, rfl⟩ := textsOf_eq_ok areTexts
  rw [Call.operationEvents?, isTexts]
  cases texts with
  | nil => cases finishes
  | cons container inner =>
      have performed := navBlocks_performed finishes
      cases makesObject
      refine ⟨_, rfl, performed.bag, performed.succeeds.trans ⟨.refl _, List.prefix_append _ _⟩,
        fun pending later succeeds => ?_⟩
      rw [producedBlocks_object succeeds.objects]
      exact performed.blocks pending ⟨succeeds.store, (List.prefix_append _ _).trans succeeds.objects⟩

theorem sideStyle_eq (name : String) : Bag.sideStyle? name = Call.sideProperties.lookup name := by
  unfold Bag.sideStyle?
  split
  · rfl
  · rfl
  · rfl
  · rfl
  · next top right bottom left =>
      have other {side : String} (different : name = side → False) : (name == side) = false :=
        beq_false_of_ne different
      simp [Call.sideProperties, List.lookup_cons, other top, other right, other bottom, other left]

theorem borderSideStyle_performed {side value : Value}
    (ran : Builder.borderSideStyle side value world = .ok answer after) :
    ∃ events, Call.sideEvents? side value = some events ∧
      Performed events world (producedBlocks · answer) after := by
  have passedOver (ends : Builder.self world = .ok answer after) :
      Performed [] world (producedBlocks · answer) after := by
    cases ends
    exact performed_nothing
  cases side with
  | text name =>
      rw [Builder.borderSideStyle] at ran
      rw [Call.sideEvents?, ← sideStyle_eq]
      cases known : Bag.sideStyle? name with
      | none =>
          rw [known] at ran
          exact ⟨[], rfl, passedOver ran⟩
      | some property =>
          rw [known] at ran
          exact setProperty_performed ran
  | _ => exact ⟨[], rfl, passedOver ran⟩

theorem textDecoration_performed {value style : Value}
    (ran : Builder.textDecoration value style world = .ok answer after) :
    ∃ events, Call.operationEvents? world.store .textDecoration [value, style] = some events ∧
      Performed events world (producedBlocks · answer) after := by
  cases style <;> exact setProperty_performed ran

theorem apply_performed {operation : Operation} {arguments : List Value}
    (ran : Builder.apply operation arguments world = .ok answer after) :
    ∃ events, Call.operationEvents? world.store operation arguments = some events ∧
      Performed events world (producedBlocks · answer) after := by
  cases operation with
  | block => exact block_performed ran
  | navBar => exact navBar_performed ran
  | mixin => exact mixin_performed ran
  | borderSideStyle =>
      match arguments with
      | [] => cases ran
      | [side] => exact borderSideStyle_performed ran
      | [side, value] => exact borderSideStyle_performed ran
      | _ :: _ :: _ :: _ => cases ran
  | textDecoration =>
      match arguments with
      | [] => cases ran
      | [value] => exact setProperty_performed ran
      | [value, style] => exact textDecoration_performed ran
      | _ :: _ :: _ :: _ => cases ran
  | setter property =>
      match arguments with
      | [] => exact setProperty_performed ran
      | [value] => exact setProperty_performed ran
      | _ :: _ :: _ => cases ran

theorem perform_performed {call : Call} (ran : call.perform world = .ok answer after) :
    ∃ events, call.events? world.store = some events ∧
      Performed events world (producedBlocks · answer) after := by
  cases call with
  | set property value => exact setProperty_performed ran
  | named caller name arguments =>
      rw [Call.perform] at ran
      rw [Call.events?]
      cases found : caller.find name with
      | error fault =>
          rw [found] at ran
          cases ran
      | ok operation =>
          rw [found] at ran
          exact apply_performed ran

end

/-- A script calls a member on what is the builder, so on the answer of the call before in a chain. A
setter has an address of its own. -/
theorem expr_call_builder {importFile : Value → Step Value} {scope : Scope} {object : Expr}
    {name : String} {operation : Operation} {world middle : World} {address : Nat}
    (isBuilder : Evaluate.expr importFile scope object world = .ok (.builder address) middle)
    (found : Member.ofName name = .ok (.operation operation)) (arguments : List Expr) (line : Nat)
    (callLine : Option Nat) :
    ∃ memory : Memory,
      Evaluate.expr importFile scope (.call (.member object name line) arguments callLine) world =
        (do (Call.named .script name (← Evaluate.exprs importFile scope arguments)).perform :
          Step Value) { middle with memory := memory } := by
  obtain ⟨place, memory, member⟩ : ∃ (place : Nat) (memory : Memory),
      Evaluate.expr importFile scope (.member object name line) world =
        .ok (.function (.operation operation) place) { middle with memory := memory } := by
    rw [Evaluate.expr, bind_of_ok isBuilder]
    change ∃ place memory, Evaluate.builderMember name (some line) middle = _
    rw [Evaluate.builderMember, found]
    cases operation with
    | setter property => exact ⟨_, _, rfl⟩
    | _ => exact ⟨_, _, rfl⟩
  have finds : Caller.find .script name = .ok operation := by
    rw [Caller.find, found]
  refine ⟨memory, ?_⟩
  rw [Evaluate.expr, bind_of_ok member]
  refine congrFun (congrArg (bind _) (funext fun values => ?_)) _
  rw [Call.perform, finds]
  rfl

/-! Sequences of calls -/

section

variable {world after : World} {answers : List Value}

theorem performAll_append {front back : List Call}
    (ran : Call.performAll (front ++ back) world = .ok answers after) :
    ∃ early between late, Call.performAll front world = .ok early between ∧
      Call.performAll back between = .ok late after ∧ answers = early ++ late := by
  induction front generalizing world answers with
  | nil => exact ⟨[], world, answers, rfl, ran, rfl⟩
  | cons call rest ih =>
      obtain ⟨answer, middle, performs, continues⟩ := bind_eq_ok ran
      obtain ⟨others, last, performsAll, ends⟩ := bind_eq_ok continues
      cases ends
      obtain ⟨early, between, late, runsFront, runsBack, rfl⟩ := ih performsAll
      refine ⟨answer :: early, between, late, ?_, runsBack, rfl⟩
      rw [Call.performAll, bind_of_ok performs, bind_of_ok runsFront]
      rfl

theorem performAll_performed {calls : List Call} {before : List (String × String)}
    (ran : Call.performAll calls world = .ok answers after)
    (pending : world.bag = propertiesOf before) :
    ∃ events, Call.allEvents? world calls = some events ∧
      Performed events world (fun later => answers.flatMap (producedBlocks later)) after ∧
      ∀ answer ∈ answers, ∀ {later : World}, Succeeds after later →
        producedBlocks later answer = producedBlocks after answer := by
  induction calls generalizing world answers before with
  | nil =>
      cases ran
      exact ⟨[], rfl, performed_nothing, nofun⟩
  | cons call rest ih =>
      obtain ⟨answer, middle, performs, continues⟩ := bind_eq_ok ran
      obtain ⟨others, last, performsAll, ends⟩ := bind_eq_ok continues
      cases ends
      obtain ⟨events, isEvents, performed⟩ := perform_performed performs
      obtain ⟨more, areMore, performedAll, stay⟩ := ih performsAll (performed.bag pending)
      refine ⟨events ++ more, ?_, performed.append performedAll,
        List.forall_mem_cons.2 ⟨fun succeeds => ?_, stay⟩⟩
      · rw [Call.allEvents?, performs]
        dsimp only
        rw [isEvents, areMore]
        rfl
      · -- In both worlds, the blocks are those that the call itself came down to.
        rw [performed.blocks pending (performedAll.succeeds.trans succeeds),
          performed.blocks pending performedAll.succeeds]

end

/-! Printing -/

/-- Puts a hyphen in front of each capital that stands behind a small letter. -/
def hyphened (before : Option Char) : List Char → List Char
  | [] => []
  | c :: rest =>
    (if before.any Char.isLower && c.isUpper then ['-', c] else [c]) ++ hyphened (some c) rest

def printedName (identifier : String) : String :=
  Text.lowercase (String.ofList (hyphened none identifier.toList))

/-- A block as a rule: behind its selectors a line for each property, in the order of the block. -/
def printed (indent : String) (block : Block) : String :=
  ",".intercalate block.selectors ++ " \x7b\n" ++
    String.join (block.properties.map fun entry =>
      s!"{indent}{printedName entry.1}: {entry.2};\n") ++ "\x7d"

theorem isSmall_eq (c : Char) : isSmall c = c.isLower :=
  rfl

theorem isCapital_eq (c : Char) : isCapital c = c.isUpper :=
  (Bool.decide_and _ _).symm

theorem hyphenate_cons (c : Char) (rest : List Char) :
    hyphenate (c :: rest) = c :: hyphened (some c) rest := by
  induction rest generalizing c with
  | nil => rfl
  | cons next rest ih =>
      rw [hyphenate, hyphened, ih, isSmall_eq, isCapital_eq, Option.any_some]
      split <;> rfl

theorem propertyName_eq (identifier : String) : propertyName identifier = printedName identifier := by
  unfold propertyName printedName
  cases identifier.toList with
  | nil => rfl
  | cons first rest =>
      rw [hyphenate_cons]
      rfl

theorem declarationLines_eq (indent : String) (block : Block) :
    block.declarationLines indent = String.join (block.properties.map fun entry =>
      s!"{indent}{printedName entry.1}: {entry.2};\n") := by
  refine congrArg String.join (List.map_congr_left fun entry _ => ?_)
  rw [Block.declarationLine, propertyName_eq]

theorem rule_eq (block : Block) : block.rule = printed "\t" block ++ "\n\n" := by
  rw [printed, ← declarationLines_eq, String.append_assoc]
  rfl

theorem compactRule_eq (block : Block) : block.compactRule = printed "  " block ++ "\n" := by
  rw [printed, ← declarationLines_eq, String.append_assoc]
  rfl

theorem join_append_each (gap first : String) (rest : List String) :
    String.join ((first :: rest).map (· ++ gap)) = gap.intercalate (first :: rest) ++ gap := by
  induction rest generalizing first with
  | nil => simp
  | cons second rest ih =>
      rw [List.map_cons, String.join_cons, ih second, String.intercalate_cons_cons,
        String.append_assoc, String.append_assoc, String.append_assoc]

theorem intercalate_ends (gap : String) {blocks : List Block} (some : blocks ≠ []) :
    ∃ front, (gap.intercalate (blocks.map (printed "\t"))).toList = front ++ ['\x7d'] := by
  induction blocks with
  | nil => exact absurd rfl some
  | cons first rest ih =>
      cases rest with
      | nil =>
          refine ⟨(",".intercalate first.selectors ++ " \x7b\n" ++
            String.join (first.properties.map fun entry =>
              s!"\t{printedName entry.1}: {entry.2};\n")).toList, ?_⟩
          simp [printed]
      | cons second rest =>
          obtain ⟨front, ends⟩ := ih nofun
          refine ⟨(printed "\t" first ++ gap).toList ++ front, ?_⟩
          rw [List.map_cons, List.map_cons, String.intercalate_cons_cons, String.toList_append,
            ← List.map_cons, ends, List.append_assoc]

/-- In front of a character that is not blank, trimming ends. -/
theorem trimStart_append {c : Char} (dark : Text.isBlank c = false) (front rest : List Char) :
    ∃ kept, Text.trimStart (front ++ [c]) = kept ++ [c] ∧
      Text.trimStart (front ++ [c] ++ rest) = kept ++ [c] ++ rest := by
  induction front with
  | nil => exact ⟨[], by simp [Text.trimStart, dark], by simp [Text.trimStart, dark]⟩
  | cons first front ih =>
      by_cases blank : Text.isBlank first = true
      · obtain ⟨kept, alone, behind⟩ := ih
        refine ⟨kept, ?_, ?_⟩
        · simpa [Text.trimStart, blank] using alone
        · simpa [Text.trimStart, blank] using behind
      · exact ⟨first :: front, by simp [Text.trimStart, blank], by simp [Text.trimStart, blank]⟩

theorem trimEnd_newlines {c : Char} (dark : Text.isBlank c = false) (kept : List Char) :
    Text.trimEnd (kept ++ [c] ++ ['\n', '\n']) = kept ++ [c] := by
  have newline : Text.isBlank '\n' = true := by decide
  simp [Text.trimEnd, newline, dark]

/-- The rules are separated by blank lines; only blanks in front of the first one are cut off. -/
theorem rules_eq (blocks : List Block) :
    rules blocks = String.ofList (Text.trimStart
      ("\n\n".intercalate (blocks.map (printed "\t"))).toList) := by
  cases blocks with
  | nil => rfl
  | cons first rest =>
      have joined : String.join ((first :: rest).map Block.rule) =
          "\n\n".intercalate ((first :: rest).map (printed "\t")) ++ "\n\n" := by
        have same : Block.rule = (· ++ "\n\n") ∘ printed "\t" := funext rule_eq
        rw [same, ← List.map_map, List.map_cons, join_append_each]
      obtain ⟨front, ends⟩ := intercalate_ends "\n\n" (List.cons_ne_nil first rest)
      have dark : Text.isBlank '\x7d' = false := by decide
      -- The last rule ends in a brace, so behind it only the two newlines are blank.
      obtain ⟨kept, alone, behind⟩ := trimStart_append dark front ['\n', '\n']
      rw [rules, joined, Text.trim, String.toList_append, ends, alone, Text.trimChars]
      change String.ofList (Text.trimEnd (Text.trimStart (front ++ ['\x7d'] ++ ['\n', '\n']))) = _
      rw [behind, trimEnd_newlines dark]

section

variable (store : Store)

def blockValues (blocks : List (List String × Nat)) : List Value :=
  blocks.map fun block => .block block.1 block.2

def readBlocks (blocks : List (List String × Nat)) : List Block :=
  blocks.map fun block => store.block block.1 block.2

theorem runBlocks_values (blocks : List (List String × Nat)) :
    Printing.runBlocks store (blockValues blocks) =
      if (readBlocks store blocks).any Block.isRaw then .error .runRawBlock
      else .ok (readBlocks store blocks) := by
  induction blocks with
  | nil => rfl
  | cons first rest ih =>
      change (if (store.block first.1 first.2).isRaw then _ else
        (Printing.runBlocks store (blockValues rest)).map (store.block first.1 first.2 :: ·)) = _
      rw [ih]
      change _ = if (store.block first.1 first.2).isRaw || (readBlocks store rest).any Block.isRaw
        then _ else _
      cases (store.block first.1 first.2).isRaw with
      | true => rfl
      | false => cases (readBlocks store rest).any Block.isRaw <;> rfl

theorem fieldBlocks_values (names : List String) (blocks : List (List String × Nat))
    (named : names.length = blocks.length) :
    Printing.fieldBlocks store (names.zip (blockValues blocks)) = .ok (readBlocks store blocks) := by
  induction names generalizing blocks with
  | nil =>
      cases blocks with
      | nil => rfl
      | cons first rest => cases named
  | cons name names ih =>
      cases blocks with
      | nil => cases named
      | cons first rest =>
          change (Printing.fieldBlocks store (names.zip (blockValues rest))).map _ = _
          rw [ih rest (Nat.succ.inj named)]
          rfl

end

/-- A block without selectors keeps all of them from being printed. -/
theorem run_blocks (blocks : List (List String × Nat)) (world : World) :
    Printing.run (blockValues blocks) world =
      let given := readBlocks world.store blocks
      let text := String.ofList (Text.trimStart
        ("\n\n".intercalate (given.map (printed "\t"))).toList)
      if given.any Block.isRaw then .error .runRawBlock world
      else .ok (.text text) { world with output := .text text } := by
  change Printing.emit (Printing.runText world.store (blockValues blocks)) world = _
  rw [Printing.runText, runBlocks_values]
  dsimp only
  cases (readBlocks world.store blocks).any Block.isRaw with
  | true => rfl
  | false =>
      rw [if_neg Bool.false_ne_true, Except.map, rules_eq]
      rfl

theorem compile_blocks {names : List String} {blocks : List (List String × Nat)} {reference : Nat}
    {world : World} (named : names.length = blocks.length)
    (found : world.objects[reference]? = some (names.zip (blockValues blocks))) :
    Printing.compile (.object reference) world =
      let text := String.join ((readBlocks world.store blocks).map (printed "  " · ++ "\n"))
      .ok (.text text) { world with output := .text text } := by
  have reads : Step.fieldsOf reference world = .ok (names.zip (blockValues blocks)) world := by
    change EStateM.Result.ok ((world.objects[reference]?).getD []) world = _
    rw [found]
    rfl
  have same : Block.compactRule = (printed "  " · ++ "\n") := funext compactRule_eq
  rw [Printing.compile, bind_of_ok reads]
  change Printing.emit (Printing.compileText world.store _) world = _
  rw [Printing.compileText, fieldBlocks_values world.store names blocks named, Except.map,
    compactRules, same]
  rfl

/--
Calls on an empty bag of which none stops with a fault. Every block has the properties assigned since
the finalisation before it, where they were first assigned and with their last texts; the bag is empty
after a finalisation; the blocks produced so far stay as they are, though the builder has handed its
storages over to them; and blocks are printed property by property, by `run` only if all of them have
selectors.
-/
theorem blocks_of_calls {calls : List Call} {world after : World} {answers : List Value}
    (empty : world.bag = []) (ran : Call.performAll calls world = .ok answers after) :
    (∃ events, Call.allEvents? world calls = some events ∧
      answers.flatMap (producedBlocks after) = Event.blocks [] events ∧
      after.bag = propertiesOf (Event.pending [] events)) ∧
    (∀ front back, calls = front ++ back → ∃ early late between events,
      Call.performAll front world = .ok early between ∧
      Call.performAll back between = .ok late after ∧ answers = early ++ late ∧
      (∀ answer ∈ early, producedBlocks after answer = producedBlocks between answer) ∧
      Call.allEvents? world front = some events ∧
      ∀ selectors, events.getLast? = some (.finish selectors) → between.bag = []) ∧
    (∀ (blocks : List (List String × Nat)) (now : World),
      let given := readBlocks now.store blocks
      ∃ last, Printing.run (blockValues blocks) now =
        if given.any Block.isRaw then .error .runRawBlock now
        else .ok (.text (String.ofList (Text.trimStart
          ("\n\n".intercalate (given.map (printed "\t"))).toList))) last) ∧
    (∀ (names : List String) (blocks : List (List String × Nat)) (reference : Nat) (now : World),
      names.length = blocks.length →
      now.objects[reference]? = some (names.zip (blockValues blocks)) →
      ∃ last, Printing.compile (.object reference) now =
        .ok (.text (String.join ((readBlocks now.store blocks).map (printed "  " · ++ "\n")))) last) := by
  have start : world.bag = propertiesOf [] := empty
  refine ⟨?_, ?_, fun blocks now => ⟨_, run_blocks blocks now⟩,
    fun names blocks reference now named found => ⟨_, compile_blocks named found⟩⟩
  · obtain ⟨events, areEvents, performed, -⟩ := performAll_performed ran start
    exact ⟨events, areEvents, performed.blocks start (.refl after), performed.bag start⟩
  · rintro front back rfl
    -- What the back half makes does not touch the blocks of the front half.
    obtain ⟨early, between, late, runsFront, runsBack, rfl⟩ := performAll_append ran
    obtain ⟨events, areEvents, performed, stay⟩ := performAll_performed runsFront start
    obtain ⟨_, -, behind, -⟩ := performAll_performed runsBack (performed.bag start)
    refine ⟨early, late, between, events, runsFront, runsBack, rfl,
      fun answer inside => stay answer inside behind.succeeds, areEvents, fun selectors ends => ?_⟩
    rw [performed.bag start, Event.pending_of_finish [] ends]
    rfl

/-- A block without selectors that is mixed in later, setters in both spellings, two sides of which one
has no border style, and a navigation bar that finds properties pending. -/
def sampleCalls : List Call :=
  [.set "margin" (.text "1px"), .named .script "top" [.int 0], .named .script "block" [],
    .named .host "font_size" [.text "1px"], .named .script "color" [.text "red"],
    .set "fontSize" (.int 2), .named .script "borderSideStyle" [.text "left", .text "solid"],
    .named .host "border_side_style" [.text "middle", .text "solid"],
    .named .script "block" [.text ".a"], .named .host "mixin" [.block [] 0],
    .named .script "navBar" [.text ".n"], .named .script "textDecoration" [.text "x", .int 1]]

def sampleEnd : World :=
  stateAfter (Call.performAll sampleCalls (World.start none default))

theorem blocks_of_calls_sample :
    ∃ answers, Call.performAll sampleCalls (World.start none default) = .ok answers sampleEnd ∧
      answers.flatMap (producedBlocks sampleEnd) =
        [⟨[], [("margin", "1px"), ("top", "0")]⟩,
          ⟨[".a"], [("fontSize", "2"), ("color", "red"), ("borderLeftStyle", "solid")]⟩,
          ⟨[".n ul"], [("margin", "0"), ("top", "0"), ("display", "flex"), ("listStyle", "none"),
            ("padding", "0")]⟩,
          ⟨[".n ul li"], [("margin", "0 10px")]⟩,
          ⟨[".n ul li a"], [("color", "#fff"), ("textDecoration", "none"), ("fontWeight", "bold"),
            ("borderRadius", "3px")]⟩,
          ⟨[".n ul li a:hover"], [("textDecoration", "underline"), ("backgroundColor", "#555")]⟩] ∧
      sampleEnd.bag = [("textDecorationStyle", "x")] ∧
      (∃ last, Printing.run [.block [".a"] 1, .block [".n ul li"] 3] sampleEnd =
        .ok (.text (".a \x7b\n\tfont-size: 2;\n\tcolor: red;\n\tborder-left-style: solid;\n\x7d\n\n" ++
          ".n ul li \x7b\n\tmargin: 0 10px;\n\x7d")) last) ∧
      ∃ last, Printing.compile (.object 0)
          { sampleEnd with objects := [[("plain", .block [] 0), ("item", .block [".n ul li"] 3)]] } =
        .ok (.text (" \x7b\n  margin: 1px;\n  top: 0;\n\x7d\n" ++
          ".n ul li \x7b\n  margin: 0 10px;\n\x7d\n")) last := by
  have noFault :
      (faultAfter? (Call.performAll sampleCalls (World.start none default))).isNone = true := by
    decide +kernel
  obtain ⟨answers, ran⟩ := exists_ok_of_faultAfter_none (Option.isNone_iff_eq_none.1 noFault)
  change _ = EStateM.Result.ok answers sampleEnd at ran
  obtain ⟨⟨events, areEvents, blocks, bag⟩, -, runs, compiles⟩ := blocks_of_calls rfl ran
  have produced := congrArg (Option.map (Event.blocks [])) areEvents
  refine ⟨answers, ran, blocks.trans (Option.some.inj (produced.symm.trans ?_)), ?_, ?_, ?_⟩
  · decide +kernel
  · decide +kernel
  · obtain ⟨last, prints⟩ := runs [([".a"], 1), ([".n ul li"], 3)] sampleEnd
    refine ⟨last, prints.trans ?_⟩
    have given : readBlocks sampleEnd.store [([".a"], 1), ([".n ul li"], 3)] =
        [⟨[".a"], [("fontSize", "2"), ("color", "red"), ("borderLeftStyle", "solid")]⟩,
          ⟨[".n ul li"], [("margin", "0 10px")]⟩] := by
      decide +kernel
    rw [given]
    exact congrArg (fun text => EStateM.Result.ok (Value.text text) last) (by decide +kernel)
  · obtain ⟨last, prints⟩ := compiles ["plain", "item"] [([], 0), ([".n ul li"], 3)] 0
      { sampleEnd with objects := [[("plain", .block [] 0), ("item", .block [".n ul li"] 3)]] } rfl rfl
    refine ⟨last, prints.trans ?_⟩
    exact congrArg (fun text => EStateM.Result.ok (Value.text text) last) (by decide +kernel)

end SheetScript.Script
