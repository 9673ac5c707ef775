import SheetScript.Proofs.Script.Calls
import SheetScript.Proofs.Script.Place

/-!
Requests that are refused. Whatever the builder and its printers are asked for, a request that stops
with a fault leaves the world as it was, a mixin apart: it has copied the blocks in front of the first
value that is none.
-/

namespace SheetScript.Script

open SheetScript.Style

/-! Operations -/

namespace Builder

theorem setProperty_failsClean (property : String) (value : Value) :
    FailsClean (setProperty property value) :=
  .of_reads (textOf_contained value).keeps fun _ _ _ _ fails => nomatch fails

theorem self_preserves {ν : Type} {view : World → ν} : Preserves view self :=
  preserves_bind preserves_get fun _ => preserves_pure _

theorem self_failsClean : FailsClean self :=
  failsClean_of_reads self_preserves

theorem block_failsClean (selectors : List Value) : FailsClean (block selectors) :=
  .of_reads (textsOf_contained selectors).keeps fun _ _ _ _ fails => nomatch fails

theorem navBlocks_total (parts : List NavPart) (world : World) :
    ∃ fields after, navBlocks parts world = .ok fields after := by
  induction parts generalizing world with
  | nil => exact ⟨_, _, rfl⟩
  | cons part rest ih =>
      let assigned : World := { world with store := world.store.assign part.properties }
      obtain ⟨fields, after, others⟩ := ih { assigned with store := assigned.store.renew }
      refine ⟨(part.name, .block [part.selector] assigned.store.current) :: fields, after, ?_⟩
      change (navBlocks rest >>= fun others => pure (_ :: others)) _ = _
      rw [bind_of_ok others]
      rfl

theorem navBar_failsClean (selectors : List Value) : FailsClean (navBar selectors) := by
  refine .of_reads (textsOf_contained _).keeps fun texts => ?_
  split
  · exact failsClean_of_reads (preserves_throw _)
  · intro world after fault fails
    obtain ⟨_, _, ends⟩ := navBlocks_total (navParts _ _ _ _) world
    exact nomatch ends.symm.trans fails

theorem borderSideStyle_failsClean (side value : Value) :
    FailsClean (borderSideStyle side value) := by
  unfold borderSideStyle
  split
  · split
    · exact setProperty_failsClean _ _
    · exact self_failsClean
  · exact self_failsClean

theorem textDecoration_failsClean (value style : Value) :
    FailsClean (textDecoration value style) := by
  unfold textDecoration
  split <;> exact setProperty_failsClean _ _

theorem apply_failsClean {operation : Operation} (notMixin : operation ≠ .mixin)
    (arguments : List Value) : FailsClean (apply operation arguments) := by
  unfold apply
  split
  · exact block_failsClean _
  · exact absurd rfl notMixin
  · exact (navBar_failsClean _).of_total fun _ _ => ⟨_, _, rfl⟩
  · exact borderSideStyle_failsClean _ _
  · exact borderSideStyle_failsClean _ _
  · exact textDecoration_failsClean _ _
  · exact textDecoration_failsClean _ _
  · exact setProperty_failsClean _ _
  · exact setProperty_failsClean _ _
  · exact failsClean_of_reads (preserves_throw _)

/-- What the blocks in front of the first value that is none hold, each when its turn comes. -/
def leadingProperties (store : Store) : List Value → List (String × String)
  | .block _ storage :: rest =>
    let properties := store.read storage
    properties ++ leadingProperties (store.assign properties) rest
  | _ => []

theorem mixin_refused {values : List Value} {world after : World} {fault : ScriptFault}
    (refused : mixin values world = .error fault after) :
    after = { world with
      store := world.store.assign (leadingProperties world.store values) } := by
  induction values generalizing world with
  | nil => cases refused
  | cons value rest ih =>
      cases value with
      | block selectors storage =>
          have behind := ih refused
          dsimp only at behind
          rw [Store.assign_assign] at behind
          exact behind
      | _ =>
          cases refused
          rw [leadingProperties, Store.assign_nil]
          exact nofun

end Builder

namespace Printing

theorem emit_failsClean (text : Except ScriptFault String) : FailsClean (emit text) := by
  cases text with
  | ok text =>
      intro world after fault fails
      cases fails
  | error fault => exact failsClean_of_reads (preserves_throw _)

theorem run_failsClean (arguments : List Value) : FailsClean (run arguments) :=
  .of_reads preserves_get fun _ => emit_failsClean _

theorem compile_failsClean (value : Value) : FailsClean (compile value) := by
  cases value with
  | object reference =>
      exact .of_reads (fieldsOf_preserves reference) fun _ =>
        .of_reads preserves_get fun _ => emit_failsClean _
  | _ => exact failsClean_of_reads (preserves_throw _)

end Printing

/-! Requests -/

/-- What a host program can ask of the builder, as itself or in place of a script, and of its
printers. -/
inductive Request
  | call (call : Call)
  | member (name : String) (line : Option Nat)
  | assign (name : String) (value : Value) (line : Nat)
  | run (arguments : List Value)
  | compile (arguments : List Value)

namespace Request

variable (importFile : Value → Step Value)

def perform : Request → Step Value
  | .call made => made.perform
  | member name line => Evaluate.builderMember name line
  | assign name value line => do
    Evaluate.writeField (← Builder.self) name value line
    return .undefined
  | run arguments => Evaluate.applyFunction importFile .run arguments
  | compile arguments => Evaluate.applyFunction importFile .compile arguments

/-- The properties that a request has copied into the bag by the time it is refused. -/
def copied (store : Store) : Request → List (String × String)
  | .call (.named caller name arguments) =>
    match caller.find name with
    | .ok .mixin => Builder.leadingProperties store arguments
    | _ => []
  | _ => []

theorem assign_failsClean (name : String) (value : Value) (line : Nat) :
    FailsClean (perform importFile (.assign name value line)) := by
  refine .of_reads Builder.self_preserves fun owner => ?_
  refine .of_total ?_ fun _ _ => ⟨_, _, rfl⟩
  unfold Evaluate.writeField
  split
  · intro world after fault fails
    cases fails
  · split
    · intro world after fault fails
      cases fails
    · exact failsClean_of_reads (preserves_throw _)
  · exact failsClean_of_reads (preserves_throw _)

theorem member_failsClean (name : String) (line : Option Nat) :
    FailsClean (Evaluate.builderMember name line) := by
  unfold Evaluate.builderMember
  split
  · refine .of_reads preserves_get fun world => failsClean_of_reads ?_
    split <;> exact preserves_pure _
  · intro world after fault fails
    cases fails
  · exact .of_reads preserves_get fun _ => failsClean_of_reads (preserves_pure _)
  · exact failsClean_of_reads (preserves_throw _)

variable {importFile} {request : Request} {world after : World} {fault : ScriptFault}

theorem call_refused {call : Call} (refused : call.perform world = .error fault after) :
    after = { world with
      store := world.store.assign ((Request.call call).copied world.store) } := by
  cases call with
  | set property value =>
      rw [copied, Store.assign_nil]
      · exact Builder.setProperty_failsClean property value refused
      · exact nofun
  | named caller name arguments =>
      unfold Call.perform at refused
      unfold copied
      dsimp only at refused ⊢
      cases found : caller.find name with
      | error reason =>
          rw [found] at refused
          cases refused
          exact (congrArg (fun store => { world with store := store }) world.store.assign_nil).symm
      | ok operation =>
          rw [found] at refused
          by_cases isMixin : operation = .mixin
          · subst isMixin
            exact Builder.mixin_refused refused
          · have unchanged := Builder.apply_failsClean isMixin arguments refused
            split
            · next same => exact absurd (Except.ok.inj same) isMixin
            · rw [Store.assign_nil]
              exact unchanged

/-- A refused request leaves the output and the bag as they were, but for the properties that a mixin
has copied from the blocks in front of the first value that is none. -/
theorem world_of_refused (refused : request.perform importFile world = .error fault after) :
    after = { world with store := world.store.assign (request.copied world.store) } := by
  have unchanged (same : after = world) :
      after = { world with store := world.store.assign [] } := by
    rw [Store.assign_nil]
    exact same
  cases request with
  | call made => exact call_refused refused
  | member name line => exact unchanged (member_failsClean name line refused)
  | assign name value line => exact unchanged (assign_failsClean importFile name value line refused)
  | run arguments => exact unchanged (Printing.run_failsClean arguments refused)
  | compile arguments =>
      unfold perform Evaluate.applyFunction at refused
      match arguments with
      | [value] => exact unchanged (Printing.compile_failsClean value refused)
      | [] | _ :: _ :: _ =>
          cases refused
          exact unchanged rfl

def oneBlock : World :=
  { World.start none default with store := ⟨[[("color", "red")], []], 1, Nat.one_lt_two⟩ }

def blockThenNumber : Request :=
  .call (.named .script "mixin" [.block [] 0, .int 1])

theorem world_of_refused_mixin :
    ∃ after, blockThenNumber.perform (fun _ => pure .undefined) oneBlock =
        .error (.mixinNotBlock "int") after ∧
      after = { oneBlock with
        store := ⟨[[("color", "red")], [("color", "red")]], 1, Nat.one_lt_two⟩ } := by
  have refused : ∃ after, blockThenNumber.perform (fun _ => pure .undefined) oneBlock =
      .error (.mixinNotBlock "int") after := ⟨_, rfl⟩
  obtain ⟨after, refused⟩ := refused
  exact ⟨after, refused, world_of_refused refused⟩

/-- A refused mixin leaves a bag that is not what it was. -/
theorem bag_of_refused_mixin :
    ¬ ∀ (request : Request) (world after : World) (fault : ScriptFault),
      request.perform (fun _ => pure .undefined) world = .error fault after →
        after.bag = world.bag ∧ after.output = world.output := by
  intro unchanged
  have same := (unchanged blockThenNumber oneBlock _ _ rfl).1
  exact absurd same (by decide)

end Request

end SheetScript.Script
