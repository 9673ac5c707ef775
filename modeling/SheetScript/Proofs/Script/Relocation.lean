import SheetScript.Proofs.Preserves
import SheetScript.Script.Import

/-!
A script cannot see what was made before it started. Objects, lists and storages that exist already
only move the references, stamps and storages of those it makes: a run in a world with a past is the
run without it, moved.
-/

namespace SheetScript.Script

open SheetScript.Document SheetScript.Files SheetScript.Style

section

variable {α : Type} (front back : List α) (change : α → α)

theorem modify_append_front {place : Nat} (inFront : place < front.length) :
    (front ++ back).modify place change = front.modify place change ++ back := by
  refine List.ext_getElem? fun index => ?_
  rw [List.getElem?_modify]
  by_cases before : index < front.length
  · rw [List.getElem?_append_left before, List.getElem?_append_left (by simpa), List.getElem?_modify]
  · have after : (front.modify place change).length ≤ index := by simpa using before
    have other : place ≠ index := by omega
    rw [List.getElem?_append_right (Nat.le_of_not_lt before), List.getElem?_append_right after,
      List.length_modify]
    simp [other]

theorem modify_append_back (place : Nat) :
    (front ++ back).modify (front.length + place) change = front ++ back.modify place change := by
  refine List.ext_getElem? fun index => ?_
  rw [List.getElem?_modify]
  by_cases before : index < front.length
  · have other : front.length + place ≠ index := by omega
    rw [List.getElem?_append_left before, List.getElem?_append_left before]
    simp [other]
  · obtain ⟨later, rfl⟩ := Nat.exists_eq_add_of_le (Nat.le_of_not_lt before)
    rw [List.getElem?_append_right (Nat.le_of_not_lt before),
      List.getElem?_append_right (Nat.le_of_not_lt before), Nat.add_sub_cancel_left,
      List.getElem?_modify]
    simp

end

/-- What was made before: some objects, lists with the stamps below a bound, and storages, of which
the one that is written to goes on being written to. -/
structure Past where
  objects : Objects
  stamps : Nat
  store : Store

variable (past : Past)

/-- The first storage of a run is the one that was written to; the others are made later. -/
def Past.storage : Nat → Nat
  | 0 => past.store.current
  | own + 1 => past.store.bags.length + own

def Past.storages (own : Store) : List Bag :=
  past.store.bags.set past.store.current (own.read 0) ++ own.bags.tail

theorem Past.storage_lt (own : Store) : past.storage own.current < (past.storages own).length := by
  have inside := own.inside
  rw [storages, List.length_append, List.length_set, List.length_tail]
  cases current : own.current with
  | zero => exact Nat.lt_add_right _ past.store.inside
  | succ later =>
      rw [current] at inside
      rw [storage]
      omega

end SheetScript.Script

namespace SheetScript.Style.Store

open SheetScript.Script

variable (past : Past) (own : Store)

def moved : Store :=
  ⟨past.storages own, past.storage own.current, past.storage_lt own⟩

theorem read_moved (storage : Nat) :
    (own.moved past).read (past.storage storage) = own.read storage := by
  have length : (past.store.bags.set past.store.current (own.read 0)).length =
      past.store.bags.length := List.length_set
  change ((past.storages own)[past.storage storage]?).getD [] = _
  unfold Past.storages
  cases storage with
  | zero =>
      have inside := past.store.inside
      rw [Past.storage, List.getElem?_append_left (length ▸ inside), List.getElem?_set_self inside]
      rfl
  | succ later =>
      rw [Past.storage, List.getElem?_append_right (length ▸ Nat.le_add_right _ _), length,
        Nat.add_sub_cancel_left, List.getElem?_tail]
      rfl

theorem bag_moved : (own.moved past).bag = own.bag :=
  read_moved past own own.current

theorem block_moved (selectors : List String) (storage : Nat) :
    (own.moved past).block selectors (past.storage storage) = own.block selectors storage :=
  congrArg (Block.mk selectors) (read_moved past own storage)

theorem ext_bags {left right : Store} (bags : left.bags = right.bags)
    (current : left.current = right.current) : left = right := by
  cases left
  cases right
  cases bags
  cases current
  rfl

theorem moved_assign (properties : List (String × String)) :
    (own.assign properties).moved past = (own.moved past).assign properties := by
  obtain ⟨bags, current, inside⟩ := own
  refine ext_bags ?_ rfl
  cases bags with
  | nil => cases inside
  | cons first rest =>
      have length (bag : Bag) :
          (past.store.bags.set past.store.current bag).length = past.store.bags.length :=
        List.length_set
      cases current with
      | zero =>
          have here := past.store.inside
          change past.store.bags.set past.store.current (first.assign properties) ++ rest =
            (past.store.bags.set past.store.current first ++ rest).modify past.store.current _
          rw [modify_append_front _ _ _ ((length first).symm ▸ here)]
          refine congrArg (· ++ rest) (List.ext_getElem? fun index => ?_)
          rw [List.getElem?_modify, List.getElem?_set, List.getElem?_set]
          by_cases written : past.store.current = index
          · simp [written, written ▸ here]
          · simp [written]
      | succ later =>
          change past.store.bags.set past.store.current first ++ rest.modify later _ =
            (past.store.bags.set past.store.current first ++ rest).modify
              (past.store.bags.length + later) _
          rw [← length first, modify_append_back]

theorem moved_renew : own.renew.moved past = (own.moved past).renew := by
  obtain ⟨bags, current, inside⟩ := own
  cases bags with
  | nil => cases inside
  | cons first rest =>
      refine ext_bags ?_ ?_
      · exact (List.append_assoc _ _ _).symm
      · change past.storage (rest.length + 1) =
          (past.store.bags.set past.store.current first ++ rest).length
        rw [Past.storage, List.length_append, List.length_set]

end SheetScript.Style.Store

namespace SheetScript.Script

open SheetScript.Document SheetScript.Files SheetScript.Style

variable (past : Past)

namespace Value

mutual

def moved : Value → Value
  | .list stamp items => .list (past.stamps + stamp) (movedItems items)
  | .object reference => .object (past.objects.length + reference)
  | .text value => .text value
  | .int n => .int n
  | .float x => .float x
  | .bool value => .bool value
  | .null => .null
  | .undefined => .undefined
  | .block selectors storage => .block selectors (past.storage storage)
  | .builder address => .builder address
  | .function callee address => .function callee address

def movedItems : List Value → List Value
  | [] => []
  | item :: rest => moved item :: movedItems rest

end

theorem movedItems_eq_map (items : List Value) : movedItems past items = items.map (moved past) := by
  induction items with
  | nil => rw [movedItems, List.map_nil]
  | cons item rest ih => rw [movedItems, List.map_cons, ih]

end Value

abbrev movedFields (fields : Assoc Value) : Assoc Value :=
  fields.mapValues (Value.moved past)

namespace World

def moved (world : World) : World :=
  { world with
    store := world.store.moved past
    output := world.output.moved past
    objects := past.objects ++ world.objects.map (movedFields past)
    nextStamp := past.stamps + world.nextStamp }

theorem moved_objects (world : World) (reference : Nat) :
    (world.moved past).objects[past.objects.length + reference]? =
      world.objects[reference]?.map (movedFields past) := by
  have there : past.objects.length ≤ past.objects.length + reference := Nat.le_add_right _ _
  change (past.objects ++ world.objects.map (movedFields past))[_]? = _
  rw [List.getElem?_append_right there, Nat.add_sub_cancel_left, List.getElem?_map]

end World

variable {past} {α β : Type}

def movedResult (past : Past) (move : α → α) :
    EStateM.Result ScriptFault World α → EStateM.Result ScriptFault World α
  | .ok value world => .ok (move value) (world.moved past)
  | .error fault world => .error fault (world.moved past)

/-- The second step does with the past what the first one does without. -/
def Moves (past : Past) (move : α → α) (step later : Step α) : Prop :=
  ∀ world : World, later (world.moved past) = movedResult past move (step world)

variable {move : α → α} {moveNext : β → β}

theorem moves_pure {value moved : α} (same : move value = moved) :
    Moves past move (pure value) (pure moved) := by
  intro world
  subst same
  rfl

theorem moves_throw (fault : ScriptFault) : Moves past move (throw fault) (throw fault) := by
  intro world
  rfl

theorem moves_get : Moves past (World.moved past) get get := by
  intro world
  rfl

theorem moves_modify {change later : World → World}
    (same : ∀ world, later (world.moved past) = (change world).moved past) :
    Moves past id (modify change : Step PUnit) (modify later) := by
  intro world
  exact congrArg (EStateM.Result.ok PUnit.unit) (same world)

theorem moves_bind {first later : Step α} {next nextLater : α → Step β}
    (firstMoves : Moves past move first later)
    (nextMoves : ∀ value, Moves past moveNext (next value) (nextLater (move value))) :
    Moves past moveNext (first >>= next) (later >>= nextLater) := by
  intro world
  have atFirst := firstMoves world
  cases ran : first world with
  | ok value middle =>
      rw [ran] at atFirst
      rw [bind_of_ok ran, bind_of_ok atFirst]
      exact nextMoves value middle
  | error fault middle =>
      rw [ran] at atFirst
      rw [bind_of_error ran, bind_of_error atFirst]
      rfl

/-! Values: nothing that can be read off a value tells where it is. -/

namespace Value

theorem isNumber_moved (value : Value) : (value.moved past).isNumber = value.isNumber := by
  cases value <;> rfl

theorem moved_eq_null {value : Value} : value.moved past = .null ↔ value = .null := by
  cases value <;> simp [moved]

theorem moved_eq_undefined {value : Value} : value.moved past = .undefined ↔ value = .undefined := by
  cases value <;> simp [moved]

theorem itemTexts?_cons {item : Value} (rest : List Value) (notNull : item ≠ .null)
    (notUndefined : item ≠ .undefined) :
    itemTexts? (item :: rest) = do
      let first ← text? item
      let others ← itemTexts? rest
      return first :: others := by
  rw [itemTexts?]
  · exact notNull
  · exact notUndefined

mutual

theorem text?_moved : ∀ value : Value, (value.moved past).text? = value.text?
  | .list stamp items => by
      rw [moved, text?, text?, itemTexts?_moved items]
  | .text _ | .int _ | .float _ | .bool _ | .null | .undefined | .object _ | .block _ _
  | .builder _ | .function _ _ => rfl

theorem itemTexts?_moved : ∀ items : List Value,
    itemTexts? (movedItems past items) = itemTexts? items
  | [] => rfl
  | item :: rest => by
      have first := text?_moved item
      have others := itemTexts?_moved rest
      rw [movedItems]
      by_cases isNull : item = .null
      · subst isNull
        exact congrArg (Option.map _) others
      · by_cases isUndefined : item = .undefined
        · subst isUndefined
          exact congrArg (Option.map _) others
        · rw [itemTexts?_cons _ isNull isUndefined, itemTexts?_cons _ (isNull ∘ moved_eq_null.1)
            (isUndefined ∘ moved_eq_undefined.1), first, others]

end

end Value

/-! Displays: an object that encloses itself is cut off at the same place. -/

namespace Value

def Enclosing.moved (past : Past) (around : Enclosing) : Enclosing :=
  ⟨around.lists.map (past.stamps + ·), around.objects.map (past.objects.length + ·)⟩

theorem contains_map_add (offset : Nat) (numbers : List Nat) (n : Nat) :
    (numbers.map (offset + ·)).contains (offset + n) = numbers.contains n := by
  rw [Bool.eq_iff_iff]
  simp

/-- Two ways to show objects agree on those that are not being shown. -/
def ShowsAlike (past : Past) (enclosing : List Nat)
    (show₁ show₂ : Enclosing → Nat → Option String) : Prop :=
  ∀ lists reference, reference ∉ enclosing →
    show₂ (Enclosing.moved past ⟨lists, reference :: enclosing⟩) (past.objects.length + reference) =
      show₁ ⟨lists, reference :: enclosing⟩ reference

section

variable (store : Store) {show₁ show₂ : Enclosing → Nat → Option String}

mutual

theorem displayPart?_moved {enclosing : List Nat}
    (alike : ShowsAlike past enclosing show₁ show₂) : ∀ (value : Value) (lists : List Nat),
    displayPart? (store.moved past) show₂ (Enclosing.moved past ⟨lists, enclosing⟩)
        (value.moved past) =
      displayPart? store show₁ ⟨lists, enclosing⟩ value
  | .list stamp items, lists => by
      have inside := displayItems?_moved alike items (stamp :: lists)
      rw [moved, displayPart?, displayPart?]
      simp only [Enclosing.moved, contains_map_add]
      split
      · rfl
      · exact congrArg _ inside
  | .object reference, lists => by
      rw [moved, displayPart?, displayPart?]
      simp only [Enclosing.moved, contains_map_add]
      split
      · rfl
      · rename_i unseen
        exact alike lists reference (by simpa using unseen)
  | .block selectors storage, _ => by
      rw [moved, displayPart?, displayPart?, Store.block_moved]
  | .text _, _ | .int _, _ | .float _, _ | .bool _, _ | .null, _ | .undefined, _ | .builder _, _
  | .function _ _, _ => by
      rw [moved, displayPart?, displayPart?]

theorem displayItems?_moved {enclosing : List Nat}
    (alike : ShowsAlike past enclosing show₁ show₂) : ∀ (items : List Value) (lists : List Nat),
    displayItems? (store.moved past) show₂ (Enclosing.moved past ⟨lists, enclosing⟩)
        (movedItems past items) =
      displayItems? store show₁ ⟨lists, enclosing⟩ items
  | [], _ => rfl
  | item :: rest, lists => by
      rw [movedItems, displayItems?, displayItems?, displayPart?_moved alike item lists,
        displayItems?_moved alike rest lists]

end

end

def unshown (count : Nat) (enclosing : List Nat) : List Nat :=
  (List.range count).filter (!enclosing.contains ·)

theorem unshown_cons {count reference : Nat} {enclosing : List Nat} (valid : reference < count)
    (hidden : reference ∉ enclosing) :
    (unshown count (reference :: enclosing)).length < (unshown count enclosing).length := by
  have fewer : unshown count (reference :: enclosing) =
      (unshown count enclosing).filter (· != reference) := by
    unfold unshown
    rw [List.filter_filter]
    refine List.filter_congr fun other _ => ?_
    by_cases same : other = reference <;> simp [same]
  rw [fewer, List.length_filter_lt_length_iff_exists]
  exact ⟨reference, by simp [unshown, valid, hidden], by simp⟩

/-- A depth at which an object is shown in full, with the enclosing ones cut off. -/
def DeepEnough (count depth : Nat) (enclosing : List Nat) (reference : Nat) : Prop :=
  1 ≤ depth ∧ (reference < count → (unshown count enclosing).length + 2 ≤ depth)

theorem deepEnough_inside {count depth reference inside : Nat} {enclosing : List Nat}
    (enough : DeepEnough count (depth + 1) enclosing reference) (valid : reference < count)
    (hidden : inside ∉ enclosing) : DeepEnough count depth (inside :: enclosing) inside := by
  have bound := enough.2 valid
  refine ⟨by omega, fun insideValid => ?_⟩
  have fewer := unshown_cons insideValid hidden
  omega

theorem displayFields?_moved (store : Store) {enclosing : List Nat}
    {show₁ show₂ : Enclosing → Nat → Option String}
    (alike : ShowsAlike past enclosing show₁ show₂) (lists : List Nat) (fields : Assoc Value) :
    (movedFields past fields).mapM (fun (key, value) => do
        let shown ← displayPart? (store.moved past) show₂
          (Enclosing.moved past ⟨lists, enclosing⟩) value
        return s!"{Text.quoted key}: {shown}") =
      fields.mapM (fun (key, value) => do
        let shown ← displayPart? store show₁ ⟨lists, enclosing⟩ value
        return s!"{Text.quoted key}: {shown}") := by
  induction fields with
  | nil => rfl
  | cons field rest ih =>
      change List.mapM _ ((field.1, field.2.moved past) :: movedFields past rest) = _
      rw [List.mapM_cons, List.mapM_cons, ih]
      dsimp only
      rw [displayPart?_moved store alike]

theorem displayObject?_moved (world : World) {shallow deep : Nat} {enclosing : List Nat}
    (lists : List Nat) {reference : Nat}
    (enough : DeepEnough world.objects.length shallow enclosing reference)
    (enoughLater : DeepEnough world.objects.length deep enclosing reference) :
    displayObject? (world.store.moved past) (world.moved past).objects deep
        (Enclosing.moved past ⟨lists, enclosing⟩) (past.objects.length + reference) =
      displayObject? world.store world.objects shallow ⟨lists, enclosing⟩ reference := by
  induction shallow generalizing deep enclosing lists reference with
  | zero => exact absurd enough.1 (by omega)
  | succ shallow ih =>
      obtain ⟨deep, rfl⟩ : ∃ below, deep = below + 1 := ⟨deep - 1, by have := enoughLater.1; omega⟩
      rw [displayObject?, displayObject?, World.moved_objects]
      cases atReference : world.objects[reference]? with
      | none => rw [Option.map_none, Option.getD_none, List.mapM_nil, List.mapM_nil]
      | some fields =>
          have valid : reference < world.objects.length :=
            (List.getElem?_eq_some_iff.1 atReference).1
          have alike : ShowsAlike past enclosing (displayObject? world.store world.objects shallow)
              (displayObject? (world.store.moved past) (world.moved past).objects deep) :=
            fun lists inside hidden => ih lists (deepEnough_inside enough valid hidden)
              (deepEnough_inside enoughLater valid hidden)
          have inFields := displayFields?_moved world.store alike lists fields
          rw [Option.map_some, Option.getD_some, Option.getD_some, inFields]

theorem display?_moved (world : World) (value : Value) :
    (value.moved past).display? (world.moved past).store (world.moved past).objects =
      value.display? world.store world.objects := by
  have room (depth : Nat) (covers : world.objects.length + 1 ≤ depth) (reference : Nat) :
      DeepEnough world.objects.length depth [reference] reference := by
    refine ⟨by omega, fun valid => ?_⟩
    have fewer := unshown_cons valid List.not_mem_nil
    have all : (unshown world.objects.length []).length ≤ world.objects.length :=
      le_of_le_of_eq (List.length_filter_le _ _) List.length_range
    omega
  have later : world.objects.length + 1 ≤ (world.moved past).objects.length + 1 := by
    simp [World.moved]
  have alike : ShowsAlike past []
      (displayObject? world.store world.objects (world.objects.length + 1))
      (displayObject? (world.store.moved past) (world.moved past).objects
        ((world.moved past).objects.length + 1)) :=
    fun lists reference _ => displayObject?_moved world lists (room _ (Nat.le_refl _) reference)
      (room _ later reference)
  have shown := displayPart?_moved world.store alike value []
  change (value.moved past).display? (world.store.moved past) _ = _
  cases value with
  | text _ => rfl
  | _ => exact shown

end Value

end SheetScript.Script
