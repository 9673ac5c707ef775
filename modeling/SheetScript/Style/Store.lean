import SheetScript.Style.Block

/-!
Where property bags are stored. The builder writes to one storage at a time. A block that is finished
gets that storage itself and not a copy of it, and the builder goes on with a new one.
-/

namespace SheetScript.Style

structure Store where
  bags : List Bag
  /-- The storage that is written to. -/
  current : Nat
  inside : current < bags.length

namespace Store

def ofBag (bag : Bag) : Store :=
  ⟨[bag], 0, Nat.one_pos⟩

instance : Inhabited Store := ⟨ofBag []⟩

def read (store : Store) (storage : Nat) : Bag :=
  (store.bags[storage]?).getD []

def bag (store : Store) : Bag :=
  store.read store.current

def assign (store : Store) (properties : List (String × String)) : Store :=
  ⟨store.bags.modify store.current (·.assign properties), store.current,
    (List.length_modify _ _ _).symm ▸ store.inside⟩

def renew (store : Store) : Store :=
  ⟨store.bags ++ [[]], store.bags.length, by simp⟩

def block (store : Store) (selectors : List String) (storage : Nat) : Block :=
  ⟨selectors, store.read storage⟩

section

variable (store : Store)

theorem read_assign (properties : List (String × String)) (storage : Nat) :
    (store.assign properties).read storage =
      if storage = store.current then store.bag.assign properties else store.read storage := by
  unfold bag read assign
  rw [List.getElem?_modify]
  by_cases here : store.current = storage
  · subst here
    simp [List.getElem?_eq_getElem store.inside]
  · simp [here, Ne.symm here]

theorem bag_assign (properties : List (String × String)) :
    (store.assign properties).bag = store.bag.assign properties := by
  rw [bag, read_assign]
  exact if_pos rfl

theorem assign_assign (properties more : List (String × String)) :
    (store.assign properties).assign more = store.assign (properties ++ more) := by
  unfold assign
  simp only [List.modify_modify_eq]
  congr 2
  exact funext fun bag => (List.foldl_append).symm

theorem assign_nil : store.assign [] = store := by
  unfold assign
  cases store with
  | mk bags current inside =>
      congr 1
      exact List.modify_id _ _

theorem read_renew (storage : Nat) : store.renew.read storage = store.read storage := by
  unfold read renew
  rcases Nat.lt_trichotomy storage store.bags.length with inside | atEnd | beyond
  · rw [List.getElem?_append_left inside]
  · subst atEnd
    simp
  · have outside : (store.bags ++ [[]]).length ≤ storage := by rwa [List.length_append]
    rw [List.getElem?_eq_none outside, List.getElem?_eq_none (Nat.le_of_lt beyond)]

theorem bag_renew : store.renew.bag = [] := by
  simp [bag, read, renew]

end

/-! Later stores -/

/-- A storage that was handed over: it is not written to. -/
def IsSealed (store : Store) (storage : Nat) : Prop :=
  storage < store.bags.length ∧ storage ≠ store.current

/-- What was handed over stays so, and holds the same. -/
def Later (earlier later : Store) : Prop :=
  ∀ storage, earlier.IsSealed storage →
    later.IsSealed storage ∧ later.read storage = earlier.read storage

theorem Later.refl (store : Store) : store.Later store :=
  fun _ isSealed => ⟨isSealed, rfl⟩

theorem Later.trans {first second third : Store} (early : first.Later second)
    (late : second.Later third) : first.Later third := by
  intro storage isSealed
  obtain ⟨stillSealed, same⟩ := early storage isSealed
  obtain ⟨sealedLater, sameLater⟩ := late storage stillSealed
  exact ⟨sealedLater, sameLater.trans same⟩

variable {store later : Store}

theorem later_assign (properties : List (String × String)) :
    store.Later (store.assign properties) := by
  intro storage isSealed
  refine ⟨⟨?_, isSealed.2⟩, ?_⟩
  · exact Nat.lt_of_lt_of_eq isSealed.1 (List.length_modify _ _ _).symm
  · rw [read_assign, if_neg isSealed.2]

theorem renew_sealed {storage : Nat} (inside : storage < store.bags.length) :
    store.renew.IsSealed storage := by
  refine ⟨?_, Nat.ne_of_lt inside⟩
  rw [renew, List.length_append]
  exact Nat.lt_add_right _ inside

theorem later_renew : store.Later store.renew :=
  fun storage isSealed => ⟨renew_sealed isSealed.1, read_renew store storage⟩

/-- What a storage held when it was handed over, it holds from then on. -/
theorem read_of_later_renew (isLater : store.renew.Later later) :
    later.read store.current = store.bag := by
  rw [(isLater _ (renew_sealed store.inside)).2]
  exact read_renew store _

end Store

end SheetScript.Style
