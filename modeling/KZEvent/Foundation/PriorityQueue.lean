import Mathlib.Data.Multiset.Basic
import Mathlib.Data.Multiset.ZeroCons
import Mathlib.Order.Lattice

/-!
# Priority queues

A priority queue keeps items and gives back one with a smallest key.  Which one
it gives back when several have that key is not specified, so what is proved of a
program with a priority queue has to hold for all of them: the structure below is
the interface of a queue, with its laws as fields.

The list at the end is one such queue.
-/

namespace KZEvent
namespace Foundation

universe u v

variable {Item : Type u} {Key : Type v}

/-- A queue that gives back an item with a smallest key.  `items` says what is in
it. -/
structure PriorityQueue [LE Key] (key : Item → Key) where
  Queue : Type u
  empty : Queue
  push : Queue → Item → Queue
  pop : Queue → Option (Item × Queue)
  items : Queue → Multiset Item
  items_empty : items empty = 0
  items_push : ∀ q item, items (push q item) = item ::ₘ items q
  items_of_pop_none : ∀ q, pop q = none → items q = 0
  items_of_pop : ∀ q item rest, pop q = some (item, rest) →
    items q = item ::ₘ items rest
  le_of_pop : ∀ q item rest, pop q = some (item, rest) →
    ∀ other ∈ items rest, key item ≤ key other

namespace PriorityQueue

section

variable [LE Key] {key : Item → Key} (impl : PriorityQueue key)

/-- Look at the item that would be given back. -/
def top (q : impl.Queue) : Option Item := (impl.pop q).map Prod.fst

variable {impl} {q rest : impl.Queue} {item : Item}

theorem top_of_pop (hPop : impl.pop q = some (item, rest)) :
    impl.top q = some item := by
  rw [top, hPop]
  rfl

theorem exists_pop_of_top (hTop : impl.top q = some item) :
    ∃ rest, impl.pop q = some (item, rest) := by
  obtain ⟨⟨item', rest⟩, hPop, rfl⟩ := Option.map_eq_some_iff.mp hTop
  exact ⟨rest, hPop⟩

theorem top_mem (hTop : impl.top q = some item) : item ∈ impl.items q := by
  obtain ⟨rest, hPop⟩ := exists_pop_of_top hTop
  rw [impl.items_of_pop q item rest hPop]
  exact Multiset.mem_cons_self item _

/-- The only item of a queue is the one given back. -/
theorem pop_of_items_eq_singleton (hItems : impl.items q = {item}) :
    ∃ rest, impl.pop q = some (item, rest) ∧ impl.items rest = 0 := by
  cases hPop : impl.pop q with
  | none =>
      rw [impl.items_of_pop_none q hPop] at hItems
      exact absurd hItems.symm (Multiset.singleton_ne_zero item)
  | some popped =>
      obtain ⟨first, rest⟩ := popped
      rw [impl.items_of_pop q first rest hPop] at hItems
      obtain ⟨rfl, hRest⟩ := (Multiset.singleton_eq_cons_iff _).mp hItems.symm
      exact ⟨rest, rfl, hRest⟩

/-- An empty queue gives nothing back. -/
theorem pop_of_items_eq_zero (hItems : impl.items q = 0) : impl.pop q = none := by
  cases hPop : impl.pop q with
  | none => rfl
  | some popped =>
      rw [impl.items_of_pop q popped.1 popped.2 hPop] at hItems
      exact absurd hItems (Multiset.cons_ne_zero)

/-- A queue with an item in it has a top. -/
theorem exists_top (hItem : item ∈ impl.items q) :
    ∃ first, impl.top q = some first := by
  cases hPop : impl.pop q with
  | none =>
      rw [impl.items_of_pop_none q hPop] at hItem
      exact absurd hItem (Multiset.notMem_zero _)
  | some popped => exact ⟨popped.1, top_of_pop hPop⟩

end

section

variable [Preorder Key] {key : Item → Key} {impl : PriorityQueue key}
  {q : impl.Queue} {item : Item}

theorem top_le (hTop : impl.top q = some item) {other : Item}
    (hOther : other ∈ impl.items q) : key item ≤ key other := by
  obtain ⟨rest, hPop⟩ := exists_pop_of_top hTop
  rw [impl.items_of_pop q item rest hPop, Multiset.mem_cons] at hOther
  rcases hOther with rfl | hOther
  · exact le_rfl
  · exact impl.le_of_pop q item rest hPop other hOther

end

/-! ## A list as a priority queue -/

section

variable [LinearOrder Key] (key : Item → Key)

/-- Take the first of the items with the smallest key out of a list. -/
def popMin : List Item → Option (Item × List Item)
  | [] => none
  | item :: items =>
      match popMin items with
      | none => some (item, [])
      | some (first, rest) =>
          if key item ≤ key first then some (item, items)
          else some (first, item :: rest)

theorem popMin_eq_none {items : List Item} (hPop : popMin key items = none) :
    items = [] := by
  cases items with
  | nil => rfl
  | cons item items =>
      unfold popMin at hPop
      split at hPop
      · cases hPop
      · split at hPop <;> cases hPop

theorem popMin_spec {items : List Item} {first : Item} {rest : List Item}
    (hPop : popMin key items = some (first, rest)) :
    items.Perm (first :: rest) ∧ ∀ other ∈ rest, key first ≤ key other := by
  induction items generalizing first rest with
  | nil => cases hPop
  | cons item items ih =>
      unfold popMin at hPop
      split at hPop
      · rename_i hNone
        obtain ⟨rfl, rfl⟩ := Prod.mk.inj (Option.some.inj hPop)
        rw [popMin_eq_none key hNone]
        exact ⟨.refl _, nofun⟩
      · rename_i least others hLeast
        obtain ⟨hPerm, hLe⟩ := ih hLeast
        split at hPop
        · rename_i hFirst
          obtain ⟨rfl, rfl⟩ := Prod.mk.inj (Option.some.inj hPop)
          refine ⟨.refl _, fun other hOther => ?_⟩
          rcases List.mem_cons.mp (hPerm.subset hOther) with rfl | hOther
          · exact hFirst
          · exact hFirst.trans (hLe other hOther)
        · rename_i hLater
          obtain ⟨rfl, rfl⟩ := Prod.mk.inj (Option.some.inj hPop)
          refine ⟨(hPerm.cons item).trans (.swap _ _ _), ?_⟩
          rw [List.forall_mem_cons]
          exact ⟨(not_le.mp hLater).le, hLe⟩

/-- A list that is searched at every `pop`. -/
def ofList : PriorityQueue key where
  Queue := List Item
  empty := []
  push items item := items ++ [item]
  pop := popMin key
  items := (↑)
  items_empty := rfl
  items_push items item :=
    Multiset.coe_eq_coe.mpr (List.perm_append_singleton item items)
  items_of_pop_none items hPop := by
    rw [popMin_eq_none key hPop]
    rfl
  items_of_pop items first rest hPop :=
    Multiset.coe_eq_coe.mpr (popMin_spec key hPop).1
  le_of_pop items first rest hPop := (popMin_spec key hPop).2

end

end PriorityQueue
end Foundation
end KZEvent
