import KZEvent.Foundation.DoubleBuffer
import Mathlib.Algebra.BigOperators.Group.Finset.Basic

/-!
# A queue that is shared

The items of a queue belong to different owners.  What one of them sees of a shared
queue is a queue of its own: it moves when the shared queue moves an item of the
owner's, and stays as it is when the item is another's.  So what is known about a
queue with a single owner holds for each owner of a shared one.
-/

namespace KZEvent
namespace Foundation

variable {Owner α : Type*} [DecidableEq Owner]

/-- The items of one owner, in their order. -/
def ownedBy (owner : Owner) (items : List (Owner × α)) : List α :=
  items.filterMap fun item => if item.1 = owner then some item.2 else none

section OwnedBy

variable {owner other : Owner}

@[simp]
theorem ownedBy_nil (owner : Owner) : ownedBy owner ([] : List (Owner × α)) = [] := rfl

theorem ownedBy_append (owner : Owner) (items later : List (Owner × α)) :
    ownedBy owner (items ++ later) = ownedBy owner items ++ ownedBy owner later :=
  List.filterMap_append

@[simp]
theorem ownedBy_cons_same (owner : Owner) (item : α) (items : List (Owner × α)) :
    ownedBy owner ((owner, item) :: items) = item :: ownedBy owner items := by
  simp [ownedBy]

theorem ownedBy_cons_other (hOther : other ≠ owner) (item : α)
    (items : List (Owner × α)) :
    ownedBy owner ((other, item) :: items) = ownedBy owner items := by
  simp [ownedBy, hOther]

theorem ownedBy_tagged (owner : Owner) (items : List α) :
    ownedBy owner (items.map (owner, ·)) = items := by
  induction items with
  | nil => rfl
  | cons item items ih => rw [List.map_cons, ownedBy_cons_same, ih]

theorem ownedBy_tagged_other (hOther : other ≠ owner) (items : List α) :
    ownedBy owner (items.map (other, ·)) = [] := by
  induction items with
  | nil => rfl
  | cons item items ih => rw [List.map_cons, ownedBy_cons_other hOther, ih]

/-- Where nobody owns anything there is nothing. -/
theorem eq_nil_of_ownedBy {items : List (Owner × α)}
    (hNone : ∀ owner, ownedBy owner items = []) : items = [] := by
  cases items with
  | nil => rfl
  | cons item items =>
      obtain ⟨owner, item⟩ := item
      have hOwn := hNone owner
      rw [ownedBy_cons_same] at hOwn
      cases hOwn

end OwnedBy

/-- When only one owner's price changes, the total changes by as much. -/
theorem sum_add_of_others [Fintype Owner] {before after : Owner → Nat} {owner : Owner}
    (hOthers : ∀ other, other ≠ owner → after other = before other) :
    (∑ other, after other) + before owner = (∑ other, before other) + after owner := by
  have hRest : ∑ other ∈ Finset.univ.erase owner, after other =
      ∑ other ∈ Finset.univ.erase owner, before other :=
    Finset.sum_congr rfl fun other hMem => hOthers other (Finset.ne_of_mem_erase hMem)
  have hAfter := Finset.add_sum_erase Finset.univ after (Finset.mem_univ owner)
  have hBefore := Finset.add_sum_erase Finset.univ before (Finset.mem_univ owner)
  omega

namespace DoubleBuffer

/-- What one owner sees of a shared queue. -/
def only (owner : Owner) (q : DoubleBuffer (Owner × α)) : DoubleBuffer α where
  buffer := ownedBy owner q.buffer
  exe := ownedBy owner q.exe
  next := (ownedBy owner (q.exe.take q.next)).length
  pushed := ownedBy owner q.pushed
  executed := ownedBy owner q.executed

variable {owner other : Owner} {q next : DoubleBuffer (Owner × α)}

theorem only_rest (owner : Owner) (q : DoubleBuffer (Owner × α)) :
    (q.only owner).rest = ownedBy owner q.rest := by
  have hSplit : ownedBy owner q.exe =
      ownedBy owner (q.exe.take q.next) ++ ownedBy owner q.rest := by
    rw [rest, ← ownedBy_append, List.take_append_drop]
  show (ownedBy owner q.exe).drop (ownedBy owner (q.exe.take q.next)).length = _
  rw [hSplit, List.drop_left]

theorem only_push (owner : Owner) (q : DoubleBuffer (Owner × α)) (item : α) :
    (q.push (owner, item)).only owner = (q.only owner).push item := by
  simp [only, push, ownedBy_append]

theorem only_push_other (hOther : other ≠ owner) (item : α) :
    (q.push (other, item)).only owner = q.only owner := by
  simp [only, push, ownedBy_append, ownedBy_cons_other hOther]

theorem only_pushAll (owner : Owner) (q : DoubleBuffer (Owner × α)) (items : List α) :
    (q.pushAll (items.map (owner, ·))).only owner = (q.only owner).pushAll items := by
  induction items generalizing q with
  | nil => rfl
  | cons item items ih =>
      show ((q.push (owner, item)).pushAll _).only owner =
        ((q.only owner).push item).pushAll items
      rw [ih, only_push]

theorem only_pushAll_other (hOther : other ≠ owner) (items : List α) :
    (q.pushAll (items.map (other, ·))).only owner = q.only owner := by
  induction items generalizing q with
  | nil => rfl
  | cons item items ih =>
      show ((q.push (other, item)).pushAll _).only owner = _
      rw [ih, only_push_other hOther]

theorem swap_only (hIdle : q.Idle) :
    (∃ own, (q.only owner).consume own = some (q.swap.only owner)) ∨
      q.swap.only owner = q.only owner := by
  obtain ⟨hExe, hNext⟩ := hIdle
  by_cases hNone : ownedBy owner q.buffer = []
  · refine .inr ?_
    simp [only, swap, hExe, hNext, hNone]
  · refine .inl ⟨.swap, ?_⟩
    have hReady : (q.only owner).exe.isEmpty ∧ (q.only owner).next = 0 ∧
        ¬ (q.only owner).buffer.isEmpty := by
      simp [only, hExe, hNone]
    rw [consume, if_pos hReady]
    simp [only, swap]

theorem execute_only (hNext : q.execute = some next) :
    (∃ own, (q.only owner).consume own = some (next.only owner)) ∨
      next.only owner = q.only owner := by
  obtain ⟨⟨holder, item⟩, hItem, rfl⟩ := Option.map_eq_some_iff.mp hNext
  have hTake : q.exe.take (q.next + 1) = q.exe.take q.next ++ [(holder, item)] := by
    rw [List.take_add_one, hItem, Option.toList_some]
  by_cases hOwn : holder = owner
  · subst hOwn
    obtain ⟨-, hRest, -⟩ := execute_spec hNext
    have hFirst : (q.only holder).exe[(q.only holder).next]? = some item := by
      have hMine : (q.only holder).rest =
          item :: ownedBy holder (q.exe.drop (q.next + 1)) := by
        rw [only_rest, rest, List.drop_eq_getElem?_toList_append, hItem,
          Option.toList_some, List.singleton_append, ownedBy_cons_same]
      have hHead := congrArg List.head? hMine
      rw [rest, List.head?_drop] at hHead
      exact hHead
    refine .inl ⟨.execute, ?_⟩
    rw [consume, execute, hFirst, Option.map_some]
    simp only [only, hTake, ownedBy_append, ownedBy_cons_same, ownedBy_nil,
      List.length_append, List.length_singleton]
  · refine .inr ?_
    simp only [only, hTake, ownedBy_append, ownedBy_cons_other hOwn, ownedBy_nil,
      List.append_nil]

theorem clear_only (hEnd : q.exe.length ≤ q.next) :
    (∃ own, (q.only owner).consume own = some (q.clear.only owner)) ∨
      q.clear.only owner = q.only owner := by
  have hTake : q.exe.take q.next = q.exe := List.take_of_length_le hEnd
  by_cases hNone : ownedBy owner q.exe = []
  · refine .inr ?_
    simp [only, clear, hTake, hNone]
  · refine .inl ⟨.clear, ?_⟩
    have hOver : (q.only owner).exe.length ≤ (q.only owner).next ∧
        ¬ ((q.only owner).exe.isEmpty ∧ (q.only owner).next = 0) := by
      simp [only, hTake, hNone]
    rw [consume, if_pos hOver]
    simp [only, clear]

/-- **An owner sees a queue of its own.**  When the shared queue moves, what the owner
sees of it moves as a queue would, or stays as it is. -/
theorem consume_only (owner : Owner) {action : ConsumerStep}
    (hNext : q.consume action = some next) :
    (∃ own, (q.only owner).consume own = some (next.only owner)) ∨
      next.only owner = q.only owner := by
  cases action with
  | swap =>
      simp only [consume, Option.ite_none_right_eq_some, Option.some.injEq,
        List.isEmpty_iff] at hNext
      obtain ⟨⟨hExe, hFirst, -⟩, rfl⟩ := hNext
      exact swap_only ⟨hExe, hFirst⟩
  | execute => exact execute_only hNext
  | clear =>
      simp only [consume, Option.ite_none_right_eq_some, Option.some.injEq] at hNext
      obtain ⟨⟨hEnd, -⟩, rfl⟩ := hNext
      exact clear_only hEnd

/-- When the shared queue is done, each owner's is. -/
theorem Done.only (hDone : q.Done) (owner : Owner) : (q.only owner).Done := by
  obtain ⟨⟨hExe, hFirst⟩, hBuffer⟩ := hDone
  refine ⟨⟨?_, ?_⟩, ?_⟩
  · show ownedBy owner q.exe = []
    rw [hExe, ownedBy_nil]
  · show (ownedBy owner (q.exe.take q.next)).length = 0
    rw [hExe, List.take_nil, ownedBy_nil, List.length_nil]
  · show ownedBy owner q.buffer = []
    rw [hBuffer, ownedBy_nil]

end DoubleBuffer
end Foundation
end KZEvent
