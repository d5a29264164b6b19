import Mathlib.Data.List.Basic

/-!
# Double-buffered task queues

Producers append to a buffer.  The consumer takes the whole buffer by swapping
it with its own, empty queue, walks through that queue from front to back and
clears it at the end.  `pushed` and `executed` are ghost records: everything
that was ever appended, and everything the consumer has walked over.

Nothing is lost and nothing is executed twice exactly when `executed`, what the
consumer has still to walk over, and the buffer make up `pushed`, in this order.
That holds as long as the consumer swaps only with an empty queue.
-/

namespace KZEvent
namespace Foundation

variable {α : Type*}

/-- The two queues, the position of the consumer in its own, and the ghost
records. -/
structure DoubleBuffer (α : Type*) where
  buffer : List α
  exe : List α
  next : Nat
  pushed : List α
  executed : List α
deriving DecidableEq

namespace DoubleBuffer

def empty : DoubleBuffer α where
  buffer := []
  exe := []
  next := 0
  pushed := []
  executed := []

/-- What the consumer has still to walk over. -/
def rest (q : DoubleBuffer α) : List α := q.exe.drop q.next

def push (q : DoubleBuffer α) (item : α) : DoubleBuffer α :=
  { q with buffer := q.buffer ++ [item], pushed := q.pushed ++ [item] }

def swap (q : DoubleBuffer α) : DoubleBuffer α :=
  { q with exe := q.buffer, buffer := q.exe, next := 0 }

/-- Walk over one item; `none` at the end of the queue. -/
def execute (q : DoubleBuffer α) : Option (DoubleBuffer α) :=
  (q.exe[q.next]?).map fun item =>
    { q with next := q.next + 1, executed := q.executed ++ [item] }

def clear (q : DoubleBuffer α) : DoubleBuffer α :=
  { q with exe := [], next := 0 }

/-- The consumer's queue is empty. -/
def Idle (q : DoubleBuffer α) : Prop := q.exe = [] ∧ q.next = 0

/-- Everything pushed was executed or is queued, once and in order. -/
def Exact (q : DoubleBuffer α) : Prop :=
  q.executed ++ q.rest ++ q.buffer = q.pushed

@[simp]
theorem swap_buffer (q : DoubleBuffer α) : q.swap.buffer = q.exe := rfl

@[simp]
theorem clear_buffer (q : DoubleBuffer α) : q.clear.buffer = q.buffer := rfl

theorem idle_empty : (empty : DoubleBuffer α).Idle := ⟨rfl, rfl⟩

theorem exact_empty : (empty : DoubleBuffer α).Exact := rfl

theorem Idle.push {q : DoubleBuffer α} (hIdle : q.Idle) (item : α) :
    (q.push item).Idle := hIdle

theorem idle_clear (q : DoubleBuffer α) : q.clear.Idle := ⟨rfl, rfl⟩

theorem Idle.rest_eq_nil {q : DoubleBuffer α} (hIdle : q.Idle) :
    q.rest = [] := by
  unfold rest
  rw [hIdle.1, List.drop_nil]

theorem Exact.push {q : DoubleBuffer α} (hExact : q.Exact) (item : α) :
    (q.push item).Exact := by
  show q.executed ++ q.rest ++ (q.buffer ++ [item]) = q.pushed ++ [item]
  rw [← List.append_assoc, hExact]

/-- A swap with an empty queue hands the buffer over. -/
theorem Exact.swap {q : DoubleBuffer α} (hExact : q.Exact) (hIdle : q.Idle) :
    q.swap.Exact := by
  have hBuffer : q.executed ++ q.buffer = q.pushed := by
    rw [← hExact, hIdle.rest_eq_nil, List.append_nil]
  show q.executed ++ q.buffer.drop 0 ++ q.exe = q.pushed
  rw [List.drop_zero, hIdle.1, List.append_nil, hBuffer]

theorem execute_spec {q next : DoubleBuffer α} (hNext : q.execute = some next) :
    ∃ item, q.rest = item :: q.exe.drop (q.next + 1) ∧
      next = { q with next := q.next + 1, executed := q.executed ++ [item] } := by
  obtain ⟨item, hItem, rfl⟩ := Option.map_eq_some_iff.mp hNext
  have hRest : q.rest = item :: q.exe.drop (q.next + 1) := by
    rw [rest, List.drop_eq_getElem?_toList_append, hItem]
    rfl
  exact ⟨item, hRest, rfl⟩

theorem execute_buffer {q next : DoubleBuffer α} (hNext : q.execute = some next) :
    next.buffer = q.buffer := by
  obtain ⟨item, -, rfl⟩ := execute_spec hNext
  rfl

theorem execute_pushed {q next : DoubleBuffer α} (hNext : q.execute = some next) :
    next.pushed = q.pushed := by
  obtain ⟨item, -, rfl⟩ := execute_spec hNext
  rfl

theorem execute_rest_length {q next : DoubleBuffer α}
    (hNext : q.execute = some next) : next.rest.length + 1 = q.rest.length := by
  obtain ⟨item, hRest, rfl⟩ := execute_spec hNext
  rw [hRest]
  rfl

theorem Exact.execute {q next : DoubleBuffer α} (hExact : q.Exact)
    (hNext : q.execute = some next) : next.Exact := by
  obtain ⟨item, hRest, rfl⟩ := execute_spec hNext
  show q.executed ++ [item] ++ q.exe.drop (q.next + 1) ++ q.buffer = q.pushed
  rw [← hExact, hRest]
  simp only [List.append_assoc, List.cons_append, List.nil_append]

theorem execute_eq_none_iff {q : DoubleBuffer α} :
    q.execute = none ↔ q.rest = [] := by
  simp [execute, rest, List.drop_eq_nil_iff]

/-- Clearing a queue that was walked through to the end loses nothing. -/
theorem Exact.clear {q : DoubleBuffer α} (hExact : q.Exact)
    (hEnd : q.execute = none) : q.clear.Exact := by
  rw [execute_eq_none_iff] at hEnd
  show q.executed ++ [] ++ q.buffer = q.pushed
  rw [← hExact, hEnd]

/-! ## The work that is left -/

/-- How much the consumer has to do before everything is executed. -/
def cost (q : DoubleBuffer α) : Nat :=
  4 * q.buffer.length + 2 * q.rest.length +
    if q.exe = [] ∧ q.next = 0 then 0 else 1

theorem Idle.cost_eq {q : DoubleBuffer α} (hIdle : q.Idle) :
    q.cost = 4 * q.buffer.length := by
  have hNothing : q.exe = [] ∧ q.next = 0 := hIdle
  rw [cost, hIdle.rest_eq_nil, if_pos hNothing]
  rfl

theorem cost_swap_lt {q : DoubleBuffer α} (hIdle : q.Idle)
    (hBuffer : q.buffer ≠ []) : q.swap.cost < q.cost := by
  have hLength := List.length_pos_iff.mpr hBuffer
  have hBound : q.swap.cost ≤ 2 * q.buffer.length + 1 := by
    show 4 * q.exe.length + 2 * (q.buffer.drop 0).length + _ ≤ _
    rw [hIdle.1, List.length_nil, List.drop_zero]
    split <;> omega
  rw [hIdle.cost_eq]
  omega

theorem cost_execute_lt {q next : DoubleBuffer α}
    (hNext : q.execute = some next) : next.cost < q.cost := by
  have hRest := execute_rest_length hNext
  simp only [cost, execute_buffer hNext]
  split <;> split <;> omega

theorem cost_clear_lt {q : DoubleBuffer α} (hBusy : ¬ q.Idle) :
    q.clear.cost < q.cost := by
  have hSomething : ¬ (q.exe = [] ∧ q.next = 0) := hBusy
  rw [(idle_clear q).cost_eq, clear_buffer, cost, if_neg hSomething]
  omega

/-- With nothing left to do everything pushed was executed. -/
theorem Exact.executed_eq {q : DoubleBuffer α} (hExact : q.Exact)
    (hIdle : q.Idle) (hBuffer : q.buffer = []) : q.executed = q.pushed := by
  rw [← hExact, hIdle.rest_eq_nil, hBuffer, List.append_nil, List.append_nil]

/-! ## The consumer -/

/-- What the consumer does next. -/
inductive ConsumerStep
  | swap
  | execute
  | clear
deriving DecidableEq

/-- One step of a consumer that swaps when its queue is empty and the buffer is
not, and clears its queue at the end of it. -/
def consume (q : DoubleBuffer α) : ConsumerStep → Option (DoubleBuffer α)
  | .swap =>
      if q.exe.isEmpty ∧ q.next = 0 ∧ ¬ q.buffer.isEmpty then some q.swap
      else none
  | .execute => q.execute
  | .clear =>
      if q.exe.length ≤ q.next ∧ ¬ (q.exe.isEmpty ∧ q.next = 0) then
        some q.clear
      else none

/-- Append several items, the first of them first. -/
def pushAll (q : DoubleBuffer α) (items : List α) : DoubleBuffer α :=
  items.foldl push q

theorem Exact.pushAll {q : DoubleBuffer α} (hExact : q.Exact) (items : List α) :
    (q.pushAll items).Exact ∧ (q.pushAll items).pushed = q.pushed ++ items := by
  induction items generalizing q with
  | nil => exact ⟨hExact, (List.append_nil _).symm⟩
  | cons item items ih =>
      obtain ⟨hKept, hPushed⟩ := ih (hExact.push item)
      refine ⟨hKept, ?_⟩
      show ((q.push item).pushAll items).pushed = _
      rw [hPushed]
      simp [DoubleBuffer.push]

/-- The consumer has nothing left to do. -/
structure Done (q : DoubleBuffer α) : Prop where
  idle : q.Idle
  buffer : q.buffer = []

instance (q : DoubleBuffer α) : Decidable q.Done :=
  decidable_of_iff (q.exe.isEmpty ∧ q.next = 0 ∧ q.buffer.isEmpty)
    ⟨fun h => ⟨⟨List.isEmpty_iff.mp h.1, h.2.1⟩, List.isEmpty_iff.mp h.2.2⟩,
      fun h => ⟨List.isEmpty_iff.mpr h.idle.1, h.idle.2,
        List.isEmpty_iff.mpr h.buffer⟩⟩

theorem Exact.consume {q next : DoubleBuffer α} {action : ConsumerStep}
    (hExact : q.Exact) (hNext : q.consume action = some next) :
    next.Exact ∧ next.pushed = q.pushed := by
  cases action with
  | swap =>
      simp only [DoubleBuffer.consume, List.isEmpty_iff] at hNext
      split at hNext
      · rename_i hReady
        obtain rfl := Option.some.inj hNext
        exact ⟨hExact.swap ⟨hReady.1, hReady.2.1⟩, rfl⟩
      · cases hNext
  | execute => exact ⟨hExact.execute hNext, execute_pushed hNext⟩
  | clear =>
      simp only [DoubleBuffer.consume] at hNext
      split at hNext
      · rename_i hEnd
        obtain rfl := Option.some.inj hNext
        have hNone : q.execute = none := by
          rw [execute_eq_none_iff, rest]
          exact List.drop_eq_nil_iff.mpr hEnd.1
        exact ⟨hExact.clear hNone, rfl⟩
      · cases hNext

/-- The consumer only adds to what was executed. -/
theorem consume_executed_prefix {q next : DoubleBuffer α} {action : ConsumerStep}
    (hNext : q.consume action = some next) : q.executed <+: next.executed := by
  cases action with
  | swap =>
      simp only [consume, Option.ite_none_right_eq_some, Option.some.injEq] at hNext
      obtain ⟨-, rfl⟩ := hNext
      exact List.prefix_rfl
  | execute =>
      obtain ⟨item, -, rfl⟩ := execute_spec hNext
      exact List.prefix_append _ _
  | clear =>
      simp only [consume, Option.ite_none_right_eq_some, Option.some.injEq] at hNext
      obtain ⟨-, rfl⟩ := hNext
      exact List.prefix_rfl

theorem pushAll_executed (q : DoubleBuffer α) (items : List α) :
    (q.pushAll items).executed = q.executed := by
  induction items generalizing q with
  | nil => rfl
  | cons item items ih => exact ih (q.push item)

theorem buffer_pushAll (q : DoubleBuffer α) (items : List α) :
    (q.pushAll items).buffer = q.buffer ++ items := by
  induction items generalizing q with
  | nil => exact (List.append_nil _).symm
  | cons item items ih =>
      show ((q.push item).pushAll items).buffer = _
      rw [ih]
      simp [push]

/-- What was executed is the first part of what was pushed. -/
theorem Exact.executed_prefix {q : DoubleBuffer α} (hExact : q.Exact) :
    q.executed <+: q.pushed := by
  rw [← hExact, List.append_assoc]
  exact List.prefix_append _ _

theorem cost_push (q : DoubleBuffer α) (item : α) : (q.push item).cost = q.cost + 4 := by
  have hRest : (q.push item).rest = q.rest := rfl
  have hLength : (q.push item).buffer.length = q.buffer.length + 1 :=
    List.length_append
  rw [cost, cost, hRest, hLength]
  show _ + (if q.exe = [] ∧ q.next = 0 then 0 else 1) = _
  omega

theorem cost_pushAll (q : DoubleBuffer α) (items : List α) :
    (q.pushAll items).cost = q.cost + 4 * items.length := by
  induction items generalizing q with
  | nil => rfl
  | cons item items ih =>
      show ((q.push item).pushAll items).cost = _
      rw [ih, cost_push, List.length_cons]
      omega

/-- Every step of the consumer leaves less to do. -/
theorem cost_consume_lt {q next : DoubleBuffer α} {action : ConsumerStep}
    (hNext : q.consume action = some next) : next.cost < q.cost := by
  cases action with
  | swap =>
      simp only [consume, Option.ite_none_right_eq_some, Option.some.injEq,
        List.isEmpty_iff] at hNext
      obtain ⟨⟨hEmpty, hFirst, hBuffer⟩, rfl⟩ := hNext
      exact cost_swap_lt ⟨hEmpty, hFirst⟩ hBuffer
  | execute => exact cost_execute_lt hNext
  | clear =>
      simp only [consume, Option.ite_none_right_eq_some, Option.some.injEq,
        List.isEmpty_iff] at hNext
      obtain ⟨⟨-, hBusy⟩, rfl⟩ := hNext
      exact cost_clear_lt hBusy

/-- A consumer that is not done can go on. -/
theorem exists_consume {q : DoubleBuffer α} (hNotDone : ¬ q.Done) :
    ∃ action next, q.consume action = some next := by
  by_cases hIdle : q.Idle
  · have hBuffer : q.buffer ≠ [] := fun hEmpty =>
      hNotDone { idle := hIdle, buffer := hEmpty }
    exact ⟨.swap, q.swap, if_pos ⟨List.isEmpty_iff.mpr hIdle.1, hIdle.2, by
      simpa using hBuffer⟩⟩
  · by_cases hEnd : q.exe.length ≤ q.next
    · have hBusy : ¬ (q.exe.isEmpty = true ∧ q.next = 0) := by
        simpa [Idle] using hIdle
      exact ⟨.clear, q.clear, if_pos ⟨hEnd, hBusy⟩⟩
    · have hItem := List.getElem?_eq_getElem (Nat.lt_of_not_le hEnd)
      exact ⟨.execute, _, by rw [consume, execute, hItem, Option.map_some]⟩

/-- A consumer that is done cannot. -/
theorem Done.consume_eq_none {q : DoubleBuffer α} (hDone : q.Done)
    (action : ConsumerStep) : q.consume action = none := by
  obtain ⟨⟨hEmpty, hFirst⟩, hBuffer⟩ := hDone
  cases action with
  | swap => simp [consume, hBuffer]
  | execute => simp [consume, execute, hEmpty]
  | clear => simp [consume, hEmpty, hFirst]

end DoubleBuffer
end Foundation
end KZEvent
