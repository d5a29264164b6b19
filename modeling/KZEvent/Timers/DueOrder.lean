import KZEvent.Timers.Changes
import Mathlib.Data.Multiset.Filter

/-!
# What is due is handed over in order

A unit is queued with a time stamp that is not past, and only units with past
stamps are handed over, the smallest one first.  So what was handed over is never
behind what is queued.  In integer arithmetic a repeated unit is queued again
behind the reading of the clock that made it due, which is also why a wake-up
ends.
-/

namespace KZEvent
namespace Timers

open Foundation

universe u

variable {Cb Owner : Type u} {impl : TimerQueue Cb Owner}

namespace Timer

variable {t next : Timer impl}
  {guard : Timer impl → TimerAction Cb Owner → Prop}

theorem units_pop {unit : TimerUnit Cb Owner} {rest : impl.Queue}
    (hPop : impl.pop t.timerQueue = some (unit, rest)) :
    t.units = unit ::ₘ impl.items rest :=
  impl.items_of_pop _ _ _ hPop

theorem mem_units_of_pop {unit other : TimerUnit Cb Owner} {rest : impl.Queue}
    (hPop : impl.pop t.timerQueue = some (unit, rest))
    (hOther : other ∈ impl.items rest) : other ∈ t.units := by
  rw [units_pop hPop]
  exact Multiset.mem_cons_of_mem hOther

theorem popped_mem_units {unit : TimerUnit Cb Owner} {rest : impl.Queue}
    (hPop : impl.pop t.timerQueue = some (unit, rest)) : unit ∈ t.units := by
  rw [units_pop hPop]
  exact Multiset.mem_cons_self _ _

/-- The order of what was handed over and what is queued. -/
structure Ordered (t : Timer impl) : Prop where
  intervals : ∀ unit ∈ t.units, 0 ≤ unit.repeatInterval
  due : ∀ d ∈ t.dispatched, d.unit.timeStamp ≤ d.now ∧ d.now ≤ t.now
  order : (t.dispatched.map (·.unit.timeStamp)).Pairwise (· ≤ ·)
  below : ∀ d ∈ t.dispatched, ∀ unit ∈ t.units, d.unit.timeStamp ≤ unit.timeStamp

theorem ordered_initial (impl : TimerQueue Cb Owner) (now : Int) :
    Ordered (initial impl now) where
  intervals unit hUnit := by
    rw [units, initial, impl.items_empty] at hUnit
    exact absurd hUnit (Multiset.notMem_zero _)
  due _ hMem := by cases hMem
  order := .nil
  below _ hMem := by cases hMem

/-- Nothing is handed over and nothing is queued. -/
theorem Ordered.fewer (hOrdered : Ordered t)
    (hUnits : ∀ unit ∈ next.units, unit ∈ t.units)
    (hDispatched : next.dispatched = t.dispatched) (hNow : t.now ≤ next.now) :
    Ordered next where
  intervals unit hUnit := hOrdered.intervals unit (hUnits unit hUnit)
  due d hMem := by
    rw [hDispatched] at hMem
    obtain ⟨hDue, hPast⟩ := hOrdered.due d hMem
    exact ⟨hDue, hPast.trans hNow⟩
  order := by
    rw [hDispatched]
    exact hOrdered.order
  below d hMem unit hUnit := by
    rw [hDispatched] at hMem
    exact hOrdered.below d hMem unit (hUnits unit hUnit)

/-- A unit whose stamp is not past is queued. -/
theorem Ordered.push (hOrdered : Ordered t) (unit : TimerUnit Cb Owner)
    (hInterval : 0 ≤ unit.repeatInterval) (hFuture : t.now ≤ unit.timeStamp)
    (tasks ran : List (TimerTask Cb Owner)) :
    Ordered { t with
      timerQueue := impl.push t.timerQueue unit
      tasks := tasks
      ran := ran } := by
  have hUnits : ∀ other ∈ impl.items (impl.push t.timerQueue unit),
      other = unit ∨ other ∈ t.units := by
    intro other hOther
    rw [impl.items_push] at hOther
    exact Multiset.mem_cons.mp hOther
  refine ⟨fun other hOther => ?_, hOrdered.due, hOrdered.order,
    fun d hMem other hOther => ?_⟩
  · rcases hUnits other hOther with rfl | hOther
    · exact hInterval
    · exact hOrdered.intervals other hOther
  · rcases hUnits other hOther with rfl | hOther
    · obtain ⟨hDue, hPast⟩ := hOrdered.due d hMem
      exact (hDue.trans hPast).trans hFuture
    · exact hOrdered.below d hMem other hOther

/-- The first unit is handed over. -/
theorem Ordered.hand (hOrdered : Ordered t) {unit : TimerUnit Cb Owner}
    {rest : impl.Queue} {now : Int}
    (hPop : impl.pop t.timerQueue = some (unit, rest))
    (hDue : unit.timeStamp ≤ now) (hNow : now ≤ t.now) :
    Ordered { t with
      timerQueue := rest
      dispatched := t.dispatched ++ [{ unit := unit, now := now }] } := by
  refine ⟨fun other hOther => ?_, fun d hMem => ?_, ?_, fun d hMem other hOther => ?_⟩
  · exact hOrdered.intervals other (mem_units_of_pop hPop hOther)
  · rcases List.mem_append.mp hMem with hMem | hMem
    · exact hOrdered.due d hMem
    · rw [List.mem_singleton.mp hMem]
      exact ⟨hDue, hNow⟩
  · rw [List.map_append, List.pairwise_append]
    refine ⟨hOrdered.order, List.pairwise_singleton _ _, fun stamp hStamp last hLast => ?_⟩
    obtain ⟨d, hMem, rfl⟩ := List.mem_map.mp hStamp
    rw [List.mem_singleton.mp hLast]
    exact hOrdered.below d hMem unit (popped_mem_units hPop)
  · rcases List.mem_append.mp hMem with hMem | hMem
    · exact hOrdered.below d hMem other (mem_units_of_pop hPop hOther)
    · rw [List.mem_singleton.mp hMem]
      exact impl.le_of_pop _ _ _ hPop other hOther

/-- The units a task queues are not past, and their intervals not negative. -/
theorem unit_exact {task : TimerTask Cb Owner} {now : Int}
    {unit : TimerUnit Cb Owner} (hUnit : task.unit Chrono.exact now = some unit) :
    0 ≤ unit.repeatInterval ∧ now ≤ unit.timeStamp := by
  have hDuration (timeoutMs : Nat) : 0 ≤ Chrono.exact.milliseconds timeoutMs := by
    show 0 ≤ (timeoutMs : Int) * 1000000
    omega
  have hStamp (timeoutMs : Nat) :
      now ≤ Chrono.exact.add now (Chrono.exact.milliseconds timeoutMs) :=
    Int.le_add_of_nonneg_right (hDuration timeoutMs)
  cases task with
  | postOnce cb owner timeoutMs timerId =>
      obtain rfl := Option.some.inj hUnit
      exact ⟨hDuration 0, hStamp timeoutMs⟩
  | postRepeat cb owner timeoutMs timerId =>
      obtain rfl := Option.some.inj hUnit
      exact ⟨hDuration timeoutMs, hStamp timeoutMs⟩
  | cancel timerId => cases hUnit

theorem Ordered.change (hOrdered : Ordered t)
    (hChange : Change Chrono.exact guard t next) : Ordered next := by
  cases hChange with
  | quiet hQuiet =>
      refine hOrdered.fewer (fun unit hUnit => ?_) hQuiet.dispatched hQuiet.now
      rw [units, hQuiet.timerQueue] at hUnit
      exact hUnit
  | postsOnce | postsRepeat | asks | posts | cancels =>
      exact hOrdered.fewer (fun _ hUnit => hUnit) rfl le_rfl
  | drops hPop =>
      exact hOrdered.fewer (fun _ hUnit => mem_units_of_pop hPop hUnit) rfl le_rfl
  | queues hTasks hUnit =>
      obtain ⟨hInterval, hFuture⟩ := unit_exact hUnit
      exact hOrdered.push _ hInterval hFuture _ _
  | repeats hPop hDue hNow hAlive hRepeats =>
      have hInterval := hOrdered.intervals _ (popped_mem_units hPop)
      rename_i unit rest now
      exact (hOrdered.hand hPop hDue hNow).push
        { unit with timeStamp := Chrono.exact.add t.now unit.repeatInterval }
        hInterval (Int.le_add_of_nonneg_right hInterval) _ _
  | ends hPop hDue hNow => exact hOrdered.hand hPop hDue hNow

/-! ## A wake-up ends -/

/-- The number of units that are due at `now`. -/
def dueCount (t : Timer impl) (now : Int) : Nat :=
  (t.units.filter (·.timeStamp ≤ now)).card

/-- A turn takes a due unit away, for good if what it queues again is not due. -/
theorem dueCount_of_later {chrono : Chrono} {now : Int}
    (hLater : ∀ unit ∈ t.units, unit.timeStamp ≤ now →
      unit.repeatInterval ≠ chrono.milliseconds 0 →
      now < chrono.add t.readClock.now unit.repeatInterval)
    (hTurn : t.expireTurn chrono now = .again next) :
    next.dueCount now < t.dueCount now := by
  have hCount {unit : TimerUnit Cb Owner} {rest : impl.Queue}
      (hPop : impl.pop t.timerQueue = some (unit, rest)) (hDue : unit.timeStamp ≤ now) :
      t.dueCount now = ((impl.items rest).filter (·.timeStamp ≤ now)).card + 1 := by
    rw [dueCount, units_pop hPop,
      Multiset.filter_cons_of_pos
        (p := fun unit : TimerUnit Cb Owner => unit.timeStamp ≤ now) _ hDue,
      Multiset.card_cons]
  have hExpired := expired chrono now t
  rw [hTurn] at hExpired
  cases hExpired with
  | drops hPop hDue | ends hPop hDue =>
      rw [hCount hPop hDue]
      exact Nat.lt_succ_self _
  | repeats hPop hDue hAlive hRepeats =>
      rename_i unit rest
      rw [hCount hPop hDue]
      have hNotDue : ¬ chrono.add t.readClock.now unit.repeatInterval ≤ now :=
        not_le.mpr (hLater unit (popped_mem_units hPop) hDue hRepeats)
      show ((impl.items (impl.push rest _)).filter _).card < _
      rw [impl.items_push,
        Multiset.filter_cons_of_neg
          (p := fun unit : TimerUnit Cb Owner => unit.timeStamp ≤ now) _ hNotDue]
      exact Nat.lt_succ_self _

/-- In integer arithmetic, an interval that is not zero leads past `now`. -/
theorem dueCount_again (hOrdered : Ordered t) {now : Int} (hNow : now ≤ t.now)
    (hTurn : t.expireTurn Chrono.exact now = .again next) :
    next.dueCount now < t.dueCount now := by
  refine dueCount_of_later (fun unit hUnit _ hRepeats => ?_) hTurn
  have hInterval := hOrdered.intervals unit hUnit
  have hRead := t.quiet_readClock.now
  have hPositive : unit.repeatInterval ≠ 0 := hRepeats
  show now < t.readClock.now + unit.repeatInterval
  omega

theorem Ordered.changes (hOrdered : Ordered t)
    (hChanges : Changes Chrono.exact guard t next) : Ordered next := by
  induction hChanges with
  | refl => exact hOrdered
  | tail _ hLast ih => exact ih.change hLast

/-- **A wake-up ends**, after one turn for each unit that was due and one more. -/
theorem wake_ends (hOrdered : Ordered t) {input : IoInput}
    (hFuel : t.units.card < input.fuel) :
    ∃ next, step Chrono.exact t (.wake input) = some next := by
  have hQuiet : Quiet t (t.begin input).readFd.readClock :=
    ((t.quiet_begin input).trans (quiet_readFd _)).trans (quiet_readClock _)
  show ∃ next, (t.begin input).onExpire Chrono.exact input.fuel = some next
  cases hPop : impl.pop t.timerQueue with
  | none =>
      exact ⟨_, onExpire_of_empty (t := t.begin input) hPop input.fuel⟩
  | some popped =>
      rw [onExpire_of_pop (t := t.begin input) hPop]
      generalize (t.begin input).readFd.readClock = read at hQuiet
      have hAgain (s s' : Timer impl) (hInv : Ordered s ∧ read.now ≤ s.now)
          (hTurn : s.expireTurn Chrono.exact read.now = .again s') :
          (Ordered s' ∧ read.now ≤ s'.now) ∧
            s'.dueCount read.now < s.dueCount read.now := by
        have hAny : Changes Chrono.exact (fun _ _ => True) s s' ∧ read.now ≤ s'.now :=
          changes_again hInv.2 hTurn
        obtain ⟨hChanges, hNow⟩ := hAny
        exact ⟨⟨hInv.1.changes hChanges, hNow⟩, dueCount_again hInv.1 hInv.2 hTurn⟩
      have hRead : Change Chrono.exact (fun _ _ => True) t read := .quiet hQuiet
      have hStart : Ordered read := hOrdered.change hRead
      refine loop_ends (fun s => s.dueCount read.now) hAgain ⟨hStart, le_rfl⟩ ?_
      have hUnits : read.units = t.units := congrArg impl.items hQuiet.timerQueue
      have hLess : read.dueCount read.now ≤ t.units.card := by
        rw [dueCount, hUnits]
        exact Multiset.card_le_card (Multiset.filter_le _ _)
      exact Nat.lt_of_le_of_lt hLess hFuel

end Timer
end Timers
end KZEvent
