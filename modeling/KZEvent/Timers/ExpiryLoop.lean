import KZEvent.Timers.Chrono64
import KZEvent.Timers.DueOrder
import Mathlib.Algebra.GroupWithZero.Nat

/-!
# The expiry loop and intervals of 64 bits

The loop of the callback takes due units from the queue that it pushes repeated
ones back into.  It ends after one turn for each unit that was due, as long as
what is pushed back is not due again: the interval must not be negative, and the
sum with a reading of the clock must not overflow.  A repeat timeout for which
this can fail leads to a loop that never ends.
-/

namespace KZEvent
namespace Timers

open Foundation

universe u

variable {Cb Owner : Type u} {impl : TimerQueue Cb Owner}

/-- An interval that can be added to every reading of a clock that shows at most
`last`. -/
def IntervalFits (last interval : Int) : Prop :=
  0 ≤ interval ∧ interval + last < 9223372036854775808

instance (last interval : Int) : Decidable (IntervalFits last interval) :=
  inferInstanceAs (Decidable (_ ∧ _))

namespace Timer

/-- The `now` of the callback. -/
def wakeReading (t : Timer impl) (input : IoInput) : Int :=
  (t.begin input).readFd.readClock.now

/-- The loop of the callback is left after at most one turn for each unit that is
due at its `now`, and the turn that finds no due unit. -/
def WakeEnds (t : Timer impl) (input : IoInput) : Prop :=
  ∃ next, step .int64 t (.wake { input with
    fuel := t.dueCount (t.wakeReading input) + 1 }) = some next

/-- In every run whose repeat timeouts are admitted, with a clock that shows at
most `last`, the callback ends whenever it is invoked. -/
def AlwaysEnds (impl : TimerQueue Cb Owner) (last : Int)
    (Admitted : UInt64 → Prop) : Prop :=
  ∀ (start : Int) (actions : List (TimerAction Cb Owner)) (t : Timer impl),
    0 ≤ start →
    (∀ cb owner timeoutMs, .postRepeatTask cb owner timeoutMs ∈ actions →
      ∃ timeout : UInt64, Admitted timeout ∧ timeoutMs = timeout.toNat) →
    run (step .int64) (initial impl start) actions = some t →
    ∀ input : IoInput, t.now + input.elapsed.sum ≤ last → t.WakeEnds input

/-! ## The intervals of a run -/

/-- Every interval there is fits. -/
structure Intervals (last : Int) (t : Timer impl) : Prop where
  fits : ∀ unit ∈ t.units, IntervalFits last unit.repeatInterval
  posted : ∀ cb owner timeoutMs timerId,
    .postRepeat cb owner timeoutMs timerId ∈ t.calls ++ t.tasks →
    IntervalFits last (Chrono.int64.milliseconds timeoutMs)
  started : 0 ≤ t.now

variable {last : Int} {t next : Timer impl}

/-- The repeat timeouts that are posted fit. -/
def RepeatFits (last : Int) : TimerAction Cb Owner → Prop
  | .postRepeatTask _ _ timeoutMs =>
      IntervalFits last (Chrono.int64.milliseconds timeoutMs)
  | _ => True

theorem intervals_initial (impl : TimerQueue Cb Owner) (last : Int) {start : Int}
    (hStart : 0 ≤ start) : Intervals last (initial impl start) where
  fits unit hUnit := by
    rw [units, initial, impl.items_empty] at hUnit
    exact absurd hUnit (Multiset.notMem_zero _)
  posted _ _ _ _ hTask := by cases hTask
  started := hStart

/-- No unit and no task is new. -/
theorem Intervals.fewer (hIntervals : Intervals last t)
    (hUnits : ∀ unit ∈ next.units, unit ∈ t.units)
    (hTasks : ∀ task ∈ next.calls ++ next.tasks, task ∈ t.calls ++ t.tasks)
    (hNow : t.now ≤ next.now) : Intervals last next where
  fits unit hUnit := hIntervals.fits unit (hUnits unit hUnit)
  posted cb owner timeoutMs timerId hTask :=
    hIntervals.posted cb owner timeoutMs timerId (hTasks _ hTask)
  started := hIntervals.started.trans hNow

/-- A unit with an interval that fits is queued. -/
theorem Intervals.push (hIntervals : Intervals last t) {unit : TimerUnit Cb Owner}
    (hUnits : next.units = unit ::ₘ t.units)
    (hInterval : IntervalFits last unit.repeatInterval)
    (hTasks : ∀ task ∈ next.calls ++ next.tasks, task ∈ t.calls ++ t.tasks)
    (hNow : t.now ≤ next.now) : Intervals last next where
  fits other hOther := by
    rw [hUnits, Multiset.mem_cons] at hOther
    rcases hOther with rfl | hOther
    · exact hInterval
    · exact hIntervals.fits other hOther
  posted cb owner timeoutMs timerId hTask :=
    hIntervals.posted cb owner timeoutMs timerId (hTasks _ hTask)
  started := hIntervals.started.trans hNow

/-- A call that has its id; if it is to repeat, its interval fits. -/
theorem Intervals.calls (hIntervals : Intervals last t) (task : TimerTask Cb Owner)
    (hUnits : next.units = t.units) (hCalls : next.calls = t.calls ++ [task])
    (hTasks : next.tasks = t.tasks) (hNow : next.now = t.now)
    (hFits : ∀ cb owner timeoutMs timerId,
      task = .postRepeat cb owner timeoutMs timerId →
      IntervalFits last (Chrono.int64.milliseconds timeoutMs)) :
    Intervals last next where
  fits unit hUnit := hIntervals.fits unit (hUnits ▸ hUnit)
  posted cb owner timeoutMs timerId hTask := by
    rw [hCalls, hTasks, List.append_assoc, List.mem_append, List.mem_append,
      List.mem_singleton] at hTask
    rcases hTask with hOld | hNew | hOld
    · exact hIntervals.posted _ _ _ _ (List.mem_append_left _ hOld)
    · exact hFits _ _ _ _ hNew.symm
    · exact hIntervals.posted _ _ _ _ (List.mem_append_right _ hOld)
  started := hNow ▸ hIntervals.started

/-- The interval of a unit a task queues is zero or was posted. -/
theorem fits_of_unit (hLast : last < 9223372036854775808)
    (hIntervals : Intervals last t) {task : TimerTask Cb Owner}
    {unit : TimerUnit Cb Owner} {now : Int} (hTask : task ∈ t.tasks)
    (hUnit : task.unit Chrono.int64 now = some unit) :
    IntervalFits last unit.repeatInterval := by
  cases task with
  | postOnce cb owner timeoutMs timerId =>
      obtain rfl := Option.some.inj hUnit
      exact ⟨le_rfl, by rw [milliseconds_zero, Int.zero_add]; exact hLast⟩
  | postRepeat cb owner timeoutMs timerId =>
      obtain rfl := Option.some.inj hUnit
      exact hIntervals.posted _ _ _ _ (List.mem_append_right _ hTask)
  | cancel timerId => cases hUnit

theorem Intervals.change (hLast : last < 9223372036854775808)
    (hIntervals : Intervals last t)
    (hChange : Change Chrono.int64 (fun _ => RepeatFits last) t next) :
    Intervals last next := by
  cases hChange with
  | quiet hQuiet =>
      refine hIntervals.fewer (fun unit hUnit => ?_) (fun task hTask => ?_)
        hQuiet.now
      · rw [units, hQuiet.timerQueue] at hUnit
        exact hUnit
      · rw [hQuiet.calls, hQuiet.tasks] at hTask
        exact hTask
  | postsOnce cb owner timeoutMs hGuard =>
      refine hIntervals.calls _ rfl rfl rfl rfl ?_
      intro _ _ _ _ hSame
      cases hSame
  | postsRepeat cb owner timeoutMs hGuard =>
      refine hIntervals.calls _ rfl rfl rfl rfl ?_
      rintro _ _ _ _ hSame
      obtain ⟨-, -, rfl, -⟩ := TimerTask.postRepeat.inj hSame
      exact hGuard
  | asks timerId =>
      refine hIntervals.calls _ rfl rfl rfl rfl ?_
      intro _ _ _ _ hSame
      cases hSame
  | posts hTask =>
      refine hIntervals.fewer (fun _ hUnit => hUnit) (fun task hMem => ?_) le_rfl
      have hCall := List.mem_of_getElem? hTask
      rw [List.mem_append, List.mem_append, List.mem_singleton] at hMem
      rcases hMem with hOld | hOld | rfl
      · exact List.mem_append_left _ (List.mem_of_mem_eraseIdx hOld)
      · exact List.mem_append_right _ hOld
      · exact List.mem_append_left _ hCall
  | queues hTasks hUnit =>
      have hMem : _ ∈ t.tasks := hTasks ▸ List.mem_cons_self
      refine hIntervals.push (impl.items_push _ _)
        (fits_of_unit hLast hIntervals hMem hUnit) (fun task hTask => ?_) le_rfl
      rw [hTasks]
      exact List.mem_append.mpr ((List.mem_append.mp hTask).imp_right
        (List.mem_cons_of_mem _))
  | cancels hTasks hGuard =>
      refine hIntervals.fewer (fun _ hUnit => hUnit) (fun task hTask => ?_) le_rfl
      rw [hTasks]
      exact List.mem_append.mpr ((List.mem_append.mp hTask).imp_right
        (List.mem_cons_of_mem _))
  | drops hPop | ends hPop =>
      exact hIntervals.fewer (fun _ hUnit => mem_units_of_pop hPop hUnit)
        (fun _ hTask => hTask) le_rfl
  | repeats hPop =>
      -- It is taken out and pushed again with the same interval.
      have hTaken : Intervals last { t with timerQueue := _ } :=
        hIntervals.fewer (fun _ hUnit => mem_units_of_pop hPop hUnit)
          (fun _ hTask => hTask) le_rfl
      have hInterval := hIntervals.fits _ (popped_mem_units hPop)
      exact hTaken.push (impl.items_push _ _) hInterval (fun _ hTask => hTask) le_rfl

theorem intervals_run {start : Int} {actions : List (TimerAction Cb Owner)}
    (hLast : last < 9223372036854775808) (hStart : 0 ≤ start)
    (hFits : ∀ action ∈ actions, RepeatFits last action)
    (hRun : run (step .int64) (initial impl start) actions = some t) :
    Intervals last t := by
  have hGuard : Guarded (step Chrono.int64) (fun _ => RepeatFits last)
      (initial impl start) actions := guarded_of_forall_mem hFits _
  exact run_changes (fun _ _ hIntervals hChange => hIntervals.change hLast hChange)
    (intervals_initial impl last hStart) hGuard hRun

/-! ## The loop ends -/

/-- What the loop keeps: intervals that fit, and a clock within its bounds. -/
structure Expiring (last now : Int) (t : Timer impl) : Prop where
  intervals : ∀ unit ∈ t.units, IntervalFits last unit.repeatInterval
  started : 0 ≤ now
  reading : now ≤ t.now
  ends : t.now + t.elapsed.sum ≤ last

/-- The clock moves by the first of the durations. -/
theorem elapsed_readClock (t : Timer impl) :
    t.readClock.now + t.readClock.elapsed.sum = t.now + t.elapsed.sum := by
  show t.now + (t.elapsed.headD 0 : Nat) + t.elapsed.tail.sum = _
  cases t.elapsed with
  | nil => simp
  | cons first rest =>
      simp only [List.headD_cons, List.tail_cons, List.sum_cons]
      omega

theorem Expiring.readClock {now : Int} (hExpiring : Expiring last now t) :
    Expiring last now t.readClock where
  intervals := hExpiring.intervals
  started := hExpiring.started
  reading := hExpiring.reading.trans t.quiet_readClock.now
  ends := by
    have hSum := elapsed_readClock t
    have hEnds := hExpiring.ends
    omega

/-- What is pushed back is not due at `now`. -/
theorem Expiring.later {now : Int} (hExpiring : Expiring last now t)
    {unit : TimerUnit Cb Owner} (hUnit : unit ∈ t.units)
    (hRepeats : unit.repeatInterval ≠ 0) :
    now < Chrono.int64.add t.readClock.now unit.repeatInterval := by
  obtain ⟨hNonneg, hFits⟩ := hExpiring.intervals unit hUnit
  have hRead := hExpiring.readClock
  have hStarted := hRead.started
  have hReading := hRead.reading
  have hEnds : t.readClock.now ≤ last := by
    have hSum := hRead.ends
    omega
  show now < int64 (t.readClock.now + unit.repeatInterval)
  rw [int64_of_fits (by omega) (by omega)]
  omega

theorem Expiring.again {now : Int} (hExpiring : Expiring last now t)
    (hTurn : t.expireTurn Chrono.int64 now = .again next) :
    Expiring last now next ∧ next.dueCount now < t.dueCount now := by
  refine ⟨?_, dueCount_of_later
    (fun unit hUnit _ hRepeats => hExpiring.later hUnit hRepeats) hTurn⟩
  have hExpired := expired Chrono.int64 now t
  rw [hTurn] at hExpired
  cases hExpired with
  | drops hPop | ends hPop =>
      exact { hExpiring with
        intervals := fun unit hUnit =>
          hExpiring.intervals unit (mem_units_of_pop hPop hUnit) }
  | repeats hPop =>
      have hInterval := hExpiring.intervals _ (popped_mem_units hPop)
      refine { hExpiring.readClock with
        intervals := fun other hOther => ?_ }
      rw [units, impl.items_push, Multiset.mem_cons] at hOther
      rcases hOther with rfl | hOther
      · exact hInterval
      · exact hExpiring.intervals other (mem_units_of_pop hPop hOther)

/-- Where all intervals fit, the callback ends. -/
theorem Intervals.wakeEnds (hIntervals : Intervals last t) {input : IoInput}
    (hEnd : t.now + input.elapsed.sum ≤ last) : t.WakeEnds input := by
  have hBegin : Expiring last t.now (t.begin input).readFd :=
    ⟨hIntervals.fits, hIntervals.started, le_rfl, hEnd⟩
  have hRead := hBegin.readClock
  unfold WakeEnds
  generalize hFuel : t.dueCount (t.wakeReading input) + 1 = fuel
  show ∃ next, (t.begin { input with fuel := fuel }).onExpire .int64 fuel = some next
  cases hPop : impl.pop t.timerQueue with
  | none =>
      exact ⟨_, onExpire_of_empty
        (t := t.begin { input with fuel := fuel }) hPop fuel⟩
  | some popped =>
      rw [onExpire_of_pop (t := t.begin { input with fuel := fuel }) hPop]
      have hStart : Expiring last (t.wakeReading input)
          (t.begin input).readFd.readClock :=
        { hRead with
          started := hRead.started.trans hRead.reading
          reading := le_rfl }
      refine loop_ends (fun s => s.dueCount (t.wakeReading input))
        (fun s s' hInv hTurn => hInv.again hTurn) hStart ?_
      rw [← hFuel]
      exact Nat.lt_succ_self _

/-! ## The loop does not end -/

/-- The only unit of the queue is due, and will be when it is pushed back. -/
structure Stuck (now interval : Int) (t : Timer impl) : Prop where
  only : ∃ unit, t.units = {unit} ∧ unit.timeStamp ≤ now ∧
    unit.repeatInterval = interval ∧ unit.timerId ∉ t.deleteTimerIds
  now_eq : t.now = now
  still : t.elapsed = []

theorem Stuck.readClock {now interval : Int} (hStuck : Stuck now interval t) :
    Stuck now interval t.readClock where
  only := hStuck.only
  now_eq := (now_readClock hStuck.still).trans hStuck.now_eq
  still := congrArg List.tail hStuck.still

theorem Stuck.again {now interval : Int} (hRepeats : interval ≠ 0)
    (hDue : Chrono.int64.add now interval ≤ now) (hStuck : Stuck now interval t) :
    ∃ next, t.expireTurn .int64 now = .again next ∧ Stuck now interval next := by
  obtain ⟨unit, hUnits, hStamp, rfl, hAlive⟩ := hStuck.only
  obtain ⟨rest, hPop, hRest⟩ := PriorityQueue.pop_of_items_eq_singleton hUnits
  have hNow : t.readClock.now = now := hStuck.readClock.now_eq
  have hInterval : unit.repeatInterval ≠ Chrono.int64.milliseconds 0 := hRepeats
  let again : TimerUnit Cb Owner :=
    { unit with timeStamp := Chrono.int64.add t.readClock.now unit.repeatInterval }
  have hTurn : t.expireTurn .int64 now = .again { t.readClock with
      timerQueue := impl.push rest again
      dispatched := t.dispatched ++ [⟨unit, now⟩] } := by
    simp only [expireTurn, hPop, if_neg (not_lt.mpr hStamp), if_neg hAlive,
      if_pos hInterval]
    rfl
  have hAgain : again.timeStamp ≤ now := by
    show Chrono.int64.add t.readClock.now unit.repeatInterval ≤ now
    rw [hNow]
    exact hDue
  have hOnly : impl.items (impl.push rest again) = {again} := by
    rw [impl.items_push, hRest]
    rfl
  exact ⟨_, hTurn,
    { hStuck.readClock with only := ⟨again, hOnly, hAgain, rfl, hAlive⟩ }⟩

/-- With such a unit the callback never ends. -/
theorem Stuck.wake {now interval : Int} (hRepeats : interval ≠ 0)
    (hDue : Chrono.int64.add now interval ≤ now)
    (hStuck : Stuck now interval (t.begin {}).readFd) (fuel : Nat) :
    step .int64 t (.wake { fuel := fuel }) = none := by
  obtain ⟨unit, hUnits, -⟩ := hStuck.only
  obtain ⟨rest, hPop, -⟩ := PriorityQueue.pop_of_items_eq_singleton hUnits
  show (t.begin { fuel := fuel }).onExpire .int64 fuel = none
  rw [onExpire_of_pop (t := t.begin { fuel := fuel }) hPop]
  have hStart : Stuck now interval (t.begin { fuel := fuel }).readFd.readClock :=
    hStuck.readClock
  rw [hStart.now_eq]
  exact loop_diverges (fun _ hInv => hInv.again hRepeats hDue) hStart fuel

/-- A repeat task is posted and executed at `start`. -/
theorem exists_run_repeating (impl : TimerQueue Cb Owner) (cb : Cb) (owner : Owner)
    (start : Int) (timeoutMs : Nat) :
    ∃ t : Timer impl, run (step .int64) (initial impl start)
        [.postRepeatTask cb owner timeoutMs, .post 0, .runTask {}] = some t ∧
      t.now = start ∧ (Chrono.int64.add start
          (Chrono.int64.milliseconds timeoutMs) ≤ start →
        Stuck start (Chrono.int64.milliseconds timeoutMs) (t.begin {}).readFd) := by
  let posted : Timer impl := { initial impl start with
    timerIdStart := 1
    tasks := [.postRepeat cb owner timeoutMs 1]
    posts := 1 }
  let queued : Timer impl := (posted.begin {}).pushUnit .int64 cb owner
    (Chrono.int64.milliseconds timeoutMs) (Chrono.int64.milliseconds timeoutMs) 1
  have hEmpty : (posted.begin {}).units = 0 := impl.items_empty
  obtain ⟨hUnits, hAlive, hNow⟩ := pushUnit_single .int64 hEmpty rfl cb owner
    (Chrono.int64.milliseconds timeoutMs) (Chrono.int64.milliseconds timeoutMs) 1
  refine ⟨{ queued with
    tasks := []
    ran := queued.ran ++ [.postRepeat cb owner timeoutMs 1] }, rfl, hNow,
    fun hDue => ?_⟩
  have hAlive' : 1 ∉ queued.deleteTimerIds := by
    rw [hAlive]
    exact Finset.notMem_empty 1
  exact
    { only := ⟨_, hUnits, hDue, rfl, hAlive'⟩
      now_eq := hNow
      still := rfl }

/-- An interval that does not fit is due again at once: without overflow if it is
negative, and otherwise at the last instant the clock shows. -/
theorem due_again_of_not_fits {interval : Int}
    (hLow : -9223372036854775808 ≤ interval)
    (hHigh : interval < 9223372036854775808) (hZero : 0 ≤ last)
    (hLast : last < 9223372036854775808) (hFits : ¬ IntervalFits last interval) :
    interval ≠ 0 ∧ ∃ start, 0 ≤ start ∧ start ≤ last ∧
      Chrono.int64.add start interval ≤ start := by
  have hCases : interval < 0 ∨ 9223372036854775808 ≤ interval + last := by
    unfold IntervalFits at hFits
    omega
  rcases hCases with hNegative | hOver
  · refine ⟨by omega, 0, le_rfl, hZero, ?_⟩
    show int64 (0 + interval) ≤ 0
    rw [int64_of_fits (by omega) (by omega)]
    omega
  · refine ⟨by omega, last, hZero, le_rfl, ?_⟩
    show int64 (last + interval) ≤ last
    rw [int64_of_exceeds (by omega) (by omega)]
    omega

/-- **The callback ends, in range.**  With a clock from zero to `last` and the
repeat timeouts of a set: in every run the callback ends, after one turn for each
due unit and one more, if and only if every timeout of the set makes an interval
that is not negative and does not overflow when it is added to `last`.  `cb` and
`owner` only say that there is something to post. -/
theorem alwaysEnds_iff (impl : TimerQueue Cb Owner) (cb : Cb) (owner : Owner)
    {last : Int} (hZero : 0 ≤ last) (hLast : last < 9223372036854775808)
    (Admitted : UInt64 → Prop) :
    AlwaysEnds impl last Admitted ↔ ∀ timeout, Admitted timeout →
      IntervalFits last (Chrono.int64.milliseconds timeout.toNat) := by
  constructor
  · intro hEnds timeout hAdmitted
    by_contra hFits
    obtain ⟨hLow, hHigh⟩ := int64_bounds (timeout.toNat * 1000000)
    rw [← milliseconds_eq] at hLow hHigh
    obtain ⟨hRepeats, start, hStart, hEnd, hDue⟩ :=
      due_again_of_not_fits hLow hHigh hZero hLast hFits
    obtain ⟨t, hRun, hNow, hStuck⟩ :=
      exists_run_repeating impl cb owner start timeout.toNat
    have hPosted : ∀ cb' owner' timeoutMs,
        TimerAction.postRepeatTask cb' owner' timeoutMs ∈
          [.postRepeatTask cb owner timeout.toNat, .post 0, .runTask {}] →
        ∃ timeout : UInt64, Admitted timeout ∧ timeoutMs = timeout.toNat := by
      intro cb' owner' timeoutMs hMem
      simp only [List.mem_cons, TimerAction.postRepeatTask.injEq, reduceCtorEq,
        List.not_mem_nil, or_false] at hMem
      exact ⟨timeout, hAdmitted, hMem.2.2⟩
    obtain ⟨next, hWake⟩ := hEnds start _ t hStart hPosted hRun {} (by
      rw [hNow]
      simpa using hEnd)
    rw [(hStuck hDue).wake hRepeats hDue] at hWake
    cases hWake
  · intro hFits start actions t hStart hPosted hRun input hEnd
    have hAllowed : ∀ action ∈ actions, RepeatFits last action := by
      intro action hMem
      cases action with
      | postRepeatTask cb owner timeoutMs =>
          obtain ⟨timeout, hAdmitted, rfl⟩ := hPosted cb owner timeoutMs hMem
          exact hFits timeout hAdmitted
      | postOnceTask | cancelTask | post | passes | fire | runTask | wake =>
          trivial
    exact (intervals_run hLast hStart hAllowed hRun).wakeEnds hEnd

/-- One second, and a clock up to `2 ^ 62`. -/
theorem alwaysEnds_second :
    AlwaysEnds (PriorityQueue.ofList TimerUnit.timeStamp : TimerQueue Nat Unit)
      4611686018427387904 (· = 1000) := by
  refine (alwaysEnds_iff _ 1 () (by decide) (by decide) _).mpr ?_
  rintro timeout rfl
  decide

/-- A task that is repeated after 9223372036855 milliseconds: its interval is
negative, and the first call of the callback never returns. -/
theorem alwaysEnds_fails :
    let impl : TimerQueue Nat Unit := PriorityQueue.ofList TimerUnit.timeStamp
    ∃ t : Timer impl, run (step .int64) (initial impl 0)
        [.postRepeatTask 1 () 9223372036855, .post 0, .runTask {}] = some t ∧
      t.now = 0 ∧ t.dueCount 0 = 1 ∧ t.deleteTimerIds = ∅ ∧
      (∀ fuel, step .int64 t (.wake { fuel := fuel }) = none) ∧
      ¬ t.WakeEnds {} := by
  intro impl
  obtain ⟨t, hRun, hNow, hStuck⟩ := exists_run_repeating impl 1 () 0 9223372036855
  have hNever := (hStuck (by decide)).wake (by decide) (by decide)
  have hOutcome : (run (step .int64) (initial impl 0)
      [.postRepeatTask 1 () 9223372036855, .post 0, .runTask {}]).any (fun t =>
        decide (t.dueCount 0 = 1 ∧ t.deleteTimerIds = ∅)) = true := by
    decide +kernel
  rw [hRun] at hOutcome
  obtain ⟨hDue, hAlive⟩ := of_decide_eq_true hOutcome
  refine ⟨t, hRun, hNow, hDue, hAlive, hNever, ?_⟩
  rintro ⟨next, hWake⟩
  rw [hNever] at hWake
  cases hWake

end Timer
end Timers
end KZEvent
