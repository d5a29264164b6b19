import KZEvent.Timers.DueOrder
import KZEvent.Timers.Chrono64

/-!
# No timer is early

Beside a timer runs a record of the units it queued: the timeout the task was
posted with, and the reading of the clock the time stamp was computed from.  In
64 bits the stamp is the reading and the timeout, exactly, for timeouts of less
than `2 ^ 62` nanoseconds and a clock up to `2 ^ 62`; with any larger timeout
there is a run in which the unit is handed over too early.
-/

namespace KZEvent
namespace Timers

open KZEvent.Core Foundation

universe u

variable {Cb Owner : Type u} {impl : TimerQueue Cb Owner}

/-! ## What was queued, and when -/

/-- A unit as it was queued. -/
structure Queueing (Cb Owner : Type u) where
  unit : TimerUnit Cb Owner
  timeoutMs : Nat
  reading : Int
deriving DecidableEq

/-- What executing a task queues when its reading of the clock is `now`. -/
def TimerTask.queueings (chrono : Chrono) (now : Int)
    (task : TimerTask Cb Owner) : List (Queueing Cb Owner) :=
  match task.unit chrono now, task with
  | some unit, .postOnce _ _ timeoutMs _
  | some unit, .postRepeat _ _ timeoutMs _ => [⟨unit, timeoutMs, now⟩]
  | _, _ => []

/-- A timer and the record of what it queued. -/
structure Recorded {Cb Owner : Type u} (impl : TimerQueue Cb Owner) where
  timer : Timer impl
  queueings : List (Queueing Cb Owner)

namespace Recorded

def initial (impl : TimerQueue Cb Owner) (now : Int) : Recorded impl :=
  ⟨Timer.initial impl now, []⟩

section Steps

variable [DecidableEq Cb] [DecidableEq Owner]

/-- What the next turn of the expiry loop queues again: the first unit, if it is
not cancelled and has an interval, under the timeout it was queued with. -/
def requeueings (chrono : Chrono) (r : Recorded impl) :
    List (Queueing Cb Owner) :=
  match impl.pop r.timer.timerQueue with
  | none => []
  | some (unit, _) =>
      if unit.timerId ∈ r.timer.deleteTimerIds then []
      else if unit.repeatInterval = chrono.milliseconds 0 then []
      else
        let now := r.timer.readClock.now
        let again := { unit with timeStamp := chrono.add now unit.repeatInterval }
        (r.queueings.filter (·.unit = unit)).map fun queueing =>
          ⟨again, queueing.timeoutMs, now⟩

/-- A turn of the expiry loop, recorded. -/
def expireTurn (chrono : Chrono) (now : Int) (r : Recorded impl) :
    Turn (Recorded impl) :=
  match r.timer.expireTurn chrono now with
  | .done t => .done { r with timer := t }
  | .again t => .again ⟨t, r.queueings ++ r.requeueings chrono⟩

/-- The callback of the timerfd, recorded. -/
def onExpire (chrono : Chrono) (fuel : Nat) (r : Recorded impl) :
    Option (Recorded impl) :=
  let t := r.timer.readFd
  match impl.pop t.timerQueue with
  | none => some { r with timer := t }
  | some _ =>
      let t := t.readClock
      loop (expireTurn chrono t.now) fuel { r with timer := t }

/-- A step of the timer, recorded. -/
def step (chrono : Chrono) (r : Recorded impl) :
    TimerAction Cb Owner → Option (Recorded impl)
  | .wake input =>
      onExpire chrono input.fuel { r with timer := r.timer.begin input }
  | .runTask input =>
      let queued := match r.timer.tasks with
        | [] => []
        | task :: _ => task.queueings chrono (r.timer.begin input).readClock.now
      (r.timer.step chrono (.runTask input)).map fun t =>
        ⟨t, r.queueings ++ queued⟩
  | action => (r.timer.step chrono action).map fun t => { r with timer := t }

/-! ## The record changes nothing -/

theorem expireTurn_map (chrono : Chrono) (now : Int) (r : Recorded impl) :
    (r.expireTurn chrono now).map timer = r.timer.expireTurn chrono now := by
  unfold expireTurn
  cases r.timer.expireTurn chrono now with
  | again t => rfl
  | done t => rfl

theorem onExpire_map (chrono : Chrono) (fuel : Nat) (r : Recorded impl) :
    (r.onExpire chrono fuel).map timer = r.timer.onExpire chrono fuel := by
  unfold onExpire Timer.onExpire
  dsimp only
  cases impl.pop r.timer.readFd.timerQueue with
  | none => rfl
  | some popped => exact loop_map timer (expireTurn_map chrono _) fuel _

/-- A recorded step is a step of the timer. -/
theorem step_map (chrono : Chrono) (r : Recorded impl)
    (action : TimerAction Cb Owner) :
    (r.step chrono action).map timer = r.timer.step chrono action := by
  cases action with
  | wake input => exact onExpire_map chrono input.fuel _
  | runTask input =>
      simp only [step, Option.map_map]
      exact Option.map_id'
  | postOnceTask | postRepeatTask | cancelTask | post | passes | fire =>
      simp only [step, Option.map_map]
      exact Option.map_id'

/-- **The record is one of the timer's run**, and every run has one. -/
theorem run_timer (chrono : Chrono) (r : Recorded impl)
    (actions : List (TimerAction Cb Owner)) :
    (run (step chrono) r actions).map timer =
      run (Timer.step chrono) r.timer actions :=
  run_map timer (step_map chrono) r actions

end Steps

/-! ## Stamps and readings -/

/-- What the record says about the units that are queued and that were handed
over, in a run that began at `start`. -/
structure Logged (chrono : Chrono) (start : Int) (r : Recorded impl) : Prop where
  queued : ∀ unit ∈ r.timer.units, ∃ queueing ∈ r.queueings, queueing.unit = unit
  handed : ∀ d ∈ r.timer.dispatched, d.unit.timeStamp ≤ d.now ∧
    ∃ queueing ∈ r.queueings, queueing.unit = d.unit
  stamps : ∀ queueing ∈ r.queueings,
    queueing.unit.timeStamp =
        chrono.add queueing.reading (chrono.milliseconds queueing.timeoutMs) ∧
      (queueing.unit.repeatInterval = chrono.milliseconds 0 ∨
        queueing.unit.repeatInterval = chrono.milliseconds queueing.timeoutMs)
  readings : ∀ queueing ∈ r.queueings,
    start ≤ queueing.reading ∧ queueing.reading ≤ r.timer.now
  started : start ≤ r.timer.now

variable {chrono : Chrono} {start : Int} {r : Recorded impl} {t : Timer impl}

theorem logged_initial (chrono : Chrono) (impl : TimerQueue Cb Owner)
    (start : Int) : Logged chrono start (initial impl start) where
  queued unit hUnit := by
    rw [Timer.units, initial, Timer.initial, impl.items_empty] at hUnit
    exact absurd hUnit (Multiset.notMem_zero _)
  handed := nofun
  stamps := nofun
  readings := nofun
  started := le_rfl

/-- Nothing is queued and nothing handed over, and time passes. -/
theorem Logged.passes (hLogged : Logged chrono start r)
    (hUnits : ∀ unit ∈ t.units, unit ∈ r.timer.units)
    (hDispatched : t.dispatched = r.timer.dispatched)
    (hNow : r.timer.now ≤ t.now) :
    Logged chrono start { r with timer := t } where
  queued unit hUnit := hLogged.queued unit (hUnits unit hUnit)
  handed d hMem := hLogged.handed d (hDispatched ▸ hMem)
  stamps := hLogged.stamps
  readings queueing hMem := by
    obtain ⟨hStart, hReading⟩ := hLogged.readings queueing hMem
    exact ⟨hStart, hReading.trans hNow⟩
  started := hLogged.started.trans hNow

theorem Logged.quiet (hLogged : Logged chrono start r)
    (hQuiet : Timer.Quiet r.timer t) :
    Logged chrono start { r with timer := t } := by
  refine hLogged.passes (fun unit hUnit => ?_) hQuiet.dispatched hQuiet.now
  rw [Timer.units, hQuiet.timerQueue] at hUnit
  exact hUnit

/-- Queueings with the right stamps and the reading of this instant are added. -/
theorem Logged.logs (hLogged : Logged chrono start r)
    (more : List (Queueing Cb Owner))
    (hStamps : ∀ queueing ∈ more,
      queueing.unit.timeStamp =
          chrono.add queueing.reading (chrono.milliseconds queueing.timeoutMs) ∧
        (queueing.unit.repeatInterval = chrono.milliseconds 0 ∨
          queueing.unit.repeatInterval = chrono.milliseconds queueing.timeoutMs))
    (hReadings : ∀ queueing ∈ more, queueing.reading = r.timer.now) :
    Logged chrono start { r with queueings := r.queueings ++ more } where
  queued unit hUnit := by
    obtain ⟨queueing, hMem, hSame⟩ := hLogged.queued unit hUnit
    exact ⟨queueing, List.mem_append_left _ hMem, hSame⟩
  handed d hMem := by
    obtain ⟨hDue, queueing, hLog, hSame⟩ := hLogged.handed d hMem
    exact ⟨hDue, queueing, List.mem_append_left _ hLog, hSame⟩
  stamps queueing hMem := by
    rcases List.mem_append.mp hMem with hOld | hNew
    · exact hLogged.stamps queueing hOld
    · exact hStamps queueing hNew
  readings queueing hMem := by
    rcases List.mem_append.mp hMem with hOld | hNew
    · exact hLogged.readings queueing hOld
    · rw [hReadings queueing hNew]
      exact ⟨hLogged.started, le_rfl⟩
  started := hLogged.started

/-- A unit that is in the record is queued. -/
theorem Logged.pushes (hLogged : Logged chrono start r)
    {unit : TimerUnit Cb Owner}
    (hUnit : ∃ queueing ∈ r.queueings, queueing.unit = unit)
    (hUnits : t.units = unit ::ₘ r.timer.units)
    (hDispatched : t.dispatched = r.timer.dispatched) (hNow : t.now = r.timer.now) :
    Logged chrono start { r with timer := t } where
  queued other hOther := by
    rw [hUnits, Multiset.mem_cons] at hOther
    rcases hOther with rfl | hOther
    · exact hUnit
    · exact hLogged.queued other hOther
  handed d hMem := hLogged.handed d (hDispatched ▸ hMem)
  stamps := hLogged.stamps
  readings queueing hMem := by
    rw [hNow]
    exact hLogged.readings queueing hMem
  started := hNow ▸ hLogged.started

/-- A due unit of the queue is handed over. -/
theorem Logged.hands (hLogged : Logged chrono start r)
    {unit : TimerUnit Cb Owner} {now : Int} (hUnit : unit ∈ r.timer.units)
    (hDue : unit.timeStamp ≤ now)
    (hUnits : ∀ other ∈ t.units, other ∈ r.timer.units)
    (hDispatched : t.dispatched = r.timer.dispatched ++ [⟨unit, now⟩])
    (hNow : r.timer.now = t.now) :
    Logged chrono start { r with timer := t } where
  queued other hOther := hLogged.queued other (hUnits other hOther)
  handed d hMem := by
    rw [hDispatched] at hMem
    rcases List.mem_append.mp hMem with hOld | hNew
    · exact hLogged.handed d hOld
    · obtain rfl := List.mem_singleton.mp hNew
      exact ⟨hDue, hLogged.queued unit hUnit⟩
  stamps := hLogged.stamps
  readings queueing hMem := by
    rw [← hNow]
    exact hLogged.readings queueing hMem
  started := hNow ▸ hLogged.started

/-! ## Every step keeps the record right -/

/-- A task queues what the record of it says, and nothing else. -/
theorem queueings_of_unit {task : TimerTask Cb Owner}
    {unit : TimerUnit Cb Owner} {now : Int}
    (hUnit : task.unit chrono now = some unit) :
    ∃ timeoutMs, task.queueings chrono now = [⟨unit, timeoutMs, now⟩] ∧
      unit.timeStamp = chrono.add now (chrono.milliseconds timeoutMs) ∧
      (unit.repeatInterval = chrono.milliseconds 0 ∨
        unit.repeatInterval = chrono.milliseconds timeoutMs) := by
  cases task with
  | postOnce cb owner timeoutMs timerId =>
      obtain rfl := Option.some.inj hUnit
      exact ⟨timeoutMs, rfl, rfl, .inl rfl⟩
  | postRepeat cb owner timeoutMs timerId =>
      obtain rfl := Option.some.inj hUnit
      exact ⟨timeoutMs, rfl, rfl, .inr rfl⟩
  | cancel timerId => cases hUnit

/-- The task of a post: the clock is read, the unit is queued, and the timerfd may
be armed. -/
theorem Logged.pushUnit (hLogged : Logged chrono start r)
    (task : TimerTask Cb Owner) {cb : Cb} {owner : Owner}
    {timeout repeatInterval : Int} {timerId : Nat}
    (hUnit : task.unit chrono r.timer.readClock.now =
      some ⟨cb, owner, chrono.add r.timer.readClock.now timeout, repeatInterval,
        timerId⟩) :
    Logged chrono start
      ⟨r.timer.pushUnit chrono cb owner timeout repeatInterval timerId,
        r.queueings ++ task.queueings chrono r.timer.readClock.now⟩ := by
  obtain ⟨timeoutMs, hQueueings, hStamp, hInterval⟩ := queueings_of_unit hUnit
  have hRead := hLogged.quiet r.timer.quiet_readClock
  rw [hQueueings]
  have hLogs := hRead.logs [⟨_, timeoutMs, r.timer.readClock.now⟩]
    (List.forall_mem_singleton.mpr ⟨hStamp, hInterval⟩)
    (List.forall_mem_singleton.mpr rfl)
  have hPushes := hLogs.pushes (t := { r.timer.readClock with
      timerQueue := impl.push r.timer.timerQueue _ })
    ⟨_, List.mem_append_right _ List.mem_cons_self, rfl⟩
    (impl.items_push _ _) rfl rfl
  exact hPushes.quiet (Timer.quiet_pushUnit chrono r.timer cb owner timeout
    repeatInterval timerId)

section Steps

variable [DecidableEq Cb] [DecidableEq Owner]

/-- What a turn queues again has the interval of what was handed over. -/
theorem Logged.requeues (hLogged : Logged chrono start r)
    {unit : TimerUnit Cb Owner} {rest : impl.Queue}
    (hPop : impl.pop r.timer.timerQueue = some (unit, rest))
    (hAlive : unit.timerId ∉ r.timer.deleteTimerIds)
    (hRepeats : unit.repeatInterval ≠ chrono.milliseconds 0) :
    Logged chrono start
        ⟨r.timer.readClock, r.queueings ++ r.requeueings chrono⟩ ∧
      ∃ queueing ∈ r.queueings ++ r.requeueings chrono, queueing.unit =
        { unit with
          timeStamp := chrono.add r.timer.readClock.now unit.repeatInterval } := by
  have hRequeueings : r.requeueings chrono =
      (r.queueings.filter (·.unit = unit)).map fun queueing =>
        ⟨{ unit with
            timeStamp := chrono.add r.timer.readClock.now unit.repeatInterval },
          queueing.timeoutMs, r.timer.readClock.now⟩ := by
    simp only [requeueings, hPop, if_neg hAlive, if_neg hRepeats]
  have hRead := hLogged.quiet r.timer.quiet_readClock
  refine ⟨hRead.logs _ (fun queueing hMem => ?_) fun queueing hMem => ?_, ?_⟩
  · rw [hRequeueings] at hMem
    obtain ⟨earlier, hEarlier, rfl⟩ := List.mem_map.mp hMem
    obtain ⟨hOld, hSame⟩ := List.mem_filter.mp hEarlier
    obtain rfl : earlier.unit = unit := of_decide_eq_true hSame
    -- It repeats, so its interval is the timeout it was posted with.
    have hInterval := (hLogged.stamps earlier hOld).2.resolve_left hRepeats
    exact ⟨congrArg (chrono.add _) hInterval, .inr hInterval⟩
  · rw [hRequeueings] at hMem
    obtain ⟨earlier, -, rfl⟩ := List.mem_map.mp hMem
    rfl
  · obtain ⟨earlier, hOld, hSame⟩ :=
      hLogged.queued unit (Timer.popped_mem_units hPop)
    have hFound : earlier ∈ r.queueings.filter (·.unit = unit) :=
      List.mem_filter.mpr ⟨hOld, decide_eq_true hSame⟩
    rw [hRequeueings]
    exact ⟨_, List.mem_append_right _ (List.mem_map_of_mem hFound), rfl⟩

/-- A turn that queues nothing again adds nothing to the record. -/
theorem requeueings_eq_nil {unit : TimerUnit Cb Owner} {rest : impl.Queue}
    (hPop : impl.pop r.timer.timerQueue = some (unit, rest))
    (hNone : unit.timerId ∈ r.timer.deleteTimerIds ∨
      unit.repeatInterval = chrono.milliseconds 0) :
    r.requeueings chrono = [] := by
  simp only [requeueings, hPop]
  split_ifs with hDeleted hOnce
  · rfl
  · rfl
  · exact absurd hNone (not_or.mpr ⟨hDeleted, hOnce⟩)

/-- A turn of the expiry loop keeps the record right. -/
theorem Logged.turn (hLogged : Logged chrono start r) {now : Int}
    {next : Recorded impl} (hTurn : r.expireTurn chrono now = .again next ∨
      r.expireTurn chrono now = .done next) : Logged chrono start next := by
  have hExpired := Timer.expired chrono now r.timer
  unfold expireTurn at hTurn
  generalize hTimer : r.timer.expireTurn chrono now = turn at hExpired hTurn
  cases hExpired with
  | empty hPop =>
      obtain rfl : _ = next := by simpa using hTurn
      exact hLogged
  | early hPop hEarly =>
      obtain rfl : _ = next := by simpa using hTurn
      exact hLogged.quiet (Timer.quiet_setNextWakeTime _ _)
  | drops hPop hDue hDeleted =>
      obtain rfl : _ = next := by simpa using hTurn
      rw [requeueings_eq_nil hPop (.inl hDeleted), List.append_nil]
      exact hLogged.passes (fun _ hUnit => Timer.mem_units_of_pop hPop hUnit) rfl
        le_rfl
  | repeats hPop hDue hAlive hRepeats =>
      obtain rfl : _ = next := by simpa using hTurn
      obtain ⟨hLogs, hUnit⟩ := hLogged.requeues hPop hAlive hRepeats
      -- It is handed over first, and then pushed again.
      have hHands := hLogs.hands (Timer.popped_mem_units hPop) hDue
        (fun _ hOther => Timer.mem_units_of_pop hPop hOther)
        (t := { r.timer.readClock with
          timerQueue := _
          dispatched := r.timer.dispatched ++ [⟨_, now⟩] }) rfl rfl
      exact hHands.pushes hUnit (impl.items_push _ _) rfl rfl
  | ends hPop hDue hAlive hOnce =>
      obtain rfl : _ = next := by simpa using hTurn
      rw [requeueings_eq_nil hPop (.inr hOnce), List.append_nil]
      exact hLogged.hands (Timer.popped_mem_units hPop) hDue
        (fun _ hOther => Timer.mem_units_of_pop hPop hOther) rfl rfl

theorem Logged.onExpire (hLogged : Logged chrono start r) {fuel : Nat}
    {next : Recorded impl} (hWake : r.onExpire chrono fuel = some next) :
    Logged chrono start next := by
  have hRead := hLogged.quiet r.timer.quiet_readFd
  unfold Recorded.onExpire at hWake
  dsimp only at hWake
  split at hWake
  · obtain rfl := Option.some.inj hWake
    exact hRead
  · have hStart := hRead.quiet (Timer.quiet_readClock _)
    have hAgain (now : Int) (s s' : Recorded impl) (hInv : Logged chrono start s)
        (hTurn : s.expireTurn chrono now = .again s') : Logged chrono start s' :=
      hInv.turn (.inl hTurn)
    have hDone (now : Int) (s s' : Recorded impl) (hInv : Logged chrono start s)
        (hTurn : s.expireTurn chrono now = .done s') : Logged chrono start s' :=
      hInv.turn (.inr hTurn)
    exact loop_rule (hAgain _) (hDone _) hStart hWake

theorem Logged.runTask (hLogged : Logged chrono start r) {input : IoInput}
    {next : Recorded impl} (hStep : r.step chrono (.runTask input) = some next) :
    Logged chrono start next := by
  have hBegin := hLogged.quiet (r.timer.quiet_begin input)
  obtain ⟨t, hTimer, rfl⟩ := Option.map_eq_some_iff.mp hStep
  simp only [Timer.step] at hTimer
  cases hTasks : r.timer.tasks with
  | nil =>
      rw [hTasks] at hTimer
      cases hTimer
  | cons task tasks =>
      rw [hTasks] at hTimer
      obtain rfl := Option.some.inj hTimer
      cases task with
      | postOnce cb owner timeoutMs timerId =>
          have hPush := hBegin.pushUnit
            (.postOnce cb owner timeoutMs timerId) rfl
          exact hPush.passes (fun _ hUnit => hUnit) rfl le_rfl
      | postRepeat cb owner timeoutMs timerId =>
          have hPush := hBegin.pushUnit
            (.postRepeat cb owner timeoutMs timerId) rfl
          exact hPush.passes (fun _ hUnit => hUnit) rfl le_rfl
      | cancel timerId =>
          have hNone : r.queueings ++ (TimerTask.cancel timerId).queueings chrono
              (r.timer.begin input).readClock.now = r.queueings :=
            List.append_nil _
          dsimp only
          rw [hNone]
          exact hBegin.passes (fun _ hUnit => hUnit) rfl le_rfl

/-- **The record is right at the end of every step.** -/
theorem Logged.step (hLogged : Logged chrono start r)
    {action : TimerAction Cb Owner} {next : Recorded impl}
    (hStep : r.step chrono action = some next) : Logged chrono start next := by
  cases action with
  | wake input =>
      exact (hLogged.quiet (r.timer.quiet_begin input)).onExpire hStep
  | runTask input => exact hLogged.runTask hStep
  | postOnceTask | postRepeatTask | cancelTask =>
      obtain rfl := Option.some.inj hStep
      exact hLogged.passes (fun _ hUnit => hUnit) rfl le_rfl
  | post index =>
      obtain ⟨t, hTimer, rfl⟩ := Option.map_eq_some_iff.mp hStep
      obtain ⟨task, -, rfl⟩ := Option.map_eq_some_iff.mp hTimer
      exact hLogged.passes (fun _ hUnit => hUnit) rfl le_rfl
  | passes duration =>
      obtain rfl := Option.some.inj hStep
      exact hLogged.passes (fun _ hUnit => hUnit) rfl
        (Int.le_add_of_nonneg_right (Int.natCast_nonneg _))
  | fire =>
      obtain ⟨t, hTimer, rfl⟩ := Option.map_eq_some_iff.mp hStep
      simp only [Timer.step] at hTimer
      split at hTimer
      · split at hTimer
        · obtain rfl := Option.some.inj hTimer
          exact hLogged.passes (fun _ hUnit => hUnit) rfl le_rfl
        · cases hTimer
      · cases hTimer

theorem logged_run {actions : List (TimerAction Cb Owner)}
    (hRun : run (step chrono) (initial impl start) actions = some r) :
    Logged chrono start r :=
  run_keeps (fun _ _ _ hLogged hStep => hLogged.step hStep)
    (logged_initial chrono impl start) hRun

end Steps

/-! ## A run in which a unit is handed over as soon as its stamp allows -/

section Steps

variable [DecidableEq Cb] [DecidableEq Owner]

/-- Handing over the only unit of a queue, a due one that is not repeated. -/
theorem wake_single {unit : TimerUnit Cb Owner}
    (hUnits : r.timer.units = {unit}) (hDue : unit.timeStamp ≤ r.timer.now)
    (hAlive : r.timer.deleteTimerIds = ∅)
    (hOnce : unit.repeatInterval = chrono.milliseconds 0) :
    ∃ next : Recorded impl, r.step chrono (.wake { fuel := 2 }) = some next ∧
      next.timer.now = r.timer.now ∧ next.queueings = r.queueings ∧
      next.timer.dispatched = r.timer.dispatched ++ [⟨unit, r.timer.now⟩] := by
  obtain ⟨rest, hPop, hRest⟩ := PriorityQueue.pop_of_items_eq_singleton hUnits
  have hEmpty := PriorityQueue.pop_of_items_eq_zero hRest
  have hAlive' : unit.timerId ∉ r.timer.deleteTimerIds := by
    rw [hAlive]
    exact Finset.notMem_empty _
  -- The callback reads the clock once; no time passes.
  let read := (r.timer.begin { fuel := 2 }).readFd.readClock
  have hNow : read.now = r.timer.now := Int.add_zero _
  have hNotEarly : ¬ read.now < unit.timeStamp := by
    rw [hNow]
    exact not_lt.mpr hDue
  let handed : Timer impl := { read with
    timerQueue := rest
    dispatched := r.timer.dispatched ++ [⟨unit, read.now⟩] }
  have hFirst : expireTurn chrono read.now ⟨read, r.queueings⟩ =
      .again ⟨handed, r.queueings⟩ := by
    have hPop' : impl.pop read.timerQueue = some (unit, rest) := hPop
    have hReadAlive : unit.timerId ∉ read.deleteTimerIds := hAlive'
    have hNone : requeueings chrono ⟨read, r.queueings⟩ = [] :=
      requeueings_eq_nil hPop' (.inr hOnce)
    simp only [expireTurn, Timer.expireTurn, hPop', if_neg hNotEarly,
      if_neg hReadAlive, hOnce, ne_eq, not_true_eq_false, if_false, hNone,
      List.append_nil]
    rfl
  have hLast : expireTurn chrono read.now ⟨handed, r.queueings⟩ =
      .done ⟨handed, r.queueings⟩ := by
    have hPop' : impl.pop handed.timerQueue = none := hEmpty
    simp only [expireTurn, Timer.expireTurn, hPop']
  have hLoop : loop (expireTurn chrono read.now) 2 ⟨read, r.queueings⟩ =
      some ⟨handed, r.queueings⟩ := by
    simp only [loop, hFirst, hLast]
  have hStep : r.step chrono (.wake { fuel := 2 }) =
      some ⟨handed, r.queueings⟩ := by
    have hPop' : impl.pop (r.timer.begin { fuel := 2 }).readFd.timerQueue =
        some (unit, rest) := hPop
    simp only [step, onExpire, hPop']
    exact hLoop
  refine ⟨_, hStep, hNow, rfl, ?_⟩
  show r.timer.dispatched ++ [⟨unit, read.now⟩] = _
  rw [hNow]

/-- A once task is posted and executed at `start`; `delay` later, when the stamp
of its unit is reached, the callback runs. -/
theorem exists_run_handing (impl : TimerQueue Cb Owner) (chrono : Chrono) (cb : Cb)
    (owner : Owner) {start : Int} {delay timeoutMs : Nat}
    (hDue : chrono.add start (chrono.milliseconds timeoutMs) ≤ start + delay) :
    ∃ (actions : List (TimerAction Cb Owner)) (r : Recorded impl),
      run (step chrono) (initial impl start) actions = some r ∧
      r.timer.now = start + delay ∧
      ∃ queueing ∈ r.queueings, queueing.timeoutMs = timeoutMs ∧
        queueing.reading = start ∧
        ⟨queueing.unit, start + delay⟩ ∈ r.timer.dispatched := by
  let unit : TimerUnit Cb Owner :=
    ⟨cb, owner, chrono.add start (chrono.milliseconds timeoutMs),
      chrono.milliseconds 0, 1⟩
  let posted : Timer impl := { Timer.initial impl start with
    timerIdStart := 1
    tasks := [.postOnce cb owner timeoutMs 1]
    posts := 1 }
  let queued : Timer impl := (posted.begin {}).pushUnit chrono cb owner
    (chrono.milliseconds timeoutMs) (chrono.milliseconds 0) 1
  let pushed : Timer impl := { queued with
    tasks := []
    ran := queued.ran ++ [.postOnce cb owner timeoutMs 1] }
  have hReading : (posted.begin {}).readClock.now = start :=
    Timer.now_readClock rfl
  have hEmpty : (posted.begin {}).units = 0 := impl.items_empty
  obtain ⟨hUnits, hAlive, hNow⟩ := Timer.pushUnit_single chrono hEmpty rfl cb owner
    (chrono.milliseconds timeoutMs) (chrono.milliseconds 0) 1
  let queueing : Queueing Cb Owner := ⟨unit, timeoutMs, start⟩
  let waited : Recorded impl := ⟨{ pushed with now := start + delay }, [queueing]⟩
  obtain ⟨next, hWake, hNextNow, hQueueings, hNext⟩ :=
    wake_single (r := waited) hUnits hDue hAlive rfl
  have hRun : run (step chrono) (initial impl start)
      [.postOnceTask cb owner timeoutMs, .post 0, .runTask {}, .passes delay,
        .wake { fuel := 2 }] = some next := by
    have hQueued : (TimerTask.postOnce cb owner timeoutMs 1).queueings chrono
        (posted.begin {}).readClock.now = [queueing] := by
      rw [hReading]
      rfl
    have hTask : step chrono ⟨posted, []⟩ (.runTask {}) =
        some ⟨pushed, [queueing]⟩ :=
      congrArg (fun queueings => some (⟨pushed, queueings⟩ : Recorded impl)) hQueued
    have hPassed : step chrono ⟨pushed, [queueing]⟩ (.passes delay) =
        some waited := by
      show some (⟨{ pushed with now := queued.now + delay }, _⟩ : Recorded impl) = _
      rw [hNow]
      rfl
    exact run_cons_eq_some_iff.mpr ⟨_, rfl, run_cons_eq_some_iff.mpr
      ⟨⟨posted, []⟩, rfl, run_cons_eq_some_iff.mpr ⟨_, hTask,
        run_cons_eq_some_iff.mpr ⟨_, hPassed,
          run_cons_eq_some_iff.mpr ⟨next, hWake, rfl⟩⟩⟩⟩⟩
  refine ⟨_, next, hRun, hNextNow, queueing, ?_, rfl, rfl, ?_⟩
  · rw [hQueueings]
    exact List.mem_cons_self
  · rw [hNext]
    exact List.mem_append_right _ List.mem_cons_self

/-! ## Which timeouts are safe -/

/-- With a clock between zero and `2 ^ 62`, what is handed over was queued, and if
with this timeout, then the timeout has passed since the reading of the clock it
was queued with. -/
def NeverEarly (impl : TimerQueue Cb Owner) (timeout : UInt64) : Prop :=
  ∀ (start : Int) (actions : List (TimerAction Cb Owner)) (r : Recorded impl),
    0 ≤ start → run (step .int64) (initial impl start) actions = some r →
    r.timer.now ≤ 4611686018427387904 →
    ∀ d ∈ r.timer.dispatched,
      (∃ queueing ∈ r.queueings, queueing.unit = d.unit) ∧
      ∀ queueing ∈ r.queueings, queueing.unit = d.unit →
        queueing.timeoutMs = timeout.toNat →
        queueing.reading + timeout.toNat * 1000000 ≤ d.now

theorem neverEarly_of_fits {timeout : UInt64}
    (hFits : timeout.toNat * 1000000 < 4611686018427387904) :
    NeverEarly impl timeout := by
  intro start actions r hStart hRun hEnd d hMem
  have hLogged := logged_run hRun
  refine ⟨(hLogged.handed d hMem).2, fun queueing hQueueing hUnit hTimeout => ?_⟩
  obtain ⟨hFirst, hReading⟩ := hLogged.readings queueing hQueueing
  have hStamp := (hLogged.stamps queueing hQueueing).1
  have hDue := (hLogged.handed d hMem).1
  rw [hTimeout, milliseconds_of_fits hFits] at hStamp
  -- Neither the scaling nor the sum overflows: the stamp is exact.
  have hExact : Chrono.int64.add queueing.reading (timeout.toNat * 1000000) =
      queueing.reading + timeout.toNat * 1000000 :=
    int64_of_fits (by omega) (by omega)
  rw [← hExact, ← hStamp, hUnit]
  exact hDue

/-- A stamp that is reached before the timeout has passed. -/
theorem not_neverEarly {timeout : UInt64} (cb : Cb) (owner : Owner) {start : Int}
    {delay : Nat} (hStart : 0 ≤ start)
    (hEnd : start + delay ≤ 4611686018427387904)
    (hDue : Chrono.int64.add start (Chrono.int64.milliseconds timeout.toNat) ≤
      start + delay)
    (hEarly : delay < timeout.toNat * 1000000) : ¬ NeverEarly impl timeout := by
  intro hNever
  obtain ⟨actions, r, hRun, hNow, queueing, hQueueing, hTimeout, hReading, hMem⟩ :=
    exists_run_handing impl .int64 cb owner hDue
  have hLate : queueing.reading + timeout.toNat * 1000000 ≤ start + delay :=
    (hNever start actions r hStart hRun (hNow ▸ hEnd) _ hMem).2 queueing hQueueing
      rfl hTimeout
  rw [hReading] at hLate
  omega

/-- **Timers are never early, in range.**  For every queue and every timeout: no
unit posted with the timeout is ever handed over early, in any run, if and only if
the timeout is less than `2 ^ 62` nanoseconds.  `cb` and `owner` only say that there
is something to post. -/
theorem neverEarly_iff (impl : TimerQueue Cb Owner) (cb : Cb) (owner : Owner)
    (timeout : UInt64) :
    NeverEarly impl timeout ↔
      timeout.toNat * 1000000 < 4611686018427387904 := by
  refine ⟨fun hNever => ?_, neverEarly_of_fits⟩
  by_contra hLarge
  have hDuration := milliseconds_eq timeout.toNat
  obtain ⟨hLow, hHigh⟩ := int64_bounds (timeout.toNat * 1000000)
  generalize hWrapped : int64 (timeout.toNat * 1000000) = wrapped at *
  by_cases hNegative : wrapped < 0
  · -- The unit is due at once.
    have hPast : Chrono.int64.add 0 (Chrono.int64.milliseconds timeout.toNat) ≤
        0 + (0 : Nat) := by
      rw [hDuration]
      show int64 (0 + wrapped) ≤ 0 + (0 : Nat)
      rw [int64_of_fits (by omega) (by omega)]
      omega
    exact not_neverEarly cb owner le_rfl (by decide) hPast (by omega) hNever
  · by_cases hBeyond : 4611686018427387904 < wrapped
    · -- The sum overflows when the clock is at its end.
      have hOver : Chrono.int64.add 4611686018427387904
            (Chrono.int64.milliseconds timeout.toNat) ≤
          4611686018427387904 + (0 : Nat) := by
        rw [hDuration]
        show int64 (4611686018427387904 + wrapped) ≤ 4611686018427387904 + (0 : Nat)
        rw [int64_of_exceeds (by omega) (by omega)]
        omega
      exact not_neverEarly cb owner (by decide) (by omega) hOver (by omega) hNever
    · -- The unit is due too early, as the timeout was taken modulo `2 ^ 64`.
      have hTaken : Chrono.int64.add 0 (Chrono.int64.milliseconds timeout.toNat) ≤
          0 + (wrapped.toNat : Nat) := by
        rw [hDuration]
        show int64 (0 + wrapped) ≤ 0 + (wrapped.toNat : Nat)
        rw [int64_of_fits (by omega) (by omega)]
        omega
      have hEnd : 0 + (wrapped.toNat : Int) ≤ 4611686018427387904 := by omega
      have hEarly : wrapped.toNat < timeout.toNat * 1000000 := by omega
      exact not_neverEarly cb owner le_rfl hEnd hTaken hEarly hNever

end Steps

/-- A task that is posted for 9223372036855 milliseconds ahead, some 292 years, is
handed over one nanosecond later. -/
theorem neverEarly_fails :
    let impl : TimerQueue Nat Unit := PriorityQueue.ofList TimerUnit.timeStamp
    ∃ (r : Recorded impl), run (step .int64) (initial impl 0)
        [.postOnceTask 1 () 9223372036855, .post 0, .runTask {}, .passes 1, .fire,
          .wake { fuel := 2 }] = some r ∧
      r.timer.now = 1 ∧ r.timer.dispatched.map (·.now) = [1] ∧
      r.queueings.map (fun q => (q.unit, q.timeoutMs, q.reading)) =
        r.timer.dispatched.map (fun d => (d.unit, 9223372036855, 0)) ∧
      ¬ NeverEarly impl 9223372036855 := by
  intro impl
  have hOutcome : (run (step .int64) (initial impl 0)
      [.postOnceTask 1 () 9223372036855, .post 0, .runTask {}, .passes 1, .fire,
        .wake { fuel := 2 }]).any (fun r => decide (r.timer.now = 1 ∧
          r.timer.dispatched.map (·.now) = [1] ∧
          r.queueings.map (fun q => (q.unit, q.timeoutMs, q.reading)) =
            r.timer.dispatched.map (fun d => (d.unit, 9223372036855, 0)))) =
              true := by
    decide +kernel
  obtain ⟨r, hRun, hView⟩ := (Option.any_eq_true _ _).mp hOutcome
  obtain ⟨hNow, hHanded, hQueued⟩ := of_decide_eq_true hView
  have hPast : Chrono.int64.add 0
      (Chrono.int64.milliseconds (9223372036855 : UInt64).toNat) ≤ 0 + (0 : Nat) := by
    decide
  have hEarly : ¬ NeverEarly impl 9223372036855 :=
    not_neverEarly 1 () le_rfl (by decide) hPast (by decide)
  exact ⟨r, hRun, hNow, hHanded, hQueued, hEarly⟩

end Recorded

end Timers
end KZEvent
