import KZEvent.Timers.Timer
import Mathlib.Logic.Relation

/-!
# What a step of a timer changes

The queue, the ids and what was handed over change in few ways: an id is taken, a
task is posted and executed, a unit that was cancelled is dropped, a due unit is
handed over, and a repeated one is queued again.  Everything else that happens in
a step concerns the clock and the timerfd.  A wake-up is a sequence of such
changes, as long as there are due units.

So an invariant of the queue, the ids and what was handed over that each change
preserves holds at the end of every run.
-/

namespace KZEvent
namespace Timers

open Foundation

universe u

variable {Cb Owner : Type u} {impl : TimerQueue Cb Owner} {chrono : Chrono}

namespace TimerTask

/-- The id of a posted timer. -/
def postId : TimerTask Cb Owner → Option Nat
  | .postOnce _ _ _ timerId | .postRepeat _ _ _ timerId => some timerId
  | .cancel _ => none

/-- The unit a task queues when its reading of the clock is `now`. -/
def unit (chrono : Chrono) (now : Int) : TimerTask Cb Owner →
    Option (TimerUnit Cb Owner)
  | .postOnce cb owner timeoutMs timerId =>
      some ⟨cb, owner, chrono.add now (chrono.milliseconds timeoutMs),
        chrono.milliseconds 0, timerId⟩
  | .postRepeat cb owner timeoutMs timerId =>
      some ⟨cb, owner, chrono.add now (chrono.milliseconds timeoutMs),
        chrono.milliseconds timeoutMs, timerId⟩
  | .cancel _ => none

end TimerTask

namespace Timer

variable {t next : Timer impl}

/-- The units in the queue. -/
def units (t : Timer impl) : Multiset (TimerUnit Cb Owner) :=
  impl.items t.timerQueue

/-- Time passes, and the timerfd may change; nothing else does. -/
structure Quiet (t next : Timer impl) : Prop where
  timerQueue : next.timerQueue = t.timerQueue
  timerIdStart : next.timerIdStart = t.timerIdStart
  deleteTimerIds : next.deleteTimerIds = t.deleteTimerIds
  calls : next.calls = t.calls
  tasks : next.tasks = t.tasks
  posts : next.posts = t.posts
  ran : next.ran = t.ran
  dispatched : next.dispatched = t.dispatched
  now : t.now ≤ next.now

/-- A change of the queue, the ids or what was handed over; `guard` is what the
steps of the run meet. -/
inductive Change (chrono : Chrono)
    (guard : Timer impl → TimerAction Cb Owner → Prop) (t : Timer impl) :
    Timer impl → Prop
  | quiet {next : Timer impl} (hQuiet : Quiet t next) : Change chrono guard t next
  | postsOnce (cb : Cb) (owner : Owner) (timeoutMs : Nat)
      (hGuard : guard t (.postOnceTask cb owner timeoutMs)) :
      Change chrono guard t (t.call (.postOnce cb owner timeoutMs))
  | postsRepeat (cb : Cb) (owner : Owner) (timeoutMs : Nat)
      (hGuard : guard t (.postRepeatTask cb owner timeoutMs)) :
      Change chrono guard t (t.call (.postRepeat cb owner timeoutMs))
  | asks (timerId : Nat) :
      Change chrono guard t { t with calls := t.calls ++ [.cancel timerId] }
  | posts {index : Nat} {task : TimerTask Cb Owner}
      (hTask : t.calls[index]? = some task) :
      Change chrono guard t { t with
        calls := t.calls.eraseIdx index
        tasks := t.tasks ++ [task] }
  | queues {task : TimerTask Cb Owner} {tasks : List (TimerTask Cb Owner)}
      {unit : TimerUnit Cb Owner} (hTasks : t.tasks = task :: tasks)
      (hUnit : task.unit chrono t.now = some unit) :
      Change chrono guard t { t with
        timerQueue := impl.push t.timerQueue unit
        tasks := tasks
        ran := t.ran ++ [task] }
  | cancels {timerId : Nat} {tasks : List (TimerTask Cb Owner)} {input : IoInput}
      (hTasks : t.tasks = .cancel timerId :: tasks)
      (hGuard : guard t (.runTask input)) :
      Change chrono guard t { t with
        deleteTimerIds := insert timerId t.deleteTimerIds
        tasks := tasks
        ran := t.ran ++ [.cancel timerId] }
  | drops {unit : TimerUnit Cb Owner} {rest : impl.Queue}
      (hPop : impl.pop t.timerQueue = some (unit, rest))
      (hDeleted : unit.timerId ∈ t.deleteTimerIds) :
      Change chrono guard t { t with
        deleteTimerIds := t.deleteTimerIds.erase unit.timerId
        timerQueue := rest }
  | repeats {unit : TimerUnit Cb Owner} {rest : impl.Queue} {now : Int}
      (hPop : impl.pop t.timerQueue = some (unit, rest))
      (hDue : unit.timeStamp ≤ now) (hNow : now ≤ t.now)
      (hAlive : unit.timerId ∉ t.deleteTimerIds)
      (hRepeats : unit.repeatInterval ≠ chrono.milliseconds 0) :
      Change chrono guard t { t with
        timerQueue := impl.push rest
          { unit with timeStamp := chrono.add t.now unit.repeatInterval }
        dispatched := t.dispatched ++ [{ unit := unit, now := now }] }
  | ends {unit : TimerUnit Cb Owner} {rest : impl.Queue} {now : Int}
      (hPop : impl.pop t.timerQueue = some (unit, rest))
      (hDue : unit.timeStamp ≤ now) (hNow : now ≤ t.now)
      (hAlive : unit.timerId ∉ t.deleteTimerIds)
      (hOnce : unit.repeatInterval = chrono.milliseconds 0) :
      Change chrono guard t { t with
        timerQueue := rest
        dispatched := t.dispatched ++ [{ unit := unit, now := now }] }

/-! ## The clock and the timerfd -/

theorem quiet_begin (t : Timer impl) (input : IoInput) : Quiet t (t.begin input) :=
  ⟨rfl, rfl, rfl, rfl, rfl, rfl, rfl, rfl, le_rfl⟩

theorem quiet_readClock (t : Timer impl) : Quiet t t.readClock :=
  ⟨rfl, rfl, rfl, rfl, rfl, rfl, rfl, rfl,
    Int.le_add_of_nonneg_right (Int.natCast_nonneg _)⟩

theorem quiet_readFd (t : Timer impl) : Quiet t t.readFd :=
  ⟨rfl, rfl, rfl, rfl, rfl, rfl, rfl, rfl, le_rfl⟩

theorem quiet_setNextWakeTime (t : Timer impl) (time : Int) :
    Quiet t (t.setNextWakeTime chrono time) := by
  have hRead := t.quiet_readClock
  unfold setNextWakeTime
  dsimp only
  split <;> exact ⟨rfl, rfl, rfl, rfl, rfl, rfl, rfl, rfl, hRead.now⟩

theorem Quiet.trans {later : Timer impl} (hQuiet : Quiet t next)
    (hLater : Quiet next later) : Quiet t later where
  timerQueue := hLater.timerQueue.trans hQuiet.timerQueue
  timerIdStart := hLater.timerIdStart.trans hQuiet.timerIdStart
  deleteTimerIds := hLater.deleteTimerIds.trans hQuiet.deleteTimerIds
  calls := hLater.calls.trans hQuiet.calls
  tasks := hLater.tasks.trans hQuiet.tasks
  posts := hLater.posts.trans hQuiet.posts
  ran := hLater.ran.trans hQuiet.ran
  dispatched := hLater.dispatched.trans hQuiet.dispatched
  now := hQuiet.now.trans hLater.now

/-! ## Steps as changes -/

/-- Any number of changes. -/
def Changes (chrono : Chrono) (guard : Timer impl → TimerAction Cb Owner → Prop) :
    Timer impl → Timer impl → Prop :=
  Relation.ReflTransGen (Change chrono guard)

variable {guard : Timer impl → TimerAction Cb Owner → Prop}

theorem Changes.quiet (hQuiet : Quiet t next) : Changes chrono guard t next :=
  .single (.quiet hQuiet)

theorem Quiet.withTask (hQuiet : Quiet t next) (tasks ran : List (TimerTask Cb Owner)) :
    Quiet { t with tasks := tasks, ran := ran }
      { next with tasks := tasks, ran := ran } :=
  ⟨hQuiet.timerQueue, hQuiet.timerIdStart, hQuiet.deleteTimerIds, hQuiet.calls, rfl,
    hQuiet.posts, rfl, hQuiet.dispatched, hQuiet.now⟩

/-- Queueing a unit: the queue takes it, and the rest is quiet. -/
theorem quiet_pushUnit (chrono : Chrono) (t : Timer impl) (cb : Cb) (owner : Owner)
    (timeout repeatInterval : Int) (timerId : Nat) :
    Quiet
      { t.readClock with
        timerQueue := impl.push t.timerQueue
          ⟨cb, owner, chrono.add t.readClock.now timeout, repeatInterval, timerId⟩ }
      (t.pushUnit chrono cb owner timeout repeatInterval timerId) := by
  unfold pushUnit
  dsimp only
  split
  · split
    · exact quiet_setNextWakeTime _ _
    · exact ⟨rfl, rfl, rfl, rfl, rfl, rfl, rfl, rfl, le_rfl⟩
  · exact ⟨rfl, rfl, rfl, rfl, rfl, rfl, rfl, rfl, le_rfl⟩

/-- While no time passes, the clock shows one instant. -/
theorem now_readClock (hElapsed : t.elapsed = []) : t.readClock.now = t.now := by
  show t.now + (t.elapsed.headD 0 : Nat) = t.now
  rw [hElapsed]
  exact Int.add_zero _

theorem now_setNextWakeTime (hElapsed : t.elapsed = []) (time : Int) :
    (t.setNextWakeTime chrono time).now = t.now := by
  rw [← now_readClock hElapsed]
  unfold setNextWakeTime
  dsimp only
  split <;> rfl

theorem now_pushUnit (hElapsed : t.elapsed = []) (cb : Cb) (owner : Owner)
    (timeout repeatInterval : Int) (timerId : Nat) :
    (t.pushUnit chrono cb owner timeout repeatInterval timerId).now = t.now := by
  have hRead : t.readClock.elapsed = [] := by
    show t.elapsed.tail = []
    rw [hElapsed]
    rfl
  have hNow := now_readClock hElapsed
  unfold pushUnit
  dsimp only
  split
  · split
    · rw [now_setNextWakeTime]
      · exact hNow
      · exact hRead
    · exact hNow
  · exact hNow

/-- A unit is queued in an empty queue, at the instant the clock shows. -/
theorem pushUnit_single (chrono : Chrono) (hUnits : t.units = 0)
    (hElapsed : t.elapsed = []) (cb : Cb) (owner : Owner)
    (timeout repeatInterval : Int) (timerId : Nat) :
    let next := t.pushUnit chrono cb owner timeout repeatInterval timerId
    next.units = {⟨cb, owner, chrono.add t.now timeout, repeatInterval, timerId⟩} ∧
      next.deleteTimerIds = t.deleteTimerIds ∧ next.now = t.now := by
  intro next
  have hQuiet := quiet_pushUnit chrono t cb owner timeout repeatInterval timerId
  refine ⟨?_, hQuiet.deleteTimerIds, now_pushUnit hElapsed _ _ _ _ _⟩
  show impl.items _ = _
  rw [hQuiet.timerQueue, impl.items_push, now_readClock hElapsed]
  exact congrArg _ hUnits

/-- A task is one change, and the clock. -/
theorem changes_runTask {task : TimerTask Cb Owner}
    {tasks : List (TimerTask Cb Owner)} {input : IoInput}
    (hTasks : t.tasks = task :: tasks) (hGuard : guard t (.runTask input)) :
    Changes chrono guard t
      { (t.begin input).exec chrono task with
        tasks := tasks
        ran := t.ran ++ [task] } := by
  have hRead : Quiet t (t.begin input).readClock :=
    (t.quiet_begin input).trans (quiet_readClock _)
  cases task with
  | postOnce cb owner timeoutMs timerId =>
      have hQueues : Change chrono guard (t.begin input).readClock _ :=
        .queues hTasks rfl
      have hArms := (quiet_pushUnit chrono (t.begin input) cb owner
        (chrono.milliseconds timeoutMs) (chrono.milliseconds 0) timerId).withTask tasks
          (t.ran ++ [.postOnce cb owner timeoutMs timerId])
      exact ((Changes.quiet hRead).tail hQueues).tail (.quiet hArms)
  | postRepeat cb owner timeoutMs timerId =>
      have hQueues : Change chrono guard (t.begin input).readClock _ :=
        .queues hTasks rfl
      have hArms := (quiet_pushUnit chrono (t.begin input) cb owner
        (chrono.milliseconds timeoutMs) (chrono.milliseconds timeoutMs)
          timerId).withTask tasks (t.ran ++ [.postRepeat cb owner timeoutMs timerId])
      exact ((Changes.quiet hRead).tail hQueues).tail (.quiet hArms)
  | cancel timerId =>
      have hCancels : Change chrono guard t _ := .cancels hTasks hGuard
      exact (Relation.ReflTransGen.single hCancels).tail
        (.quiet ⟨rfl, rfl, rfl, rfl, rfl, rfl, rfl, rfl, le_rfl⟩)

/-- What one turn of the loop does. -/
inductive Expired (chrono : Chrono) (now : Int) (t : Timer impl) :
    Turn (Timer impl) → Prop
  | empty (hPop : impl.pop t.timerQueue = none) : Expired chrono now t (.done t)
  | early {unit : TimerUnit Cb Owner} {rest : impl.Queue}
      (hPop : impl.pop t.timerQueue = some (unit, rest))
      (hEarly : now < unit.timeStamp) :
      Expired chrono now t (.done (t.setNextWakeTime chrono unit.timeStamp))
  | drops {unit : TimerUnit Cb Owner} {rest : impl.Queue}
      (hPop : impl.pop t.timerQueue = some (unit, rest))
      (hDue : unit.timeStamp ≤ now) (hDeleted : unit.timerId ∈ t.deleteTimerIds) :
      Expired chrono now t (.again { t with
        deleteTimerIds := t.deleteTimerIds.erase unit.timerId
        timerQueue := rest })
  | repeats {unit : TimerUnit Cb Owner} {rest : impl.Queue}
      (hPop : impl.pop t.timerQueue = some (unit, rest))
      (hDue : unit.timeStamp ≤ now) (hAlive : unit.timerId ∉ t.deleteTimerIds)
      (hRepeats : unit.repeatInterval ≠ chrono.milliseconds 0) :
      Expired chrono now t (.again { t.readClock with
        timerQueue := impl.push rest
          { unit with timeStamp := chrono.add t.readClock.now unit.repeatInterval }
        dispatched := t.dispatched ++ [{ unit := unit, now := now }] })
  | ends {unit : TimerUnit Cb Owner} {rest : impl.Queue}
      (hPop : impl.pop t.timerQueue = some (unit, rest))
      (hDue : unit.timeStamp ≤ now) (hAlive : unit.timerId ∉ t.deleteTimerIds)
      (hOnce : unit.repeatInterval = chrono.milliseconds 0) :
      Expired chrono now t (.again { t with
        timerQueue := rest
        dispatched := t.dispatched ++ [{ unit := unit, now := now }] })

theorem expired (chrono : Chrono) (now : Int) (t : Timer impl) :
    Expired chrono now t (t.expireTurn chrono now) := by
  unfold expireTurn
  split
  · exact .empty ‹_›
  · rename_i unit rest hPop
    split
    · exact .early hPop ‹_›
    · rename_i hEarly
      have hDue : unit.timeStamp ≤ now := not_lt.mp hEarly
      split
      · exact .drops hPop hDue ‹_›
      · split
        · exact .repeats hPop hDue ‹_› ‹_›
        · rename_i hOnce
          exact .ends hPop hDue ‹_› (not_not.mp hOnce)

/-- A turn that goes on is a change, and no time is lost. -/
theorem changes_again {now : Int} (hNow : now ≤ t.now)
    (hTurn : t.expireTurn chrono now = .again next) :
    Changes chrono guard t next ∧ now ≤ next.now := by
  have hExpired := expired chrono now t
  rw [hTurn] at hExpired
  cases hExpired with
  | drops hPop hDue hDeleted => exact ⟨.single (.drops hPop hDeleted), hNow⟩
  | repeats hPop hDue hAlive hRepeats =>
      have hRead := t.quiet_readClock
      have hNow' : now ≤ t.readClock.now := hNow.trans hRead.now
      exact ⟨(Changes.quiet hRead).tail (.repeats hPop hDue hNow' hAlive hRepeats),
        hNow'⟩
  | ends hPop hDue hAlive hOnce =>
      exact ⟨.single (.ends hPop hDue hNow hAlive hOnce), hNow⟩

theorem changes_done {now : Int} (hTurn : t.expireTurn chrono now = .done next) :
    Changes chrono guard t next := by
  have hExpired := expired chrono now t
  rw [hTurn] at hExpired
  cases hExpired with
  | empty hPop => exact .refl
  | early hPop hEarly => exact .quiet (quiet_setNextWakeTime t _)

theorem onExpire_of_empty (hPop : impl.pop t.timerQueue = none) (fuel : Nat) :
    t.onExpire chrono fuel = some t.readFd := by
  have hPop' : impl.pop t.readFd.timerQueue = none := hPop
  unfold onExpire
  dsimp only
  rw [hPop']

theorem onExpire_of_pop {popped : TimerUnit Cb Owner × impl.Queue}
    (hPop : impl.pop t.timerQueue = some popped) (fuel : Nat) :
    t.onExpire chrono fuel =
      loop (expireTurn chrono t.readFd.readClock.now) fuel t.readFd.readClock := by
  have hPop' : impl.pop t.readFd.timerQueue = some popped := hPop
  unfold onExpire
  dsimp only
  rw [hPop']

/-- A wake-up is a sequence of changes. -/
theorem changes_onExpire {fuel : Nat} (hWake : t.onExpire chrono fuel = some next) :
    Changes chrono guard t next := by
  cases hPop : impl.pop t.timerQueue with
  | none =>
      rw [onExpire_of_empty hPop] at hWake
      obtain rfl := Option.some.inj hWake
      exact .quiet t.quiet_readFd
  | some popped =>
      rw [onExpire_of_pop hPop] at hWake
      have hRead := t.quiet_readFd.trans (quiet_readClock _)
      generalize t.readFd.readClock = read at hWake hRead
      have hAgain (s s' : Timer impl)
          (hInv : Changes chrono guard t s ∧ read.now ≤ s.now)
          (hTurn : s.expireTurn chrono read.now = .again s') :
          Changes chrono guard t s' ∧ read.now ≤ s'.now := by
        obtain ⟨hChanges, hNow⟩ := changes_again hInv.2 hTurn
        exact ⟨hInv.1.trans hChanges, hNow⟩
      have hDone (s s' : Timer impl)
          (hInv : Changes chrono guard t s ∧ read.now ≤ s.now)
          (hTurn : s.expireTurn chrono read.now = .done s') :
          Changes chrono guard t s' := hInv.1.trans (changes_done hTurn)
      exact loop_rule hAgain hDone ⟨.quiet hRead, le_rfl⟩ hWake

/-- **Every step of a timer is a sequence of changes.** -/
theorem step_changes {action : TimerAction Cb Owner} (hGuard : guard t action)
    (hStep : step chrono t action = some next) : Changes chrono guard t next := by
  cases action with
  | postOnceTask cb owner timeoutMs =>
      obtain rfl := Option.some.inj hStep
      exact .single (.postsOnce cb owner timeoutMs hGuard)
  | postRepeatTask cb owner timeoutMs =>
      obtain rfl := Option.some.inj hStep
      exact .single (.postsRepeat cb owner timeoutMs hGuard)
  | cancelTask timerId =>
      obtain rfl := Option.some.inj hStep
      exact .single (.asks timerId)
  | post index =>
      obtain ⟨task, hTask, rfl⟩ := Option.map_eq_some_iff.mp hStep
      exact .single (.posts hTask)
  | passes duration =>
      obtain rfl := Option.some.inj hStep
      exact .quiet ⟨rfl, rfl, rfl, rfl, rfl, rfl, rfl, rfl,
        Int.le_add_of_nonneg_right (Int.natCast_nonneg _)⟩
  | fire =>
      simp only [step] at hStep
      split at hStep
      · split at hStep
        · obtain rfl := Option.some.inj hStep
          exact .quiet ⟨rfl, rfl, rfl, rfl, rfl, rfl, rfl, rfl, le_rfl⟩
        · cases hStep
      · cases hStep
  | runTask input =>
      simp only [step] at hStep
      split at hStep
      · cases hStep
      · rename_i task tasks hTasks
        obtain rfl := Option.some.inj hStep
        have hRan : ((t.begin input).exec chrono task).ran = t.ran := by
          cases task with
          | postOnce | postRepeat =>
              simp only [exec, pushUnit]
              split
              · split
                · exact (quiet_setNextWakeTime _ _).ran
                · rfl
              · rfl
          | cancel => rfl
        rw [hRan]
        exact changes_runTask hTasks hGuard
  | wake input =>
      exact (Changes.quiet (t.quiet_begin input)).trans (changes_onExpire hStep)

/-! ## Runs -/

/-- **Change rule.**  An invariant that each change preserves holds at the end of
every run. -/
theorem run_changes {Inv : Timer impl → Prop}
    (hChange : ∀ t next, Inv t → Change chrono guard t next → Inv next)
    {actions : List (TimerAction Cb Owner)} (hInitial : Inv t)
    (hGuard : Guarded (step chrono) guard t actions)
    (hRun : run (step chrono) t actions = some next) : Inv next := by
  have hStep (s : Timer impl) (action : TimerAction Cb Owner) (s' : Timer impl)
      (hInv : Inv s) (hGuard : guard s action)
      (hStep : step chrono s action = some s') : Inv s' := by
    have hChanges := step_changes hGuard hStep
    clear hStep
    induction hChanges with
    | refl => exact hInv
    | tail _ hLast ih => exact hChange _ _ ih hLast
  exact run_invariant hStep hInitial hGuard hRun

end Timer
end Timers
end KZEvent
