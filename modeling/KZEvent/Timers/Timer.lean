import KZEvent.Core.Errno
import KZEvent.Foundation.PriorityQueue
import KZEvent.Foundation.Run
import KZEvent.Foundation.While
import Mathlib.Algebra.Group.Nat.Defs
import Mathlib.Data.Finset.Erase
import Mathlib.Data.Finset.Insert

/-!
# Timers

A `Timer` keeps its units in a priority queue by their time stamps and wakes up by
a timerfd, which it arms for the smallest stamp.  Its functions post tasks to the
io thread, and the callback of the timerfd runs there too; what is due is handed
to the heavy thread.  A unit is cancelled by its id, which is only noted down, and
looked up when the unit is due.

Time is what `steady_clock` and `CLOCK_MONOTONIC` both show.  It passes between
the steps of the io thread and between the readings of the clock within a step:
`elapsed` says how much before each reading.  The conversions and the arithmetic
of `std::chrono` are a parameter; `Chrono.exact` is the arithmetic of integers.

The timer is alive in all of this: the tasks of a timer that was destroyed do
nothing, and its callback is not invoked.
-/

namespace KZEvent
namespace Timers

open KZEvent.Core Foundation

universe u

/-! ## The clock and the timerfd -/

/-- The operations of `std::chrono` on counts of nanoseconds: a duration of
milliseconds, and time points and durations added and subtracted. -/
structure Chrono where
  milliseconds : Nat → Int
  add : Int → Int → Int
  sub : Int → Int → Int

/-- Integers that do not overflow. -/
def Chrono.exact : Chrono where
  milliseconds timeoutMs := timeoutMs * 1000000
  add time duration := time + duration
  sub time other := time - other

/-- `it_value` of an `itimerspec`; `it_interval` is always zero. -/
structure ItimerSpec where
  tvSec : Int
  tvNsec : Int
deriving DecidableEq

/-- A one-shot timerfd: the instant it is armed for, and whether it expired and
was not read since. -/
structure TimerFd where
  armed : Option Int
  expired : Bool
deriving DecidableEq

/-- `timerfd_settime` at the instant `now`; zero disarms, and a pending expiry is
forgotten. -/
def TimerFd.settime (now : Int) (spec : ItimerSpec) : TimerFd where
  armed :=
    if spec.tvSec = 0 ∧ spec.tvNsec = 0 then none
    else some (now + (spec.tvSec * 1000000000 + spec.tvNsec))
  expired := false

/-! ## Units and tasks -/

/-- `TimerUnit`. -/
structure TimerUnit (Cb Owner : Type u) where
  cb : Cb
  owner : Owner
  timeStamp : Int
  repeatInterval : Int
  timerId : Nat
deriving DecidableEq

/-- A `TimerQueue`; units are ordered by their time stamps alone. -/
abbrev TimerQueue (Cb Owner : Type u) :=
  PriorityQueue (TimerUnit.timeStamp : TimerUnit Cb Owner → Int)

/-- The tasks a timer posts to the io thread. -/
inductive TimerTask (Cb Owner : Type u)
  | postOnce (cb : Cb) (owner : Owner) (timeoutMs timerId : Nat)
  | postRepeat (cb : Cb) (owner : Owner) (timeoutMs timerId : Nat)
  | cancel (timerId : Nat)
deriving DecidableEq

/-- What was handed to the heavy thread, and the reading of the clock that made it
due. -/
structure Dispatched (Cb Owner : Type u) where
  unit : TimerUnit Cb Owner
  now : Int
deriving DecidableEq

/-- A timer on the io thread.  `calls` are the calls that have their id and did
not post yet, and `tasks` is what they posted.  `posts` (how many posts there
were), `ran` (the executed tasks), `dispatched` and `written` (what was written to
the timerfd) are ghost fields. -/
structure Timer {Cb Owner : Type u} (impl : TimerQueue Cb Owner) where
  timerQueue : impl.Queue
  timerIdStart : Nat
  deleteTimerIds : Finset Nat
  timerFd : TimerFd
  now : Int
  elapsed : List Nat
  settimeFault : Option Errno
  calls : List (TimerTask Cb Owner)
  tasks : List (TimerTask Cb Owner)
  posts : Nat
  ran : List (TimerTask Cb Owner)
  dispatched : List (Dispatched Cb Owner)
  written : List ItimerSpec

/-- What the clock and the kernel do during one step of the io thread, and the
fuel of its loop. -/
structure IoInput where
  elapsed : List Nat := []
  settimeFault : Option Errno := none
  fuel : Nat := 0
deriving DecidableEq

inductive TimerAction (Cb Owner : Type u)
  | postOnceTask (cb : Cb) (owner : Owner) (timeoutMs : Nat)
  | postRepeatTask (cb : Cb) (owner : Owner) (timeoutMs : Nat)
  | cancelTask (timerId : Nat)
  | post (index : Nat)
  | passes (duration : Nat)
  | fire
  | runTask (input : IoInput)
  | wake (input : IoInput)
deriving DecidableEq

namespace Timer

variable {Cb Owner : Type u} {impl : TimerQueue Cb Owner}

/-- `make_timer`. -/
def initial (impl : TimerQueue Cb Owner) (now : Int) : Timer impl where
  timerQueue := impl.empty
  timerIdStart := 0
  deleteTimerIds := ∅
  timerFd := { armed := none, expired := false }
  now := now
  elapsed := []
  settimeFault := none
  calls := []
  tasks := []
  posts := 0
  ran := []
  dispatched := []
  written := []

/-! ## On the calling thread -/

/-- The next id; zero is skipped when the counter overflows. -/
def nextId (timerIdStart : Nat) : Nat :=
  let id := (timerIdStart + 1) % 2 ^ 64
  if id = 0 then (id + 1) % 2 ^ 64 else id

/-- `post_once_task` and `post_repeat_task` up to `post_io_task`. -/
def call (t : Timer impl) (task : Nat → TimerTask Cb Owner) : Timer impl :=
  let id := nextId t.timerIdStart
  { t with
    timerIdStart := id
    calls := t.calls ++ [task id]
    posts := t.posts + 1 }

/-! ## On the io thread -/

/-- Read the clock. -/
def readClock (t : Timer impl) : Timer impl :=
  { t with
    now := t.now + (t.elapsed.headD 0 : Nat)
    elapsed := t.elapsed.tail }

/-- What `set_next_wake_time` writes at the instant `now`. -/
def wakeSpec (chrono : Chrono) (time now : Int) : ItimerSpec :=
  let timeoutMs := (chrono.sub time now).tdiv 1000000
  if timeoutMs ≤ 0 then { tvSec := 0, tvNsec := 1 }
  else
    { tvSec := timeoutMs.tdiv 1000
      tvNsec := timeoutMs.tmod 1000 * 1000000 }

def setNextWakeTime (chrono : Chrono) (time : Int) (t : Timer impl) :
    Timer impl :=
  let t := t.readClock
  let spec := wakeSpec chrono time t.now
  match t.settimeFault with
  | some _ => { t with written := t.written ++ [spec] }
  | none =>
      { t with
        timerFd := .settime t.now spec
        written := t.written ++ [spec] }

/-- The task of `post_once_task` and of `post_repeat_task`. -/
def pushUnit (chrono : Chrono) (t : Timer impl) (cb : Cb) (owner : Owner)
    (timeout repeatInterval : Int) (timerId : Nat) : Timer impl :=
  let t := t.readClock
  let newTimeStamp := chrono.add t.now timeout
  let t := { t with
    timerQueue := impl.push t.timerQueue
      { cb := cb
        owner := owner
        timeStamp := newTimeStamp
        repeatInterval := repeatInterval
        timerId := timerId } }
  match impl.top t.timerQueue with
  | some first =>
      if first.timeStamp = newTimeStamp then t.setNextWakeTime chrono first.timeStamp
      else t
  | none => t

/-- Execute a task. -/
def exec (chrono : Chrono) (t : Timer impl) : TimerTask Cb Owner → Timer impl
  | .postOnce cb owner timeoutMs timerId =>
      t.pushUnit chrono cb owner (chrono.milliseconds timeoutMs)
        (chrono.milliseconds 0) timerId
  | .postRepeat cb owner timeoutMs timerId =>
      t.pushUnit chrono cb owner (chrono.milliseconds timeoutMs)
        (chrono.milliseconds timeoutMs) timerId
  | .cancel timerId => { t with deleteTimerIds := insert timerId t.deleteTimerIds }

/-- One turn of the loop of the timerfd's callback, which read the clock as
`now`. -/
def expireTurn (chrono : Chrono) (now : Int) (t : Timer impl) :
    Turn (Timer impl) :=
  match impl.pop t.timerQueue with
  | none => .done t
  | some (timer, rest) =>
      if now < timer.timeStamp then
        .done (t.setNextWakeTime chrono timer.timeStamp)
      else if timer.timerId ∈ t.deleteTimerIds then
        .again { t with
          deleteTimerIds := t.deleteTimerIds.erase timer.timerId
          timerQueue := rest }
      else if timer.repeatInterval ≠ chrono.milliseconds 0 then
        let t := t.readClock
        .again { t with
          timerQueue := impl.push rest
            { timer with timeStamp := chrono.add t.now timer.repeatInterval }
          dispatched := t.dispatched ++ [{ unit := timer, now := now }] }
      else
        .again { t with
          timerQueue := rest
          dispatched := t.dispatched ++ [{ unit := timer, now := now }] }

/-- Read the timerfd until it has nothing more. -/
def readFd (t : Timer impl) : Timer impl :=
  { t with timerFd := { t.timerFd with expired := false } }

/-- The callback of the timerfd: read it, and hand over what is due. -/
def onExpire (chrono : Chrono) (fuel : Nat) (t : Timer impl) :
    Option (Timer impl) :=
  let t := t.readFd
  match impl.pop t.timerQueue with
  | none => some t
  | some _ =>
      let t := t.readClock
      loop (expireTurn chrono t.now) fuel t

/-! ## Steps -/

/-- The io thread begins a step. -/
def begin (t : Timer impl) (input : IoInput) : Timer impl :=
  { t with elapsed := input.elapsed, settimeFault := input.settimeFault }

def step (chrono : Chrono) (t : Timer impl) :
    TimerAction Cb Owner → Option (Timer impl)
  | .postOnceTask cb owner timeoutMs =>
      some (t.call (.postOnce cb owner timeoutMs))
  | .postRepeatTask cb owner timeoutMs =>
      some (t.call (.postRepeat cb owner timeoutMs))
  | .cancelTask timerId => some { t with calls := t.calls ++ [.cancel timerId] }
  | .post index =>
      (t.calls[index]?).map fun task =>
        { t with calls := t.calls.eraseIdx index, tasks := t.tasks ++ [task] }
  | .passes duration => some { t with now := t.now + (duration : Nat) }
  | .fire =>
      -- The kernel lets an armed timerfd expire, sooner or later.
      match t.timerFd.armed with
      | some instant =>
          if instant ≤ t.now then
            some { t with timerFd := { armed := none, expired := true } }
          else none
      | none => none
  | .runTask input =>
      match t.tasks with
      | [] => none
      | task :: tasks =>
          let t := (t.begin input).exec chrono task
          some { t with tasks := tasks, ran := t.ran ++ [task] }
  | .wake input => (t.begin input).onExpire chrono input.fuel

end Timer
end Timers
end KZEvent
