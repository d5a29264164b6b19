import KZEvent.Foundation.DoubleBuffer
import Mathlib.Algebra.Group.Nat.Defs

/-!
# The executor threads and their wake-ups

`io_executor` and `heavy_executor` as step functions with an explicit program
counter, next to what other threads can do to them: push a task under the lock
of the queue, wake the executor, join a thread that has ended, start a new one.

The io executor is woken through an eventfd in the epoll set.  The set is edge
triggered: only a successful write makes the eventfd ready again, and
`epoll_wait` reports it once for that.  The heavy executor is woken through a
condition variable, whose notification is lost on a thread that is not blocked.
-/

namespace KZEvent
namespace Core

open Foundation

variable {Task : Type*}

/-- `Loop::ExeState`. -/
inductive ExeState
  | Stopped
  | Running
  | Stopping
deriving DecidableEq

/-! ## The io executor -/

/-- `io_wake_fd_`: its counter, and whether a write made it ready since
`epoll_wait` last reported it. -/
structure EventFd where
  counter : Nat
  edge : Bool
deriving DecidableEq

namespace EventFd

/-- The largest value of the counter. -/
def maxCounter : Nat := 2 ^ 64 - 2

/-- Write a one.  A write that would exceed the largest value fails with
`EAGAIN`, which `wake_io_up` ignores. -/
def write (fd : EventFd) : EventFd :=
  if fd.counter < maxCounter then
    { counter := fd.counter + 1, edge := true }
  else
    fd

/-- `epoll_wait` returns it. -/
def Ready (fd : EventFd) : Prop := fd.edge = true ∧ 0 < fd.counter

instance (fd : EventFd) : Decidable fd.Ready :=
  inferInstanceAs (Decidable (_ ∧ _))

end EventFd

/-- An event of a batch: of `io_wake_fd_`, or of another descriptor. -/
inductive LoopEvent
  | wake
  | other
deriving DecidableEq

/-- Where `io_executor` is.  `dead` means that `io_thread_` is not joinable. -/
inductive IoPc
  | dead
  | test
  | waiting
  | scan (events : List LoopEvent)
  | inCallback (events : List LoopEvent)
  | reading (events : List LoopEvent)
  | swapping (events : List LoopEvent)
  | running (events : List LoopEvent)
  | inTask (events : List LoopEvent)
  | finished
deriving DecidableEq

namespace IoPc

/-- The events of the current batch that have not been looked at. -/
def events : IoPc → List LoopEvent
  | scan events | inCallback events | reading events | swapping events
  | running events | inTask events => events
  | dead | test | waiting | finished => []

/-- The thread has ended, or there is none. -/
def Ended (pc : IoPc) : Prop := pc = dead ∨ pc = finished

/-- A task or a callback is at work on the io thread. -/
def InBody : IoPc → Prop
  | inCallback _ | inTask _ => True
  | _ => False

/-- The tasks of the io queue are being executed. -/
def Executing : IoPc → Prop
  | running _ | inTask _ => True
  | _ => False

/-- The eventfd is being read, or was read and the swap is next. -/
def Taking : IoPc → Prop
  | reading _ | swapping _ => True
  | _ => False

/-- The event of the eventfd is in the batch at hand or being dealt with, and
the counter is still to be read. -/
def Announces (pc : IoPc) : Prop :=
  .wake ∈ pc.events ∨ ∃ events, pc = reading events

instance (pc : IoPc) : Decidable pc.Ended :=
  inferInstanceAs (Decidable (_ ∨ _))

instance (pc : IoPc) : Decidable pc.InBody :=
  match pc with
  | inCallback _ | inTask _ => .isTrue trivial
  | dead | test | waiting | scan _ | reading _ | swapping _ | running _
  | finished => .isFalse id

end IoPc

/-- What the kernel and the table decide in a step of the io thread: the batch
`epoll_wait` returns (`none` for `EINTR`), and whether a callback is installed
for the event at hand. -/
structure IoInput where
  batch : Option (List LoopEvent) := none
  hasCb : Bool := false
deriving DecidableEq

/-- The io thread, its queue, its eventfd, and the number of threads between
their push and their wake-up in `post_io_task`. -/
structure IoSide (Task : Type*) where
  pc : IoPc
  queue : DoubleBuffer Task
  wakeFd : EventFd
  posters : Nat

namespace IoSide

def initial : IoSide Task where
  pc := .dead
  queue := .empty
  wakeFd := { counter := 0, edge := false }
  posters := 0

/-- `post_io_task`, under the lock. -/
def push (s : IoSide Task) (task : Task) : IoSide Task :=
  { s with queue := s.queue.push task, posters := s.posters + 1 }

/-- `wake_io_up`. -/
def wakeIoUp (s : IoSide Task) : IoSide Task :=
  { s with wakeFd := s.wakeFd.write }

/-- The second half of `post_io_task`. -/
def pushed (s : IoSide Task) : Option (IoSide Task) :=
  if 0 < s.posters then
    some { s.wakeIoUp with posters := s.posters - 1 }
  else
    none

/-- `epoll_wait` returns a batch.  The eventfd is in it at most once, and only
when it is ready. -/
def deliver (s : IoSide Task) (events : List LoopEvent) :
    Option (IoSide Task) :=
  if LoopEvent.wake ∈ events then
    if events.count .wake = 1 ∧ s.wakeFd.Ready then
      some { s with pc := .scan events, wakeFd := { s.wakeFd with edge := false } }
    else
      none
  else
    some { s with pc := .scan events }

/-- One step of `io_executor`.  A task or a callback does not return while a
call it made (`calling`) is in progress. -/
def step (exeState : ExeState) (calling : Bool) (input : IoInput)
    (s : IoSide Task) : Option (IoSide Task) :=
  match s.pc with
  | .dead | .finished => none
  | .test =>
      if exeState = .Running then some { s with pc := .waiting }
      else some { s with pc := .finished }
  | .waiting =>
      match input.batch with
      | none => some { s with pc := .test }
      | some events => s.deliver events
  | .scan [] => some { s with pc := .test }
  | .scan (.wake :: events) => some { s with pc := .reading events }
  | .scan (.other :: events) =>
      if input.hasCb then some { s with pc := .inCallback events }
      else some { s with pc := .scan events }
  | .inCallback events =>
      if calling then none else some { s with pc := .scan events }
  | .reading events =>
      -- Read to `EAGAIN`: a writer may come between two reads.
      if 0 < s.wakeFd.counter then
        some { s with wakeFd := { s.wakeFd with counter := 0 } }
      else
        some { s with pc := .swapping events }
  | .swapping events =>
      some { s with pc := .running events, queue := s.queue.swap }
  | .running events =>
      match s.queue.execute with
      | some queue => some { s with pc := .inTask events, queue := queue }
      | none => some { s with pc := .scan events, queue := s.queue.clear }
  | .inTask events =>
      if calling then none else some { s with pc := .running events }

/-- The ways the io thread can take a step, with their preconditions. -/
inductive Stepped (exeState : ExeState) (calling : Bool) (input : IoInput)
    (s : IoSide Task) : IoSide Task → Prop
  | enters (hPc : s.pc = .test) (hExe : exeState = .Running) :
      Stepped exeState calling input s { s with pc := .waiting }
  | leaves (hPc : s.pc = .test) (hExe : exeState ≠ .Running) :
      Stepped exeState calling input s { s with pc := .finished }
  | interrupted (hPc : s.pc = .waiting) :
      Stepped exeState calling input s { s with pc := .test }
  | delivers {events : List LoopEvent} (hPc : s.pc = .waiting)
      (hNone : .wake ∉ events) :
      Stepped exeState calling input s { s with pc := .scan events }
  | deliversWake {events : List LoopEvent} (hPc : s.pc = .waiting)
      (hMem : .wake ∈ events) (hReady : s.wakeFd.Ready) :
      Stepped exeState calling input s
        { s with pc := .scan events, wakeFd := { s.wakeFd with edge := false } }
  | batchEnds (hPc : s.pc = .scan []) :
      Stepped exeState calling input s { s with pc := .test }
  | findsWake {events : List LoopEvent} (hPc : s.pc = .scan (.wake :: events)) :
      Stepped exeState calling input s { s with pc := .reading events }
  | skips {events : List LoopEvent} (hPc : s.pc = .scan (.other :: events)) :
      Stepped exeState calling input s { s with pc := .scan events }
  | callsBack {events : List LoopEvent}
      (hPc : s.pc = .scan (.other :: events)) :
      Stepped exeState calling input s { s with pc := .inCallback events }
  | callbackReturns {events : List LoopEvent} (hPc : s.pc = .inCallback events)
      (hFree : calling = false) :
      Stepped exeState calling input s { s with pc := .scan events }
  | reads {events : List LoopEvent} (hPc : s.pc = .reading events)
      (hCounter : 0 < s.wakeFd.counter) :
      Stepped exeState calling input s
        { s with wakeFd := { s.wakeFd with counter := 0 } }
  | drains {events : List LoopEvent} (hPc : s.pc = .reading events)
      (hCounter : s.wakeFd.counter = 0) :
      Stepped exeState calling input s { s with pc := .swapping events }
  | swaps {events : List LoopEvent} (hPc : s.pc = .swapping events) :
      Stepped exeState calling input s
        { s with pc := .running events, queue := s.queue.swap }
  | executes {events : List LoopEvent} {queue : DoubleBuffer Task}
      (hPc : s.pc = .running events) (hQueue : s.queue.execute = some queue) :
      Stepped exeState calling input s
        { s with pc := .inTask events, queue := queue }
  | clears {events : List LoopEvent} (hPc : s.pc = .running events)
      (hQueue : s.queue.execute = none) :
      Stepped exeState calling input s
        { s with pc := .scan events, queue := s.queue.clear }
  | taskReturns {events : List LoopEvent} (hPc : s.pc = .inTask events)
      (hFree : calling = false) :
      Stepped exeState calling input s { s with pc := .running events }

theorem stepped {exeState : ExeState} {calling : Bool} {input : IoInput}
    {s next : IoSide Task} (hStep : step exeState calling input s = some next) :
    Stepped exeState calling input s next := by
  unfold step at hStep
  split at hStep
  case h_1 | h_2 => cases hStep
  case h_3 hPc =>
      split at hStep <;> obtain rfl := Option.some.inj hStep
      · exact .enters hPc ‹_›
      · exact .leaves hPc ‹_›
  case h_4 hPc =>
      split at hStep
      · obtain rfl := Option.some.inj hStep
        exact .interrupted hPc
      · unfold deliver at hStep
        split at hStep
        · rename_i hMem
          split at hStep
          · rename_i hOnce
            obtain rfl := Option.some.inj hStep
            exact .deliversWake hPc hMem hOnce.2
          · cases hStep
        · obtain rfl := Option.some.inj hStep
          exact .delivers hPc ‹_›
  case h_5 hPc =>
      obtain rfl := Option.some.inj hStep
      exact .batchEnds hPc
  case h_6 hPc =>
      obtain rfl := Option.some.inj hStep
      exact .findsWake hPc
  case h_7 hPc =>
      split at hStep <;> obtain rfl := Option.some.inj hStep
      · exact .callsBack hPc
      · exact .skips hPc
  case h_8 hPc =>
      split at hStep
      · cases hStep
      · rename_i hFree
        obtain rfl := Option.some.inj hStep
        exact .callbackReturns hPc (Bool.eq_false_iff.mpr hFree)
  case h_9 hPc =>
      split at hStep <;> obtain rfl := Option.some.inj hStep
      · exact .reads hPc ‹_›
      · exact .drains hPc (Nat.eq_zero_of_not_pos ‹_›)
  case h_10 hPc =>
      obtain rfl := Option.some.inj hStep
      exact .swaps hPc
  case h_11 hPc =>
      split at hStep <;> obtain rfl := Option.some.inj hStep
      · exact .executes hPc ‹_›
      · exact .clears hPc ‹_›
  case h_12 hPc =>
      split at hStep
      · cases hStep
      · rename_i hFree
        obtain rfl := Option.some.inj hStep
        exact .taskReturns hPc (Bool.eq_false_iff.mpr hFree)

end IoSide

/-! ## The heavy executor -/

/-- Where `heavy_executor` is.  Between `check` and the block, at `window`, the
predicate was false, and the mutex is still held. -/
inductive HeavyPc
  | dead
  | test
  | lock
  | check
  | window
  | blocked
  | woken
  | swapping
  | running
  | inTask
  | finished
deriving DecidableEq

namespace HeavyPc

/-- `heavy_queue_mtx_` is held. -/
def Locked (pc : HeavyPc) : Prop := pc = check ∨ pc = window ∨ pc = swapping

/-- The thread has ended, or there is none. -/
def Ended (pc : HeavyPc) : Prop := pc = dead ∨ pc = finished

/-- The tasks of the heavy queue are being executed. -/
def Executing (pc : HeavyPc) : Prop := pc = running ∨ pc = inTask

instance (pc : HeavyPc) : Decidable pc.Locked :=
  inferInstanceAs (Decidable (_ ∨ _))

instance (pc : HeavyPc) : Decidable pc.Ended :=
  inferInstanceAs (Decidable (_ ∨ _))

end HeavyPc

/-- The heavy thread, its queue, and the number of threads between their push
and their notification in `post_heavy_task`. -/
structure HeavySide (Task : Type*) where
  pc : HeavyPc
  queue : DoubleBuffer Task
  posters : Nat

namespace HeavySide

def initial : HeavySide Task where
  pc := .dead
  queue := .empty
  posters := 0

/-- `post_heavy_task`, under the lock. -/
def push (s : HeavySide Task) (task : Task) : Option (HeavySide Task) :=
  if s.pc.Locked then none
  else some { s with queue := s.queue.push task, posters := s.posters + 1 }

/-- `wake_heavy_up`: a thread that is not blocked is not notified. -/
def wakeHeavyUp (s : HeavySide Task) : HeavySide Task :=
  if s.pc = .blocked then { s with pc := .woken } else s

/-- The second half of `post_heavy_task`. -/
def pushed (s : HeavySide Task) : Option (HeavySide Task) :=
  if 0 < s.posters then
    some { s.wakeHeavyUp with posters := s.posters - 1 }
  else
    none

/-- One step of `heavy_executor`. -/
def step (exeState : ExeState) (calling : Bool) (s : HeavySide Task) :
    Option (HeavySide Task) :=
  match s.pc with
  | .dead | .finished | .blocked => none
  | .test =>
      if exeState = .Running then some { s with pc := .lock }
      else some { s with pc := .finished }
  | .lock | .woken => some { s with pc := .check }
  | .check =>
      if s.queue.buffer ≠ [] ∨ exeState ≠ .Running then
        some { s with pc := .swapping }
      else
        some { s with pc := .window }
  | .window => some { s with pc := .blocked }
  | .swapping => some { s with pc := .running, queue := s.queue.swap }
  | .running =>
      match s.queue.execute with
      | some queue => some { s with pc := .inTask, queue := queue }
      | none => some { s with pc := .test, queue := s.queue.clear }
  | .inTask => if calling then none else some { s with pc := .running }

/-- The ways the heavy thread can take a step, with their preconditions. -/
inductive Stepped (exeState : ExeState) (calling : Bool) (s : HeavySide Task) :
    HeavySide Task → Prop
  | enters (hPc : s.pc = .test) (hExe : exeState = .Running) :
      Stepped exeState calling s { s with pc := .lock }
  | leaves (hPc : s.pc = .test) (hExe : exeState ≠ .Running) :
      Stepped exeState calling s { s with pc := .finished }
  | locks (hPc : s.pc = .lock ∨ s.pc = .woken) :
      Stepped exeState calling s { s with pc := .check }
  | passes (hPc : s.pc = .check)
      (hPred : s.queue.buffer ≠ [] ∨ exeState ≠ .Running) :
      Stepped exeState calling s { s with pc := .swapping }
  | refuses (hPc : s.pc = .check) (hBuffer : s.queue.buffer = [])
      (hExe : exeState = .Running) :
      Stepped exeState calling s { s with pc := .window }
  | blocks (hPc : s.pc = .window) :
      Stepped exeState calling s { s with pc := .blocked }
  | swaps (hPc : s.pc = .swapping) :
      Stepped exeState calling s
        { s with pc := .running, queue := s.queue.swap }
  | executes {queue : DoubleBuffer Task} (hPc : s.pc = .running)
      (hQueue : s.queue.execute = some queue) :
      Stepped exeState calling s { s with pc := .inTask, queue := queue }
  | clears (hPc : s.pc = .running) (hQueue : s.queue.execute = none) :
      Stepped exeState calling s
        { s with pc := .test, queue := s.queue.clear }
  | taskReturns (hPc : s.pc = .inTask) (hFree : calling = false) :
      Stepped exeState calling s { s with pc := .running }

theorem stepped {exeState : ExeState} {calling : Bool}
    {s next : HeavySide Task} (hStep : step exeState calling s = some next) :
    Stepped exeState calling s next := by
  unfold step at hStep
  split at hStep
  case h_1 | h_2 | h_3 => cases hStep
  case h_4 hPc =>
      split at hStep <;> obtain rfl := Option.some.inj hStep
      · exact .enters hPc ‹_›
      · exact .leaves hPc ‹_›
  case h_5 hPc =>
      obtain rfl := Option.some.inj hStep
      exact .locks (.inl hPc)
  case h_6 hPc =>
      obtain rfl := Option.some.inj hStep
      exact .locks (.inr hPc)
  case h_7 hPc =>
      split at hStep <;> obtain rfl := Option.some.inj hStep
      · exact .passes hPc ‹_›
      · rename_i hPred
        rw [not_or, not_not, not_not] at hPred
        exact .refuses hPc hPred.1 hPred.2
  case h_8 hPc =>
      obtain rfl := Option.some.inj hStep
      exact .blocks hPc
  case h_9 hPc =>
      obtain rfl := Option.some.inj hStep
      exact .swaps hPc
  case h_10 hPc =>
      split at hStep <;> obtain rfl := Option.some.inj hStep
      · exact .executes hPc ‹_›
      · exact .clears hPc ‹_›
  case h_11 hPc =>
      split at hStep
      · cases hStep
      · rename_i hFree
        obtain rfl := Option.some.inj hStep
        exact .taskReturns hPc (Bool.eq_false_iff.mpr hFree)

end HeavySide
end Core
end KZEvent
