import KZEvent.Core.EventTable
import KZEvent.Foundation.DoubleBuffer
import KZEvent.Foundation.Run
import KZEvent.Foundation.Window
import Mathlib.Logic.Function.Basic

/-!
# The event table, its channels and the kernel

`LoopChannel` objects post tasks for their descriptor, and the io thread
executes these tasks and dispatches events.  The batch `epoll_wait` returns may
hold the event of the eventfd anywhere; there the io thread takes over the
buffer of the queue and executes it before it goes on with the batch.

The kernel hands out descriptor numbers again as soon as they are closed, so a
descriptor number is not enough to say what an event, a task or a channel is
about.  Each open file has a number of its own here, which nothing in the source
sees; a file is handed to at most one channel, and a registration is the time
between the construction of that channel and the close of the file.
-/

namespace KZEvent
namespace Core

open Foundation

variable {Cb : Type*}

/-- `LoopChannel`.  `fd` is `none` for `-1`, and `inLoop` says that `in_loop_` is
not null; `file` is a ghost field that travels with `fd_`. -/
structure LoopChannel where
  fd : Option Nat
  inLoop : Bool
  file : Nat
  eventTypes : EventType
  eventModes : EventMode
deriving DecidableEq

namespace LoopChannel

/-- `LoopChannel(loop, fd)`, without the task it posts. -/
def make (fd file : Nat) : LoopChannel where
  fd := some fd
  inLoop := true
  file := file
  eventTypes := EventType.kDefault
  eventModes := EventMode.kDefault

/-- `LoopChannel(LoopChannel &&other)`: the new channel and what is left. -/
def moveConstruct (other : LoopChannel) : LoopChannel × LoopChannel :=
  ({ other with
      eventTypes := EventType.kDefault
      eventModes := EventMode.kDefault },
    { other with fd := none, inLoop := false })

/-- `swap` of channels, which is also their move assignment: the requested types
and modes stay where they are. -/
def swap (a b : LoopChannel) : LoopChannel × LoopChannel :=
  ({ a with fd := b.fd, inLoop := b.inLoop, file := b.file },
    { b with fd := a.fd, inLoop := a.inLoop, file := a.file })

/-- The descriptor of a valid channel. -/
def validFd (c : LoopChannel) : Option Nat :=
  if c.inLoop then c.fd else none

end LoopChannel

/-- A task in the queue of the io thread.  `file` is a ghost field: the file of
the channel that posted it. -/
structure Posted (Cb : Type*) where
  fd : Nat
  file : Nat
  task : FdTask Cb
deriving DecidableEq

/-- An event of a batch: of the eventfd, or of a descriptor in the epoll set.
`file` is a ghost field: the file it was reported for. -/
inductive Reported
  | wake
  | ready (fd file : Nat) (types : EpollEvents)
deriving DecidableEq

/-- Where the io thread is: outside a batch, at the next event of a batch, or
executing tasks in the middle of one. -/
inductive EventPc
  | idle
  | scan (events : List Reported)
  | tasks (events : List Reported)
deriving DecidableEq

namespace EventPc

/-- The events of the batch that have not been looked at. -/
def events : EventPc → List Reported
  | idle => []
  | scan events | tasks events => events

end EventPc

/-- A task that was executed, and whether its kernel calls succeeded. -/
structure Executed (Cb : Type*) where
  posted : Posted Cb
  ok : Bool

/-- The table, the epoll set and the open files, the channels, the queue, and
where the io thread is.  `handed` (the files handed to a channel), `closed` (the
files the loop closed) and `log` (the executed tasks, the last one first) are
ghost fields. -/
structure EventLoop (Cb : Type*) where
  events : List (Event Cb)
  interest : Nat → Option EpollEvents
  file : Nat → Option Nat
  nextFile : Nat
  channels : List LoopChannel
  queue : DoubleBuffer (Posted Cb)
  pc : EventPc
  running : Bool
  handed : List Nat
  closed : List Nat
  log : List (Executed Cb)

/-- A step of a run.  `swap` is also the move assignment of channels. -/
inductive EventAction (Cb : Type*)
  | openFd (fd : Nat)
  | closeFd (fd : Nat)
  | construct (fd : Nat)
  | moveConstruct (index : Nat)
  | swap (first second : Nat)
  | destroy (index : Nat)
  | updateEventCb (index : Nat) (types : EventType) (modes : EventMode) (cb : Cb)
  | updateEvent (index : Nat) (types : EventType) (modes : EventMode)
  | disableEvent (index : Nat)
  | start
  | stop
  | wait (batch : List Reported)
  | io (faults : TaskFaults)
deriving DecidableEq

/-- `unregister_fd` is the task that closes the descriptor. -/
def FdTask.closesFd : FdTask Cb → Bool
  | .unregisterFd => true
  | _ => false

/-- Whether a task does what it is for. -/
def FdSlot.succeeds (faults : TaskFaults) (slot : FdSlot Cb) : FdTask Cb → Bool
  | .registerFd => true
  | .unregisterFd => slot.event.inRegister && faults.close.isNone
  | .enableFdCb types modes _ | .enableFd types modes =>
      slot.event.inRegister && (slot.setInterest faults types modes).isSome
  | .disableFd =>
      slot.event.inRegister &&
        match epollCtl faults.first .EPOLL_CTL_DEL 0 slot.interest with
        | .ok _ => true
        | .error errno => errno = ENOENT

/-- The `Event` a table grows with. -/
def Event.initial : Event Cb :=
  { inRegister := false, inEpoll := false, cb := none }

/-- The growth of the table in `register_fd`, by half its size or as far as
needed. -/
def growFor (events : List (Event Cb)) (fd : Nat) : List (Event Cb) :=
  if events.length ≤ fd then
    let newSize := events.length + events.length / 2
    resize .initial events (if newSize < fd + 1 then fd + 1 else newSize)
  else
    events

namespace EventLoop

def kEpollInitEventLen : Nat := 512

/-- A new loop, at a time when no descriptor of interest is open. -/
def initial : EventLoop Cb where
  events := List.replicate kEpollInitEventLen .initial
  interest := fun _ => none
  file := fun _ => none
  nextFile := 0
  channels := []
  queue := .empty
  pc := .idle
  running := false
  handed := []
  closed := []
  log := []

/-! ## Channels -/

def post (s : EventLoop Cb) (fd file : Nat) (task : FdTask Cb) : EventLoop Cb :=
  { s with queue := s.queue.push { fd := fd, file := file, task := task } }

/-- What a channel posts when it is valid; an invalid one only logs. -/
def postFrom (s : EventLoop Cb) (c : LoopChannel) (task : FdTask Cb) :
    EventLoop Cb :=
  match c.validFd with
  | some fd => s.post fd c.file task
  | none => s

/-- `LoopChannel(loop, fd)`.  The descriptor is open and belongs to the caller,
who hands it over. -/
def construct (s : EventLoop Cb) (fd : Nat) : Option (EventLoop Cb) :=
  match s.file fd with
  | none => none
  | some file =>
      if file ∈ s.handed then none
      else
        some { s.post fd file .registerFd with
          channels := s.channels ++ [.make fd file]
          handed := s.handed ++ [file] }

def moveConstruct (s : EventLoop Cb) (index : Nat) : Option (EventLoop Cb) :=
  (s.channels[index]?).map fun other =>
    { s with
      channels :=
        s.channels.set index other.moveConstruct.2 ++ [other.moveConstruct.1] }

def swap (s : EventLoop Cb) (first second : Nat) : Option (EventLoop Cb) :=
  match s.channels[first]?, s.channels[second]? with
  | some a, some b =>
      if first = second then some s
      else
        some { s with
          channels := (s.channels.set first (a.swap b).1).set second (a.swap b).2 }
  | _, _ => none

/-- `~LoopChannel()`. -/
def destroy (s : EventLoop Cb) (index : Nat) : Option (EventLoop Cb) :=
  (s.channels[index]?).map fun c =>
    { s.postFrom c .unregisterFd with channels := s.channels.eraseIdx index }

/-- `update_event`, both overloads: the task, and the types and modes that are
remembered; an invalid channel is left as it is. -/
def update (s : EventLoop Cb) (index : Nat) (types : EventType)
    (modes : EventMode) (task : FdTask Cb) : Option (EventLoop Cb) :=
  (s.channels[index]?).map fun c =>
    match c.validFd with
    | none => s
    | some fd =>
        let updated := { c with eventTypes := types, eventModes := modes }
        { s.post fd c.file task with channels := s.channels.set index updated }

def disableEvent (s : EventLoop Cb) (index : Nat) : Option (EventLoop Cb) :=
  (s.channels[index]?).map fun c => s.postFrom c .disableFd

/-! ## The io thread -/

/-- The entry of a descriptor; a descriptor outside the table has none, which
reads like a fresh one. -/
def slot (s : EventLoop Cb) (fd : Nat) : FdSlot Cb where
  event := s.events.getD fd .initial
  interest := s.interest fd

/-- The table as the task finds it. -/
def tableFor (s : EventLoop Cb) (p : Posted Cb) : List (Event Cb) :=
  match p.task with
  | .registerFd => growFor s.events p.fd
  | _ => s.events

/-- Execute a task; `none` when `events_[fd]` is out of bounds. -/
def execTask (s : EventLoop Cb) (faults : TaskFaults) (p : Posted Cb) :
    Option (EventLoop Cb) :=
  ((s.tableFor p)[p.fd]?).map fun event =>
    let before : FdSlot Cb := { event := event, interest := s.interest p.fd }
    let after := before.exec faults p.task
    let closes := p.task.closesFd && before.succeeds faults p.task
    { s with
      events := (s.tableFor p).set p.fd after.event
      interest := Function.update s.interest p.fd after.interest
      file := if closes then Function.update s.file p.fd none else s.file
      closed := if closes then s.closed ++ (s.file p.fd).toList else s.closed
      log := { posted := p, ok := before.succeeds faults p.task } :: s.log }

/-- `epoll_wait` reports what is in the epoll set, and the eventfd at most
once. -/
def CanReport (s : EventLoop Cb) (batch : List Reported) : Prop :=
  batch.count .wake ≤ 1 ∧
    ∀ event ∈ batch, match event with
      | .wake => True
      | .ready fd file _ => s.interest fd ≠ none ∧ s.file fd = some file

instance (s : EventLoop Cb) (batch : List Reported) :
    Decidable (s.CanReport batch) := by
  have (event : Reported) : Decidable (match event with
      | .wake => True
      | .ready fd file _ => s.interest fd ≠ none ∧ s.file fd = some file) := by
    cases event <;> infer_instance
  exact inferInstanceAs (Decidable (_ ∧ ∀ event ∈ batch, _))

/-- The next step of `io_executor` inside a batch.  A dispatched event changes
nothing by itself: what its callback does are steps of their own. -/
def io (s : EventLoop Cb) (faults : TaskFaults) : Option (EventLoop Cb) :=
  match s.pc with
  | .idle => none
  | .scan [] => some { s with pc := .idle }
  | .scan (.wake :: events) =>
      some { s with pc := .tasks events, queue := s.queue.swap }
  | .scan (.ready fd _ _ :: events) =>
      (s.events[fd]?).map fun _ => { s with pc := .scan events }
  | .tasks events =>
      match s.queue.exe[s.queue.next]?, s.queue.execute with
      | some p, some queue =>
          ({ s with queue := queue } : EventLoop Cb).execTask faults p
      | _, _ => some { s with pc := .scan events, queue := s.queue.clear }

/-! ## Steps -/

def step (s : EventLoop Cb) : EventAction Cb → Option (EventLoop Cb)
  | .openFd fd =>
      if s.file fd = none then
        some { s with
          file := Function.update s.file fd (some s.nextFile)
          nextFile := s.nextFile + 1 }
      else none
  | .closeFd fd =>
      -- The user closes a descriptor that was not handed over.
      match s.file fd with
      | none => none
      | some file =>
          if file ∈ s.handed then none
          else
            some { s with
              file := Function.update s.file fd none
              interest := Function.update s.interest fd none }
  | .construct fd => s.construct fd
  | .moveConstruct index => s.moveConstruct index
  | .swap first second => s.swap first second
  | .destroy index => s.destroy index
  | .updateEventCb index types modes cb =>
      s.update index types modes (.enableFdCb types modes cb)
  | .updateEvent index types modes =>
      s.update index types modes (.enableFd types modes)
  | .disableEvent index => s.disableEvent index
  | .start =>
      if s.running = false ∧ s.pc = .idle then some { s with running := true }
      else none
  | .stop => some { s with running := false }
  | .wait batch =>
      if s.running = true ∧ s.pc = .idle ∧ s.CanReport batch then
        some { s with pc := .scan batch }
      else none
  | .io faults => s.io faults

/-- `~Loop()`, once its `stop` has returned and all channels are destroyed: close
what the table holds. -/
def destruct (s : EventLoop Cb) : EventLoop Cb :=
  (List.range s.events.length).foldl
    (fun s fd =>
      if (s.slot fd).event.inRegister then
        { s with
          file := Function.update s.file fd none
          closed := s.closed ++ (s.file fd).toList }
      else s) s

end EventLoop
end Core
end KZEvent
