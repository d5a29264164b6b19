import KZEvent.Core.Errno
import KZEvent.Core.EventType

/-!
# One entry of the event table

The loop keeps an `Event` for every file descriptor and changes it only in
tasks of the io thread.  A task for `fd` reads and writes the entry of `fd` and
the interest the kernel's epoll set holds for `fd`, nothing else, so the two
together are the unit of this model.

`epoll_ctl` answers as the kernel does: `ADD` of a descriptor in the set fails
with `EEXIST`, `MOD` and `DEL` of one outside it fail with `ENOENT`, and any
call may fail with another error.
-/

namespace KZEvent
namespace Core

variable {Cb : Type*}

/-- `Loop::Event`. -/
structure Event (Cb : Type*) where
  inRegister : Bool
  inEpoll : Bool
  cb : Option Cb

/-- The table entry of a descriptor and its interest in the epoll set. -/
structure FdSlot (Cb : Type*) where
  event : Event Cb
  interest : Option EpollEvents

/-- A descriptor the loop has not heard of. -/
def FdSlot.unknown : FdSlot Cb where
  event := { inRegister := false, inEpoll := false, cb := none }
  interest := none

/-- The tasks the loop posts for one descriptor. -/
inductive FdTask (Cb : Type*)
  | registerFd
  | unregisterFd
  | enableFdCb (types : EventType) (modes : EventMode) (cb : Cb)
  | enableFd (types : EventType) (modes : EventMode)
  | disableFd
deriving DecidableEq

/-- A task of this kind sets the interest in the epoll set. -/
def FdTask.arms : FdTask Cb → Bool
  | .enableFdCb _ _ _ | .enableFd _ _ => true
  | .registerFd | .unregisterFd | .disableFd => false

/-! ## The kernel side -/

inductive EpollOp
  | EPOLL_CTL_ADD
  | EPOLL_CTL_MOD
  | EPOLL_CTL_DEL
deriving DecidableEq

/-- `epoll_ctl` on the interest of one descriptor.  A fault makes the call fail
with that error. -/
def epollCtl (fault : Option Errno) (op : EpollOp) (events : EpollEvents)
    (interest : Option EpollEvents) : Except Errno (Option EpollEvents) :=
  match fault with
  | some errno => .error errno
  | none =>
      match op, interest with
      | .EPOLL_CTL_ADD, none => .ok (some events)
      | .EPOLL_CTL_ADD, some _ => .error EEXIST
      | .EPOLL_CTL_MOD, some _ => .ok (some events)
      | .EPOLL_CTL_MOD, none => .error ENOENT
      | .EPOLL_CTL_DEL, some _ => .ok none
      | .EPOLL_CTL_DEL, none => .error ENOENT

/-- The faults of the kernel calls one task makes: at most two `epoll_ctl` and
one `close`. -/
structure TaskFaults where
  first : Option Errno := none
  second : Option Errno := none
  close : Option Errno := none
deriving DecidableEq

/-! ## The tasks -/

namespace FdSlot

/-- The `epoll_ctl` part of both overloads of `enable_fd`; `none` when it fails
in the end. -/
def setInterest (faults : TaskFaults) (types : EventType) (modes : EventMode)
    (slot : FdSlot Cb) : Option EpollEvents :=
  let epollOp :=
    if slot.event.inEpoll then EpollOp.EPOLL_CTL_MOD else EpollOp.EPOLL_CTL_ADD
  let events := epollInterest types modes
  match epollCtl faults.first epollOp events slot.interest with
  | .ok interest => interest
  | .error errno =>
      -- `in_epoll` and the kernel disagree: try the other operation, once.
      if epollOp = .EPOLL_CTL_ADD ∧ errno = EEXIST then
        (epollCtl faults.second .EPOLL_CTL_MOD events slot.interest).toOption.join
      else if epollOp = .EPOLL_CTL_MOD ∧ errno = ENOENT then
        (epollCtl faults.second .EPOLL_CTL_ADD events slot.interest).toOption.join
      else
        none

/-- `enable_fd` with a callback. -/
def enableFdCb (faults : TaskFaults) (types : EventType) (modes : EventMode)
    (cb : Cb) (slot : FdSlot Cb) : FdSlot Cb :=
  if slot.event.inRegister then
    match slot.setInterest faults types modes with
    | some interest =>
        { event := { slot.event with inEpoll := true, cb := some cb }
          interest := some interest }
    -- The error is only logged, and the callback is dropped with the task.
    | none => slot
  else
    slot

/-- `enable_fd` without a callback keeps the installed one. -/
def enableFd (faults : TaskFaults) (types : EventType) (modes : EventMode)
    (slot : FdSlot Cb) : FdSlot Cb :=
  if slot.event.inRegister then
    match slot.setInterest faults types modes with
    | some interest =>
        { event := { slot.event with inEpoll := true }
          interest := some interest }
    | none => slot
  else
    slot

def disableFd (faults : TaskFaults) (slot : FdSlot Cb) : FdSlot Cb :=
  let cleared : Event Cb := { slot.event with inEpoll := false, cb := none }
  if slot.event.inRegister then
    match epollCtl faults.first .EPOLL_CTL_DEL 0 slot.interest with
    | .ok interest => { event := cleared, interest := interest }
    | .error errno =>
        -- Not in the set is what was asked for.
        if errno = ENOENT then { slot with event := cleared } else slot
  else
    slot

def registerFd (slot : FdSlot Cb) : FdSlot Cb :=
  { slot with event := { slot.event with inRegister := true } }

/-- `unregister_fd`: a failing `close` leaves the entry as it is, and a
successful one takes the descriptor out of the epoll set. -/
def unregisterFd (faults : TaskFaults) (slot : FdSlot Cb) : FdSlot Cb :=
  if slot.event.inRegister then
    let interest :=
      if slot.event.inEpoll then
        match epollCtl faults.first .EPOLL_CTL_DEL 0 slot.interest with
        | .ok interest => interest
        -- A failure is logged, and `close` is tried all the same.
        | .error _ => slot.interest
      else
        slot.interest
    match faults.close with
    | some _ => { slot with interest := interest }
    | none => unknown
  else
    slot

/-- Execute one task of the io thread.  The `assert`s of `core.cpp` are compiled out, and
logging leaves `errno` as the kernel set it. -/
def exec (faults : TaskFaults) (slot : FdSlot Cb) : FdTask Cb → FdSlot Cb
  | .registerFd => slot.registerFd
  | .unregisterFd => slot.unregisterFd faults
  | .enableFdCb types modes cb => slot.enableFdCb faults types modes cb
  | .enableFd types modes => slot.enableFd faults types modes
  | .disableFd => slot.disableFd faults

/-- The entry once all queued tasks have been executed without faults. -/
def drain (slot : FdSlot Cb) (tasks : List (FdTask Cb)) : FdSlot Cb :=
  tasks.foldl (exec {}) slot

/-! ## What the tasks do when no kernel call fails -/

@[simp]
theorem drain_nil (slot : FdSlot Cb) : slot.drain [] = slot := rfl

@[simp]
theorem drain_cons (slot : FdSlot Cb) (task : FdTask Cb)
    (tasks : List (FdTask Cb)) :
    slot.drain (task :: tasks) = (slot.exec {} task).drain tasks := rfl

@[simp]
theorem drain_append (slot : FdSlot Cb) (tasks later : List (FdTask Cb)) :
    slot.drain (tasks ++ later) = (slot.drain tasks).drain later :=
  List.foldl_append

/-- Without faults the interest is set, whatever `in_epoll` says: a wrong guess
is answered with `EEXIST` or `ENOENT` and the other operation succeeds. -/
@[simp]
theorem setInterest_ok (types : EventType) (modes : EventMode)
    (slot : FdSlot Cb) :
    slot.setInterest {} types modes = some (epollInterest types modes) := by
  obtain ⟨⟨inRegister, inEpoll, cb⟩, interest⟩ := slot
  cases inEpoll <;> cases interest <;>
    simp [setInterest, epollCtl, Except.toOption]

theorem exec_enableFdCb_ok {slot : FdSlot Cb}
    (hRegistered : slot.event.inRegister = true) (types : EventType)
    (modes : EventMode) (cb : Cb) :
    slot.exec {} (.enableFdCb types modes cb) =
      { event := { inRegister := true, inEpoll := true, cb := some cb }
        interest := some (epollInterest types modes) } := by
  simp [exec, enableFdCb, hRegistered]

theorem exec_enableFd_ok {slot : FdSlot Cb}
    (hRegistered : slot.event.inRegister = true) (types : EventType)
    (modes : EventMode) :
    slot.exec {} (.enableFd types modes) =
      { event := { inRegister := true, inEpoll := true, cb := slot.event.cb }
        interest := some (epollInterest types modes) } := by
  simp [exec, enableFd, hRegistered]

theorem exec_disableFd_ok {slot : FdSlot Cb}
    (hRegistered : slot.event.inRegister = true) :
    slot.exec {} .disableFd =
      { event := { inRegister := true, inEpoll := false, cb := none }
        interest := none } := by
  obtain ⟨⟨inRegister, inEpoll, cb⟩, interest⟩ := slot
  obtain rfl : inRegister = true := hRegistered
  cases interest <;> simp [exec, disableFd, epollCtl]

/-- Only `unregister_fd` ends a registration. -/
theorem exec_inRegister {slot : FdSlot Cb} {task : FdTask Cb}
    (hRegistered : slot.event.inRegister = true) (hTask : task ≠ .unregisterFd) :
    (slot.exec {} task).event.inRegister = true := by
  cases task with
  | registerFd => rfl
  | unregisterFd => exact absurd rfl hTask
  | enableFdCb types modes cb => rw [exec_enableFdCb_ok hRegistered]
  | enableFd types modes => rw [exec_enableFd_ok hRegistered]
  | disableFd => rw [exec_disableFd_ok hRegistered]

theorem drain_inRegister {slot : FdSlot Cb} {tasks : List (FdTask Cb)}
    (hRegistered : slot.event.inRegister = true)
    (hTasks : ∀ task ∈ tasks, task ≠ .unregisterFd) :
    (slot.drain tasks).event.inRegister = true := by
  induction tasks generalizing slot with
  | nil => exact hRegistered
  | cons task tasks ih =>
      rw [List.forall_mem_cons] at hTasks
      rw [drain_cons]
      exact ih (exec_inRegister hRegistered hTasks.1) hTasks.2

/-- Changes of the interest keep the callback. -/
theorem drain_map_enableFd_cb {Source : Type*} {slot : FdSlot Cb}
    (hRegistered : slot.event.inRegister = true) (sources : List Source)
    (types : Source → EventType) (modes : Source → EventMode) :
    (slot.drain (sources.map fun source =>
      .enableFd (types source) (modes source))).event.cb = slot.event.cb := by
  induction sources generalizing slot with
  | nil => rfl
  | cons source sources ih =>
      rw [List.map_cons, drain_cons, exec_enableFd_ok hRegistered]
      exact ih rfl

/-! ## Taking the callback away

`disable_fd` is a task, so the callback stays installed until it is executed. -/

/-- A callback is installed only on a registered descriptor. -/
def CbRegistered (slot : FdSlot Cb) : Prop :=
  slot.event.cb ≠ none → slot.event.inRegister = true

theorem cbRegistered_unknown : CbRegistered (unknown : FdSlot Cb) :=
  fun hCb => absurd rfl hCb

theorem CbRegistered.exec {slot : FdSlot Cb} (hSlot : CbRegistered slot)
    (faults : TaskFaults) (task : FdTask Cb) :
    CbRegistered (slot.exec faults task) := by
  cases task with
  | registerFd => exact fun _ => rfl
  | unregisterFd =>
      simp only [FdSlot.exec, unregisterFd]
      split
      · split
        · exact hSlot
        · exact cbRegistered_unknown
      · exact hSlot
  | enableFdCb types modes cb =>
      simp only [FdSlot.exec, enableFdCb]
      split
      · rename_i hRegistered
        split
        · exact fun _ => hRegistered
        · exact hSlot
      · exact hSlot
  | enableFd types modes =>
      simp only [FdSlot.exec, enableFd]
      split
      · rename_i hRegistered
        split
        · exact fun _ => hRegistered
        · exact hSlot
      · exact hSlot
  | disableFd =>
      simp only [FdSlot.exec, disableFd]
      split
      · split
        · exact fun hCb => absurd rfl hCb
        · split
          · exact fun hCb => absurd rfl hCb
          · exact hSlot
      · exact hSlot

/-- Only `enable_fd` with a callback installs one. -/
theorem exec_cb_of_none {slot : FdSlot Cb} (faults : TaskFaults)
    {task : FdTask Cb} (hCb : slot.event.cb = none)
    (hTask : ∀ types modes cb, task ≠ .enableFdCb types modes cb) :
    (slot.exec faults task).event.cb = none := by
  cases task with
  | registerFd => exact hCb
  | unregisterFd =>
      simp only [exec, unregisterFd]
      split
      · split
        · exact hCb
        · rfl
      · exact hCb
  | enableFdCb types modes cb => exact absurd rfl (hTask types modes cb)
  | enableFd types modes =>
      simp only [exec, enableFd]
      split
      · split <;> exact hCb
      · exact hCb
  | disableFd =>
      simp only [exec, disableFd]
      split
      · split
        · rfl
        · split
          · rfl
          · exact hCb
      · exact hCb

/-- A `disable_fd` whose `epoll_ctl` does not fail takes the callback away. -/
theorem exec_disableFd_cb {slot : FdSlot Cb} (hSlot : CbRegistered slot)
    {faults : TaskFaults} (hFault : faults.first = none) :
    (slot.exec faults .disableFd).event.cb = none := by
  by_cases hRegistered : slot.event.inRegister = true
  · simp only [exec, disableFd, hRegistered, if_true, epollCtl, hFault]
    cases slot.interest <;> simp
  · have hCb : slot.event.cb = none := by
      by_contra hSome
      exact hRegistered (hSlot hSome)
    simp only [exec, disableFd, hRegistered]
    exact hCb

/-- No task installs a callback. -/
def NoInstall (tasks : List (FdTask Cb)) : Prop :=
  ∀ types modes cb, .enableFdCb types modes cb ∉ tasks

theorem noInstall_nil : NoInstall ([] : List (FdTask Cb)) :=
  fun _ _ _ hMem => by cases hMem

theorem noInstall_disableFd : NoInstall ([.disableFd] : List (FdTask Cb)) := by
  simp [NoInstall]

/-- The callback is gone, or a queued `disable_fd` takes it away for good. -/
def Stopping (slot : FdSlot Cb) (tasks : List (FdTask Cb)) : Prop :=
  (slot.event.cb = none ∧ NoInstall tasks) ∨
    ∃ before after, tasks = before ++ .disableFd :: after ∧ NoInstall after

theorem stopping_append_disableFd (slot : FdSlot Cb)
    (tasks : List (FdTask Cb)) : Stopping slot (tasks ++ [.disableFd]) :=
  .inr ⟨tasks, [], rfl, noInstall_nil⟩

theorem Stopping.append {slot : FdSlot Cb} {tasks later : List (FdTask Cb)}
    (hStopping : Stopping slot tasks) (hLater : NoInstall later) :
    Stopping slot (tasks ++ later) := by
  have hBoth {first : List (FdTask Cb)} (hFirst : NoInstall first) :
      NoInstall (first ++ later) := by
    intro types modes cb hMem
    rcases List.mem_append.mp hMem with hMem | hMem
    · exact hFirst types modes cb hMem
    · exact hLater types modes cb hMem
  rcases hStopping with ⟨hCb, hTasks⟩ | ⟨before, after, rfl, hAfter⟩
  · exact .inl ⟨hCb, hBoth hTasks⟩
  · exact .inr ⟨before, after ++ later, by simp, hBoth hAfter⟩

theorem Stopping.exec {slot : FdSlot Cb} {task : FdTask Cb}
    {tasks : List (FdTask Cb)} {faults : TaskFaults}
    (hStopping : Stopping slot (task :: tasks)) (hSlot : CbRegistered slot)
    (hFault : task = .disableFd → faults.first = none) :
    Stopping (slot.exec faults task) tasks := by
  rcases hStopping with ⟨hCb, hTasks⟩ | ⟨before, after, hSplit, hAfter⟩
  · left
    refine ⟨exec_cb_of_none faults hCb ?_, ?_⟩
    · rintro types modes cb rfl
      exact hTasks types modes cb List.mem_cons_self
    · intro types modes cb hMem
      exact hTasks types modes cb (List.mem_cons_of_mem _ hMem)
  · cases before with
    | nil =>
        -- The `disable_fd` itself is executed, and nothing behind it installs.
        obtain ⟨rfl, rfl⟩ := List.cons.inj hSplit
        exact .inl ⟨exec_disableFd_cb hSlot (hFault rfl), hAfter⟩
    | cons first before =>
        obtain ⟨-, rfl⟩ := List.cons.inj hSplit
        exact .inr ⟨before, after, rfl, hAfter⟩

/-- While the callback is still installed, the `disable_fd` is still queued. -/
theorem Stopping.disableFd_mem {slot : FdSlot Cb} {tasks : List (FdTask Cb)}
    (hStopping : Stopping slot tasks) (hCb : slot.event.cb ≠ none) :
    .disableFd ∈ tasks := by
  rcases hStopping with ⟨hNone, -⟩ | ⟨before, after, rfl, -⟩
  · exact absurd hNone hCb
  · simp

theorem noInstall_map_enableFd {Source : Type*} (sources : List Source)
    (types : Source → EventType) (modes : Source → EventMode) :
    NoInstall (sources.map fun source =>
      (.enableFd (types source) (modes source) : FdTask Cb)) := by
  intro _ _ _ hMem
  obtain ⟨source, -, hEq⟩ := List.mem_map.mp hMem
  cases hEq

end FdSlot
end Core
end KZEvent
