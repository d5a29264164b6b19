import KZEvent.Core.DescriptorLife

/-!
# Out of the epoll set for good

`disable_fd` is a task behind whatever is queued already.  Once it has been
executed, its descriptor is out of the epoll set, and it stays out as long as
nothing that is queued behind it asks for events.  This is about any queue of
tasks some of which concern the descriptor.
-/

namespace KZEvent
namespace Core

open Foundation

variable {Task Cb : Type*}

namespace FdSlot

variable {slot : FdSlot Cb}

/-- A descriptor the table has in the epoll set is registered. -/
def EpollRegistered (slot : FdSlot Cb) : Prop :=
  slot.event.inEpoll = true → slot.event.inRegister = true

theorem epollRegistered_unknown : EpollRegistered (unknown : FdSlot Cb) :=
  fun hEpoll => by cases hEpoll

theorem EpollRegistered.exec (hSlot : EpollRegistered slot)
    (faults : TaskFaults) (task : FdTask Cb) :
    EpollRegistered (slot.exec faults task) := by
  cases task with
  | registerFd => exact fun _ => rfl
  | unregisterFd =>
      simp only [FdSlot.exec, unregisterFd]
      split
      · split
        · exact hSlot
        · exact epollRegistered_unknown
      · exact hSlot
  | enableFdCb types modes cb =>
      simp only [FdSlot.exec, enableFdCb]
      split
      · rename_i hRegistered
        split
        · exact fun _ => hRegistered
        · exact hSlot
      · exact hSlot
  | enableFd types modes =>
      simp only [FdSlot.exec, enableFd]
      split
      · rename_i hRegistered
        split
        · exact fun _ => hRegistered
        · exact hSlot
      · exact hSlot
  | disableFd =>
      simp only [FdSlot.exec, disableFd]
      split
      · split
        · exact fun hEpoll => by cases hEpoll
        · split
          · exact fun hEpoll => by cases hEpoll
          · exact hSlot
      · exact hSlot

/-- Only `enable_fd` puts a descriptor into the epoll set. -/
theorem exec_inEpoll_of_not_requested (faults : TaskFaults) {task : FdTask Cb}
    (hOut : slot.event.inEpoll = false) (hTask : task.requested = none) :
    (slot.exec faults task).event.inEpoll = false := by
  cases task with
  | registerFd => exact hOut
  | unregisterFd =>
      simp only [exec, unregisterFd]
      split
      · split
        · exact hOut
        · rfl
      · exact hOut
  | enableFdCb types modes cb => cases hTask
  | enableFd types modes => cases hTask
  | disableFd =>
      simp only [exec, disableFd]
      split
      · split
        · rfl
        · split
          · rfl
          · exact hOut
      · exact hOut

end FdSlot

/-- A `disable_fd` is not turned down: its `EPOLL_CTL_DEL` succeeds, or finds the
descriptor outside the set. -/
def TaskFaults.Removes (faults : TaskFaults) (task : FdTask Cb) : Prop :=
  task = .disableFd → faults.first = none ∨ faults.first = some ENOENT

instance [DecidableEq Cb] (faults : TaskFaults) (task : FdTask Cb) :
    Decidable (faults.Removes task) :=
  inferInstanceAs (Decidable (_ → _))

namespace FdSlot

variable {slot : FdSlot Cb} {faults : TaskFaults}

theorem exec_disableFd_inEpoll (hSlot : EpollRegistered slot)
    (hRemoves : faults.Removes (.disableFd : FdTask Cb)) :
    (slot.exec faults .disableFd).event.inEpoll = false := by
  by_cases hRegistered : slot.event.inRegister = true
  · simp only [exec, disableFd, hRegistered, if_true, epollCtl]
    rcases hRemoves rfl with hFirst | hFirst
    · rw [hFirst]
      cases slot.interest <;> simp
    · rw [hFirst]
      simp
  · have hOut : slot.event.inEpoll = false := by
      by_contra hIn
      exact hRegistered (hSlot (by simpa using hIn))
    simp only [exec, disableFd, hRegistered]
    exact hOut

end FdSlot

/-! ## A queue some of whose tasks concern the descriptor -/

section Queue

variable (fdTask : Task → Option (FdTask Cb))

/-- Execute a task of the queue, as far as the descriptor is concerned. -/
def FdSlot.execQueued (faults : TaskFaults) (slot : FdSlot Cb) (task : Task) :
    FdSlot Cb :=
  match fdTask task with
  | some own => slot.exec faults own
  | none => slot

/-- No task asks for events of the descriptor. -/
def NoRequest (tasks : List Task) : Prop :=
  ∀ task ∈ tasks, ∀ own ∈ fdTask task, own.requested = none

/-- The descriptor is out of the epoll set for good, or will be after `left`
more tasks. -/
inductive Withdrawn (slot : FdSlot Cb) (queue : List Task) : Nat → Prop
  | out (hOut : slot.event.inEpoll = false) (hQueue : NoRequest fdTask queue) :
      Withdrawn slot queue 0
  | queued {front back : List Task} {task : Task}
      (hQueue : queue = front ++ task :: back)
      (hDisable : fdTask task = some .disableFd)
      (hBack : NoRequest fdTask back) :
      Withdrawn slot queue (front.length + 1)

/-- A step that leaves a withdrawn descriptor withdrawn: it posts nothing that
asks for events, or executes the first task. -/
inductive Leaves (slot : FdSlot Cb) (queue : List Task) :
    Bool → FdSlot Cb → List Task → Prop
  | posts {more : List Task} (hMore : NoRequest fdTask more) :
      Leaves slot queue false slot (queue ++ more)
  | executes {task : Task} {rest : List Task} {faults : TaskFaults}
      (hQueue : queue = task :: rest)
      (hRemoves : ∀ own ∈ fdTask task, faults.Removes own) :
      Leaves slot queue true (slot.execQueued fdTask faults task) rest

variable {fdTask} {slot slot' : FdSlot Cb} {queue queue' more : List Task}
  {left : Nat} {executes : Bool}

theorem noRequest_nil : NoRequest fdTask [] :=
  fun _ hMem => by cases hMem

theorem noRequest_cons {task : Task} {tasks : List Task} :
    NoRequest fdTask (task :: tasks) ↔
      (∀ own ∈ fdTask task, own.requested = none) ∧ NoRequest fdTask tasks :=
  List.forall_mem_cons

theorem NoRequest.append (hQueue : NoRequest fdTask queue)
    (hMore : NoRequest fdTask more) : NoRequest fdTask (queue ++ more) :=
  List.forall_mem_append.mpr ⟨hQueue, hMore⟩

/-- A task that was posted with others: these ask for no events, or the task is
not one of them. -/
theorem noRequest_drop {position : Nat} {task : Task}
    (hPosition : queue.length ≤ position)
    (hTask : (queue ++ more)[position]? = some task)
    (hMore : NoRequest fdTask more ∨ task ∉ more) :
    NoRequest fdTask ((queue ++ more).drop (position + 1)) := by
  rw [List.getElem?_append_right hPosition] at hTask
  rcases hMore with hMore | hNotMem
  · intro later hMem
    rw [List.drop_append, List.drop_of_length_le (Nat.le_succ_of_le hPosition),
      List.nil_append] at hMem
    exact hMore later (List.mem_of_mem_drop hMem)
  · exact absurd (List.mem_of_getElem? hTask) hNotMem

/-- A queued `disable_fd` with nothing behind it that asks for events. -/
theorem withdrawn_of_getElem? {position : Nat} {task : Task}
    (hTask : queue[position]? = some task)
    (hDisable : fdTask task = some .disableFd)
    (hBack : NoRequest fdTask (queue.drop (position + 1))) :
    Withdrawn fdTask slot queue (position + 1) := by
  obtain ⟨hBound, rfl⟩ := List.getElem?_eq_some_iff.mp hTask
  have hQueue : queue =
      queue.take position ++ queue[position] :: queue.drop (position + 1) := by
    rw [List.getElem_cons_drop, List.take_append_drop]
  have hLength : (queue.take position).length = position :=
    List.length_take_of_le (Nat.le_of_lt hBound)
  have hWithdrawn : Withdrawn fdTask slot queue
      ((queue.take position).length + 1) := .queued hQueue hDisable hBack
  rwa [hLength] at hWithdrawn

theorem Leaves.same : Leaves fdTask slot queue false slot queue := by
  have hPosts : Leaves fdTask slot queue false slot (queue ++ []) :=
    .posts noRequest_nil
  rwa [List.append_nil] at hPosts

/-- A task that does not concern the descriptor. -/
theorem Leaves.other {task : Task} {rest : List Task}
    (hQueue : queue = task :: rest) (hTask : fdTask task = none) :
    Leaves fdTask slot queue true slot rest := by
  have hExecutes : Leaves fdTask slot queue true
      (slot.execQueued fdTask {} task) rest :=
    .executes hQueue fun own hOwn => by rw [hTask] at hOwn; cases hOwn
  rwa [FdSlot.execQueued, hTask] at hExecutes

theorem Leaves.epollRegistered
    (hLeaves : Leaves fdTask slot queue executes slot' queue')
    (hSlot : slot.EpollRegistered) : slot'.EpollRegistered := by
  cases hLeaves with
  | posts hMore => exact hSlot
  | executes hQueue hRemoves =>
      unfold FdSlot.execQueued
      split
      · exact hSlot.exec _ _
      · exact hSlot

theorem Withdrawn.leaves (hWithdrawn : Withdrawn fdTask slot queue left)
    (hSlot : slot.EpollRegistered)
    (hLeaves : Leaves fdTask slot queue executes slot' queue') :
    Withdrawn fdTask slot' queue' (left - executes.toNat) := by
  cases hLeaves with
  | posts hMore =>
      cases hWithdrawn with
      | out hOut hQueue => exact .out hOut (hQueue.append hMore)
      | queued hQueue hDisable hBack =>
          refine .queued ?_ hDisable (hBack.append hMore)
          rw [hQueue, List.append_assoc, List.cons_append]
  | executes hQueue hRemoves =>
      rename_i task faults
      cases hWithdrawn with
      | out hOut hRequests =>
          rw [hQueue, noRequest_cons] at hRequests
          refine .out ?_ hRequests.2
          unfold FdSlot.execQueued
          split
          · rename_i own hOwn
            exact FdSlot.exec_inEpoll_of_not_requested faults hOut
              (hRequests.1 own hOwn)
          · exact hOut
      | queued hSplit hDisable hBack =>
          rename_i front back disable
          rw [hQueue] at hSplit
          cases front with
          | nil =>
              -- The `disable_fd` is executed, and nothing behind it asks.
              obtain ⟨rfl, rfl⟩ := List.cons.inj hSplit
              refine .out ?_ hBack
              rw [FdSlot.execQueued, hDisable]
              exact FdSlot.exec_disableFd_inEpoll hSlot (hRemoves _ hDisable)
          | cons first front =>
              obtain ⟨-, rfl⟩ := List.cons.inj hSplit
              exact .queued rfl hDisable hBack

theorem Withdrawn.inEpoll (hWithdrawn : Withdrawn fdTask slot queue 0) :
    slot.event.inEpoll = false := by
  cases hWithdrawn with
  | out hOut hQueue => exact hOut

/-- **Withdrawal rule.**  A withdrawn descriptor stays withdrawn over a run, and
each executed task brings the time nearer. -/
theorem Withdrawn.run {State Action : Type*}
    {step : State → Action → Option State} {guard : State → Action → Prop}
    {executes : Action → Bool} {slot : State → FdSlot Cb}
    {queue : State → List Task}
    (hStep : ∀ state action next, guard state action →
      step state action = some next →
      Leaves fdTask (slot state) (queue state) (executes action) (slot next)
        (queue next))
    {state final : State} {actions : List Action}
    (hWithdrawn : Withdrawn fdTask (slot state) (queue state) left)
    (hSlot : (slot state).EpollRegistered)
    (hGuard : Guarded step guard state actions)
    (hRun : run step state actions = some final) :
    Withdrawn fdTask (slot final) (queue final)
      (left - actions.countP executes) := by
  rw [← countSteps_eq_countP hRun]
  have hCountdown (before : State) (action : Action) (next : State) (left : Nat)
      (hBefore : Withdrawn fdTask (slot before) (queue before) left ∧
        (slot before).EpollRegistered)
      (hMeets : guard before action) (hNext : step before action = some next) :
      Withdrawn fdTask (slot next) (queue next)
          (left - (executes action).toNat) ∧
        (slot next).EpollRegistered := by
    have hLeaves := hStep before action next hMeets hNext
    exact ⟨hBefore.1.leaves hBefore.2 hLeaves, hLeaves.epollRegistered hBefore.2⟩
  exact (run_countdown hCountdown ⟨hWithdrawn, hSlot⟩ hGuard hRun).1

end Queue

end Core
end KZEvent
