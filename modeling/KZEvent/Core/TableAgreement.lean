import KZEvent.Core.EventLoopRun

/-!
# The event table and the kernel agree

The loop chooses between `EPOLL_CTL_ADD` and `EPOLL_CTL_MOD` by `in_epoll`, and
reads `events_[fd]` without looking at the size of the table.  Both are right as
long as the table says what the kernel has, and as long as a descriptor is in the
table before anything is done with it.
-/

namespace KZEvent
namespace Core

open Foundation

variable {Cb : Type*}

/-- `close` succeeds, and `epoll_ctl` may fail at any call; with `EEXIST` and
`ENOENT` it does so only where the descriptor is, or is not, in the set, which
is what the model of the kernel answers by itself. -/
def TaskFaults.Kernel (faults : TaskFaults) (_task : FdTask Cb) : Prop :=
  faults.close = none ∧ ∀ fault ∈ [faults.first, faults.second],
    fault ≠ some EEXIST ∧ fault ≠ some ENOENT

instance (faults : TaskFaults) (task : FdTask Cb) :
    Decidable (faults.Kernel task) :=
  inferInstanceAs (Decidable (_ ∧ _))

theorem TaskFaults.Kernel.honest {faults : TaskFaults} {task : FdTask Cb}
    (hKernel : faults.Kernel task) : faults.Honest task :=
  ⟨hKernel.1, fun _ => (hKernel.2 _ List.mem_cons_self).2⟩

namespace FdSlot

variable {slot : FdSlot Cb} {faults : TaskFaults} {task : FdTask Cb}

/-- A request that is granted sets the interest it asks for. -/
theorem exec_requested {types : EventType} {modes : EventMode}
    (hRequested : task.requested = some (types, modes))
    (hOk : slot.succeeds faults task = true) :
    (slot.exec faults task).interest = some (epollInterest types modes) := by
  cases task with
  | registerFd | unregisterFd | disableFd => cases hRequested
  | enableFdCb types' modes' cb =>
      obtain ⟨rfl, rfl⟩ := Prod.mk.inj (Option.some.inj hRequested)
      simp only [succeeds, Bool.and_eq_true, Option.isSome_iff_exists] at hOk
      obtain ⟨hRegistered, interest, hSet⟩ := hOk
      simp only [exec, enableFdCb, hRegistered, hSet, if_true]
      rw [setInterest_eq hSet]
  | enableFd types' modes' =>
      obtain ⟨rfl, rfl⟩ := Prod.mk.inj (Option.some.inj hRequested)
      simp only [succeeds, Bool.and_eq_true, Option.isSome_iff_exists] at hOk
      obtain ⟨hRegistered, interest, hSet⟩ := hOk
      simp only [exec, enableFd, hRegistered, hSet, if_true]
      rw [setInterest_eq hSet]

/-- A plain task that fails changes nothing. -/
theorem exec_of_not_succeeds (hPlain : task.Plain)
    (hFails : slot.succeeds faults task = false) :
    slot.exec faults task = slot := by
  cases task with
  | registerFd | unregisterFd => exact hPlain.elim
  | enableFdCb types modes cb =>
      simp only [exec, enableFdCb]
      split
      · rename_i hRegistered
        simp only [succeeds, hRegistered, Bool.true_and, Option.isSome_eq_false_iff,
          Option.isNone_iff_eq_none] at hFails
        rw [hFails]
      · rfl
  | enableFd types modes =>
      simp only [exec, enableFd]
      split
      · rename_i hRegistered
        simp only [succeeds, hRegistered, Bool.true_and, Option.isSome_eq_false_iff,
          Option.isNone_iff_eq_none] at hFails
        rw [hFails]
      · rfl
  | disableFd =>
      simp only [exec, disableFd]
      split
      · rename_i hRegistered
        simp only [succeeds, hRegistered, Bool.true_and] at hFails
        split
        · rename_i hResult
          rw [hResult] at hFails
          cases hFails
        · rename_i errno hResult
          rw [hResult] at hFails
          rw [if_neg (of_decide_eq_false hFails)]
      · rfl

end FdSlot

/-- The agreement is kept in the life of a descriptor. -/
theorem FdView.Step.agrees {fd : Nat} {v v' : FdView Cb} (hOk : Ok fd v)
    (hAgrees : v.slot.Agrees) (hStep : Step TaskFaults.Kernel fd v v') :
    v'.slot.Agrees := by
  cases hStep with
  | same | opens | constructs | moves | destroys | posts => exact hAgrees
  | closes hRaw =>
      show FdSlot.Agrees { v.slot with interest := none }
      rw [(hOk.unknown hRaw).slot]
      exact FdSlot.agrees_unknown
  | executes hTasks hKernel => exact hAgrees.exec hKernel.honest

namespace EventLoop

variable {s next : EventLoop Cb}

theorem nextTask_eq_some {p : Posted Cb} (hTask : s.nextTask = some p) :
    (∃ events, s.pc = .tasks events) ∧
      ∃ rest, s.queue.rest = p :: rest := by
  unfold nextTask at hTask
  split at hTask
  · rename_i events hPc
    refine ⟨⟨events, hPc⟩, s.queue.exe.drop (s.queue.next + 1), ?_⟩
    rw [DoubleBuffer.rest, List.drop_eq_getElem?_toList_append, hTask]
    rfl
  · cases hTask

/-- The entry of the next task is within the table, which `register_fd` grows
before. -/
theorem Lives.lt_length_tableFor (hLives : Lives s) {p : Posted Cb}
    (hTask : s.nextTask = some p) : p.fd < (s.tableFor p).length := by
  obtain ⟨-, rest, hRest⟩ := nextTask_eq_some hTask
  have hPending := pending_of_rest hRest p.fd
  rw [if_pos rfl] at hPending
  have hTasks : (s.view p.fd).tasks ≠ [] := by
    intro hNil
    have hEmpty : s.pending p.fd = [] := hNil
    rw [hPending] at hEmpty
    cases hEmpty
  obtain ⟨file, hFile, hHanded, plain, last, hPlain, hHeld, hState⟩ :=
    (hLives.ok p.fd).owner (.inr hTasks)
  rcases hState with ⟨hRegistered, -⟩ | ⟨hUnknown, hQueue⟩
  · exact Nat.lt_of_lt_of_le (lt_length_of_inRegister hRegistered)
      (s.length_tableFor p)
  · have hFirst : p.task = .registerFd := by
      have hQueue : s.pending p.fd = _ := hQueue
      rw [hPending] at hQueue
      rw [(List.cons.inj hQueue).1]
    unfold tableFor
    rw [hFirst]
    exact (length_growFor _ _).1

/-- In a batch the io thread can always go on: no access is out of bounds. -/
theorem Lives.io_isSome (hLives : Lives s) (hPc : s.pc ≠ .idle)
    (faults : TaskFaults) : ∃ next, s.step (.io faults) = some next := by
  show ∃ next, s.io faults = some next
  unfold io
  split
  · exact absurd ‹_› hPc
  · exact ⟨_, rfl⟩
  · exact ⟨_, rfl⟩
  · rename_i fd file types events hScan
    have hBound := hLives.fits fd file types (by rw [hScan]; exact List.mem_cons_self)
    rw [List.getElem?_eq_getElem hBound]
    exact ⟨_, rfl⟩
  · rename_i events hTasks
    split
    · rename_i p queue hItem hQueue
      have hTask : s.nextTask = some p := by
        unfold nextTask
        rw [hTasks]
        exact hItem
      have hBound := hLives.lt_length_tableFor hTask
      rw [← Option.isSome_iff_exists]
      show (((s.tableFor p)[p.fd]?).map _).isSome = true
      rw [Option.isSome_map, List.getElem?_eq_getElem hBound]
      rfl
    · exact ⟨_, rfl⟩

theorem io_of_nextTask {faults : TaskFaults} {p : Posted Cb}
    (hTask : s.nextTask = some p) (hStep : s.io faults = some next) :
    ∃ queue, p.fd < (s.tableFor p).length ∧ next = s.afterTask faults p queue := by
  obtain ⟨⟨events, hTasks⟩, rest, hRest⟩ := nextTask_eq_some hTask
  cases ioStep hStep with
  | scanned hPc | woken hPc | dispatched hPc =>
      rw [hPc] at hTasks
      cases hTasks
  | executed hPc hTask' hRest' hBuffer hBound =>
      rw [hTask] at hTask'
      obtain rfl := Option.some.inj hTask'
      exact ⟨_, hBound, rfl⟩
  | cleared hPc hEmpty =>
      rw [hRest] at hEmpty
      cases hEmpty

/-- **The event table and the kernel agree.**  In every state of a run no access
of the io thread is out of bounds; a descriptor is in the epoll set exactly when
the table says so, then it is registered, and only then it has a callback; a
granted request sets the interest it asks for; and a task that changes the
interest and fails leaves the table and the epoll set as they were. -/
theorem table_agrees_with_kernel {actions : List (EventAction Cb)}
    (hGuard : Guarded step (AdmitsStep TaskFaults.Kernel) initial actions)
    (hRun : run step initial actions = some s) :
    (∀ faults, s.pc ≠ .idle → ∃ next, s.step (.io faults) = some next) ∧
      (∀ fd, (s.slot fd).Agrees) ∧
      ∀ faults p next, s.nextTask = some p → s.step (.io faults) = some next →
        ∃ ok, next.log = { posted := p, ok := ok } :: s.log ∧
          (∀ types modes, p.task.requested = some (types, modes) → ok = true →
            next.interest p.fd = some (epollInterest types modes)) ∧
          (p.task.Plain → ok = false → ∀ fd, next.slot fd = s.slot fd) := by
  have hInitial (fd : Nat) : ((initial : EventLoop Cb).view fd).slot.Agrees := by
    rw [((ok_initial fd).unknown rfl).slot]
    exact FdSlot.agrees_unknown
  have hSteps (fd : Nat) (v v' : FdView Cb) (hOk : FdView.Ok fd v)
      (hAgrees : v.slot.Agrees) (hStep : FdView.Step TaskFaults.Kernel fd v v') :
      v'.slot.Agrees := hStep.agrees hOk hAgrees
  obtain ⟨hLives, hAgrees⟩ :=
    run_descriptor (fun _ _ hKernel => hKernel.1) hInitial hSteps hGuard hRun
  refine ⟨fun faults hPc => hLives.io_isSome hPc faults, hAgrees, ?_⟩
  intro faults p next hTask hStep
  obtain ⟨queue, hBound, rfl⟩ := io_of_nextTask hTask hStep
  have hSlot := slot_afterTask faults queue hBound
  refine ⟨_, rfl, ?_, ?_⟩
  · intro types modes hRequested hOk
    have hInterest := congrArg FdSlot.interest (hSlot p.fd)
    rw [if_pos rfl, FdSlot.exec_requested hRequested hOk] at hInterest
    exact hInterest
  · intro hPlain hFails fd
    rw [hSlot, FdSlot.exec_of_not_succeeds hPlain hFails]
    split
    · rename_i hSame
      rw [hSame]
    · rfl

/-- Descriptor 600 is outside a new table.  Its `register_fd` grows the table, the
first `enable_fd` fails, and the second one is executed next. -/
theorem table_agrees_with_kernel_grown :
    let actions : List (EventAction Nat) :=
      [.openFd 600, .construct 600,
        .updateEventCb 0 EventType.kRead EventMode.kDefault 1,
        .updateEvent 0 EventType.kRead EventMode.kDefault,
        .start, .wait [.wake], .io {}, .io {}, .io { first := some EPIPE }]
    ∃ s p, run step initial actions = some s ∧ s.nextTask = some p ∧
      (s.slot 600).Agrees ∧
      ∃ next ok, s.step (.io {}) = some next ∧
        next.log = { posted := p, ok := ok } :: s.log ∧
        (ok = true → next.interest p.fd =
          some (epollInterest EventType.kRead EventMode.kDefault)) := by
  intro actions
  let p : Posted Nat := ⟨600, 0, .enableFd EventType.kRead EventMode.kDefault⟩
  have hRuns : Guarded step (AdmitsStep TaskFaults.Kernel) initial actions ∧
      (run step initial actions).any (fun s => s.nextTask = some p) = true := by
    decide +kernel
  obtain ⟨s, hRun, hTask⟩ := (Option.any_eq_true _ _).mp hRuns.2
  have hTask : s.nextTask = some p := of_decide_eq_true hTask
  obtain ⟨hBounds, hAgrees, hOutcome⟩ := table_agrees_with_kernel hRuns.1 hRun
  have hBusy : s.pc ≠ .idle := by
    intro hIdle
    obtain ⟨⟨events, hTasks⟩, -⟩ := nextTask_eq_some hTask
    rw [hIdle] at hTasks
    cases hTasks
  obtain ⟨next, hNext⟩ := hBounds {} hBusy
  obtain ⟨ok, hLog, hGranted, -⟩ := hOutcome {} p next hTask hNext
  exact ⟨s, p, hRun, hTask, hAgrees 600, next, ok, hNext, hLog, hGranted _ _ rfl⟩

end EventLoop
end Core
end KZEvent
