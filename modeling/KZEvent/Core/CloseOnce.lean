import KZEvent.Core.EventLoopRun
import Mathlib.Data.List.Nodup

/-!
# Who closes a descriptor

A descriptor handed to a channel is closed by `unregister_fd`, or by `~Loop()`
when that task was not executed.  `~Loop()` finds the descriptor in the table,
and `register_fd`, which puts it there, is a task as well: a descriptor whose
`register_fd` is still queued when the loop is destroyed is never closed.
-/

namespace KZEvent
namespace Core

open Foundation

variable {Cb : Type*}

/-- `close` succeeds; every other call may fail. -/
def TaskFaults.CloseSucceeds (faults : TaskFaults) (_task : FdTask Cb) : Prop :=
  faults.close = none

instance (faults : TaskFaults) (task : FdTask Cb) :
    Decidable (faults.CloseSucceeds task) :=
  inferInstanceAs (Decidable (_ = _))

namespace EventLoop

variable {s next : EventLoop Cb}

/-! ## What was closed -/

/-- Each file that was handed over is open, or the loop closed it, once. -/
structure Accounted (s : EventLoop Cb) : Prop where
  notClosed : ∀ fd file, s.file fd = some file → file ∉ s.closed
  once : ∀ file ∈ s.handed,
    (∃ fd, s.file fd = some file) ∨ s.closed.count file = 1
  closedLt : ∀ file ∈ s.closed, file < s.nextFile

theorem accounted_initial : Accounted (initial : EventLoop Cb) where
  notClosed _ _ hFile := by cases hFile
  once _ hMem := by cases hMem
  closedLt _ hMem := by cases hMem

/-- Nothing is closed, and files that were handed over stay open. -/
theorem Accounted.of_kept (hAccounted : Accounted s) (hFiles : FilesKept s next)
    (hClosed : next.closed = s.closed)
    (hOpen : ∀ fd file, s.file fd = some file → file ∈ s.handed →
      next.file fd = some file) : Accounted next where
  notClosed fd file hFile := by
    rw [hClosed]
    exact hAccounted.notClosed fd file (hFiles.file fd file hFile)
  once file hMem := by
    rw [hClosed]
    rcases hFiles.handed file hMem with hOld | ⟨fd, -, hFile⟩
    · apply (hAccounted.once file hOld).imp_left
      rintro ⟨fd, hFile⟩
      exact ⟨fd, hOpen fd file hFile hOld⟩
    · exact .inl ⟨fd, hFile⟩
  closedLt file hMem := by
    rw [hClosed] at hMem
    rw [hFiles.nextFile]
    exact hAccounted.closedLt file hMem

/-- The file a task closes was open, so it was not closed before. -/
theorem Accounted.afterTask (hAccounted : Accounted s) (hWhole : Whole s)
    (faults : TaskFaults) (p : Posted Cb) (queue : DoubleBuffer (Posted Cb)) :
    Accounted (s.afterTask faults p queue) := by
  have hFile := s.file_afterTask faults p queue
  have hClosed : (s.afterTask faults p queue).closed =
      if (p.task.closesFd && (s.slot p.fd).succeeds faults p.task) = true then
        s.closed ++ (s.file p.fd).toList
      else s.closed := rfl
  by_cases hCloses :
      (p.task.closesFd && (s.slot p.fd).succeeds faults p.task) = true
  · rw [if_pos hCloses] at hClosed
    simp only [hCloses, and_true] at hFile
    refine ⟨fun fd file hOpen hMem => ?_, fun file hMem => ?_, fun file hMem => ?_⟩
    · rw [hFile] at hOpen
      split at hOpen
      · cases hOpen
      · rename_i hOther
        rw [hClosed, List.mem_append, Option.mem_toList] at hMem
        rcases hMem with hMem | hMem
        · exact hAccounted.notClosed fd file hOpen hMem
        · exact hOther (hWhole.fileInj _ _ _ hOpen hMem)
    · rw [hClosed, List.count_append]
      rcases hAccounted.once file hMem with ⟨fd, hOpen⟩ | hOnce
      · by_cases hSame : fd = p.fd
        · -- This is the file that is closed now.
          subst hSame
          right
          rw [hOpen, List.count_eq_zero_of_not_mem (hAccounted.notClosed _ _ hOpen)]
          simp
        · left
          refine ⟨fd, ?_⟩
          rw [hFile, if_neg hSame]
          exact hOpen
      · right
        have hGone : file ∉ (s.file p.fd).toList := by
          rw [Option.mem_toList]
          intro hOpen
          have hMem := List.count_pos_iff.mp (hOnce ▸ Nat.one_pos)
          exact hAccounted.notClosed _ _ hOpen hMem
        rw [List.count_eq_zero_of_not_mem hGone, hOnce]
    · rw [hClosed, List.mem_append, Option.mem_toList] at hMem
      rcases hMem with hMem | hMem
      · exact hAccounted.closedLt file hMem
      · exact hWhole.fileLt _ _ hMem
  · rw [if_neg hCloses] at hClosed
    simp only [hCloses, Bool.false_eq_true, and_false, if_false] at hFile
    refine hAccounted.of_kept ⟨fun fd file hOpen => ?_, rfl, fun _ hMem => .inl hMem⟩
      hClosed (fun fd file hOpen _ => ?_)
    · rw [hFile] at hOpen
      exact hOpen
    · rw [hFile]
      exact hOpen

theorem Accounted.step {action : EventAction Cb} (hLives : Lives s)
    (hAccounted : Accounted s) (hStep : s.step action = some next) :
    Accounted next := by
  by_cases hOpens : ∃ fd, action = .openFd fd
  · obtain ⟨fd, rfl⟩ := hOpens
    have hUser := userStep_openFd hStep
    simp only [EventLoop.step] at hStep
    split at hStep
    · obtain rfl := Option.some.inj hStep
      refine ⟨fun fd' file hOpen hMem => ?_, fun file hMem => ?_, fun file hMem => ?_⟩
      · simp only [Function.update_apply] at hOpen
        split at hOpen
        · obtain rfl := Option.some.inj hOpen
          exact Nat.lt_irrefl _ (hAccounted.closedLt _ hMem)
        · exact hAccounted.notClosed fd' file hOpen hMem
      · apply (hAccounted.once file hMem).imp_left
        rintro ⟨fd', hOpen⟩
        exact ⟨fd', hUser.file fd' file hOpen hMem⟩
      · exact Nat.lt_succ_of_lt (hAccounted.closedLt file hMem)
    · cases hStep
  · have hAction : ∀ fd, action ≠ .openFd fd := fun fd hEq => hOpens ⟨fd, hEq⟩
    cases stepped hLives.ok hStep with
    | user hUser hIo =>
        exact hAccounted.of_kept (user_files hAction hStep hIo) hUser.closed hUser.file
    | waited hPc hReport => exact ⟨hAccounted.1, hAccounted.2, hAccounted.3⟩
    | io hIo =>
        cases hIo with
        | scanned | woken | dispatched | cleared =>
            exact ⟨hAccounted.1, hAccounted.2, hAccounted.3⟩
        | executed hPc hTask hRest hBuffer hBound =>
            exact hAccounted.afterTask hLives.whole _ _ _

theorem accounted_run {actions : List (EventAction Cb)}
    (hGuard : Guarded step (AdmitsStep TaskFaults.CloseSucceeds) initial actions)
    (hRun : run step initial actions = some s) : Lives s ∧ Accounted s :=
  run_invariant_of_lives (fun _ _ hClose => hClose) accounted_initial
    (fun _ _ _ hLives hAccounted _ hStep => hAccounted.step hLives hStep) hGuard hRun

/-- What was handed over is held by a channel, or about to be closed, or closed. -/
theorem Lives.held_or_closed (hLives : Lives s) (hAccounted : Accounted s) {file : Nat}
    (hMem : file ∈ s.handed) :
    (∃ c ∈ s.channels, (∃ fd, c.validFd = some fd) ∧ c.file = file) ∨
      (∃ fd, s.file fd = some file ∧ ∃ p ∈ s.pending fd, p.task = .unregisterFd) ∨
        s.closed.count file = 1 := by
  rcases hAccounted.once file hMem with ⟨fd, hFile⟩ | hOnce
  · have hHanded : (s.view fd).handed = true := by simp [view, hFile, hMem]
    cases hLives.ok fd with
    | closed hOpen hRaw | raw hOpen hRaw =>
        rw [hHanded] at hRaw
        cases hRaw
    | owned hOpen hTrue hOwned =>
        rename_i file'
        have hOpen : s.file fd = some file' := hOpen
        rw [hFile] at hOpen
        obtain rfl := Option.some.inj hOpen
        obtain ⟨plain, last, -, hHeld, hState⟩ := hOwned
        rcases hHeld with ⟨hHolders, -⟩ | ⟨-, rfl⟩
        · have hHolder : file ∈ holders s.channels fd := by
            rw [show holders s.channels fd = [file] from hHolders]
            exact List.mem_singleton_self _
          obtain ⟨c, hChannel, hValid, hSame⟩ := mem_holders.mp hHolder
          exact .inl ⟨c, hChannel, ⟨fd, hValid⟩, hSame⟩
        · have hQueued : Posted.mk fd file .unregisterFd ∈ s.pending fd := by
            show _ ∈ (s.view fd).tasks
            rcases hState with ⟨-, hTasks⟩ | ⟨-, hTasks⟩ <;> simp [hTasks]
          exact .inr (.inl ⟨fd, hFile, _, hQueued, rfl⟩)
  · exact .inr (.inr hOnce)

/-! ## The destructor -/

/-- The files under the descriptors of `fds` that the table holds. -/
def registeredFiles (s : EventLoop Cb) (fds : List Nat) : List Nat :=
  fds.flatMap fun fd =>
    if (s.slot fd).event.inRegister then (s.file fd).toList else []

theorem mem_registeredFiles {fds : List Nat} {file : Nat} :
    file ∈ s.registeredFiles fds ↔
      ∃ fd ∈ fds, (s.slot fd).event.inRegister = true ∧ s.file fd = some file := by
  simp only [registeredFiles, List.mem_flatMap]
  refine exists_congr fun fd => and_congr_right fun _ => ?_
  split
  · rename_i hRegistered
    simp [hRegistered]
  · rename_i hFree
    simp [hFree]

theorem nodup_registeredFiles (hWhole : Whole s) {fds : List Nat}
    (hNodup : fds.Nodup) : (s.registeredFiles fds).Nodup := by
  refine List.nodup_flatMap.mpr ⟨fun fd _ => ?_, hNodup.imp ?_⟩
  · split
    · cases s.file fd <;> simp
    · exact List.nodup_nil
  · intro fd fd' hOther file hMem hMem'
    have hOpen {fd : Nat} (hMem : file ∈ if (s.slot fd).event.inRegister = true
        then (s.file fd).toList else []) : s.file fd = some file := by
      split at hMem
      · exact Option.mem_toList.mp hMem
      · cases hMem
    exact hOther (hWhole.fileInj _ _ _ (hOpen hMem) (hOpen hMem'))

/-- `~Loop()` closes the file of each registered descriptor. -/
theorem closed_destruct (s : EventLoop Cb) :
    s.destruct.closed =
      s.closed ++ s.registeredFiles (List.range s.events.length) := by
  have hFold (fds : List Nat) (hNodup : fds.Nodup) (t : EventLoop Cb)
      (hSlot : ∀ fd, t.slot fd = s.slot fd) (hFile : ∀ fd ∈ fds, t.file fd = s.file fd) :
      (fds.foldl (fun s fd =>
        if (s.slot fd).event.inRegister then
          { s with
            file := Function.update s.file fd none
            closed := s.closed ++ (s.file fd).toList }
        else s) t).closed = t.closed ++ s.registeredFiles fds := by
    induction fds generalizing t with
    | nil => exact (List.append_nil _).symm
    | cons fd fds ih =>
        rw [List.nodup_cons] at hNodup
        rw [List.forall_mem_cons] at hFile
        rw [List.foldl_cons]
        unfold registeredFiles at ih ⊢
        rw [List.flatMap_cons]
        split
        · rename_i hRegistered
          rw [hSlot] at hRegistered
          have hLater : ∀ fd' ∈ fds,
              Function.update t.file fd none fd' = s.file fd' := by
            intro fd' hMem
            have hOther : fd' ≠ fd := by
              rintro rfl
              exact hNodup.1 hMem
            exact (Function.update_of_ne hOther _ _).trans (hFile.2 fd' hMem)
          refine (ih hNodup.2 { t with
            file := Function.update t.file fd none
            closed := t.closed ++ (t.file fd).toList } hSlot hLater).trans ?_
          rw [if_pos hRegistered, hFile.1, List.append_assoc]
        · rename_i hFree
          rw [hSlot] at hFree
          rw [if_neg hFree, List.nil_append, ih hNodup.2 t hSlot hFile.2]
  exact hFold _ List.nodup_range s (fun _ => rfl) (fun _ _ => rfl)

/-- The destructor closes the file of a registered descriptor. -/
theorem count_closed_destruct_of_registered (hWhole : Whole s) {fd file : Nat}
    (hFile : s.file fd = some file)
    (hRegistered : (s.slot fd).event.inRegister = true) :
    s.destruct.closed.count file = s.closed.count file + 1 := by
  have hMem : file ∈ s.registeredFiles (List.range s.events.length) :=
    mem_registeredFiles.mpr ⟨fd,
      List.mem_range.mpr (lt_length_of_inRegister hRegistered), hRegistered, hFile⟩
  rw [closed_destruct, List.count_append,
    List.count_eq_one_of_mem (nodup_registeredFiles hWhole List.nodup_range) hMem]

/-- It closes nothing else. -/
theorem count_closed_destruct_of_free {file : Nat}
    (hFree : ∀ fd, s.file fd = some file →
      (s.slot fd).event.inRegister = false) :
    s.destruct.closed.count file = s.closed.count file := by
  have hNot : file ∉ s.registeredFiles (List.range s.events.length) := by
    rw [mem_registeredFiles]
    rintro ⟨fd, -, hRegistered, hFile⟩
    rw [hFree fd hFile] at hRegistered
    cases hRegistered
  rw [closed_destruct, List.count_append, List.count_eq_zero_of_not_mem hNot,
    Nat.add_zero]

/-! ## Registered, or to be registered -/

/-- A descriptor that was handed over and is not closed is registered, or its
`register_fd` is queued. -/
theorem Lives.registered_or_queued (hLives : Lives s) {fd file : Nat}
    (hFile : s.file fd = some file) (hMem : file ∈ s.handed) :
    (s.slot fd).event.inRegister = true ∨
      ∃ p ∈ s.pending fd, p.task = .registerFd := by
  have hHanded : (s.view fd).handed = true := by simp [view, hFile, hMem]
  cases hLives.ok fd with
  | closed hOpen hRaw | raw hOpen hRaw =>
      rw [hHanded] at hRaw
      cases hRaw
  | owned hOpen hTrue hOwned =>
      obtain ⟨plain, last, -, -, hState⟩ := hOwned
      apply hState.imp And.left
      rintro ⟨-, hTasks⟩
      rename_i file'
      refine ⟨⟨fd, file', .registerFd⟩, ?_, rfl⟩
      show _ ∈ (s.view fd).tasks
      rw [hTasks]
      exact List.mem_cons_self

/-- Until `register_fd` is executed the table knows nothing of the descriptor. -/
theorem Lives.of_registerFd_queued (hLives : Lives s) {fd : Nat} {p : Posted Cb}
    (hQueued : p ∈ s.pending fd) (hTask : p.task = .registerFd) :
    ∃ file, s.file fd = some file ∧ file ∈ s.handed ∧ s.slot fd = .unknown := by
  obtain ⟨file, hFile, hHanded, plain, last, hPlain, hHeld, hState⟩ :=
    (hLives.ok fd).owner (.inr (List.ne_nil_of_mem hQueued))
  have hFile : s.file fd = some file := hFile
  refine ⟨file, hFile, by simpa [view, hFile] using hHanded, ?_⟩
  rcases hState with ⟨-, hTasks⟩ | ⟨hUnknown, -⟩
  · have hTasks : s.pending fd = (plain ++ last).map (Posted.mk fd file) := hTasks
    rw [hTasks] at hQueued
    obtain ⟨task, hIn, rfl⟩ := List.mem_map.mp hQueued
    have hRegister : task = .registerFd := hTask
    subst hRegister
    rcases List.mem_append.mp hIn with hIn | hIn
    · exact (hPlain _ hIn).elim
    · rcases hHeld with ⟨-, rfl⟩ | ⟨-, rfl⟩
      · cases hIn
      · cases List.mem_singleton.mp hIn
  · exact hUnknown

/-- **When every descriptor is closed exactly once.**  At the end of a run in
which `close` succeeds, with the io thread joined, the destructor of the loop
completes this for every descriptor that was handed to a channel if and only if
no `register_fd` is left in the queue. -/
theorem closed_once_iff {actions : List (EventAction Cb)}
    (hGuard : Guarded step (AdmitsStep TaskFaults.CloseSucceeds) initial actions)
    (hRun : run step initial actions = some s) (hPc : s.pc = .idle) :
    (∀ file ∈ s.handed, s.destruct.closed.count file = 1) ↔
      ∀ p ∈ s.queue.buffer, p.task ≠ .registerFd := by
  obtain ⟨hLives, hAccounted⟩ := accounted_run hGuard hRun
  have hIdle := hLives.whole.idle (fun _ hTasks => by rw [hPc] at hTasks; cases hTasks)
  have hPending (fd : Nat) : s.pending fd = s.queue.buffer.filter (·.fd = fd) := by
    rw [pending, hIdle.rest_eq_nil, List.nil_append]
  constructor
  · intro hOnce p hMem hTask
    have hQueued : p ∈ s.pending p.fd := by
      rw [hPending]
      exact List.mem_filter.mpr ⟨hMem, by simp⟩
    obtain ⟨file, hFile, hHanded, hUnknown⟩ :=
      hLives.of_registerFd_queued hQueued hTask
    -- The file is open, so it was not closed, and the table does not know it.
    have hNever : s.destruct.closed.count file = 0 := by
      rw [count_closed_destruct_of_free,
        List.count_eq_zero_of_not_mem (hAccounted.notClosed _ _ hFile)]
      intro fd hFile'
      obtain rfl := hLives.whole.fileInj _ _ _ hFile hFile'
      rw [hUnknown]
      rfl
    have hCount := hOnce file hHanded
    omega
  · intro hNone file hMem
    rcases hAccounted.once file hMem with ⟨fd, hFile⟩ | hOnce
    · have hRegistered := (hLives.registered_or_queued hFile hMem).resolve_right (by
        rintro ⟨p, hQueued, hTask⟩
        rw [hPending] at hQueued
        exact hNone p (List.mem_of_mem_filter hQueued) hTask)
      rw [count_closed_destruct_of_registered hLives.whole hFile hRegistered,
        List.count_eq_zero_of_not_mem (hAccounted.notClosed _ _ hFile)]
    · rw [count_closed_destruct_of_free, hOnce]
      intro fd hFile
      have hIn := List.count_pos_iff.mp (hOnce ▸ Nat.one_pos)
      exact absurd hIn (hAccounted.notClosed _ _ hFile)

/-- A loop that ran until its only channel was registered, and is stopped before
the channel is destroyed. -/
theorem closed_once_iff_stopped :
    let actions : List (EventAction Nat) :=
      [.openFd 5, .construct 5, .start, .wait [.wake], .io {}, .io {}, .io {},
        .io {}, .stop, .destroy 0]
    ∃ s, run step initial actions = some s ∧ s.channels = [] ∧ s.handed = [0] ∧
      ∀ file ∈ s.handed, s.destruct.closed.count file = 1 := by
  intro actions
  have hRuns : Guarded step (AdmitsStep TaskFaults.CloseSucceeds) initial actions ∧
      (run step initial actions).any (fun s => s.pc = .idle ∧ s.channels = [] ∧
        s.handed = [0] ∧ ∀ p ∈ s.queue.buffer, p.task ≠ .registerFd) = true := by
    decide +kernel
  obtain ⟨s, hRun, hReached⟩ := (Option.any_eq_true _ _).mp hRuns.2
  obtain ⟨hPc, hChannels, hHanded, hNone⟩ := of_decide_eq_true hReached
  exact ⟨s, hRun, hChannels, hHanded,
    (closed_once_iff hRuns.1 hRun hPc).mpr hNone⟩

/-- The loop is never started: the channel is constructed and destroyed, both of
its tasks stay queued, and its descriptor is never closed. -/
theorem never_started_leaks :
    ¬ ∀ (actions : List (EventAction Unit)) (s : EventLoop Unit),
      Guarded step (AdmitsStep TaskFaults.CloseSucceeds) initial actions →
        run step initial actions = some s → s.channels = [] → s.pc = .idle →
          ∀ file ∈ s.handed, s.destruct.closed.count file = 1 := by
  intro hAlways
  let actions : List (EventAction Unit) := [.openFd 5, .construct 5, .destroy 0]
  have hRuns : Guarded step (AdmitsStep TaskFaults.CloseSucceeds) initial actions ∧
      (run step initial actions).any (fun s => s.pc = .idle ∧ s.channels = [] ∧
        0 ∈ s.handed ∧ s.closed = [] ∧ s.file 5 = some 0 ∧
        (s.slot 5).event.inRegister = false) = true := by
    decide +kernel
  obtain ⟨s, hRun, hReached⟩ := (Option.any_eq_true _ _).mp hRuns.2
  obtain ⟨hPc, hChannels, hHanded, hClosed, hFile, hFree⟩ :=
    of_decide_eq_true hReached
  obtain ⟨hLives, -⟩ := accounted_run hRuns.1 hRun
  have hNever : s.destruct.closed.count 0 = 0 := by
    rw [count_closed_destruct_of_free, hClosed]
    · rfl
    · intro fd hFile'
      obtain rfl := hLives.whole.fileInj _ _ _ hFile hFile'
      exact hFree
  have hOnce := hAlways actions s hRuns.1 hRun hChannels hPc 0 hHanded
  rw [hNever] at hOnce
  cases hOnce

end EventLoop
end Core
end KZEvent
