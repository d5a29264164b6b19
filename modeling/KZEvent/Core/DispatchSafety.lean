import KZEvent.Core.EventLoopRun

/-!
# Events reach the channel they were reported for

Between `epoll_wait` and the dispatch of an event, the tasks of a wake event in
the same batch are executed.  They may close the descriptor of the event, and the
kernel may hand its number out again; a new channel may even have queued its own
callback by then.  But what the new channel queues goes into the buffer, and the
buffer is taken over at most once in a batch, before the close.  So at the number
of a closed descriptor there is no callback until the batch is done.
-/

namespace KZEvent
namespace Core

open Foundation

variable {Cb : Type*}

/-- `close` and the `EPOLL_CTL_DEL` of `disable_fd` succeed. -/
def TaskFaults.Deletes (faults : TaskFaults) (task : FdTask Cb) : Prop :=
  faults.close = none ∧ (task.requested = none → faults.first = none)

instance (faults : TaskFaults) (task : FdTask Cb) :
    Decidable (faults.Deletes task) :=
  inferInstanceAs (Decidable (_ ∧ _))

/-- Whether an executed task installed a callback or was to take it away. -/
def Executed.ChangesCb (entry : Executed Cb) : Prop :=
  entry.posted.task = .disableFd ∨
    (entry.ok = true ∧
      ∃ types modes cb, entry.posted.task = .enableFdCb types modes cb)

/-- Of the executed tasks of the registration `file` of `fd`, the last one first,
a successful `enable_fd` installed `cb`, and later ones neither installed a
callback nor were a `disable_fd`. -/
def Installed (fd file : Nat) (cb : Cb) (log : List (Executed Cb)) : Prop :=
  ∃ later earlier types modes,
    log = later ++ ⟨⟨fd, file, .enableFdCb types modes cb⟩, true⟩ :: earlier ∧
      ∀ entry ∈ later, entry.posted.file = file → ¬ entry.ChangesCb

theorem Installed.cons {fd file : Nat} {cb : Cb} {log : List (Executed Cb)}
    (hInstalled : Installed fd file cb log) {entry : Executed Cb}
    (hKeeps : ¬ entry.ChangesCb) : Installed fd file cb (entry :: log) := by
  obtain ⟨later, earlier, types, modes, rfl, hLater⟩ := hInstalled
  refine ⟨entry :: later, earlier, types, modes, rfl, ?_⟩
  rw [List.forall_mem_cons]
  exact ⟨fun _ => hKeeps, hLater⟩

namespace FdSlot

variable {slot : FdSlot Cb} {faults : TaskFaults} {task : FdTask Cb}

/-- Where the callback of an entry comes from: the task installs it, or it was
there and the task leaves it. -/
theorem exec_cb_eq_some {cb : Cb} (hSlot : slot.CbRegistered)
    (hDeletes : faults.Deletes task)
    (hCb : (slot.exec faults task).event.cb = some cb) :
    (slot.succeeds faults task = true ∧
        ∃ types modes, task = .enableFdCb types modes cb) ∨
      (slot.event.cb = some cb ∧ task ≠ .disableFd ∧ task ≠ .unregisterFd ∧
        ∀ types modes cb, task = .enableFdCb types modes cb →
          slot.succeeds faults task = false) := by
  cases task with
  | registerFd => exact .inr ⟨hCb, by simp, by simp, by simp⟩
  | unregisterFd =>
      have hNone : (slot.exec faults .unregisterFd).event.cb = none := by
        by_cases hRegistered : slot.event.inRegister = true
        · simp only [exec, unregisterFd, hRegistered, if_true, hDeletes.1]
          rfl
        · have hNone : slot.event.cb = none := by
            by_contra hSome
            exact hRegistered (hSlot hSome)
          simp only [exec, unregisterFd, hRegistered]
          exact hNone
      rw [hNone] at hCb
      cases hCb
  | disableFd =>
      rw [exec_disableFd_cb hSlot (hDeletes.2 rfl)] at hCb
      cases hCb
  | enableFd types modes =>
      refine .inr ⟨?_, by simp, by simp, by simp⟩
      simp only [exec, enableFd] at hCb
      split at hCb
      · split at hCb <;> exact hCb
      · exact hCb
  | enableFdCb types modes cb' =>
      simp only [exec, enableFdCb] at hCb
      split at hCb
      · rename_i hRegistered
        split at hCb
        · rename_i interest hSet
          obtain rfl := Option.some.inj hCb
          exact .inl ⟨by simp [succeeds, hRegistered, hSet], types, modes, rfl⟩
        · rename_i hSet
          exact .inr ⟨hCb, by simp, by simp,
            fun _ _ _ _ => by simp [succeeds, hSet]⟩
      · rename_i hRegistered
        exact .inr ⟨hCb, by simp, by simp,
          fun _ _ _ _ => by simp [succeeds, hRegistered]⟩

end FdSlot

namespace FdView

variable {fd : Nat} {v v' : FdView Cb}

/-- The first queued task is one of the current registration. -/
theorem Ok.head {p : Posted Cb} {rest : List (Posted Cb)} (hOk : Ok fd v)
    (hTasks : v.tasks = p :: rest) :
    v.file = some p.file ∧ p = ⟨fd, p.file, p.task⟩ ∧ v.slot.CbRegistered := by
  obtain ⟨file, hFile, -, plain, last, -, -, hState⟩ :=
    hOk.owner (.inr (by rw [hTasks]; nofun))
  have hMem : ∀ tasks : List (FdTask Cb), v.tasks = tasks.map (Posted.mk fd file) →
      p = ⟨fd, file, p.task⟩ := by
    intro tasks hMap
    have hHead : p ∈ v.tasks := hTasks ▸ List.mem_cons_self
    rw [hMap] at hHead
    obtain ⟨task, -, rfl⟩ := List.mem_map.mp hHead
    rfl
  rcases hState with ⟨hRegistered, hQueue⟩ | ⟨hUnknown, hQueue⟩
  · have hPosted := hMem _ hQueue
    rw [hPosted]
    exact ⟨hFile, rfl, fun _ => hRegistered⟩
  · have hPosted := hMem _ hQueue
    rw [hPosted, hUnknown]
    exact ⟨hFile, rfl, FdSlot.cbRegistered_unknown⟩

/-- The callback of the entry is the one installed for the current file. -/
def CbCurrent (fd : Nat) (v : FdView Cb) : Prop :=
  ∀ cb, v.slot.event.cb = some cb →
    ∃ file, v.file = some file ∧ Installed fd file cb v.log

theorem cbCurrent_of_unknown (hUnknown : v.slot = .unknown) : CbCurrent fd v := by
  intro cb hCb
  rw [hUnknown] at hCb
  cases hCb

theorem CbCurrent.step (hOk : Ok fd v) (hCurrent : CbCurrent fd v)
    (hStep : Step TaskFaults.Deletes fd v v') : CbCurrent fd v' := by
  cases hStep with
  | same | moves | destroys | posts => exact hCurrent
  | opens hClosed =>
      cases hOk with
      | closed hFile hHanded hUnknown => exact cbCurrent_of_unknown hUnknown.slot
      | raw hFile | owned hFile =>
          rw [hClosed] at hFile
          cases hFile
  | closes hRaw =>
      apply cbCurrent_of_unknown
      show { v.slot with interest := none } = FdSlot.unknown
      rw [(hOk.unknown hRaw).slot]
      rfl
  | constructs hFile hRaw => exact cbCurrent_of_unknown (hOk.unknown hRaw).slot
  | executes hTasks hDeletes =>
      rename_i faults p rest
      obtain ⟨hFile, hPosted, hSlot⟩ := hOk.head hTasks
      intro cb hCb
      rcases FdSlot.exec_cb_eq_some hSlot hDeletes hCb with
        ⟨hOk, types, modes, hTask⟩ | ⟨hOld, hDisable, hUnregister, hInstall⟩
      · refine ⟨p.file, ?_, [], v.log, types, modes, ?_, nofun⟩
        · simp [executed, hTask, FdTask.closesFd, hFile]
        · rw [← hTask, ← hPosted]
          simp [executed, hOk]
      · obtain ⟨file, hOpen, hInstalled⟩ := hCurrent cb hOld
        have hCloses : p.task.closesFd = false := by
          cases hTask : p.task with
          | unregisterFd => exact absurd hTask hUnregister
          | registerFd | enableFdCb | enableFd | disableFd => rfl
        refine ⟨file, ?_, hInstalled.cons ?_⟩
        · simp [executed, hCloses, hOpen]
        · rintro (hTask | ⟨hOk, types, modes, cb', hTask⟩)
          · exact hDisable hTask
          · have hFails := hInstall types modes cb' hTask
            rw [hFails] at hOk
            cases hOk

end FdView

namespace EventLoop

variable {s next : EventLoop Cb}

/-- `io_executor` is at an event of `fd`, which was reported for `file`, and
invokes the callback `cb` of the entry. -/
def Invokes (s : EventLoop Cb) (fd file : Nat) (types : EpollEvents) (cb : Cb) :
    Prop :=
  (∃ events, s.pc = .scan (.ready fd file types :: events)) ∧
    ∃ event, s.events[fd]? = some event ∧ event.cb = some cb

/-- Each event that is left of the batch is about the file under its number; or
the file is gone, and nothing at that number can change during the batch. -/
structure Fresh (s : EventLoop Cb) : Prop where
  wakes : s.pc.events.count .wake ≤ 1
  woken : ∀ events, s.pc = .tasks events → .wake ∉ events
  current : ∀ fd file types, .ready fd file types ∈ s.pc.events →
    (s.file fd = some file ∧ file ∈ s.handed) ∨
      (.wake ∉ s.pc.events ∧ s.slot fd = .unknown ∧
        ∀ p ∈ s.queue.rest, p.fd ≠ fd)

theorem fresh_initial : Fresh (initial : EventLoop Cb) where
  wakes := Nat.zero_le _
  woken _ hPc := by cases hPc
  current _ _ _ hMem := by cases hMem

theorem UserStep.fresh (hUser : UserStep s next) (hFresh : Fresh s) :
    Fresh next := by
  have hRest : next.queue.rest = s.queue.rest := by
    unfold DoubleBuffer.rest
    rw [hUser.exe, hUser.position]
  constructor
  · rw [hUser.pc]
    exact hFresh.wakes
  · rw [hUser.pc]
    exact hFresh.woken
  · intro fd file types hMem
    rw [hUser.pc] at hMem ⊢
    rw [hUser.slot, hRest]
    apply (hFresh.current fd file types hMem).imp_left
    rintro ⟨hFile, hHanded⟩
    exact ⟨hUser.file fd file hFile hHanded, hUser.handed file hHanded⟩

/-- What `epoll_wait` reports is registered. -/
theorem Lives.fresh_waited (hLives : Lives s) {batch : List Reported}
    (hReport : s.CanReport batch) : Fresh { s with pc := .scan batch } where
  wakes := hReport.1
  woken _ hPc := by cases hPc
  current fd file types hMem := by
    obtain ⟨hInterest, hFile⟩ := hReport.2 _ hMem
    have hSlot : s.slot fd ≠ .unknown := by
      intro hUnknown
      exact hInterest (congrArg FdSlot.interest hUnknown)
    obtain ⟨file', hFile', hHanded, -⟩ := hLives.inRegister hSlot
    rw [hFile] at hFile'
    obtain rfl := Option.some.inj hFile'
    exact .inl ⟨hFile, hHanded⟩

/-- An executed task closes the file of an event, or it leaves it. -/
theorem Fresh.executed (hFresh : Fresh s) {faults : TaskFaults}
    {p : Posted Cb} {queue : DoubleBuffer (Posted Cb)} {events : List Reported}
    (hPc : s.pc = .tasks events) (hRest : s.queue.rest = p :: queue.rest)
    (hBound : p.fd < (s.tableFor p).length)
    (hLives : Lives (s.afterTask faults p queue)) :
    Fresh (s.afterTask faults p queue) := by
  refine ⟨hFresh.wakes, hFresh.woken, ?_⟩
  intro fd file types hMem
  have hWoken : .wake ∉ s.pc.events := by
    rw [hPc]
    exact hFresh.woken _ hPc
  rcases hFresh.current fd file types hMem with
    ⟨hFile, hHanded⟩ | ⟨-, hUnknown, hNone⟩
  · cases hOpen : (s.afterTask faults p queue).file fd with
    | some file' =>
        rw [file_afterTask] at hOpen
        split at hOpen
        · cases hOpen
        · rw [← hOpen]
          exact .inl ⟨hFile, hHanded⟩
    | none =>
        -- The descriptor was closed, so nothing is queued for it.
        have hGone := (hLives.ok fd).unknown (by simp [view, hOpen])
        refine .inr ⟨hWoken, hGone.slot, fun q hMem hFd => ?_⟩
        have hQueued : q ∈ (s.afterTask faults p queue).pending fd :=
          List.mem_filter.mpr ⟨List.mem_append_left _ hMem, by simpa using hFd⟩
        have hEmpty : (s.afterTask faults p queue).pending fd = [] := hGone.tasks
        rw [hEmpty] at hQueued
        cases hQueued
  · rw [hRest, List.forall_mem_cons] at hNone
    refine .inr ⟨hWoken, ?_, hNone.2⟩
    rw [slot_afterTask faults queue hBound, if_neg (Ne.symm hNone.1)]
    exact hUnknown

theorem Fresh.step {action : EventAction Cb} (hLives : Lives s)
    (hNext : Lives next) (hFresh : Fresh s) (hStep : s.step action = some next) :
    Fresh next := by
  cases stepped hLives.ok hStep with
  | user hUser => exact hUser.fresh hFresh
  | waited hPc hReport => exact hLives.fresh_waited hReport
  | io hIo =>
      cases hIo with
      | scanned hPc =>
          exact ⟨Nat.zero_le _, nofun, nofun⟩
      | woken hPc =>
          rename_i events
          have hWakes := hFresh.wakes
          rw [hPc] at hWakes
          have hLast : Reported.wake ∉ events := by
            intro hMem
            have hMore := List.count_pos_iff.mpr hMem
            simp only [EventPc.events, List.count_cons_self] at hWakes
            omega
          refine ⟨?_, fun _ hTasks => ?_, ?_⟩
          · show events.count .wake ≤ 1
            rw [List.count_eq_zero_of_not_mem hLast]
            exact Nat.zero_le 1
          · cases hTasks
            exact hLast
          · intro fd file types hMem
            -- Before the wake event no file of the batch was closed.
            have hOld := hFresh.current fd file types (by
              rw [hPc]
              exact List.mem_cons_of_mem _ hMem)
            refine .inl (hOld.resolve_right fun hGone => hGone.1 ?_)
            rw [hPc]
            exact List.mem_cons_self
      | dispatched hPc hBound =>
          rename_i fd file types events
          have hWakes := hFresh.wakes
          rw [hPc] at hWakes
          refine ⟨?_, nofun, ?_⟩
          · exact le_trans (List.count_le_count_cons) hWakes
          · intro fd' file' types' hMem
            have hOld := hFresh.current fd' file' types' (by
              rw [hPc]
              exact List.mem_cons_of_mem _ hMem)
            apply hOld.imp_right
            rintro ⟨hWoken, hGone⟩
            rw [hPc] at hWoken
            exact ⟨fun hWake => hWoken (List.mem_cons_of_mem _ hWake), hGone⟩
      | executed hPc hTask hRest hBuffer hBound =>
          exact hFresh.executed hPc hRest hBound hNext
      | cleared hPc hRest =>
          rename_i events
          have hWoken := hFresh.woken _ hPc
          have hCurrent := hFresh.current
          rw [hPc, hRest] at hCurrent
          refine ⟨?_, nofun, hCurrent⟩
          show events.count .wake ≤ 1
          rw [List.count_eq_zero_of_not_mem hWoken]
          exact Nat.zero_le 1

/-- **Dispatch is safe although descriptor numbers are used again.**  Whenever
`io_executor` invokes a callback, the event was reported for the file that is now
open under the number and registered; and the callback is the one installed by
the last successful `enable_fd` with a callback of this registration, with no
`disable_fd` after it. -/
theorem invokes_current {actions : List (EventAction Cb)} {fd file : Nat}
    {types : EpollEvents} {cb : Cb}
    (hGuard : Guarded step (AdmitsStep TaskFaults.Deletes) initial actions)
    (hRun : run step initial actions = some s)
    (hInvokes : s.Invokes fd file types cb) :
    s.file fd = some file ∧ file ∈ s.handed ∧
      (s.slot fd).event.inRegister = true ∧
      Installed fd file cb (s.log.filter (·.posted.fd = fd)) := by
  have hCloses : Closes (@TaskFaults.Deletes Cb) :=
    fun _ _ hDeletes => hDeletes.1
  obtain ⟨hLives, hCurrent⟩ := run_descriptor hCloses
    (fun fd => FdView.cbCurrent_of_unknown ((ok_initial fd).unknown rfl).slot)
    (fun _ _ _ hOk hCurrent hStep => hCurrent.step hOk hStep) hGuard hRun
  obtain ⟨-, hFresh⟩ := run_invariant_of_lives hCloses fresh_initial
    (fun s action next hLives hFresh hAdmits hStep =>
      hFresh.step hLives (hLives.step hCloses hAdmits hStep) hStep) hGuard hRun
  obtain ⟨⟨events, hPc⟩, event, hEvent, hCb⟩ := hInvokes
  have hSlotCb : (s.slot fd).event.cb = some cb := by
    show (s.events.getD fd .initial).cb = some cb
    rw [List.getD_eq_getElem?_getD, hEvent]
    exact hCb
  have hKnown : s.slot fd ≠ .unknown := by
    intro hUnknown
    rw [hUnknown] at hSlotCb
    cases hSlotCb
  have hMem : .ready fd file types ∈ s.pc.events := by
    rw [hPc]
    exact List.mem_cons_self
  obtain ⟨hFile, hHanded⟩ := (hFresh.current fd file types hMem).resolve_right
    (fun hGone => hKnown hGone.2.1)
  obtain ⟨file', hFile', hInstalled⟩ := hCurrent fd cb hSlotCb
  have hFile' : s.file fd = some file' := hFile'
  rw [hFile] at hFile'
  obtain rfl := Option.some.inj hFile'
  obtain ⟨_, -, -, hRegistered⟩ := hLives.inRegister hKnown
  exact ⟨hFile, hHanded, hRegistered, hInstalled⟩

/-- Descriptor 5 is closed between the report of its event and the place of that
event in the batch, and its number is handed to a second channel at once.  The
event of the first file invokes nothing; an event of the second one does. -/
theorem invokes_current_reused :
    let register : List (EventAction Nat) :=
      [.wait [.wake], .io {}, .io {}, .io {}, .io {}, .io {}]
    let actions : List (EventAction Nat) :=
      [.openFd 5, .construct 5,
        .updateEventCb 0 EventType.kRead EventMode.kDefault 1, .start] ++
      register ++
      [.destroy 0, .wait [.wake, .ready 5 0 EPOLLIN], .io {}, .io {},
        .openFd 5, .construct 5,
        .updateEventCb 0 EventType.kRead EventMode.kDefault 2,
        .io {}, .io {}, .io {}] ++
      register ++ [.wait [.ready 5 1 EPOLLIN]]
    ∃ s, run step initial actions = some s ∧ s.Invokes 5 1 EPOLLIN 2 ∧
      s.file 5 = some 1 ∧ 1 ∈ s.handed ∧
      (s.slot 5).event.inRegister = true ∧
      Installed 5 1 2 (s.log.filter (·.posted.fd = 5)) := by
  intro register actions
  have hRuns : Guarded step (AdmitsStep TaskFaults.Deletes) initial actions ∧
      (run step initial actions).any (fun s =>
        s.pc = .scan [.ready 5 1 EPOLLIN] ∧
          (s.events[5]?).any (·.cb = some 2) = true) = true := by
    decide +kernel
  obtain ⟨s, hRun, hReached⟩ := (Option.any_eq_true _ _).mp hRuns.2
  obtain ⟨hPc, hEvent⟩ := of_decide_eq_true hReached
  obtain ⟨event, hEvent, hCb⟩ := (Option.any_eq_true _ _).mp hEvent
  have hInvokes : s.Invokes 5 1 EPOLLIN 2 :=
    ⟨⟨[], hPc⟩, event, hEvent, of_decide_eq_true hCb⟩
  exact ⟨s, hRun, hInvokes, invokes_current hRuns.1 hRun hInvokes⟩

end EventLoop
end Core
end KZEvent
