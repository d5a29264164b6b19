import KZEvent.Core.EventLoopLife

/-!
# Runs of the loop, descriptor by descriptor

A step of the loop is a step of the user, the begin of a batch, or a step of the
io thread.  The first kind touches neither the table nor the tasks that are being
executed.  The third kind executes a task or goes on in the batch.

All of them are steps in the life of every descriptor, so an invariant of that
life holds for every descriptor at the end of every run.
-/

namespace KZEvent
namespace Core

open Foundation

variable {Cb : Type*} {Admits : TaskFaults → FdTask Cb → Prop}

/-! ## The table -/

theorem length_growFor (events : List (Event Cb)) (fd : Nat) :
    fd < (growFor events fd).length ∧
      events.length ≤ (growFor events fd).length := by
  unfold growFor
  split
  · simp only [length_resize]
    split <;> omega
  · omega

/-- Growing the table changes no entry. -/
theorem getD_growFor (events : List (Event Cb)) (fd fd' : Nat) :
    (growFor events fd).getD fd' .initial = events.getD fd' .initial := by
  unfold growFor
  split
  · exact getD_resize (by split <;> omega) _
  · rfl

namespace EventLoop

variable {s next : EventLoop Cb}

theorem getD_tableFor (s : EventLoop Cb) (p : Posted Cb) (fd : Nat) :
    (s.tableFor p).getD fd .initial = s.events.getD fd .initial := by
  unfold tableFor
  split
  · exact getD_growFor _ _ _
  · rfl

theorem length_tableFor (s : EventLoop Cb) (p : Posted Cb) :
    s.events.length ≤ (s.tableFor p).length := by
  unfold tableFor
  split
  · exact (length_growFor _ _).2
  · exact le_rfl

/-- An entry that says something is within the table. -/
theorem lt_length_of_inRegister {fd : Nat}
    (hRegistered : (s.slot fd).event.inRegister = true) :
    fd < s.events.length := by
  by_contra hOutside
  have hInitial : s.events.getD fd .initial = .initial := by
    rw [List.getD_eq_getElem?_getD, List.getElem?_eq_none (by omega)]
    rfl
  simp only [slot, hInitial] at hRegistered
  cases hRegistered

/-! ## The steps of the io thread -/

/-- The loop after the task `p`, when `queue` is left. -/
def afterTask (s : EventLoop Cb) (faults : TaskFaults) (p : Posted Cb)
    (queue : DoubleBuffer (Posted Cb)) : EventLoop Cb :=
  let after := (s.slot p.fd).exec faults p.task
  let ok := (s.slot p.fd).succeeds faults p.task
  let closes := p.task.closesFd && ok
  { s with
    events := (s.tableFor p).set p.fd after.event
    interest := Function.update s.interest p.fd after.interest
    file := if closes then Function.update s.file p.fd none else s.file
    closed := if closes then s.closed ++ (s.file p.fd).toList else s.closed
    queue := queue
    log := { posted := p, ok := ok } :: s.log }

theorem execTask_eq {faults : TaskFaults} {p : Posted Cb}
    {queue : DoubleBuffer (Posted Cb)}
    (hExec : ({ s with queue := queue } : EventLoop Cb).execTask faults p =
      some next) :
    p.fd < (s.tableFor p).length ∧ next = s.afterTask faults p queue := by
  obtain ⟨event, hEvent, rfl⟩ := Option.map_eq_some_iff.mp hExec
  have hTable : (s.tableFor p)[p.fd]? = some event := hEvent
  have hSame : event = (s.slot p.fd).event := by
    show event = s.events.getD p.fd .initial
    rw [← s.getD_tableFor p, List.getD_eq_getElem?_getD, hTable]
    rfl
  subst hSame
  exact ⟨(List.getElem?_eq_some_iff.mp hTable).1, rfl⟩

/-- A step of the io thread. -/
inductive IoStep (s : EventLoop Cb) (faults : TaskFaults) : EventLoop Cb → Prop
  | scanned (hPc : s.pc = .scan []) : IoStep s faults { s with pc := .idle }
  | woken {events : List Reported} (hPc : s.pc = .scan (.wake :: events)) :
      IoStep s faults { s with pc := .tasks events, queue := s.queue.swap }
  | dispatched {fd file : Nat} {types : EpollEvents} {events : List Reported}
      (hPc : s.pc = .scan (.ready fd file types :: events))
      (hBound : fd < s.events.length) :
      IoStep s faults { s with pc := .scan events }
  | executed {events : List Reported} {p : Posted Cb}
      {queue : DoubleBuffer (Posted Cb)} (hPc : s.pc = .tasks events)
      (hTask : s.nextTask = some p) (hRest : s.queue.rest = p :: queue.rest)
      (hBuffer : queue.buffer = s.queue.buffer)
      (hBound : p.fd < (s.tableFor p).length) :
      IoStep s faults (s.afterTask faults p queue)
  | cleared {events : List Reported} (hPc : s.pc = .tasks events)
      (hRest : s.queue.rest = []) :
      IoStep s faults { s with pc := .scan events, queue := s.queue.clear }

theorem ioStep {faults : TaskFaults} (hStep : s.io faults = some next) :
    IoStep s faults next := by
  unfold io at hStep
  split at hStep
  · cases hStep
  · obtain rfl := Option.some.inj hStep
    exact .scanned ‹_›
  · obtain rfl := Option.some.inj hStep
    exact .woken ‹_›
  · obtain ⟨event, hEvent, rfl⟩ := Option.map_eq_some_iff.mp hStep
    exact .dispatched ‹_› (List.getElem?_eq_some_iff.mp hEvent).1
  · rename_i events hPc
    split at hStep
    · rename_i p queue hItem hQueue
      obtain ⟨item, hRest, rfl⟩ := DoubleBuffer.execute_spec hQueue
      have hSame : item = p := by
        have hHead : s.queue.rest.head? = some p := by
          rw [DoubleBuffer.rest, List.head?_drop, hItem]
        rw [hRest] at hHead
        exact Option.some.inj hHead
      subst hSame
      obtain ⟨hBound, rfl⟩ := execTask_eq hStep
      refine .executed hPc ?_ hRest rfl hBound
      unfold nextTask
      rw [hPc]
      exact hItem
    · rename_i hNone
      obtain rfl := Option.some.inj hStep
      refine .cleared hPc ?_
      rw [← DoubleBuffer.execute_eq_none_iff]
      cases hQueue : s.queue.execute with
      | none => rfl
      | some queue =>
          obtain ⟨item, hItem, -⟩ := Option.map_eq_some_iff.mp hQueue
          exact (hNone item queue hItem hQueue).elim

/-! ## What a task leaves -/

variable {faults : TaskFaults} {p : Posted Cb} {queue : DoubleBuffer (Posted Cb)}

theorem slot_afterTask (faults : TaskFaults) (queue : DoubleBuffer (Posted Cb))
    (hBound : p.fd < (s.tableFor p).length) (fd : Nat) :
    (s.afterTask faults p queue).slot fd =
      if fd = p.fd then (s.slot p.fd).exec faults p.task else s.slot fd := by
  unfold slot afterTask
  simp only [List.getD_eq_getElem?_getD]
  split
  · rename_i hSame
    subst hSame
    rw [List.getElem?_set_self hBound, Function.update_self]
    rfl
  · rename_i hOther
    rw [List.getElem?_set_ne (Ne.symm hOther), Function.update_of_ne hOther,
      ← List.getD_eq_getElem?_getD, getD_tableFor, List.getD_eq_getElem?_getD]

theorem file_afterTask (s : EventLoop Cb) (faults : TaskFaults) (p : Posted Cb)
    (queue : DoubleBuffer (Posted Cb)) (fd : Nat) :
    (s.afterTask faults p queue).file fd =
      if fd = p.fd ∧
          (p.task.closesFd && (s.slot p.fd).succeeds faults p.task) = true
        then none else s.file fd := by
  show (if _ = true then Function.update s.file p.fd none else s.file) fd = _
  generalize (p.task.closesFd && (s.slot p.fd).succeeds faults p.task) = closes
  cases closes with
  | false => simp
  | true =>
      by_cases hSame : fd = p.fd
      · simp [hSame]
      · simp [hSame]

theorem pending_of_rest {rest : List (Posted Cb)} (hRest : s.queue.rest = p :: rest)
    (fd : Nat) : s.pending fd =
      if p.fd = fd then p :: (rest ++ s.queue.buffer).filter (·.fd = fd)
      else (rest ++ s.queue.buffer).filter (·.fd = fd) := by
  unfold pending
  rw [hRest, List.cons_append, List.filter_cons]
  simp

theorem log_afterTask (s : EventLoop Cb) (faults : TaskFaults) (p : Posted Cb)
    (queue : DoubleBuffer (Posted Cb)) (fd : Nat) :
    (s.afterTask faults p queue).log.filter (·.posted.fd = fd) =
      if p.fd = fd then
        { posted := p, ok := (s.slot p.fd).succeeds faults p.task } ::
          s.log.filter (·.posted.fd = fd)
      else s.log.filter (·.posted.fd = fd) := by
  simp [afterTask, List.filter_cons]

/-- An executed task is a step in the life of its descriptor. -/
theorem step_afterTask (hAdmits : Admits faults p.task)
    (hRest : s.queue.rest = p :: queue.rest)
    (hBuffer : queue.buffer = s.queue.buffer)
    (hBound : p.fd < (s.tableFor p).length) (fd : Nat) :
    FdView.Step Admits fd (s.view fd)
      ((s.afterTask faults p queue).view fd) := by
  have hTasks := pending_of_rest hRest fd
  have hSlot := slot_afterTask faults queue hBound fd
  have hFile := s.file_afterTask faults p queue fd
  have hLog := s.log_afterTask faults p queue fd
  have hLeft : (s.afterTask faults p queue).pending fd =
      (queue.rest ++ s.queue.buffer).filter (·.fd = fd) := by
    rw [← hBuffer]
    rfl
  by_cases hSame : p.fd = fd
  · subst hSame
    rw [if_pos rfl] at hTasks hSlot hLog
    have hView : (s.afterTask faults p queue).view p.fd =
        (s.view p.fd).executed faults p
          ((queue.rest ++ s.queue.buffer).filter (·.fd = p.fd)) := by
      unfold FdView.executed
      ext1
      · show (s.afterTask faults p queue).file p.fd = _
        rw [hFile]
        simp only [true_and]
        rfl
      · show ((s.afterTask faults p queue).file p.fd).any (· ∈ s.handed) = _
        rw [hFile]
        simp only [true_and]
        split
        · rename_i hCloses
          exact (if_pos hCloses).symm
        · rename_i hStays
          exact (if_neg hStays).symm
      · rfl
      · exact hLeft
      · exact hSlot
      · exact hLog
    rw [hView]
    exact .executes hTasks hAdmits
  · rw [if_neg hSame] at hTasks hLog
    rw [if_neg (Ne.symm hSame)] at hSlot
    rw [if_neg (fun hEq => hSame hEq.1.symm)] at hFile
    have hView : (s.afterTask faults p queue).view fd = s.view fd := by
      ext1
      · exact hFile
      · show ((s.afterTask faults p queue).file fd).any (· ∈ s.handed) = _
        rw [hFile]
        rfl
      · rfl
      · exact hLeft.trans hTasks.symm
      · exact hSlot
      · exact hLog
    rw [hView]
    exact .same _

theorem step_io (hWhole : Whole s)
    (hAdmits : ∀ p ∈ s.nextTask, Admits faults p.task)
    (hStep : s.io faults = some next) (fd : Nat) :
    FdView.Step Admits fd (s.view fd) (next.view fd) := by
  have hSameTasks (hTasks : next.pending fd = s.pending fd)
      (hNext : next.view fd = { s.view fd with tasks := next.pending fd }) :
      FdView.Step Admits fd (s.view fd) (next.view fd) := by
    rw [hNext, hTasks]
    exact .same _
  cases ioStep hStep with
  | scanned hPc | dispatched hPc hBound => exact .same _
  | woken hPc =>
      have hIdle := hWhole.idle (fun _ hTasks => by rw [hPc] at hTasks; cases hTasks)
      refine hSameTasks ?_ rfl
      show (s.queue.swap.rest ++ s.queue.exe).filter _ = _
      rw [pending, hIdle.rest_eq_nil, hIdle.1, List.append_nil]
      rfl
  | executed hPc hTask hRest hBuffer hBound =>
      exact step_afterTask (hAdmits _ hTask) hRest hBuffer hBound fd
  | cleared hPc hRest =>
      refine hSameTasks ?_ rfl
      show ([] ++ s.queue.buffer).filter _ = _
      rw [pending, hRest]

/-! ## The steps of the user -/

/-- A step of the user: the table, the tasks that are being executed and the
position in the batch stay, and so do the files that were handed over. -/
structure UserStep (s next : EventLoop Cb) : Prop where
  events : next.events = s.events
  exe : next.queue.exe = s.queue.exe
  position : next.queue.next = s.queue.next
  pc : next.pc = s.pc
  log : next.log = s.log
  closed : next.closed = s.closed
  slot : ∀ fd, next.slot fd = s.slot fd
  handed : ∀ file ∈ s.handed, file ∈ next.handed
  file : ∀ fd file, s.file fd = some file → file ∈ s.handed →
    next.file fd = some file

/-- The channels, the buffer and the flag may change, and files may be handed
over. -/
theorem userStep_with (s : EventLoop Cb) {channels : List LoopChannel}
    {queue : DoubleBuffer (Posted Cb)} {running : Bool} {handed : List Nat}
    (hExe : queue.exe = s.queue.exe) (hPosition : queue.next = s.queue.next)
    (hHanded : ∀ file ∈ s.handed, file ∈ handed) :
    UserStep s { s with
      channels := channels
      queue := queue
      running := running
      handed := handed } :=
  ⟨rfl, hExe, hPosition, rfl, rfl, rfl, fun _ => rfl, hHanded,
    fun _ _ hFile _ => hFile⟩

theorem userStep_construct {fd : Nat} (hStep : s.construct fd = some next) :
    UserStep s next := by
  unfold construct at hStep
  split at hStep
  · cases hStep
  · split at hStep
    · cases hStep
    · obtain rfl := Option.some.inj hStep
      exact userStep_with s rfl rfl (fun _ hMem => List.mem_append_left _ hMem)

/-- A change of the channels, with what a channel posts. -/
theorem userStep_postFrom (s : EventLoop Cb) (c : LoopChannel)
    (task : FdTask Cb) (channels : List LoopChannel) :
    UserStep s { s.postFrom c task with channels := channels } := by
  unfold postFrom
  split <;> exact userStep_with s rfl rfl (fun _ hMem => hMem)

theorem userStep_swap {first second : Nat}
    (hStep : s.swap first second = some next) : UserStep s next := by
  unfold swap at hStep
  split at hStep
  · split at hStep <;>
      · obtain rfl := Option.some.inj hStep
        exact userStep_with s rfl rfl (fun _ hMem => hMem)
  · cases hStep

theorem userStep_update {index : Nat} {types : EventType} {modes : EventMode}
    {task : FdTask Cb} (hStep : s.update index types modes task = some next) :
    UserStep s next := by
  obtain ⟨c, -, rfl⟩ := Option.map_eq_some_iff.mp hStep
  split <;> exact userStep_with s rfl rfl (fun _ hMem => hMem)

theorem userStep_openFd {fd : Nat} (hStep : s.step (.openFd fd) = some next) :
    UserStep s next := by
  simp only [step] at hStep
  split at hStep
  · rename_i hClosed
    obtain rfl := Option.some.inj hStep
    refine ⟨rfl, rfl, rfl, rfl, rfl, rfl, fun _ => rfl, fun _ hMem => hMem, ?_⟩
    intro fd' file hFile hMem
    have hOther : fd' ≠ fd := by
      rintro rfl
      rw [hClosed] at hFile
      cases hFile
    exact (Function.update_of_ne hOther _ _).trans hFile
  · cases hStep

/-- The user closes only descriptors the loop has nothing to do with. -/
theorem userStep_closeFd {fd : Nat} (hOk : FdView.Ok fd (s.view fd))
    (hStep : s.step (.closeFd fd) = some next) : UserStep s next := by
  simp only [step] at hStep
  split at hStep
  · cases hStep
  · rename_i file hFile
    split at hStep
    · cases hStep
    · rename_i hRaw
      obtain rfl := Option.some.inj hStep
      have hUnknown := hOk.unknown (by simp [view, hFile, hRaw])
      have hInterest : s.interest fd = none := congrArg FdSlot.interest hUnknown.slot
      refine ⟨rfl, rfl, rfl, rfl, rfl, rfl, ?_, fun _ hMem => hMem, ?_⟩
      · intro fd'
        show FdSlot.mk _ (Function.update s.interest fd none fd') = s.slot fd'
        rw [← hInterest, Function.update_eq_self]
        rfl
      · intro fd' file' hFile' hMem
        have hOther : fd' ≠ fd := by
          rintro rfl
          rw [hFile] at hFile'
          exact hRaw (Option.some.inj hFile' ▸ hMem)
        exact (Function.update_of_ne hOther _ _).trans hFile'

/-! ## All steps -/

theorem step_openFd (hWhole : Whole s) {fd : Nat}
    (hStep : s.step (.openFd fd) = some next) (fd' : Nat) :
    FdView.Step Admits fd' (s.view fd') (next.view fd') := by
  simp only [step] at hStep
  split at hStep
  · rename_i hClosed
    obtain rfl := Option.some.inj hStep
    by_cases hSame : fd' = fd
    · subst hSame
      have hView : view { s with
            file := Function.update s.file fd' (some s.nextFile)
            nextFile := s.nextFile + 1 } fd' =
          { s.view fd' with file := some s.nextFile, handed := false } := by
        have hFresh : s.nextFile ∉ s.handed := by
          intro hMem
          exact Nat.lt_irrefl _ (hWhole.handedLt _ hMem)
        ext1
        · exact Function.update_self _ _ _
        · show (Function.update s.file fd' (some s.nextFile) fd').any _ = false
          rw [Function.update_self]
          simp [hFresh]
        all_goals rfl
      rw [hView]
      exact .opens hClosed
    · have hView : view { s with
            file := Function.update s.file fd (some s.nextFile)
            nextFile := s.nextFile + 1 } fd' = s.view fd' := by
        ext1
        · exact Function.update_of_ne hSame _ _
        · show (Function.update s.file fd (some s.nextFile) fd').any _ = _
          rw [Function.update_of_ne hSame]
          rfl
        all_goals rfl
      rw [hView]
      exact .same _
  · cases hStep

theorem step_closeFd {fd : Nat} (hStep : s.step (.closeFd fd) = some next)
    (fd' : Nat) : FdView.Step Admits fd' (s.view fd') (next.view fd') := by
  simp only [step] at hStep
  split at hStep
  · cases hStep
  · rename_i file hFile
    split at hStep
    · cases hStep
    · rename_i hRaw
      obtain rfl := Option.some.inj hStep
      by_cases hSame : fd' = fd
      · subst hSame
        have hView : view { s with
              file := Function.update s.file fd' none
              interest := Function.update s.interest fd' none } fd' =
            { s.view fd' with
              file := none
              handed := false
              slot := { (s.view fd').slot with interest := none } } := by
          ext1
          · exact Function.update_self _ _ _
          · show (Function.update s.file fd' none fd').any _ = false
            rw [Function.update_self]
            rfl
          · rfl
          · rfl
          · show FdSlot.mk _ (Function.update s.interest fd' none fd') = _
            rw [Function.update_self]
            rfl
          · rfl
        rw [hView]
        exact .closes (by simp [view, hFile, hRaw])
      · have hView : view { s with
              file := Function.update s.file fd none
              interest := Function.update s.interest fd none } fd' =
            s.view fd' := by
          ext1
          · exact Function.update_of_ne hSame _ _
          · show (Function.update s.file fd none fd').any _ = _
            rw [Function.update_of_ne hSame]
            rfl
          · rfl
          · rfl
          · show FdSlot.mk _ (Function.update s.interest fd none fd') = _
            rw [Function.update_of_ne hSame]
            rfl
          · rfl
        rw [hView]
        exact .same _

/-- The faults of the task that a step executes are those admitted. -/
def AdmitsStep (Admits : TaskFaults → FdTask Cb → Prop) (s : EventLoop Cb) :
    EventAction Cb → Prop
  | .io faults => ∀ p ∈ s.nextTask, Admits faults p.task
  | _ => True

instance (Admits : TaskFaults → FdTask Cb → Prop)
    [∀ faults task, Decidable (Admits faults task)] (s : EventLoop Cb)
    (action : EventAction Cb) : Decidable (s.AdmitsStep Admits action) :=
  match action with
  | .io _ => inferInstanceAs (Decidable (∀ p ∈ _, _))
  | .openFd _ | .closeFd _ | .construct _ | .moveConstruct _ | .swap _ _
  | .destroy _ | .updateEventCb _ _ _ _ | .updateEvent _ _ _ | .disableEvent _
  | .start | .stop | .wait _ => .isTrue trivial

/-- **Each step of the loop is a step in the life of every descriptor.** -/
theorem step_view (hWhole : Whole s) {action : EventAction Cb}
    (hAdmits : s.AdmitsStep Admits action) (hStep : s.step action = some next)
    (fd : Nat) : FdView.Step Admits fd (s.view fd) (next.view fd) := by
  cases action with
  | openFd fd' => exact step_openFd hWhole hStep fd
  | closeFd fd' => exact step_closeFd hStep fd
  | construct fd' => exact step_construct hWhole hStep fd
  | moveConstruct index => exact step_moveConstruct hStep fd
  | swap first second => exact step_swap hStep fd
  | destroy index => exact step_destroy hStep fd
  | updateEventCb index types modes cb => exact step_update (by trivial) hStep fd
  | updateEvent index types modes => exact step_update (by trivial) hStep fd
  | disableEvent index => exact step_disableEvent hStep fd
  | start =>
      simp only [step] at hStep
      split at hStep
      · obtain rfl := Option.some.inj hStep
        exact .same _
      · cases hStep
  | stop =>
      obtain rfl := Option.some.inj hStep
      exact .same _
  | wait batch =>
      simp only [step] at hStep
      split at hStep
      · obtain rfl := Option.some.inj hStep
        exact .same _
      · cases hStep
  | io faults => exact step_io hWhole hAdmits hStep fd

/-- A step, by what it leaves alone. -/
inductive Stepped (s : EventLoop Cb) : EventAction Cb → EventLoop Cb → Prop
  | user {action : EventAction Cb} {next : EventLoop Cb} (hUser : UserStep s next)
      (hAction : ∀ faults, action ≠ .io faults) : Stepped s action next
  | waited {batch : List Reported} (hPc : s.pc = .idle)
      (hReport : s.CanReport batch) :
      Stepped s (.wait batch) { s with pc := .scan batch }
  | io {faults : TaskFaults} {next : EventLoop Cb} (hIo : IoStep s faults next) :
      Stepped s (.io faults) next

theorem stepped (hOk : ∀ fd, FdView.Ok fd (s.view fd)) {action : EventAction Cb}
    (hStep : s.step action = some next) : Stepped s action next := by
  cases action with
  | openFd fd => exact .user (userStep_openFd hStep) nofun
  | closeFd fd => exact .user (userStep_closeFd (hOk fd) hStep) nofun
  | construct fd => exact .user (userStep_construct hStep) nofun
  | moveConstruct index =>
      obtain ⟨other, -, rfl⟩ := Option.map_eq_some_iff.mp hStep
      exact .user (userStep_with s rfl rfl (fun _ hMem => hMem)) nofun
  | swap first second => exact .user (userStep_swap hStep) nofun
  | destroy index =>
      obtain ⟨c, -, rfl⟩ := Option.map_eq_some_iff.mp hStep
      exact .user (userStep_postFrom s c _ _) nofun
  | updateEventCb index types modes cb => exact .user (userStep_update hStep) nofun
  | updateEvent index types modes => exact .user (userStep_update hStep) nofun
  | disableEvent index =>
      obtain ⟨c, -, rfl⟩ := Option.map_eq_some_iff.mp hStep
      exact .user (userStep_postFrom s c .disableFd _) nofun
  | start =>
      simp only [step] at hStep
      split at hStep
      · obtain rfl := Option.some.inj hStep
        exact .user (userStep_with s rfl rfl (fun _ hMem => hMem)) nofun
      · cases hStep
  | stop =>
      obtain rfl := Option.some.inj hStep
      exact .user (userStep_with s rfl rfl (fun _ hMem => hMem)) nofun
  | wait batch =>
      simp only [step] at hStep
      split at hStep
      · rename_i hWait
        obtain rfl := Option.some.inj hStep
        exact .waited hWait.2.1 hWait.2.2
      · cases hStep
  | io faults => exact .io (ioStep hStep)

/-! ## The loop as a whole -/

theorem UserStep.idle (hUser : UserStep s next) (hWhole : Whole s)
    (hPc : ∀ events, next.pc ≠ .tasks events) : next.queue.Idle := by
  rw [hUser.pc] at hPc
  have hIdle := hWhole.idle hPc
  exact ⟨hUser.exe.trans hIdle.1, hUser.position.trans hIdle.2⟩

/-- What the steps of the user change of the files: they open none here, and hand
over only open ones. -/
structure FilesKept (s next : EventLoop Cb) : Prop where
  file : ∀ fd file, next.file fd = some file → s.file fd = some file
  nextFile : next.nextFile = s.nextFile
  handed : ∀ file ∈ next.handed,
    file ∈ s.handed ∨ ∃ fd, s.file fd = some file ∧ next.file fd = some file

theorem user_files {action : EventAction Cb}
    (hAction : ∀ fd, action ≠ .openFd fd) (hStep : s.step action = some next)
    (hIo : ∀ faults, action ≠ .io faults) : FilesKept s next := by
  have hSame (hFile : next.file = s.file) (hNextFile : next.nextFile = s.nextFile)
      (hHanded : next.handed = s.handed) : FilesKept s next :=
    ⟨fun _ _ hOpen => hFile ▸ hOpen, hNextFile, fun _ hMem => .inl (hHanded ▸ hMem)⟩
  have hUpdate {index : Nat} {types : EventType} {modes : EventMode}
      {task : FdTask Cb} (hStep : s.update index types modes task = some next) :
      next.file = s.file ∧ next.nextFile = s.nextFile ∧ next.handed = s.handed := by
    obtain ⟨c, -, rfl⟩ := Option.map_eq_some_iff.mp hStep
    split <;> exact ⟨rfl, rfl, rfl⟩
  cases action with
  | openFd fd => exact absurd rfl (hAction fd)
  | io faults => exact absurd rfl (hIo faults)
  | closeFd fd =>
      simp only [step] at hStep
      split at hStep
      · cases hStep
      · split at hStep
        · cases hStep
        · obtain rfl := Option.some.inj hStep
          refine ⟨fun fd' file hOpen => ?_, rfl, fun _ hMem => .inl hMem⟩
          simp only [Function.update_apply] at hOpen
          split at hOpen
          · cases hOpen
          · exact hOpen
  | construct fd =>
      simp only [step, construct] at hStep
      split at hStep
      · cases hStep
      · rename_i file hFile
        split at hStep
        · cases hStep
        · obtain rfl := Option.some.inj hStep
          refine ⟨fun _ _ hOpen => hOpen, rfl, fun file' hMem => ?_⟩
          rcases List.mem_append.mp hMem with hMem | hMem
          · exact .inl hMem
          · obtain rfl := List.mem_singleton.mp hMem
            exact .inr ⟨fd, hFile, hFile⟩
  | moveConstruct index =>
      obtain ⟨other, -, rfl⟩ := Option.map_eq_some_iff.mp hStep
      exact hSame rfl rfl rfl
  | swap first second =>
      simp only [step, swap] at hStep
      split at hStep
      · split at hStep <;>
          · obtain rfl := Option.some.inj hStep
            exact hSame rfl rfl rfl
      · cases hStep
  | destroy index =>
      obtain ⟨c, -, rfl⟩ := Option.map_eq_some_iff.mp hStep
      exact hSame (postFrom_file ..) (postFrom_nextFile ..) (postFrom_handed ..)
  | updateEventCb index types modes | updateEvent index types modes =>
      obtain ⟨hFile, hNextFile, hHanded⟩ := hUpdate hStep
      exact hSame hFile hNextFile hHanded
  | disableEvent index =>
      obtain ⟨c, -, rfl⟩ := Option.map_eq_some_iff.mp hStep
      exact hSame (postFrom_file ..) (postFrom_nextFile ..) (postFrom_handed ..)
  | start | wait =>
      simp only [step] at hStep
      split at hStep
      · obtain rfl := Option.some.inj hStep
        exact hSame rfl rfl rfl
      · cases hStep
  | stop =>
      obtain rfl := Option.some.inj hStep
      exact hSame rfl rfl rfl

theorem IoStep.files (hIo : IoStep s faults next) : FilesKept s next := by
  cases hIo with
  | scanned | woken | dispatched | cleared =>
      exact ⟨fun _ _ hOpen => hOpen, rfl, fun _ hMem => .inl hMem⟩
  | executed hPc hTask hRest hBuffer hBound =>
      refine ⟨fun fd file hOpen => ?_, rfl, fun _ hMem => .inl hMem⟩
      rw [file_afterTask] at hOpen
      split at hOpen
      · cases hOpen
      · exact hOpen

theorem Whole.of_files (hWhole : Whole s) (hFiles : FilesKept s next)
    (hIdle : (∀ events, next.pc ≠ .tasks events) → next.queue.Idle) :
    Whole next where
  fileLt fd file hOpen := by
    rw [hFiles.nextFile]
    exact hWhole.fileLt fd file (hFiles.file fd file hOpen)
  fileInj fd fd' file hOpen hOpen' :=
    hWhole.fileInj fd fd' file (hFiles.file fd file hOpen)
      (hFiles.file fd' file hOpen')
  handedLt file hMem := by
    rw [hFiles.nextFile]
    rcases hFiles.handed file hMem with hMem | ⟨fd, hOpen, -⟩
    · exact hWhole.handedLt file hMem
    · exact hWhole.fileLt fd file hOpen
  idle := hIdle

/-- Outside the execution of tasks the queue of the executor is empty. -/
theorem IoStep.idle (hIo : IoStep s faults next) (hWhole : Whole s)
    (hPc : ∀ events, next.pc ≠ .tasks events) : next.queue.Idle := by
  cases hIo with
  | scanned hScan | dispatched hScan =>
      exact hWhole.idle (fun _ hTasks => by rw [hScan] at hTasks; cases hTasks)
  | woken hScan => exact absurd rfl (hPc _)
  | executed hTasks => exact absurd hTasks (hPc _)
  | cleared hTasks hRest => exact DoubleBuffer.idle_clear _

theorem Whole.step (hWhole : Whole s) (hOk : ∀ fd, FdView.Ok fd (s.view fd))
    {action : EventAction Cb} (hStep : s.step action = some next) :
    Whole next := by
  by_cases hOpens : ∃ fd, action = .openFd fd
  · obtain ⟨fd, rfl⟩ := hOpens
    have hUser := userStep_openFd hStep
    have hIdle := hUser.idle hWhole
    simp only [EventLoop.step] at hStep
    split at hStep
    · obtain rfl := Option.some.inj hStep
      refine ⟨fun fd' file hOpen => ?_, fun fd₁ fd₂ file hOpen₁ hOpen₂ => ?_,
        fun file hMem => Nat.lt_succ_of_lt (hWhole.handedLt file hMem), hIdle⟩
      · simp only [Function.update_apply] at hOpen
        split at hOpen
        · obtain rfl := Option.some.inj hOpen
          exact Nat.lt_succ_self _
        · exact Nat.lt_succ_of_lt (hWhole.fileLt fd' file hOpen)
      · -- The new file has a number that no open file has.
        have hNew {fd' : Nat} (hOpen : s.file fd' = some s.nextFile) : False :=
          Nat.lt_irrefl _ (hWhole.fileLt _ _ hOpen)
        simp only [Function.update_apply] at hOpen₁ hOpen₂
        split at hOpen₁ <;> split at hOpen₂
        · rename_i hFirst hSecond
          exact hFirst.trans hSecond.symm
        · obtain rfl := Option.some.inj hOpen₁
          exact (hNew hOpen₂).elim
        · obtain rfl := Option.some.inj hOpen₂
          exact (hNew hOpen₁).elim
        · exact hWhole.fileInj _ _ _ hOpen₁ hOpen₂
    · cases hStep
  · have hAction : ∀ fd, action ≠ .openFd fd := fun fd hEq => hOpens ⟨fd, hEq⟩
    cases stepped hOk hStep with
    | io hIo => exact hWhole.of_files hIo.files (hIo.idle hWhole)
    | waited hPc hReport =>
        have hIdle := hWhole.idle (fun _ hTasks => by rw [hPc] at hTasks; cases hTasks)
        exact hWhole.of_files
          ⟨fun _ _ hOpen => hOpen, rfl, fun _ hMem => .inl hMem⟩ (fun _ => hIdle)
    | user hUser hIo =>
        exact hWhole.of_files (user_files hAction hStep hIo) (hUser.idle hWhole)

/-! ## Runs -/

/-- The events of the batch are within the table. -/
def Fits (s : EventLoop Cb) : Prop :=
  ∀ fd file types, .ready fd file types ∈ s.pc.events → fd < s.events.length

/-- What holds in every state of a run. -/
structure Lives (s : EventLoop Cb) : Prop where
  whole : Whole s
  ok : ∀ fd, FdView.Ok fd (s.view fd)
  fits : Fits s

theorem ok_initial (fd : Nat) :
    FdView.Ok fd ((initial : EventLoop Cb).view fd) := by
  refine .closed rfl rfl ⟨rfl, rfl, ?_⟩
  show FdSlot.mk ((List.replicate _ Event.initial).getD fd .initial) none = .unknown
  rw [List.getD_eq_getElem?_getD, List.getElem?_replicate]
  split <;> rfl

theorem lives_initial : Lives (initial : EventLoop Cb) where
  whole := whole_initial
  ok := ok_initial
  fits _ _ _ hMem := by cases hMem

/-- A descriptor in the epoll set is registered. -/
theorem Lives.inRegister (hLives : Lives s) {fd : Nat}
    (hSlot : s.slot fd ≠ .unknown) :
    ∃ file, s.file fd = some file ∧ file ∈ s.handed ∧
      (s.slot fd).event.inRegister = true := by
  cases hLives.ok fd with
  | closed hFile hHanded hUnknown | raw hFile hHanded hUnknown =>
      exact absurd hUnknown.slot hSlot
  | owned hFile hHanded hOwned =>
      rename_i file
      have hOpen : s.file fd = some file := hFile
      have hMem : file ∈ s.handed := by simpa [view, hOpen] using hHanded
      obtain ⟨plain, last, hPlain, hHeld, hState⟩ := hOwned
      rcases hState with ⟨hRegistered, -⟩ | ⟨hUnknown, -⟩
      · exact ⟨file, hOpen, hMem, hRegistered⟩
      · exact absurd hUnknown hSlot

/-- A channel holds an open descriptor that was handed over. -/
theorem Lives.file_of_channel (hLives : Lives s) {c : LoopChannel} {fd : Nat}
    (hMem : c ∈ s.channels) (hValid : c.validFd = some fd) :
    s.file fd = some c.file ∧ c.file ∈ s.handed := by
  have hHolder : c.file ∈ (s.view fd).holders := mem_holders.mpr ⟨c, hMem, hValid, rfl⟩
  obtain ⟨file, hFile, hHanded, hOwned⟩ :=
    (hLives.ok fd).owner (.inl (List.ne_nil_of_mem hHolder))
  obtain ⟨hSame, -, -⟩ := hOwned.of_holder hHolder
  have hOpen : s.file fd = some c.file := by
    rw [hSame]
    exact hFile
  exact ⟨hOpen, by simpa [view, hOpen] using hHanded⟩

theorem IoStep.events_subset (hIo : IoStep s faults next) :
    next.pc.events ⊆ s.pc.events ∧ s.events.length ≤ next.events.length := by
  cases hIo with
  | scanned hPc => exact ⟨List.nil_subset _, le_rfl⟩
  | woken hPc | dispatched hPc =>
      rw [hPc]
      exact ⟨List.subset_cons_self _ _, le_rfl⟩
  | executed hPc =>
      refine ⟨List.Subset.refl _, ?_⟩
      show _ ≤ ((s.tableFor _).set _ _).length
      rw [List.length_set]
      exact s.length_tableFor _
  | cleared hPc =>
      rw [hPc]
      exact ⟨List.Subset.refl _, le_rfl⟩

theorem Lives.fits_step (hLives : Lives s) {action : EventAction Cb}
    (hStep : s.step action = some next) : Fits next := by
  intro fd file types hMem
  cases stepped hLives.ok hStep with
  | user hUser =>
      rw [hUser.pc] at hMem
      rw [hUser.events]
      exact hLives.fits fd file types hMem
  | waited hPc hReport =>
      -- What `epoll_wait` reports is in the epoll set, so it is registered.
      have hReady := hReport.2 _ hMem
      have hSlot : s.slot fd ≠ .unknown := by
        intro hUnknown
        exact hReady.1 (congrArg FdSlot.interest hUnknown)
      obtain ⟨_, -, -, hRegistered⟩ := hLives.inRegister hSlot
      exact lt_length_of_inRegister hRegistered
  | io hIo =>
      obtain ⟨hEvents, hLength⟩ := hIo.events_subset
      exact Nat.lt_of_lt_of_le (hLives.fits fd file types (hEvents hMem)) hLength

/-- A guard under which every `close` succeeds. -/
def Closes (Admits : TaskFaults → FdTask Cb → Prop) : Prop :=
  ∀ faults task, Admits faults task → faults.close = none

theorem Lives.step (hCloses : Closes Admits) (hLives : Lives s)
    {action : EventAction Cb} (hAdmits : s.AdmitsStep Admits action)
    (hStep : s.step action = some next) : Lives next where
  whole := hLives.whole.step hLives.ok hStep
  ok fd := (hLives.ok fd).step hCloses (step_view hLives.whole hAdmits hStep fd)
  fits := hLives.fits_step hStep

/-- **Invariant rule.**  Over a run in which every `close` succeeds, an invariant
of the loop may rely on what holds in every state. -/
theorem run_invariant_of_lives (hCloses : Closes Admits)
    {Inv : EventLoop Cb → Prop} (hInitial : Inv initial)
    (hInvariant : ∀ s action next, Lives s → Inv s →
      s.AdmitsStep Admits action → s.step action = some next → Inv next)
    {actions : List (EventAction Cb)}
    (hGuard : Guarded step (AdmitsStep Admits) initial actions)
    (hRun : run step initial actions = some s) : Lives s ∧ Inv s := by
  have hBoth (s : EventLoop Cb) (action : EventAction Cb) (next : EventLoop Cb)
      (hInv : Lives s ∧ Inv s) (hAdmits : s.AdmitsStep Admits action)
      (hStep : s.step action = some next) : Lives next ∧ Inv next :=
    ⟨hInv.1.step hCloses hAdmits hStep,
      hInvariant s action next hInv.1 hInv.2 hAdmits hStep⟩
  exact run_invariant hBoth ⟨lives_initial, hInitial⟩ hGuard hRun

/-- **Descriptor rule.**  An invariant of the life of a descriptor holds for
every descriptor at the end of every run. -/
theorem run_descriptor (hCloses : Closes Admits)
    {Inv : Nat → FdView Cb → Prop} (hInitial : ∀ fd, Inv fd (view initial fd))
    (hInvariant : ∀ fd v v', FdView.Ok fd v → Inv fd v →
      FdView.Step Admits fd v v' → Inv fd v')
    {actions : List (EventAction Cb)}
    (hGuard : Guarded step (AdmitsStep Admits) initial actions)
    (hRun : run step initial actions = some s) :
    Lives s ∧ ∀ fd, Inv fd (s.view fd) := by
  have hEach (s : EventLoop Cb) (action : EventAction Cb) (next : EventLoop Cb)
      (hLives : Lives s) (hInv : ∀ fd, Inv fd (s.view fd))
      (hAdmits : s.AdmitsStep Admits action) (hStep : s.step action = some next) :
      ∀ fd, Inv fd (next.view fd) := fun fd =>
    hInvariant fd _ _ (hLives.ok fd) (hInv fd)
      (step_view hLives.whole hAdmits hStep fd)
  exact run_invariant_of_lives hCloses hInitial hEach hGuard hRun

end EventLoop
end Core
end KZEvent
