import KZEvent.Core.EventLoop
import Mathlib.Data.List.Perm.Basic

/-!
# The life of one descriptor

What the loop does with one descriptor depends on that descriptor alone: on the
file that is open under its number, on the channel that holds it, on the queued
tasks for it, in their order, and on its entry in the table and in the epoll
set.  Seen from there, the loop is a small automaton: the descriptor is opened,
handed to a channel, which queues `register_fd`; the channel queues changes of
the interest; it is destroyed and queues `unregister_fd`; and the tasks are
executed one after the other until that last one closes the descriptor.

Every step of the loop is a step of this automaton, or none, for each
descriptor.  So what holds in every state of the automaton holds for every
descriptor in every state of the loop.
-/

namespace KZEvent
namespace Core

open Foundation

variable {Cb : Type*} {Admits : TaskFaults → FdTask Cb → Prop}

/-! ## One entry -/

/-- A task that neither begins nor ends a registration. -/
def FdTask.Plain : FdTask Cb → Prop
  | .registerFd | .unregisterFd => False
  | _ => True

/-- The types and modes a task asks for. -/
def FdTask.requested : FdTask Cb → Option (EventType × EventMode)
  | .enableFdCb types modes _ | .enableFd types modes => some (types, modes)
  | _ => none

/-- The kernel calls of a task answer as the kernel does: `close` succeeds, and
`EPOLL_CTL_DEL` answers `ENOENT` only for a descriptor outside the set. -/
def TaskFaults.Honest (faults : TaskFaults) (task : FdTask Cb) : Prop :=
  faults.close = none ∧ (task = .disableFd → faults.first ≠ some ENOENT)

namespace FdSlot

variable {slot : FdSlot Cb} {faults : TaskFaults}

/-- The entry and the epoll set say the same. -/
structure Agrees (slot : FdSlot Cb) : Prop where
  interest : slot.interest ≠ none ↔ slot.event.inEpoll = true
  epoll : slot.event.inEpoll = true → slot.event.inRegister = true
  cb : slot.event.cb ≠ none → slot.event.inEpoll = true

theorem agrees_unknown : Agrees (unknown : FdSlot Cb) := by
  constructor <;> simp [unknown]

/-- When an interest is set, it is the one that was asked for. -/
theorem setInterest_eq {types : EventType} {modes : EventMode}
    {interest : EpollEvents}
    (hSet : slot.setInterest faults types modes = some interest) :
    interest = epollInterest types modes := by
  have hCtl {fault : Option Errno} {op : EpollOp} {events : EpollEvents}
      {before after : Option EpollEvents} (hOp : op ≠ .EPOLL_CTL_DEL)
      (hOk : epollCtl fault op events before = .ok after) :
      after = some events := by
    unfold epollCtl at hOk
    cases fault with
    | some errno => cases hOk
    | none =>
        cases op <;> cases before <;> simp_all
  have hJoin {fault : Option Errno} {op : EpollOp} {events : EpollEvents}
      {before : Option EpollEvents} (hOp : op ≠ .EPOLL_CTL_DEL)
      (hOk : (epollCtl fault op events before).toOption.join = some interest) :
      interest = events := by
    cases hResult : epollCtl fault op events before with
    | error errno =>
        rw [hResult] at hOk
        cases hOk
    | ok after =>
        rw [hResult] at hOk
        obtain rfl := hCtl hOp hResult
        exact (Option.some.inj hOk).symm
  simp only [setInterest] at hSet
  generalize hOp : (if slot.event.inEpoll = true then EpollOp.EPOLL_CTL_MOD
    else EpollOp.EPOLL_CTL_ADD) = op at hSet
  have hNotDel : op ≠ .EPOLL_CTL_DEL := by
    rw [← hOp]
    split <;> decide
  split at hSet
  · rename_i hResult
    rw [hCtl hNotDel hResult] at hSet
    exact (Option.some.inj hSet).symm
  · split at hSet
    · exact hJoin (by decide) hSet
    · split at hSet
      · exact hJoin (by decide) hSet
      · cases hSet

/-- A plain task leaves the registration alone. -/
theorem exec_inRegister_of_plain {task : FdTask Cb} (hPlain : task.Plain) :
    (slot.exec faults task).event.inRegister = slot.event.inRegister := by
  cases task with
  | registerFd | unregisterFd => exact hPlain.elim
  | enableFdCb types modes cb =>
      simp only [exec, enableFdCb]
      split
      · split <;> rfl
      · rfl
  | enableFd types modes =>
      simp only [exec, enableFd]
      split
      · split <;> rfl
      · rfl
  | disableFd =>
      simp only [exec, disableFd]
      split
      · split
        · rfl
        · split <;> rfl
      · rfl

/-- A task leaves the entry and the epoll set in agreement. -/
theorem Agrees.exec (hAgrees : slot.Agrees) {task : FdTask Cb}
    (hHonest : faults.Honest task) : (slot.exec faults task).Agrees := by
  cases task with
  | registerFd => exact ⟨hAgrees.interest, fun _ => rfl, hAgrees.cb⟩
  | unregisterFd =>
      simp only [FdSlot.exec, unregisterFd, hHonest.1]
      split
      · exact agrees_unknown
      · exact hAgrees
  | enableFdCb types modes cb =>
      simp only [FdSlot.exec, enableFdCb]
      split
      · rename_i hRegistered
        split
        · exact ⟨by simp, fun _ => hRegistered, fun _ => rfl⟩
        · exact hAgrees
      · exact hAgrees
  | enableFd types modes =>
      simp only [FdSlot.exec, enableFd]
      split
      · rename_i hRegistered
        split
        · exact ⟨by simp, fun _ => hRegistered, fun _ => rfl⟩
        · exact hAgrees
      · exact hAgrees
  | disableFd =>
      simp only [FdSlot.exec, disableFd]
      split
      · split
        · rename_i hResult
          have hGone : ∀ after,
              epollCtl faults.first .EPOLL_CTL_DEL 0 slot.interest = .ok after →
                after = none := by
            intro after hOk
            unfold epollCtl at hOk
            cases hFirst : faults.first <;> cases hSlot : slot.interest <;>
              simp_all
          obtain rfl := hGone _ hResult
          exact ⟨by simp, by simp, fun hCb => absurd rfl hCb⟩
        · rename_i errno hResult
          split
          · -- The kernel says that the descriptor is not in the set.
            rename_i hErrno
            have hOutside : slot.interest = none := by
              unfold epollCtl at hResult
              cases hFirst : faults.first with
              | some fault =>
                  rw [hFirst] at hResult
                  cases hResult
                  exact absurd (hErrno ▸ hFirst) (hHonest.2 rfl)
              | none =>
                  rw [hFirst] at hResult
                  cases hSlot : slot.interest with
                  | none => rfl
                  | some interest =>
                      rw [hSlot] at hResult
                      cases hResult
            exact ⟨by simp [hOutside], by simp, fun hCb => absurd rfl hCb⟩
          · exact hAgrees
      · exact hAgrees

end FdSlot

/-! ## The automaton -/

/-- What there is of one descriptor: the open file and whether it was handed
over, the files of the channels that hold it, its queued tasks, its entry, and
its executed tasks, the last one first. -/
@[ext]
structure FdView (Cb : Type*) where
  file : Option Nat
  handed : Bool
  holders : List Nat
  tasks : List (Posted Cb)
  slot : FdSlot Cb
  log : List (Executed Cb)

namespace FdView

/-- After the first queued task. -/
def executed (v : FdView Cb) (faults : TaskFaults) (p : Posted Cb)
    (rest : List (Posted Cb)) : FdView Cb :=
  let closes := p.task.closesFd && v.slot.succeeds faults p.task
  { v with
    file := if closes then none else v.file
    handed := if closes then false else v.handed
    tasks := rest
    slot := v.slot.exec faults p.task
    log := { posted := p, ok := v.slot.succeeds faults p.task } :: v.log }

/-- A step in the life of the descriptor `fd`, where the faults of the executed
tasks are those admitted. -/
inductive Step (Admits : TaskFaults → FdTask Cb → Prop) (fd : Nat) :
    FdView Cb → FdView Cb → Prop
  | same (v : FdView Cb) : Step Admits fd v v
  | opens {v : FdView Cb} {file : Nat} (hClosed : v.file = none) :
      Step Admits fd v { v with file := some file, handed := false }
  | closes {v : FdView Cb} (hRaw : v.handed = false) :
      Step Admits fd v { v with
        file := none
        handed := false
        slot := { v.slot with interest := none } }
  | constructs {v : FdView Cb} {file : Nat} (hFile : v.file = some file)
      (hRaw : v.handed = false) :
      Step Admits fd v { v with
        handed := true
        holders := v.holders ++ [file]
        tasks := v.tasks ++ [⟨fd, file, .registerFd⟩] }
  | moves {v : FdView Cb} {holders : List Nat} (hPerm : holders.Perm v.holders) :
      Step Admits fd v { v with holders := holders }
  | destroys {v : FdView Cb} {file : Nat} {holders : List Nat}
      (hPerm : v.holders.Perm (file :: holders)) :
      Step Admits fd v { v with
        holders := holders
        tasks := v.tasks ++ [⟨fd, file, .unregisterFd⟩] }
  | posts {v : FdView Cb} {file : Nat} {task : FdTask Cb}
      (hHolder : file ∈ v.holders) (hPlain : task.Plain) :
      Step Admits fd v { v with tasks := v.tasks ++ [⟨fd, file, task⟩] }
  | executes {v : FdView Cb} {faults : TaskFaults} {p : Posted Cb}
      {rest : List (Posted Cb)} (hTasks : v.tasks = p :: rest)
      (hAdmits : Admits faults p.task) :
      Step Admits fd v (v.executed faults p rest)

/-- The loop has nothing to do with the descriptor. -/
structure Unknown (v : FdView Cb) : Prop where
  holders : v.holders = []
  tasks : v.tasks = []
  slot : v.slot = .unknown

/-- The channel is there, or has queued `unregister_fd` as its last task. -/
def Held (v : FdView Cb) (file : Nat) (last : List (FdTask Cb)) : Prop :=
  (v.holders = [file] ∧ last = []) ∨ (v.holders = [] ∧ last = [.unregisterFd])

/-- The descriptor was handed to a channel and is not closed yet: it is
registered, or `register_fd` is its first queued task; `unregister_fd` can only
be its last one. -/
def Owned (fd : Nat) (v : FdView Cb) (file : Nat) : Prop :=
  ∃ plain last, (∀ task ∈ plain, FdTask.Plain task) ∧ v.Held file last ∧
    ((v.slot.event.inRegister = true ∧
        v.tasks = (plain ++ last).map (Posted.mk fd file)) ∨
      (v.slot = .unknown ∧
        v.tasks = (.registerFd :: (plain ++ last)).map (Posted.mk fd file)))

/-- The states in the life of a descriptor. -/
inductive Ok (fd : Nat) (v : FdView Cb) : Prop
  | closed (hFile : v.file = none) (hHanded : v.handed = false)
      (hUnknown : v.Unknown)
  | raw {file : Nat} (hFile : v.file = some file) (hHanded : v.handed = false)
      (hUnknown : v.Unknown)
  | owned {file : Nat} (hFile : v.file = some file) (hHanded : v.handed = true)
      (hOwned : Owned fd v file)

variable {fd : Nat} {v v' : FdView Cb}

theorem Ok.unknown (hOk : Ok fd v) (hHanded : v.handed = false) : v.Unknown := by
  cases hOk with
  | closed hFile _ hUnknown => exact hUnknown
  | raw hFile _ hUnknown => exact hUnknown
  | owned hFile hTrue hOwned =>
      rw [hHanded] at hTrue
      cases hTrue

/-- What holds a descriptor or queues a task for it is its owner. -/
theorem Ok.owner (hOk : Ok fd v) (hKnown : v.holders ≠ [] ∨ v.tasks ≠ []) :
    ∃ file, v.file = some file ∧ v.handed = true ∧ Owned fd v file := by
  cases hOk with
  | closed hFile _ hUnknown | raw hFile _ hUnknown =>
      rcases hKnown with hHolders | hTasks
      · exact absurd hUnknown.holders hHolders
      · exact absurd hUnknown.tasks hTasks
  | owned hFile hHanded hOwned => exact ⟨_, hFile, hHanded, hOwned⟩

/-- With a holder, the tasks queued so far do not end the registration. -/
theorem Owned.of_holder {file holder : Nat} (hOwned : Owned fd v file)
    (hHolder : holder ∈ v.holders) :
    holder = file ∧ v.holders = [file] ∧
      ∃ plain, (∀ task ∈ plain, FdTask.Plain task) ∧
        ((v.slot.event.inRegister = true ∧
            v.tasks = plain.map (Posted.mk fd file)) ∨
          (v.slot = .unknown ∧
            v.tasks = (.registerFd :: plain).map (Posted.mk fd file))) := by
  obtain ⟨plain, last, hPlain, hHeld, hSlot⟩ := hOwned
  rcases hHeld with ⟨hHolders, rfl⟩ | ⟨hHolders, -⟩
  · rw [hHolders, List.mem_singleton] at hHolder
    rw [List.append_nil] at hSlot
    exact ⟨hHolder, hHolders, plain, hPlain, hSlot⟩
  · rw [hHolders] at hHolder
    cases hHolder

/-- A task of the channel is queued behind the others. -/
theorem Owned.append {file : Nat} {plain last : List (FdTask Cb)}
    {holders : List Nat} (more : List (FdTask Cb))
    (hPlain : ∀ task ∈ plain, FdTask.Plain task)
    (hMore : ∀ task ∈ more, FdTask.Plain task)
    (hSlot : (v.slot.event.inRegister = true ∧
        v.tasks = plain.map (Posted.mk fd file)) ∨
      (v.slot = .unknown ∧
        v.tasks = (.registerFd :: plain).map (Posted.mk fd file)))
    (hHeld : Held { v with holders := holders } file last) :
    Owned fd
      { v with
        holders := holders
        tasks := v.tasks ++ (more ++ last).map (Posted.mk fd file) } file := by
  refine ⟨plain ++ more, last, ?_, hHeld, ?_⟩
  · intro task hMem
    rcases List.mem_append.mp hMem with hMem | hMem
    · exact hPlain task hMem
    · exact hMore task hMem
  · refine hSlot.imp ?_ ?_
    · rintro ⟨hRegistered, hTasks⟩
      exact ⟨hRegistered, by simp [hTasks]⟩
    · rintro ⟨hUnknown, hTasks⟩
      exact ⟨hUnknown, by simp [hTasks]⟩

/-- Executing the first task of an owned descriptor: the registration begins,
goes on, or ends with the close of the descriptor. -/
theorem Owned.executed {file : Nat} {faults : TaskFaults} {p : Posted Cb}
    {rest : List (Posted Cb)} (hFile : v.file = some file)
    (hHanded : v.handed = true) (hOwned : Owned fd v file)
    (hTasks : v.tasks = p :: rest) (hClose : faults.close = none) :
    Ok fd (v.executed faults p rest) := by
  obtain ⟨plain, last, hPlain, hHeld, hSlot⟩ := hOwned
  rcases hSlot with ⟨hRegistered, hQueue⟩ | ⟨hUnknown, hQueue⟩
  · cases plain with
    | nil =>
        -- Only `unregister_fd` can be the first task.
        rcases hHeld with ⟨-, rfl⟩ | ⟨hHolders, rfl⟩
        · rw [hTasks] at hQueue
          cases hQueue
        · rw [hTasks] at hQueue
          obtain ⟨rfl, rfl⟩ := List.cons.inj hQueue
          have hSucceeds : v.slot.succeeds faults .unregisterFd = true := by
            simp [FdSlot.succeeds, hRegistered, hClose]
          have hExec : v.slot.exec faults .unregisterFd = .unknown := by
            simp [FdSlot.exec, FdSlot.unregisterFd, hRegistered, hClose]
          refine .closed ?_ ?_ ⟨hHolders, rfl, hExec⟩
          · simp [FdView.executed, FdTask.closesFd, hSucceeds]
          · simp [FdView.executed, FdTask.closesFd, hSucceeds]
    | cons task plain =>
        rw [hTasks] at hQueue
        obtain ⟨rfl, rfl⟩ := List.cons.inj hQueue
        rw [List.forall_mem_cons] at hPlain
        have hCloses : task.closesFd = false := by
          cases task <;> first | rfl | exact hPlain.1.elim
        have hOwned : Owned fd (v.executed faults ⟨fd, file, task⟩
            ((plain ++ last).map (Posted.mk fd file))) file := by
          refine ⟨plain, last, hPlain.2, hHeld, .inl ⟨?_, rfl⟩⟩
          exact (FdSlot.exec_inRegister_of_plain hPlain.1).trans hRegistered
        apply Ok.owned _ _ hOwned
        · simpa [FdView.executed, hCloses] using hFile
        · simpa [FdView.executed, hCloses] using hHanded
  · rw [hTasks] at hQueue
    obtain ⟨rfl, rfl⟩ := List.cons.inj hQueue
    exact .owned hFile hHanded ⟨plain, last, hPlain, hHeld, .inl ⟨rfl, rfl⟩⟩

/-- Every step in the life of a descriptor leads to a state of that life. -/
theorem Ok.step (hCloses : ∀ faults task, Admits faults task → faults.close = none)
    (hOk : Ok fd v) (hStep : Step Admits fd v v') : Ok fd v' := by
  cases hStep with
  | same => exact hOk
  | opens hClosed =>
      cases hOk with
      | closed hFile hHanded hUnknown =>
          exact .raw rfl rfl ⟨hUnknown.holders, hUnknown.tasks, hUnknown.slot⟩
      | raw hFile | owned hFile =>
          rw [hClosed] at hFile
          cases hFile
  | closes hRaw =>
      have hUnknown := hOk.unknown hRaw
      refine .closed rfl rfl ⟨hUnknown.holders, hUnknown.tasks, ?_⟩
      show { v.slot with interest := none } = FdSlot.unknown
      rw [hUnknown.slot]
      rfl
  | constructs hFile hRaw =>
      have hUnknown := hOk.unknown hRaw
      refine .owned hFile rfl ⟨[], [], nofun, .inl ⟨?_, rfl⟩, .inr
        ⟨hUnknown.slot, ?_⟩⟩
      · simp [hUnknown.holders]
      · simp [hUnknown.tasks]
  | moves hPerm =>
      cases hOk with
      | closed hFile hHanded hUnknown =>
          rw [hUnknown.holders, List.perm_nil] at hPerm
          exact .closed hFile hHanded ⟨hPerm, hUnknown.tasks, hUnknown.slot⟩
      | raw hFile hHanded hUnknown =>
          rw [hUnknown.holders, List.perm_nil] at hPerm
          exact .raw hFile hHanded ⟨hPerm, hUnknown.tasks, hUnknown.slot⟩
      | owned hFile hHanded hOwned =>
          obtain ⟨plain, last, hPlain, hHeld, hSlot⟩ := hOwned
          refine .owned hFile hHanded ⟨plain, last, hPlain, ?_, hSlot⟩
          refine hHeld.imp ?_ ?_
          · rintro ⟨hHolders, hLast⟩
            rw [hHolders, List.perm_singleton] at hPerm
            exact ⟨hPerm, hLast⟩
          · rintro ⟨hHolders, hLast⟩
            rw [hHolders, List.perm_nil] at hPerm
            exact ⟨hPerm, hLast⟩
  | destroys hPerm =>
      have hHolder := hPerm.symm.subset List.mem_cons_self
      obtain ⟨file, hFile, hHanded, hOwned⟩ :=
        hOk.owner (.inl (List.ne_nil_of_mem hHolder))
      obtain ⟨rfl, hHolders, plain, hPlain, hSlot⟩ := hOwned.of_holder hHolder
      rw [hHolders, List.singleton_perm, List.cons.injEq] at hPerm
      obtain rfl := hPerm.2.symm
      exact .owned hFile hHanded
        (Owned.append [] hPlain nofun hSlot (.inr ⟨rfl, rfl⟩))
  | posts hHolder hTask =>
      obtain ⟨file, hFile, hHanded, hOwned⟩ :=
        hOk.owner (.inl (List.ne_nil_of_mem hHolder))
      obtain ⟨rfl, hHolders, plain, hPlain, hSlot⟩ := hOwned.of_holder hHolder
      exact .owned hFile hHanded (Owned.append [_] hPlain
        (List.forall_mem_singleton.mpr hTask) hSlot (.inl ⟨hHolders, rfl⟩))
  | executes hTasks hAdmits =>
      obtain ⟨file, hFile, hHanded, hOwned⟩ :=
        hOk.owner (.inr (by rw [hTasks]; nofun))
      exact hOwned.executed hFile hHanded hTasks (hCloses _ _ hAdmits)

end FdView
end Core
end KZEvent
