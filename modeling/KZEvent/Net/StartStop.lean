import KZEvent.Core.EventTable
import KZEvent.Foundation.Run
import Mathlib.Data.Fintype.Basic
import Mathlib.Logic.Function.Basic

/-!
# Starting and stopping a socket from several threads

`start` claims `started_` with a compare-and-swap, stores `true` once more, and
then posts the task that installs the handler.  `stop` stores `false` and then
posts the task that takes the handler away.  Nothing keeps the two from
overlapping: each thread takes its steps when it likes, and the order in which
the flag is stored need not be the order in which the tasks are posted.
-/

namespace KZEvent
namespace Net

open KZEvent.Core Foundation EventType

/-- The sockets whose `start` is guarded by `started_`. -/
inductive SocketKind
  | DgramSocket
  | StreamServerSocket
  | StreamClientSocket
deriving DecidableEq

/-- The types `start` asks for; a client looks at `send_buf_`. -/
def SocketKind.startTypes (kind : SocketKind) (isEmpty : Bool) : EventType :=
  if kind = .StreamClientSocket ∧ isEmpty = false then
    kRead ||| kWrite ||| kError
  else
    kRead ||| kError

/-- What a call posts: a task for the socket, or the `disable_fd` of the connect
timer, which leaves the socket alone. -/
inductive SocketTask
  | fd (task : FdTask Unit)
  | connectTimer
deriving DecidableEq

/-- Where a thread is in a call: before the second store and before the
`update_event` of `start`, or before the `disable_event`s of `stop`. -/
inductive SocketPc
  | idle
  | storing
  | updating
  | disabling
  | disablingTimer
deriving DecidableEq

/-- The thread has claimed `started_` and has not installed the handler. -/
def SocketPc.Starting : SocketPc → Prop
  | storing | updating => True
  | idle | disabling | disablingTimer => False

instance (pc : SocketPc) : Decidable pc.Starting :=
  match pc with
  | .storing | .updating => .isTrue trivial
  | .idle | .disabling | .disablingTimer => .isFalse id

/-- A socket and the threads that call it: the flag, the table entry, the queued
tasks, and where each thread is.  The only callback is the one of `start`. -/
structure SharedSocket (Thread : Type*) where
  started : Bool
  slot : FdSlot Unit
  ioQueue : List SocketTask
  pc : Thread → SocketPc

/-- A step of a run.  `isEmpty` is what a client finds `send_buf_` to be. -/
inductive SocketAction (Thread : Type*)
  | start (thread : Thread)
  | stop (thread : Thread)
  | advance (thread : Thread) (isEmpty : Bool)
  | execTask (faults : TaskFaults)

namespace SharedSocket

variable {Thread : Type*}

/-- The constructor queues `register_fd`. -/
def make : SharedSocket Thread where
  started := false
  slot := .unknown
  ioQueue := [.fd .registerFd]
  pc _ := .idle

def exec (faults : TaskFaults) (s : SharedSocket Thread) :
    SocketTask → SharedSocket Thread
  | .fd task => { s with slot := s.slot.exec faults task }
  | .connectTimer => s

section Steps

variable [DecidableEq Thread]

def goto (s : SharedSocket Thread) (thread : Thread) (pc : SocketPc) :
    SharedSocket Thread :=
  { s with pc := Function.update s.pc thread pc }

def post (s : SharedSocket Thread) (task : SocketTask) : SharedSocket Thread :=
  { s with ioQueue := s.ioQueue ++ [task] }

/-- The compare-and-swap of `start`. -/
def start (s : SharedSocket Thread) (thread : Thread) : SharedSocket Thread :=
  if s.started then s
  else { s with started := true }.goto thread .storing

/-- The store of `stop`. -/
def stop (s : SharedSocket Thread) (thread : Thread) : SharedSocket Thread :=
  { s with started := false }.goto thread .disabling

/-- The next step of the call a thread is in. -/
def advance (kind : SocketKind) (s : SharedSocket Thread) (thread : Thread)
    (isEmpty : Bool) : Option (SharedSocket Thread) :=
  match s.pc thread with
  | .idle => none
  | .storing => some ({ s with started := true }.goto thread .updating)
  | .updating =>
      some ((s.post (.fd (.enableFdCb (kind.startTypes isEmpty)
        EventMode.kDefault ()))).goto thread .idle)
  | .disabling =>
      some ((s.post (.fd .disableFd)).goto thread
        (if kind = .StreamClientSocket then .disablingTimer else .idle))
  | .disablingTimer => some ((s.post .connectTimer).goto thread .idle)

/-- One step; a thread begins a call when it is in none. -/
def step (kind : SocketKind) (s : SharedSocket Thread) :
    SocketAction Thread → Option (SharedSocket Thread)
  | .start thread => if s.pc thread = .idle then some (s.start thread) else none
  | .stop thread => if s.pc thread = .idle then some (s.stop thread) else none
  | .advance thread isEmpty => s.advance kind thread isEmpty
  | .execTask faults =>
      match s.ioQueue with
      | [] => none
      | task :: tasks => some ({ s with ioQueue := tasks }.exec faults task)

end Steps

/-! ## The property and the condition -/

/-- The handler is installed and the descriptor is in the epoll set. -/
def Listening (slot : FdSlot Unit) : Prop :=
  slot.event.cb = some () ∧ slot.event.inEpoll = true ∧ slot.interest ≠ none

instance (slot : FdSlot Unit) : Decidable (Listening slot) :=
  inferInstanceAs (Decidable (_ ∧ _ ∧ _))

/-- All calls have returned and all tasks are executed. -/
def Quiescent (s : SharedSocket Thread) : Prop :=
  (∀ thread, s.pc thread = .idle) ∧ s.ioQueue = []

instance [Fintype Thread] (s : SharedSocket Thread) : Decidable s.Quiescent :=
  inferInstanceAs (Decidable (_ ∧ _))

/-- When everything is at rest, `started_` says whether the socket listens; so
`start` does something on a socket that does not. -/
structure FlagMatches [DecidableEq Thread] (kind : SocketKind)
    (s : SharedSocket Thread) : Prop where
  started : s.Quiescent → (s.started = true ↔ Listening s.slot)
  startable : s.Quiescent → ¬ Listening s.slot →
    ∀ thread, ∃ next, s.step kind (.start thread) = some next ∧
      (next.pc thread).Starting

/-- The condition on a step: `start` does not claim the flag while a `stop` has
its `disable_fd` still to post, `stop` does not clear it while a `start` has its
`enable_fd` still to post, and no call of the kernel fails in a task. -/
def Separate (s : SharedSocket Thread) : SocketAction Thread → Prop
  | .start _ => s.started = true ∨ ∀ thread, s.pc thread ≠ .disabling
  | .stop _ => ∀ thread, ¬ (s.pc thread).Starting
  | .advance _ _ => True
  | .execTask faults => faults = {}

instance [Fintype Thread] (s : SharedSocket Thread)
    (action : SocketAction Thread) : Decidable (s.Separate action) :=
  match action with
  | .start _ => inferInstanceAs (Decidable (_ ∨ ∀ _, _))
  | .stop _ => inferInstanceAs (Decidable (∀ _, _))
  | .advance _ _ => .isTrue trivial
  | .execTask _ => inferInstanceAs (Decidable (_ = _))

/-! ## The invariant -/

/-- The queued tasks for the socket. -/
def fdTasks (tasks : List SocketTask) : List (FdTask Unit) :=
  tasks.filterMap fun
    | .fd task => some task
    | .connectTimer => none

/-- The table entry the queued tasks lead to. -/
def settled (s : SharedSocket Thread) : FdSlot Unit :=
  s.slot.drain (fdTasks s.ioQueue)

/-- The entry is what `started_` says. -/
structure Follows (started : Bool) (slot : FdSlot Unit) : Prop where
  on : started = true → Listening slot
  off : started = false →
    slot.event.cb = none ∧ slot.event.inEpoll = false ∧ slot.interest = none

/-- A thread in the middle of a call knows what `started_` is, and when there is
none the entry follows it. -/
structure Coherent (s : SharedSocket Thread) : Prop where
  registered : s.settled.event.inRegister = true
  starting : ∀ thread, (s.pc thread).Starting →
    s.started = true ∧ ∀ other, s.pc other ≠ .disabling
  stopping : ∀ thread, s.pc thread = .disabling → s.started = false
  rest : (∀ thread, ¬ (s.pc thread).Starting) →
    (∀ thread, s.pc thread ≠ .disabling) → Follows s.started s.settled

variable {s next : SharedSocket Thread}

theorem coherent_make : Coherent (make : SharedSocket Thread) where
  registered := rfl
  starting _ hStarting := hStarting.elim
  stopping _ hStopping := by cases hStopping
  rest _ _ := ⟨fun hOn => (by cases hOn), fun _ => ⟨rfl, rfl, rfl⟩⟩

theorem Follows.iff {started : Bool} {slot : FdSlot Unit}
    (hFollows : Follows started slot) : started = true ↔ Listening slot := by
  refine ⟨hFollows.on, fun hListening => ?_⟩
  by_contra hOff
  have hCb := (hFollows.off (by simpa using hOff)).1
  rw [hListening.1] at hCb
  cases hCb

@[simp]
theorem settled_post_fd (s : SharedSocket Thread) (task : FdTask Unit) :
    (s.post (.fd task)).settled = s.settled.exec {} task := by
  simp [settled, post, fdTasks]

@[simp]
theorem settled_post_connectTimer (s : SharedSocket Thread) :
    (s.post .connectTimer).settled = s.settled := by
  simp [settled, post, fdTasks]

/-- Executing a task leads where the queue led before. -/
theorem Coherent.exec {task : SocketTask} {tasks : List SocketTask}
    (hCoherent : Coherent s) (hQueue : s.ioQueue = task :: tasks) :
    Coherent (({ s with ioQueue := tasks } : SharedSocket Thread).exec {} task) := by
  have hSettled : (({ s with ioQueue := tasks } : SharedSocket Thread).exec {}
      task).settled = s.settled := by
    cases task with
    | fd task => simp [settled, SharedSocket.exec, hQueue, fdTasks]
    | connectTimer => simp [settled, SharedSocket.exec, hQueue, fdTasks]
  have hRest : (({ s with ioQueue := tasks } : SharedSocket Thread).exec {}
        task).started = s.started ∧
      (({ s with ioQueue := tasks } : SharedSocket Thread).exec {} task).pc =
        s.pc := by
    cases task <;> exact ⟨rfl, rfl⟩
  constructor
  · rw [hSettled]
    exact hCoherent.registered
  · rw [hRest.1, hRest.2]
    exact hCoherent.starting
  · rw [hRest.1, hRest.2]
    exact hCoherent.stopping
  · rw [hRest.1, hRest.2, hSettled]
    exact hCoherent.rest

section Steps

variable [DecidableEq Thread]

theorem goto_pc (s : SharedSocket Thread) (thread other : Thread)
    (pc : SocketPc) :
    (s.goto thread pc).pc other = if other = thread then pc else s.pc other :=
  Function.update_apply s.pc thread pc other

/-- What holds of the place of every thread. -/
theorem forall_goto (holds : SocketPc → Prop) (s : SharedSocket Thread)
    (thread : Thread) {pc : SocketPc} (hNew : holds pc)
    (hOthers : ∀ other, holds (s.pc other)) (other : Thread) :
    holds ((s.goto thread pc).pc other) := by
  rw [goto_pc]
  split
  · exact hNew
  · exact hOthers other

@[simp]
theorem settled_goto (s : SharedSocket Thread) (thread : Thread)
    (pc : SocketPc) : (s.goto thread pc).settled = s.settled := rfl

/-- A thread goes to a place of `start`, and the flag is set, while no `stop` has
its task to post. -/
theorem Coherent.claim (hCoherent : Coherent s) {thread : Thread} {pc : SocketPc}
    (hPc : pc.Starting) (hNew : pc ≠ .disabling)
    (hNone : ∀ other, s.pc other ≠ .disabling) :
    Coherent (({ s with started := true } : SharedSocket Thread).goto thread
      pc) := by
  have hOther := forall_goto (· ≠ .disabling) { s with started := true } thread
    hNew hNone
  refine ⟨hCoherent.registered, fun _ _ => ⟨rfl, hOther⟩, ?_, ?_⟩
  · intro other hStopping
    exact absurd hStopping (hOther other)
  · intro hNoStart
    have hSelf := hNoStart thread
    rw [goto_pc, if_pos rfl] at hSelf
    exact absurd hPc hSelf

/-- The first step of `start`. -/
theorem Coherent.start (hCoherent : Coherent s) {thread : Thread}
    (hSeparate : s.started = true ∨ ∀ other, s.pc other ≠ .disabling) :
    Coherent (s.start thread) := by
  unfold SharedSocket.start
  split
  · exact hCoherent
  · rename_i hFree
    have hNone := hSeparate.resolve_left hFree
    exact hCoherent.claim trivial (by simp) hNone

/-- The first step of `stop`. -/
theorem Coherent.stop (hCoherent : Coherent s) {thread : Thread}
    (hSeparate : ∀ other, ¬ (s.pc other).Starting) :
    Coherent (s.stop thread) := by
  have hOther : ∀ other, ¬ ((s.stop thread).pc other).Starting :=
    forall_goto (fun pc => ¬ pc.Starting) _ thread id hSeparate
  refine ⟨hCoherent.registered, ?_, fun _ _ => rfl, ?_⟩
  · intro other hStarting
    exact absurd hStarting (hOther other)
  · intro _ hStopping
    have hSelf := hStopping thread
    unfold SharedSocket.stop at hSelf
    rw [goto_pc, if_pos rfl] at hSelf
    exact absurd rfl hSelf

/-- The last step of `start`. -/
theorem Coherent.enables (hCoherent : Coherent s) {thread : Thread}
    (types : EventType) (hStarting : (s.pc thread).Starting) :
    Coherent ((s.post (.fd (.enableFdCb types EventMode.kDefault ()))).goto
      thread .idle) := by
  obtain ⟨hStarted, hNone⟩ := hCoherent.starting thread hStarting
  have hSettled := FdSlot.exec_enableFdCb_ok hCoherent.registered types
    EventMode.kDefault ()
  have hIdle : SocketPc.idle ≠ .disabling := by simp
  have hOther := forall_goto (· ≠ .disabling)
    (s.post (.fd (.enableFdCb types EventMode.kDefault ()))) thread hIdle hNone
  refine ⟨?_, fun _ _ => ⟨hStarted, hOther⟩, ?_, fun _ _ => ⟨fun _ => ?_, ?_⟩⟩
  · rw [settled_goto, settled_post_fd, hSettled]
  · intro other hStopping
    exact absurd hStopping (hOther other)
  · rw [settled_goto, settled_post_fd, hSettled]
    exact ⟨rfl, rfl, by simp⟩
  · intro hOff
    exact absurd (hStarted.symm.trans hOff) (by simp)

/-- The step of `stop` that posts. -/
theorem Coherent.disables (hCoherent : Coherent s) {thread : Thread}
    {pc : SocketPc} (hPc : s.pc thread = .disabling) (hNew : ¬ pc.Starting) :
    Coherent ((s.post (.fd .disableFd)).goto thread pc) := by
  have hStarted := hCoherent.stopping thread hPc
  have hSettled := FdSlot.exec_disableFd_ok hCoherent.registered
  have hNone (other : Thread) : ¬ (s.pc other).Starting := by
    intro hStarting
    exact (hCoherent.starting other hStarting).2 thread hPc
  have hOther := forall_goto (fun pc => ¬ pc.Starting) (s.post (.fd .disableFd))
    thread hNew hNone
  refine ⟨?_, ?_, fun _ _ => hStarted, fun _ _ => ⟨?_, fun _ => ?_⟩⟩
  · rw [settled_goto, settled_post_fd, hSettled]
  · intro other hStarting
    exact absurd hStarting (hOther other)
  · intro hOn
    exact absurd (hStarted.symm.trans hOn) (by simp)
  · rw [settled_goto, settled_post_fd, hSettled]
    exact ⟨rfl, rfl, rfl⟩

/-- The last step of `stop` of a client is about another descriptor. -/
theorem Coherent.disablesTimer (hCoherent : Coherent s) {thread : Thread}
    (hPc : s.pc thread = .disablingTimer) :
    Coherent ((s.post .connectTimer).goto thread .idle) := by
  have hKeeps (Holds : SocketPc → Prop) (hIdle : ¬ Holds .idle)
      (hTimer : ¬ Holds .disablingTimer) (other : Thread) :
      Holds (((s.post .connectTimer).goto thread .idle).pc other) ↔
        Holds (s.pc other) := by
    rw [goto_pc]
    split
    · rename_i hSame
      rw [hSame, hPc]
      exact iff_of_false hIdle hTimer
    · exact Iff.rfl
  have hStarts := hKeeps SocketPc.Starting id id
  have hStops := hKeeps (· = .disabling) (by simp) (by simp)
  refine ⟨?_, ?_, ?_, ?_⟩
  · rw [settled_goto, settled_post_connectTimer]
    exact hCoherent.registered
  · intro other hStarting
    obtain ⟨hStarted, hNone⟩ :=
      hCoherent.starting other ((hStarts other).mp hStarting)
    exact ⟨hStarted, fun another hStopping =>
      hNone another ((hStops another).mp hStopping)⟩
  · intro other hStopping
    exact hCoherent.stopping other ((hStops other).mp hStopping)
  · intro hNoStart hNoStop
    rw [settled_goto, settled_post_connectTimer]
    exact hCoherent.rest
      (fun other hStarting => hNoStart other ((hStarts other).mpr hStarting))
      (fun other hStopping => hNoStop other ((hStops other).mpr hStopping))

/-- The later steps of both calls. -/
theorem Coherent.advance (hCoherent : Coherent s) {kind : SocketKind}
    {thread : Thread} {isEmpty : Bool}
    (hNext : s.advance kind thread isEmpty = some next) : Coherent next := by
  unfold SharedSocket.advance at hNext
  split at hNext
  · cases hNext
  · rename_i hPc
    obtain rfl := Option.some.inj hNext
    have hStarting : (s.pc thread).Starting := by rw [hPc]; trivial
    exact hCoherent.claim trivial (by simp) (hCoherent.starting thread hStarting).2
  · rename_i hPc
    obtain rfl := Option.some.inj hNext
    exact hCoherent.enables _ (by rw [hPc]; trivial)
  · rename_i hPc
    obtain rfl := Option.some.inj hNext
    refine hCoherent.disables hPc ?_
    split <;> exact id
  · rename_i hPc
    obtain rfl := Option.some.inj hNext
    exact hCoherent.disablesTimer hPc

theorem Coherent.step (hCoherent : Coherent s) {kind : SocketKind}
    {action : SocketAction Thread} (hSeparate : s.Separate action)
    (hStep : s.step kind action = some next) : Coherent next := by
  cases action with
  | start thread =>
      simp only [SharedSocket.step] at hStep
      split at hStep
      · obtain rfl := Option.some.inj hStep
        exact hCoherent.start hSeparate
      · cases hStep
  | stop thread =>
      simp only [SharedSocket.step] at hStep
      split at hStep
      · obtain rfl := Option.some.inj hStep
        exact hCoherent.stop hSeparate
      · cases hStep
  | advance thread isEmpty => exact hCoherent.advance hStep
  | execTask faults =>
      obtain rfl : faults = {} := hSeparate
      simp only [SharedSocket.step] at hStep
      split at hStep
      · cases hStep
      · rename_i hQueue
        obtain rfl := Option.some.inj hStep
        exact hCoherent.exec hQueue

theorem Coherent.flagMatches (hCoherent : Coherent s) (kind : SocketKind) :
    s.FlagMatches kind := by
  have hStarted (hQuiescent : s.Quiescent) :
      s.started = true ↔ Listening s.slot := by
    have hSettled : s.settled = s.slot := by
      rw [settled, hQuiescent.2]
      rfl
    have hFollows := hCoherent.rest
      (fun thread => by rw [hQuiescent.1 thread]; exact id)
      (fun thread => by rw [hQuiescent.1 thread]; simp)
    rw [hSettled] at hFollows
    exact hFollows.iff
  refine ⟨hStarted, fun hQuiescent hDeaf thread => ?_⟩
  have hOff : ¬ s.started = true := fun hOn => hDeaf ((hStarted hQuiescent).mp hOn)
  refine ⟨s.start thread, by simp [SharedSocket.step, hQuiescent.1 thread], ?_⟩
  rw [SharedSocket.start, if_neg hOff, goto_pc, if_pos rfl]
  trivial

/-- **The flag matches the registration.**  Any number of threads call `start`
and `stop` of a socket.  In every run in which no `start` and `stop` overlap
between what they do to the flag and what they post, and no call of the kernel
fails in a task: whenever all calls have returned and all tasks are executed,
`started_` says whether the handler is installed and the descriptor is in the
epoll set, and `start` is no no-op on a socket that is deaf. -/
theorem started_matches {kind : SocketKind} {actions : List (SocketAction Thread)}
    (hGuard : Guarded (step kind) Separate make actions)
    (hRun : run (step kind) make actions = some s) : s.FlagMatches kind :=
  (run_invariant (fun _ _ _ hCoherent hSeparate hStep =>
    hCoherent.step hSeparate hStep) coherent_make hGuard hRun).flagMatches kind

end Steps

/-- Two threads start a client, and one of them stops it when both calls have
returned. -/
theorem started_matches_client :
    let actions : List (SocketAction (Fin 2)) :=
      [.execTask {}, .start 0, .start 1, .advance 0 true, .advance 0 false,
        .execTask {}, .stop 1, .advance 1 true, .advance 1 true, .execTask {},
        .execTask {}]
    ∃ s, run (step .StreamClientSocket) make actions = some s ∧
      s.Quiescent ∧ s.FlagMatches .StreamClientSocket := by
  intro actions
  have hOutcome : Guarded (step .StreamClientSocket) Separate make actions ∧
      (run (step .StreamClientSocket) make actions).any
        (fun s => decide s.Quiescent) = true := by
    decide +kernel
  obtain ⟨s, hRun, hView⟩ := (Option.any_eq_true _ _).mp hOutcome.2
  exact ⟨s, hRun, of_decide_eq_true hView, started_matches hOutcome.1 hRun⟩

/-- The store of `stop` falls between the two stores of `start`, and its
`disable_fd` is queued behind the `enable_fd`: the flag says that the socket is
started, the socket is deaf, and `start` does nothing any more. -/
theorem started_deaf :
    let actions : List (SocketAction (Fin 2)) :=
      [.execTask {}, .start 0, .stop 1, .advance 0 true, .advance 0 true,
        .advance 1 true, .execTask {}, .execTask {}]
    ∃ s, run (step .DgramSocket) make actions = some s ∧ s.Quiescent ∧
      s.started = true ∧ ¬ Listening s.slot ∧
      s.step .DgramSocket (.start 0) = some s ∧ ¬ s.FlagMatches .DgramSocket := by
  intro actions
  have hOutcome : (run (step .DgramSocket) make actions).any (fun s =>
      decide (s.Quiescent ∧ s.started = true ∧ ¬ Listening s.slot)) = true := by
    decide +kernel
  obtain ⟨s, hRun, hView⟩ := (Option.any_eq_true _ _).mp hOutcome
  obtain ⟨hQuiescent, hStarted, hDeaf⟩ := of_decide_eq_true hView
  refine ⟨s, hRun, hQuiescent, hStarted, hDeaf, ?_, fun hMatches => ?_⟩
  · rw [step, if_pos (hQuiescent.1 0), start, if_pos hStarted]
  · exact hDeaf ((hMatches.started hQuiescent).mp hStarted)

end SharedSocket
end Net
end KZEvent
