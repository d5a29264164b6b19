import KZEvent.Foundation.SharedBuffer
import KZEvent.Net.InOrder
import Mathlib.Data.Fintype.Basic

/-!
# Many clients on one loop

The sessions of a server share its loop: one io thread, which runs one handler or one
task at a time, one queue of tasks, and one heavy thread with one queue of fragments.
Whoever posts appends to the queues of all.

The session of each client behaves as if it had a loop for itself.  What it sees of the
shared queues are queues of its own, and a step of the shared loop is a step of one
connection, or concerns only what others posted.
-/

namespace KZEvent
namespace Net

open KZEvent.Core Foundation EventType

/-! ## Tasks that were posted before -/

namespace StreamSession

variable {σ : Type*}

/-- The session with the tasks of `tasks` before its own. -/
def behind (tasks : List SessionTask) (s : StreamSession σ) : StreamSession σ :=
  { s with ioQueue := tasks ++ s.ioQueue }

variable {tasks : List SessionTask} {s : StreamSession σ}

theorem behind_post (later : List SessionTask) :
    (s.behind tasks).post later = (s.post later).behind tasks := by
  simp [behind, post]

theorem behind_call (call : SessionCall) :
    (s.behind tasks).call call = (s.call call).behind tasks := by
  cases call with
  | start =>
      have hLater (task : SessionTask) :
          (tasks ++ s.ioQueue) ++ [task] = tasks ++ (s.ioQueue ++ [task]) :=
        List.append_assoc _ _ _
      simp only [StreamSession.call, start, behind, post, hLater]
      rfl
  | stop => exact behind_post _
  | postSendTask data => exact behind_post _

theorem behind_perform (effect : Effect) :
    (s.behind tasks).perform effect = (s.perform effect).behind tasks := by
  cases effect with
  | updateEvent types modes => exact behind_post _
  | onFragment fragment => rfl
  | onError errno => simp [perform, stop, behind, post]
  | onDisconnect => simp [perform, stop, behind, post]

theorem behind_exec (faults : TaskFaults) (ret : SendRet) (task : SessionTask) :
    (s.behind tasks).exec faults ret task = (s.exec faults ret task).behind tasks := by
  cases task with
  | fd task => rfl
  | send data =>
      show (s.behind tasks).execSend ret data = (s.execSend ret data).behind tasks
      unfold execSend
      have hAlive : (s.behind tasks).serverAlive = s.serverAlive := rfl
      have hConn : (s.behind tasks).conn = s.conn := rfl
      rw [hAlive, hConn]
      split
      · split
        · simp [behind, post]
        · rfl
      · rfl
  | erase =>
      show (if s.serverAlive then _ else _) = _
      unfold exec
      split <;> rfl

/-- Tasks that were posted before are in the way of no step but that of a task. -/
theorem step_behind {onSplit : σ → List UInt8 → Int × σ} {action : SessionAction}
    (hOther : ∀ faults ret, action ≠ .execTask faults ret) :
    step onSplit (s.behind tasks) action =
      (step onSplit s action).map (behind tasks) := by
  have hPending : (s.behind tasks).pending = s.pending := rfl
  cases action with
  | call call => exact congrArg some (behind_call call)
  | execTask faults ret => exact absurd rfl (hOther faults ret)
  | dispatch fuel inv =>
      have hInstalled : (s.behind tasks).slot.event.cb = s.slot.event.cb := rfl
      simp only [step, hPending, hInstalled]
      split
      · show Option.map _ (handler onSplit fuel s.serverAlive inv s.split s.conn) = _
        rw [Option.map_map]
        rfl
      · rfl
  | perform =>
      simp only [step, hPending]
      split
      · rename_i effect effects hEffects
        show some (({ s with pending := effects }.behind tasks).perform effect) = _
        rw [behind_perform, Option.map_some]
      · rfl
  | destroyServer =>
      simp only [step, hPending]
      split <;> rfl

/-- The io thread takes the first task of the queue. -/
theorem step_execTask_cons {onSplit : σ → List UInt8 → Int × σ} (faults : TaskFaults)
    (ret : SendRet) (task : SessionTask) (hEmpty : s.ioQueue = []) :
    step onSplit (s.behind (task :: tasks)) (.execTask faults ret) =
      (step onSplit (s.behind [task]) (.execTask faults ret)).map (behind tasks) := by
  obtain ⟨conn, slot, ioQueue, pending, serverAlive, inSessions, split, traffic,
    notices⟩ := s
  obtain rfl : ioQueue = [] := hEmpty
  cases pending with
  | nil =>
      let idle : StreamSession σ :=
        ⟨conn, slot, [], [], serverAlive, inSessions, split, traffic, notices⟩
      have hExec : (idle.behind tasks).exec faults ret task =
          (idle.exec faults ret task).behind tasks := behind_exec faults ret task
      exact congrArg some hExec
  | cons effect effects => rfl

end StreamSession

namespace Connection

/-- The connection with the tasks of `tasks` before those of the session, and `heavy`
as its heavy queue. -/
def behind (tasks : List SessionTask) (heavy : DoubleBuffer (List UInt8))
    (c : Connection) : Connection :=
  { c with
    session := c.session.behind tasks
    sessionHeavy := heavy }

end Connection

/-- The step takes a task or a fragment from its queue. -/
def ConnectionAction.fromQueue : ConnectionAction → Bool
  | .session (.execTask _ _) _ | .sessionHeavy _ => true
  | _ => false

/-- The io thread of the server turns to a connection. -/
def ConnectionAction.turnsTo : ConnectionAction → Bool
  | .session (.dispatch _ _) _ | .accept | .sessionWait => true
  | _ => false

namespace Connection

variable {split : List UInt8 → Int} {tasks : List SessionTask}
  {heavy : DoubleBuffer (List UInt8)} {c : Connection}

theorem behind_sessionStepped (action : SessionAction) (room : Bool)
    (next : StreamSession Unit) (hOther : ∀ faults ret, action ≠ .execTask faults ret)
    (hNone : c.sessionHeavy = .empty) :
    (c.behind tasks heavy).sessionStepped action room (next.behind tasks) =
      (c.sessionStepped action room next).behind tasks
        (heavy.pushAll (c.sessionStepped action room next).sessionHeavy.buffer) := by
  have hBuffer : (c.sessionStepped action room next).sessionHeavy.buffer =
      c.session.traffic.cutSince next.traffic := by
    show (c.sessionHeavy.pushAll _).buffer = _
    rw [hNone]
    exact DoubleBuffer.buffer_pushAll .empty _
  rw [hBuffer]
  cases action with
  | execTask faults ret => exact absurd rfl (hOther faults ret)
  | call | dispatch | perform | destroyServer => rfl

theorem map_guarded {α β : Type*} {p q : Prop} [Decidable p] [Decidable q]
    (hGuard : p ↔ q) {x : Option β} {y : Option α} {f : α → β} (hMap : x = y.map f) :
    (if p then x else none) = (if q then y else none).map f := by
  by_cases hHolds : q
  · rw [if_pos (hGuard.mpr hHolds), if_pos hHolds, hMap]
  · rw [if_neg (hHolds ∘ hGuard.mp), if_neg hHolds, Option.map_none]

/-- Tasks that were posted before and fragments that wait are in the way of no step but
those that take one from its queue. -/
theorem step_behind {action : ConnectionAction} (hNone : c.sessionHeavy = .empty)
    (hOther : action.fromQueue = false) :
    step split (c.behind tasks heavy) action =
      (step split c action).map fun next =>
        next.behind tasks (heavy.pushAll next.sessionHeavy.buffer) := by
  have hKept (next : Connection) (hSame : next.sessionHeavy = c.sessionHeavy) :
      next.behind tasks heavy =
        next.behind tasks (heavy.pushAll next.sessionHeavy.buffer) := by
    rw [hSame, hNone]
    rfl
  cases action with
  | client action room =>
      refine map_guarded Iff.rfl ?_
      rw [Option.map_map]
      refine congrArg (fun f => Option.map f _) (funext fun next => ?_)
      exact hKept (c.clientStepped action room next) rfl
  | session action room =>
      have hTask (faults : TaskFaults) (ret : SendRet) :
          action ≠ .execTask faults ret := by
        rintro rfl
        cases hOther
      have hGuard : (c.accepted = true ∧ (c.session.behind tasks).SendsFlow action ∧
            (c.session.behind tasks).Served c.sessionEnd room action) ↔
          c.accepted = true ∧ c.session.SendsFlow action ∧
            c.session.Served c.sessionEnd room action := by
        cases action <;> rfl
      refine map_guarded hGuard ?_
      show (StreamSession.step _ (c.session.behind tasks) action).map _ = _
      rw [StreamSession.step_behind hTask, Option.map_map, Option.map_map]
      refine congrArg (fun f => Option.map f _) (funext fun next => ?_)
      exact behind_sessionStepped action room next hTask hNone
  | sessionHeavy action => cases hOther
  | clientHeavy action =>
      -- The client's heavy queue is its own, so it moves as before.
      show (c.clientHeavy.consume action).map _ =
        ((c.clientHeavy.consume action).map _).map _
      rw [Option.map_map]
      refine congrArg (fun f => Option.map f _) (funext fun queue => ?_)
      exact hKept { c with clientHeavy := queue } rfl
  | establish | accept | carryToSession | carryToClient | clientRoom | sessionRoom
  | clientWait | sessionWait =>
      refine map_guarded Iff.rfl ?_
      rw [Option.map_some, ← hKept]
      · rfl
      · rfl

/-- The io thread takes the first task of the queue. -/
theorem step_execTask_cons (hEmpty : c.session.ioQueue = []) (task : SessionTask)
    (faults : TaskFaults) (ret : SendRet) (room : Bool) :
    step split (c.behind (task :: tasks) heavy) (.session (.execTask faults ret) room) =
      (step split (c.behind [task] .empty) (.session (.execTask faults ret) room)).map
        fun next => next.behind tasks (heavy.pushAll next.sessionHeavy.buffer) := by
  refine map_guarded Iff.rfl ?_
  show (StreamSession.step _ (c.session.behind (task :: tasks)) _).map _ = _
  rw [StreamSession.step_execTask_cons faults ret task hEmpty, Option.map_map,
    Option.map_map]
  refine congrArg (fun f => Option.map f _) (funext fun next => ?_)
  have hArms : (c.session.behind (task :: tasks)).armsNext =
      (c.session.behind [task]).armsNext := by
    cases task <;> rfl
  have hEnd : (c.session.behind (task :: tasks)).endAfter c.sessionEnd room
      (next.behind tasks) (.execTask faults ret) =
      (c.session.behind [task]).endAfter c.sessionEnd room next
        (.execTask faults ret) := by
    simp only [StreamSession.endAfter, hArms]
    rfl
  have hBuffer : ((c.behind [task] .empty).sessionStepped (.execTask faults ret) room
      next).sessionHeavy.buffer = c.session.traffic.cutSince next.traffic :=
    DoubleBuffer.buffer_pushAll .empty _
  simp only [Function.comp_apply, hBuffer]
  simp only [sessionStepped, behind, hEnd]
  rfl

/-- A session that executes a task was accepted. -/
theorem accepted_execTask {next : Connection} {faults : TaskFaults} {ret : SendRet}
    {room : Bool}
    (hStep : step split c (.session (.execTask faults ret) room) = some next) :
    c.accepted = true ∧ next.accepted = true := by
  cases stepped hStep with
  | session hAccepted hFlow hServed hSession => exact ⟨hAccepted, hAccepted⟩

/-- Before `accept4` nothing happens to the session. -/
theorem unaccepted_step {next : Connection} {action : ConnectionAction}
    (hStep : step split c action = some next) (hOther : action.fromQueue = false)
    (hNot : next.accepted = false) :
    c.accepted = false ∧ next.sessionHeavy = c.sessionHeavy := by
  cases stepped hStep with
  | session hAccepted hFlow hServed hSession =>
      rw [show c.accepted = false from hNot] at hAccepted
      cases hAccepted
  | accept hEstablished hBefore => cases hNot
  | sessionHeavy hConsume => cases hOther
  | client | establish | carryToSession | carryToClient | clientRoom | sessionRoom
  | clientWait | sessionWait | clientHeavy => exact ⟨hNot, rfl⟩

end Connection

/-! ## The loop -/

/-- A server's loop and the connections it serves.  In `links` the queue of a session
and its heavy queue are empty from `accept4` on: what it posts goes to `tasks` and to
`heavy`, behind what the others posted. -/
structure SharedLoop (Id : Type*) where
  links : Id → Connection
  tasks : List (Id × SessionTask)
  heavy : DoubleBuffer (Id × List UInt8)

/-- A step of one connection that takes nothing from a queue, of the io thread with the
first task, or of the heavy thread. -/
inductive SharedAction (Id : Type*)
  | link (id : Id) (action : ConnectionAction)
  | runTask (ret : SendRet) (room : Bool)
  | heavy (action : DoubleBuffer.ConsumerStep)

namespace SharedLoop

variable {Id : Type*} [DecidableEq Id]

/-- The server listens, and no client has called `connect`. -/
def start : SharedLoop Id where
  links := fun _ => .start
  tasks := []
  heavy := .empty

/-- No handler runs on the io thread. -/
def Free (l : SharedLoop Id) : Prop :=
  ∀ id, (l.links id).session.pending = []

instance [Fintype Id] (l : SharedLoop Id) : Decidable l.Free :=
  inferInstanceAs (Decidable (∀ id, (l.links id).session.pending = []))

/-- What a session posted goes to the queues of the loop. -/
def collect (l : SharedLoop Id) (id : Id) (conn : Connection) : SharedLoop Id :=
  if conn.accepted = true then
    { links := Function.update l.links id
        { conn with
          session := { conn.session with ioQueue := [] }
          sessionHeavy := .empty }
      tasks := l.tasks ++ conn.session.ioQueue.map (id, ·)
      heavy := l.heavy.pushAll (conn.sessionHeavy.buffer.map (id, ·)) }
  else { l with links := Function.update l.links id conn }

/-- One step.  What a client, its session and the network do is a step of
`Connection.step`, with what that leaves out. -/
def step [Fintype Id] (split : List UInt8 → Int) (l : SharedLoop Id) :
    SharedAction Id → Option (SharedLoop Id)
  | .link id action =>
      -- A handler runs to its end before the io thread turns to another connection.
      if action.fromQueue = false ∧ (action.turnsTo = true → l.Free) then
        ((l.links id).step split action).map (l.collect id)
      else none
  | .runTask ret room =>
      match l.tasks with
      | [] => none
      | (id, task) :: tasks =>
          if l.Free then
            (((l.links id).behind [task] .empty).step split
              (.session (.execTask {} ret) room)).map
                ({ l with tasks := tasks }.collect id)
          else none
  | .heavy action => (l.heavy.consume action).map fun heavy => { l with heavy := heavy }

/-- What there is of one connection. -/
def view (l : SharedLoop Id) (id : Id) : Connection :=
  (l.links id).behind (ownedBy id l.tasks) (l.heavy.only id)

/-- The steps of one connection among those of the loop, but for what is taken from
the queues. -/
def stepsOf (id : Id) (actions : List (SharedAction Id)) : List ConnectionAction :=
  actions.filterMap fun
    | .link other action => if other = id then some action else none
    | _ => none

/-- The payloads the client was asked to send, in order. -/
def clientPosts (id : Id) (actions : List (SharedAction Id)) : List (List UInt8) :=
  Connection.clientPosts (stepsOf id actions)

/-- The payloads its session was asked to send, in order. -/
def sessionPosts (id : Id) (actions : List (SharedAction Id)) : List (List UInt8) :=
  Connection.sessionPosts (stepsOf id actions)

/-! ## Inversion of a step -/

variable {split : List UInt8 → Int} {l next : SharedLoop Id}

/-- The ways a step can be taken, with their preconditions. -/
inductive Stepped (split : List UInt8 → Int) (l : SharedLoop Id) :
    SharedAction Id → SharedLoop Id → Prop
  | link {id : Id} {action : ConnectionAction} {conn : Connection}
      (hOther : action.fromQueue = false) (hFree : action.turnsTo = true → l.Free)
      (hStep : (l.links id).step split action = some conn) :
      Stepped split l (.link id action) (l.collect id conn)
  | runTask {id : Id} {task : SessionTask} {tasks : List (Id × SessionTask)}
      {ret : SendRet} {room : Bool} {conn : Connection}
      (hTasks : l.tasks = (id, task) :: tasks) (hFree : l.Free)
      (hStep : ((l.links id).behind [task] .empty).step split
        (.session (.execTask {} ret) room) = some conn) :
      Stepped split l (.runTask ret room) ({ l with tasks := tasks }.collect id conn)
  | heavy {action : DoubleBuffer.ConsumerStep}
      {heavy : DoubleBuffer (Id × List UInt8)}
      (hConsume : l.heavy.consume action = some heavy) :
      Stepped split l (.heavy action) { l with heavy := heavy }

theorem stepped [Fintype Id] {action : SharedAction Id}
    (hStep : step split l action = some next) :
    Stepped split l action next := by
  cases action with
  | link id action =>
      simp only [step, Option.ite_none_right_eq_some] at hStep
      obtain ⟨⟨hOther, hFree⟩, hNext⟩ := hStep
      obtain ⟨conn, hConn, rfl⟩ := Option.map_eq_some_iff.mp hNext
      exact .link hOther hFree hConn
  | runTask ret room =>
      simp only [step] at hStep
      split at hStep
      · cases hStep
      · rename_i id task tasks hTasks
        simp only [Option.ite_none_right_eq_some] at hStep
        obtain ⟨hFree, hNext⟩ := hStep
        obtain ⟨conn, hConn, rfl⟩ := Option.map_eq_some_iff.mp hNext
        exact .runTask hTasks hFree hConn
  | heavy action =>
      obtain ⟨heavy, hConsume, rfl⟩ := Option.map_eq_some_iff.mp hStep
      exact .heavy hConsume

/-! ## Each connection by itself -/

/-- The queues of a connection are empty from `accept4` on, and before that nobody
posted anything for it. -/
structure Tidy (l : SharedLoop Id) : Prop where
  heavy : ∀ id, (l.links id).sessionHeavy = .empty
  queue : ∀ id, (l.links id).accepted = true → (l.links id).session.ioQueue = []
  early : ∀ id, (l.links id).accepted = false → ownedBy id l.tasks = []

theorem tidy_start : Tidy (start : SharedLoop Id) where
  heavy _ := rfl
  queue _ hAccepted := by cases hAccepted
  early _ _ := rfl

/-- A connection without a session has nothing to collect. -/
def Settles (l : SharedLoop Id) (id : Id) (conn : Connection) : Prop :=
  conn.accepted = false → conn.sessionHeavy = .empty ∧ (l.links id).accepted = false

omit [DecidableEq Id] in
theorem settles_of_accepted {id : Id} {conn : Connection}
    (hAccepted : conn.accepted = true) : l.Settles id conn := by
  intro hNot
  rw [hAccepted] at hNot
  cases hNot

/-- One connection changes, and the tasks of the others stay. -/
theorem Tidy.update (hTidy : Tidy l) {id : Id} {conn : Connection}
    {tasks : List (Id × SessionTask)} {heavy : DoubleBuffer (Id × List UInt8)}
    (hHeavy : conn.sessionHeavy = .empty)
    (hQueue : conn.accepted = true → conn.session.ioQueue = [])
    (hEarly : conn.accepted = false → ownedBy id tasks = [])
    (hOthers : ∀ other, other ≠ id → ownedBy other tasks = ownedBy other l.tasks) :
    Tidy { links := Function.update l.links id conn, tasks := tasks, heavy := heavy } where
  heavy other := by
    rcases eq_or_ne other id with rfl | hOther
    · simpa only [Function.update_self] using hHeavy
    · simpa only [Function.update_of_ne hOther] using hTidy.heavy other
  queue other hAccepted := by
    rcases eq_or_ne other id with rfl | hOther
    · simp only [Function.update_self] at hAccepted ⊢
      exact hQueue hAccepted
    · simp only [Function.update_of_ne hOther] at hAccepted ⊢
      exact hTidy.queue other hAccepted
  early other hAccepted := by
    rcases eq_or_ne other id with rfl | hOther
    · simp only [Function.update_self] at hAccepted
      exact hEarly hAccepted
    · simp only [Function.update_of_ne hOther] at hAccepted
      exact (hOthers other hOther).trans (hTidy.early other hAccepted)

theorem Tidy.collect (hTidy : Tidy l) {id : Id} {conn : Connection}
    (hSettles : l.Settles id conn) : Tidy (l.collect id conn) := by
  by_cases hAccepted : conn.accepted = true
  · rw [SharedLoop.collect, if_pos hAccepted]
    refine hTidy.update rfl (fun _ => rfl) (fun hNot => ?_) fun other hOther => ?_
    · cases hAccepted.symm.trans hNot
    · rw [ownedBy_append, ownedBy_tagged_other (Ne.symm hOther), List.append_nil]
  · obtain ⟨hEmpty, hBefore⟩ := hSettles (Bool.eq_false_iff.mpr hAccepted)
    rw [SharedLoop.collect, if_neg hAccepted]
    exact hTidy.update hEmpty (fun hNow => absurd hNow hAccepted)
      (fun _ => hTidy.early id hBefore) fun _ _ => rfl

/-- The connection sees what it posted behind what it saw before. -/
theorem view_collect {id : Id} {conn : Connection} (hSettles : l.Settles id conn) :
    (l.collect id conn).view id =
      conn.behind (ownedBy id l.tasks)
        ((l.heavy.only id).pushAll conn.sessionHeavy.buffer) := by
  by_cases hAccepted : conn.accepted = true
  · rw [collect, if_pos hAccepted]
    simp only [view, Function.update_self, ownedBy_append, ownedBy_tagged,
      DoubleBuffer.only_pushAll, Connection.behind, StreamSession.behind,
      List.append_nil]
  · obtain ⟨hEmpty, -⟩ := hSettles (Bool.eq_false_iff.mpr hAccepted)
    rw [collect, if_neg hAccepted, hEmpty]
    simp only [view, Function.update_self]
    rfl

/-- The others see nothing of it. -/
theorem view_collect_other {id other : Id} (hOther : other ≠ id) (conn : Connection) :
    (l.collect id conn).view other = l.view other := by
  rw [collect]
  split
  · simp only [view, Function.update_of_ne hOther, ownedBy_append,
      ownedBy_tagged_other (Ne.symm hOther),
      DoubleBuffer.only_pushAll_other (Ne.symm hOther),
      List.append_nil]
  · simp only [view, Function.update_of_ne hOther]

theorem settles_link {id : Id} {action : ConnectionAction} {conn : Connection}
    (hTidy : Tidy l) (hOther : action.fromQueue = false)
    (hStep : (l.links id).step split action = some conn) : l.Settles id conn := by
  intro hNot
  obtain ⟨hBefore, hSame⟩ := Connection.unaccepted_step hStep hOther hNot
  exact ⟨hSame.trans (hTidy.heavy id), hBefore⟩

theorem tidy_step [Fintype Id] (hTidy : Tidy l) {action : SharedAction Id}
    (hStep : step split l action = some next) : Tidy next := by
  cases stepped hStep with
  | link hOther hFree hConn => exact hTidy.collect (settles_link hTidy hOther hConn)
  | runTask hTasks hFree hConn =>
      rename_i id task tasks ret room conn
      have hAccepted := Connection.accepted_execTask hConn
      have hRest : Tidy { l with tasks := tasks } := by
        refine ⟨hTidy.heavy, hTidy.queue, fun other hOther => ?_⟩
        have hNone := hTidy.early other hOther
        by_cases hSame : id = other
        · rw [← hSame] at hOther
          exact absurd (hOther.symm.trans hAccepted.1) Bool.false_ne_true
        · rw [hTasks, ownedBy_cons_other hSame] at hNone
          exact hNone
      exact hRest.collect (settles_of_accepted hAccepted.2)
  | heavy hConsume => exact ⟨hTidy.heavy, hTidy.queue, hTidy.early⟩

/-- A step of one connection: what it posts goes behind what the others posted, and they
do not notice. -/
structure Moves (split : List UInt8 → Int) (l : SharedLoop Id) (id : Id)
    (own : ConnectionAction) (next : SharedLoop Id) : Prop where
  view : (l.view id).step split own = some (next.view id)
  others : ∀ other, other ≠ id → next.view other = l.view other
  heavy : ∃ fragments : List (List UInt8),
    next.heavy = l.heavy.pushAll (fragments.map (id, ·))

theorem heavy_collect {id : Id} {conn : Connection} (hSettles : l.Settles id conn) :
    (l.collect id conn).heavy = l.heavy.pushAll (conn.sessionHeavy.buffer.map (id, ·)) := by
  by_cases hAccepted : conn.accepted = true
  · rw [collect, if_pos hAccepted]
  · obtain ⟨hEmpty, -⟩ := hSettles (Bool.eq_false_iff.mpr hAccepted)
    rw [collect, if_neg hAccepted, hEmpty]
    rfl

theorem moves_link {id : Id} {action : ConnectionAction} {conn : Connection}
    (hTidy : Tidy l) (hOther : action.fromQueue = false)
    (hStep : (l.links id).step split action = some conn) :
    Moves split l id action (l.collect id conn) := by
  have hSettles := settles_link hTidy hOther hStep
  refine ⟨?_, fun other hOther => view_collect_other hOther conn, _,
    heavy_collect hSettles⟩
  rw [view, Connection.step_behind (hTidy.heavy id) hOther, hStep, Option.map_some,
    view_collect hSettles]

theorem moves_runTask {id : Id} {task : SessionTask} {tasks : List (Id × SessionTask)}
    {ret : SendRet} {room : Bool} {conn : Connection} (hTidy : Tidy l)
    (hTasks : l.tasks = (id, task) :: tasks)
    (hStep : ((l.links id).behind [task] .empty).step split
      (.session (.execTask {} ret) room) = some conn) :
    Moves split l id (.session (.execTask {} ret) room)
      ({ l with tasks := tasks }.collect id conn) := by
  have hAccepted := Connection.accepted_execTask hStep
  have hSettles : Settles { l with tasks := tasks } id conn :=
    settles_of_accepted hAccepted.2
  refine ⟨?_, fun other hOther => ?_, _, heavy_collect hSettles⟩
  · rw [view, hTasks, ownedBy_cons_same,
      Connection.step_execTask_cons (hTidy.queue id hAccepted.1), hStep,
      Option.map_some, view_collect hSettles]
  · rw [view_collect_other hOther]
    simp only [view, hTasks, ownedBy_cons_other (Ne.symm hOther)]

/-- **A step of the loop is a step of one connection**, and the others do not notice. -/
theorem view_step [Fintype Id] (hTidy : Tidy l) {action : SharedAction Id}
    (hStep : step split l action = some next) (id : Id) :
    (∃ own, (l.view id).step split own = some (next.view id) ∧
      Connection.clientPosts [own] = clientPosts id [action] ∧
      Connection.sessionPosts [own] = sessionPosts id [action]) ∨
    (next.view id = l.view id ∧ stepsOf id [action] = []) := by
  cases stepped hStep with
  | link hOther hFree hConn =>
      rename_i holder action conn
      have hMoves := moves_link hTidy hOther hConn
      by_cases hSame : holder = id
      · subst hSame
        refine .inl ⟨action, hMoves.view, ?_, ?_⟩
        · simp [clientPosts, stepsOf]
        · simp [sessionPosts, stepsOf]
      · refine .inr ⟨hMoves.others id (Ne.symm hSame), ?_⟩
        simp [stepsOf, hSame]
  | runTask hTasks hFree hConn =>
      -- The first task is the holder's first, and for the others it is not there.
      rename_i holder task tasks ret room conn
      have hMoves := moves_runTask hTidy hTasks hConn
      by_cases hSame : holder = id
      · subst hSame
        exact .inl ⟨_, hMoves.view, rfl, rfl⟩
      · exact .inr ⟨hMoves.others id (Ne.symm hSame), rfl⟩
  | heavy hConsume =>
      rename_i action heavy
      rcases DoubleBuffer.consume_only id hConsume with ⟨own, hOwn⟩ | hSame
      · refine .inl ⟨.sessionHeavy own, ?_, rfl, rfl⟩
        show ((l.heavy.only id).consume own).map _ = _
        rw [hOwn]
        rfl
      · refine .inr ⟨?_, rfl⟩
        simp only [view, hSame]

/-! ## Runs -/

end SharedLoop

end Net
end KZEvent
