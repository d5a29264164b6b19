import KZEvent.Net.Traffic

/-!
# A server session on the io thread

A session lives from `accept4` on.  User threads, the heavy thread and the
callbacks of the server call its methods at any time, and all these methods do
is post tasks; the io thread executes the tasks in order and, between tasks,
dispatches the events of the session's descriptor to the callback the event
table holds for it.

`StreamSession.step` is one step of such a run.  A dispatched event runs the
phases of the handler and leaves what the handler asks of its surroundings in
`pending`; these effects are performed one by one before the io thread does
anything else, and other threads may call in between.
-/

namespace KZEvent
namespace Net

open KZEvent.Core Foundation EventType

/-- The tasks posted for a session. -/
inductive SessionTask
  | fd (task : FdTask Unit)
  | send (data : List UInt8)
  | erase
deriving DecidableEq

/-- The task `update_event` posts for a change of the interest. -/
def SessionTask.request (channel : ChannelInfo) : SessionTask :=
  .fd channel.enableFd

/-- A session, the table entry of its descriptor, and the tasks queued for it.
The only callback its descriptor ever has is the one `start` installs. -/
structure StreamSession (σ : Type*) where
  conn : StreamConn
  slot : FdSlot Unit
  ioQueue : List SessionTask
  pending : List Effect
  serverAlive : Bool
  inSessions : Bool
  split : σ
  traffic : Traffic
  notices : List Effect

/-- The calls a session takes from anywhere. -/
inductive SessionCall
  | start
  | stop
  | postSendTask (data : List UInt8)

/-- A step of a run. -/
inductive SessionAction
  | call (call : SessionCall)
  | execTask (faults : TaskFaults) (ret : SendRet)
  | dispatch (fuel : Nat) (inv : Invocation)
  | perform
  | destroyServer

namespace StreamSession

variable {σ : Type*}

def post (s : StreamSession σ) (tasks : List SessionTask) : StreamSession σ :=
  { s with ioQueue := s.ioQueue ++ tasks }

/-- `StreamSession::start`. -/
def start (s : StreamSession σ) : StreamSession σ :=
  let types :=
    if s.conn.sendBuf.empty then kRead ||| kError
    else kRead ||| kWrite ||| kError
  { s.post [.fd (.enableFdCb types EventMode.kDefault ())] with
    conn := { s.conn with channel := ⟨types, EventMode.kDefault⟩ } }

/-- `StreamSession::stop`. -/
def stop (s : StreamSession σ) : StreamSession σ :=
  s.post [.fd .disableFd, .erase]

def postSendTask (data : List UInt8) (s : StreamSession σ) : StreamSession σ :=
  s.post [.send data]

def call (s : StreamSession σ) : SessionCall → StreamSession σ
  | .start => s.start
  | .stop => s.stop
  | .postSendTask data => s.postSendTask data

/-- A session as `accept4` leaves it: its descriptor is about to be registered,
it is in `sessions_`, and it has been started. -/
def accepted (split : σ) : StreamSession σ :=
  start
    { conn :=
        { recvBuf := .make 65535
          sendBuf := .make 65535
          channel := ⟨EventType.kDefault, EventMode.kDefault⟩ }
      slot := .unknown
      ioQueue := [.fd .registerFd]
      pending := []
      serverAlive := true
      inSessions := true
      split := split
      traffic := .none
      notices := [] }

/-- Perform an effect of the handler.  `on_session_error` and `on_disconnect`
stop the session; what else the callbacks of the user do is a call. -/
def perform (s : StreamSession σ) : Effect → StreamSession σ
  | .updateEvent types modes => s.post [.fd (.enableFd types modes)]
  | .onFragment fragment => { s with traffic := s.traffic.deliver fragment }
  | .onError errno => { s.stop with notices := s.notices ++ [.onError errno] }
  | .onDisconnect => { s.stop with notices := s.notices ++ [.onDisconnect] }

/-- The body of the task `post_send_task` posts. -/
def execSend (ret : SendRet) (data : List UInt8) (s : StreamSession σ) :
    StreamSession σ :=
  if s.serverAlive then
    if s.conn.sendBuf.empty then
      -- Nothing is queued, so a direct send keeps the order.
      let sent := s.conn.sendNow ret data
      { s with
        conn := sent.conn
        traffic := s.traffic.sendTask data sent.accepted }
        |>.post (sent.requests.map SessionTask.request)
    else
      { s with
        conn := s.conn.enqueue data
        traffic := s.traffic.sendTask data [] }
  else
    { s with traffic := s.traffic.sendTask data [] }

/-- Execute one task of the io thread. -/
def exec (faults : TaskFaults) (ret : SendRet) (s : StreamSession σ) :
    SessionTask → StreamSession σ
  | .fd task => { s with slot := s.slot.exec faults task }
  | .send data => s.execSend ret data
  -- `server_.lock()` fails once the server is gone.
  | .erase => if s.serverAlive then { s with inSessions := false } else s

/-- The session after the phases of a handler invocation. -/
def leave (s : StreamSession σ) (split : σ) (h : HandlerState) :
    StreamSession σ :=
  { s with
    conn := h.conn
    split := split
    pending := h.effects
    traffic := s.traffic.exchange h.received h.accepted }

/-- One step.  The io thread takes a task or an event only when it is done with
the effects of the last one, and a server that a running handler keeps alive is
not destroyed. -/
def step (onSplit : σ → List UInt8 → Int × σ) (s : StreamSession σ) :
    SessionAction → Option (StreamSession σ)
  | .call call => some (s.call call)
  | .execTask faults ret =>
      match s.pending, s.ioQueue with
      | [], task :: tasks => some ({ s with ioQueue := tasks }.exec faults ret task)
      | _, _ => none
  | .dispatch fuel inv =>
      match s.pending, s.slot.event.cb with
      | [], some () =>
          (handler onSplit fuel s.serverAlive inv s.split s.conn).map
            fun result => s.leave result.1 result.2
      | _, _ => none
  | .perform =>
      match s.pending with
      | effect :: effects => some ({ s with pending := effects }.perform effect)
      | [] => none
  | .destroyServer =>
      -- A handler holds its server until its last effect.
      match s.pending with
      | [] => some { s with serverAlive := false, inSessions := false }
      | _ :: _ => none

/-! ## Inversion of a step -/

/-- The ways a step can be taken, with their preconditions. -/
inductive Stepped (onSplit : σ → List UInt8 → Int × σ) (s : StreamSession σ) :
    SessionAction → StreamSession σ → Prop
  | call (call : SessionCall) : Stepped onSplit s (.call call) (s.call call)
  | execTask {faults : TaskFaults} {ret : SendRet} {task : SessionTask}
      {tasks : List SessionTask} (hIdle : s.pending = [])
      (hQueue : s.ioQueue = task :: tasks) :
      Stepped onSplit s (.execTask faults ret)
        ({ s with ioQueue := tasks }.exec faults ret task)
  | dispatch {fuel : Nat} {inv : Invocation} {split : σ} {h : HandlerState}
      (hIdle : s.pending = []) (hInstalled : s.slot.event.cb = some ())
      (hReturns : handler onSplit fuel s.serverAlive inv s.split s.conn =
        some (split, h)) :
      Stepped onSplit s (.dispatch fuel inv) (s.leave split h)
  | perform {effect : Effect} {effects : List Effect}
      (hPending : s.pending = effect :: effects) :
      Stepped onSplit s .perform ({ s with pending := effects }.perform effect)
  | destroyServer (hIdle : s.pending = []) :
      Stepped onSplit s .destroyServer
        { s with serverAlive := false, inSessions := false }

theorem stepped {onSplit : σ → List UInt8 → Int × σ} {s next : StreamSession σ}
    {action : SessionAction} (hStep : step onSplit s action = some next) :
    Stepped onSplit s action next := by
  cases action with
  | call call =>
      obtain rfl : s.call call = next := by simpa [step] using hStep
      exact .call call
  | execTask faults ret =>
      simp only [step] at hStep
      split at hStep
      · rename_i hIdle hQueue
        obtain rfl := Option.some.inj hStep
        exact .execTask hIdle hQueue
      · cases hStep
  | dispatch fuel inv =>
      simp only [step] at hStep
      split at hStep
      · rename_i hIdle hInstalled
        obtain ⟨⟨split, h⟩, hReturns, rfl⟩ := Option.map_eq_some_iff.mp hStep
        exact .dispatch hIdle hInstalled hReturns
      · cases hStep
  | perform =>
      simp only [step] at hStep
      split at hStep
      · rename_i hPending
        obtain rfl := Option.some.inj hStep
        exact .perform hPending
      · cases hStep
  | destroyServer =>
      simp only [step] at hStep
      split at hStep
      · rename_i hIdle
        obtain rfl := Option.some.inj hStep
        exact .destroyServer hIdle
      · cases hStep

/-! ## The table entry once the queue is drained -/

/-- The tasks of a queue that concern the descriptor. -/
def fdTasks (tasks : List SessionTask) : List (FdTask Unit) :=
  tasks.filterMap fun
    | .fd task => some task
    | _ => none

/-- The table entry the queued tasks lead to. -/
def settled (s : StreamSession σ) : FdSlot Unit :=
  s.slot.drain (fdTasks s.ioQueue)

@[simp]
theorem fdTasks_fd_cons (task : FdTask Unit) (tasks : List SessionTask) :
    fdTasks (.fd task :: tasks) = task :: fdTasks tasks := rfl

@[simp]
theorem fdTasks_send_cons (data : List UInt8) (tasks : List SessionTask) :
    fdTasks (.send data :: tasks) = fdTasks tasks := rfl

@[simp]
theorem fdTasks_erase_cons (tasks : List SessionTask) :
    fdTasks (.erase :: tasks) = fdTasks tasks := rfl

@[simp]
theorem fdTasks_append (tasks later : List SessionTask) :
    fdTasks (tasks ++ later) = fdTasks tasks ++ fdTasks later :=
  List.filterMap_append

@[simp]
theorem settled_post (s : StreamSession σ) (tasks : List SessionTask) :
    (s.post tasks).settled = s.settled.drain (fdTasks tasks) := by
  simp [settled, post]

@[simp]
theorem fdTasks_map_request (requests : List ChannelInfo) :
    fdTasks (requests.map SessionTask.request) =
      requests.map ChannelInfo.enableFd := by
  induction requests with
  | nil => rfl
  | cons channel requests ih =>
      show channel.enableFd :: fdTasks _ = _
      rw [ih, List.map_cons]

/-- Executing a task of the descriptor without a fault leads where the queue
led before. -/
theorem settled_exec_fd {s : StreamSession σ} {task : FdTask Unit}
    {tasks : List SessionTask} (ret : SendRet)
    (hQueue : s.ioQueue = .fd task :: tasks) :
    ({ s with ioQueue := tasks }.exec {} ret (.fd task)).settled = s.settled := by
  simp only [settled, exec, hQueue, fdTasks_fd_cons, FdSlot.drain_cons]

end StreamSession
end Net
end KZEvent
