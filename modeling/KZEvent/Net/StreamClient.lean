import KZEvent.Net.Traffic

/-!
# A stream client

A client owns a stream socket and a timer.  `connect` starts an attempt; when
the attempt stays in progress, a callback on the stream socket detects its end
and a callback on the timer limits it.  A successful attempt calls `start`,
which replaces the detection by the stream handler.

As in the session model, the methods post tasks, the io thread executes tasks
and dispatches events in between, and the effects of a handler invocation are
performed one by one.  A call is one step here, with one exception: an attempt
that fails at once calls `on_error` before it resets `connected_`, so its end is
a step of its own, `connectReturns`, and whatever the callback of the user does
comes before it.
-/

namespace KZEvent
namespace Net

open KZEvent.Core Foundation EventType

inductive ConnectState
  | kDisconnected
  | kConnecting
  | kConnected
deriving DecidableEq

/-- The result of `::connect`. -/
inductive ConnectRet
  | success
  | error (errno : Errno)
deriving DecidableEq

/-- The callbacks the stream socket can have.  `attempt` numbers the call of
`connect` that made the callback; the source does not look at it. -/
inductive StreamCb
  | socketCb (attempt : Nat)
  | handler
deriving DecidableEq

/-- The tasks posted for a client.  The callback of the timer is known by the
number of the attempt that made it. -/
inductive ClientTask
  | stream (task : FdTask StreamCb)
  | timer (task : FdTask Nat)
  | resetTimer (timeoutMs : Nat)
  | send (data : List UInt8)
deriving DecidableEq

/-- The task `update_event` posts for a change of the interest. -/
def ClientTask.request (channel : ChannelInfo) : ClientTask :=
  .stream channel.enableFd

/-- What happened to the connection, with the number of the attempt it is about
and the value of `connected_` that a notification was issued under.
`attemptError` and `streamError` are the calls of `on_error` for an attempt and
from the stream handler. -/
inductive ClientEvent
  | attempt (attempt : Nat) (ret : ConnectRet)
  | established (attempt : Nat)
  | attemptError (attempt : Nat) (errno : Errno) (seen : ConnectState)
  | streamError (errno : Errno) (seen : ConnectState)
  | disconnect (seen : ConnectState)
  | stopped
deriving DecidableEq

/-- The current attempt has led to a connection.  The log is newest first. -/
def establishedIn : List ClientEvent → Bool
  | [] => false
  | .attempt _ _ :: _ => false
  | .established _ :: _ => true
  | _ :: log => establishedIn log

/-- A client, the table entries of its two descriptors, and the tasks queued
for it.  `failing` counts the calls of `connect` that failed at once and have
not returned, `attempts` the attempts so far, and `log` is newest first. -/
structure StreamClient (σ : Type*) where
  connected : ConnectState
  started : Bool
  conn : StreamConn
  streamSlot : FdSlot StreamCb
  timerSlot : FdSlot Nat
  ioQueue : List ClientTask
  pending : List Effect
  failing : Nat
  attempts : Nat
  split : σ
  traffic : Traffic
  log : List ClientEvent

/-- The calls a client takes from anywhere. -/
inductive ClientCall
  | connect (ret : ConnectRet) (timeoutMs : Nat)
  | connectReturns
  | start
  | stop
  | postSendTask (data : List UInt8)

/-- A step of a run. -/
inductive ClientAction
  | call (call : ClientCall)
  | execTask (faults : TaskFaults) (ret : SendRet)
  | dispatch (fuel : Nat) (inv : Invocation)
  | perform
  | timerExpires

namespace StreamClient

variable {σ : Type*}

/-- A client as its constructor leaves it. -/
def make (split : σ) : StreamClient σ where
  connected := .kDisconnected
  started := false
  conn :=
    { recvBuf := .make 65535
      sendBuf := .make 65535
      channel := ⟨EventType.kDefault, EventMode.kDefault⟩ }
  streamSlot := .unknown
  timerSlot := .unknown
  ioQueue := [.stream .registerFd, .timer .registerFd]
  pending := []
  failing := 0
  attempts := 0
  split := split
  traffic := .none
  log := []

def post (c : StreamClient σ) (tasks : List ClientTask) : StreamClient σ :=
  { c with ioQueue := c.ioQueue ++ tasks }

def record (c : StreamClient σ) (event : ClientEvent) : StreamClient σ :=
  { c with log := event :: c.log }

/-- The end of `start`: install the stream handler. -/
def install (c : StreamClient σ) (isEmpty : Bool) : StreamClient σ :=
  let types :=
    if isEmpty then kRead ||| kError else kRead ||| kWrite ||| kError
  { c.post [.stream (.enableFdCb types EventMode.kDefault .handler)] with
    conn := { c.conn with channel := ⟨types, EventMode.kDefault⟩ } }

/-- `StreamClientSocket::start`. -/
def start (c : StreamClient σ) : StreamClient σ :=
  if c.started then c
  else { c with started := true }.install c.conn.sendBuf.empty

/-- `StreamClientSocket::stop`. -/
def stop (c : StreamClient σ) : StreamClient σ :=
  { c with started := false }.record .stopped
    |>.post [.stream .disableFd, .timer .disableFd]

/-- `on_error` for an attempt; what else the callback of the user does is a
call. -/
def failAttempt (c : StreamClient σ) (attempt : Nat) (errno : Errno) :
    StreamClient σ :=
  (c.record (.attemptError attempt errno c.connected)).stop

/-- `connected_ = kConnected`, on either path. -/
def succeed (c : StreamClient σ) (attempt : Nat) : StreamClient σ :=
  { c with connected := .kConnected }.record (.established attempt)

/-- The end of `connect` for an attempt in progress: install the detection and
the time limit, and arm the timer. -/
def detect (c : StreamClient σ) (timeoutMs : Nat) : StreamClient σ :=
  { c.post
      [.stream (.enableFdCb kWrite EventMode.kDefault (.socketCb c.attempts)),
        .timer (.enableFdCb kRead EventMode.kDefault c.attempts),
        .resetTimer timeoutMs] with
    conn := { c.conn with channel := ⟨kWrite, EventMode.kDefault⟩ } }

/-- The compare-and-swap of `connect`, when it succeeds. -/
def claim (c : StreamClient σ) (ret : ConnectRet) : StreamClient σ :=
  { c with connected := .kConnecting, attempts := c.attempts + 1 }.record
    (.attempt (c.attempts + 1) ret)

/-- `StreamClientSocket::connect`, up to the return from `on_error`.  `errno` is taken to
be what `::connect` left: the logging in between does not change it. -/
def connect (ret : ConnectRet) (timeoutMs : Nat) (c : StreamClient σ) :
    StreamClient σ :=
  if c.connected = .kDisconnected then
    match ret with
    | .success => ((c.claim ret).succeed (c.attempts + 1)).start
    | .error errno =>
        if errno ≠ EINPROGRESS then
          -- `on_error` comes before the reset, see `connectReturns`.
          { (c.claim ret).failAttempt (c.attempts + 1) errno with
            failing := c.failing + 1 }
        else
          (c.claim ret).detect timeoutMs
  else
    c

/-- The rest of a `connect` that failed at once. -/
def connectReturns (c : StreamClient σ) : StreamClient σ :=
  if c.failing = 0 then c
  else { c with failing := c.failing - 1, connected := .kDisconnected }

def postSendTask (data : List UInt8) (c : StreamClient σ) : StreamClient σ :=
  c.post [.send data]

def call (c : StreamClient σ) : ClientCall → StreamClient σ
  | .connect ret timeoutMs => c.connect ret timeoutMs
  | .connectReturns => c.connectReturns
  | .start => c.start
  | .stop => c.stop
  | .postSendTask data => c.postSendTask data

/-- The callback `connect` installs on the stream socket. -/
def socketCb (attempt : Nat) (inv : Invocation) (c : StreamClient σ) :
    StreamClient σ :=
  -- `connected_` is not looked at: the attempt may be over already.
  if hasFlag inv.types kWrite then
    if inv.soError ≠ 0 then
      { c with connected := .kDisconnected }.post [.timer .disableFd]
        |>.failAttempt attempt inv.soError
    else
      ((c.succeed attempt).post [.timer .disableFd]).start
  else
    c

/-- The callback `connect` installs on the timer. -/
def timerCb (attempt : Nat) (c : StreamClient σ) : StreamClient σ :=
  if c.connected = .kConnected then
    c.post [.timer .disableFd]
  else
    -- Also when the attempt has failed already.
    { c with connected := .kDisconnected }.post [.timer .disableFd]
      |>.failAttempt attempt ETIMEDOUT

/-- Perform an effect of the stream handler.  `on_error` and `on_disconnect`
stop the client. -/
def perform (c : StreamClient σ) : Effect → StreamClient σ
  | .updateEvent types modes => c.post [.stream (.enableFd types modes)]
  | .onFragment fragment => { c with traffic := c.traffic.deliver fragment }
  -- `connected_` is left as it is.
  | .onError errno => (c.record (.streamError errno c.connected)).stop
  | .onDisconnect => (c.record (.disconnect c.connected)).stop

/-- The body of the task `post_send_task` posts. -/
def execSend (ret : SendRet) (data : List UInt8) (c : StreamClient σ) :
    StreamClient σ :=
  if ¬ c.conn.sendBuf.empty ∨ c.connected ≠ .kConnected then
    -- The write event is asked for by whoever queued first, or by `start`.
    { c with
      conn := c.conn.enqueue data
      traffic := c.traffic.sendTask data [] }
  else
    let sent := c.conn.sendNow ret data
    { c with
      conn := sent.conn
      traffic := c.traffic.sendTask data sent.accepted }
      |>.post (sent.requests.map ClientTask.request)

/-- Execute one task of the io thread.  The deadline the timer is armed with is
not part of the model: it may expire whenever its callback is installed. -/
def exec (faults : TaskFaults) (ret : SendRet) (c : StreamClient σ) :
    ClientTask → StreamClient σ
  | .stream task => { c with streamSlot := c.streamSlot.exec faults task }
  | .timer task => { c with timerSlot := c.timerSlot.exec faults task }
  | .resetTimer _ => c
  | .send data => c.execSend ret data

/-- The client after the phases of a handler invocation. -/
def leave (c : StreamClient σ) (split : σ) (h : HandlerState) :
    StreamClient σ :=
  { c with
    conn := h.conn
    split := split
    pending := h.effects
    traffic := c.traffic.exchange h.received h.accepted }

/-- One step. -/
def step (onSplit : σ → List UInt8 → Int × σ) (c : StreamClient σ) :
    ClientAction → Option (StreamClient σ)
  | .call call => some (c.call call)
  | .execTask faults ret =>
      match c.pending, c.ioQueue with
      | [], task :: tasks => some ({ c with ioQueue := tasks }.exec faults ret task)
      | _, _ => none
  | .dispatch fuel inv =>
      match c.pending, c.streamSlot.event.cb with
      | [], some (.socketCb attempt) => some (c.socketCb attempt inv)
      -- The end of the handler may never come, when the splitter never stops.
      | [], some .handler =>
          (StreamClientSocket.handler onSplit fuel inv c.split c.conn).map
            fun result => c.leave result.1 result.2
      | _, _ => none
  | .perform =>
      match c.pending with
      | effect :: effects => some ({ c with pending := effects }.perform effect)
      | [] => none
  | .timerExpires =>
      match c.pending, c.timerSlot.event.cb with
      | [], some attempt => some (c.timerCb attempt)
      | _, _ => none

/-! ## Inversion of `connect` and of a step -/

/-- The ways `connect` can go. -/
inductive Connects (c : StreamClient σ) (timeoutMs : Nat) :
    ConnectRet → StreamClient σ → Prop
  | ignored (ret : ConnectRet) (hBusy : c.connected ≠ .kDisconnected) :
      Connects c timeoutMs ret c
  | succeeds (hFree : c.connected = .kDisconnected) :
      Connects c timeoutMs .success
        ((c.claim .success).succeed (c.attempts + 1)).start
  | fails {errno : Errno} (hFree : c.connected = .kDisconnected)
      (hErrno : errno ≠ EINPROGRESS) :
      Connects c timeoutMs (.error errno)
        { (c.claim (.error errno)).failAttempt (c.attempts + 1) errno with
          failing := c.failing + 1 }
  | detects (hFree : c.connected = .kDisconnected) :
      Connects c timeoutMs (.error EINPROGRESS)
        ((c.claim (.error EINPROGRESS)).detect timeoutMs)

theorem connects (c : StreamClient σ) (ret : ConnectRet) (timeoutMs : Nat) :
    Connects c timeoutMs ret (c.connect ret timeoutMs) := by
  by_cases hFree : c.connected = .kDisconnected
  · cases ret with
    | success =>
        simp only [connect, if_pos hFree]
        exact .succeeds hFree
    | error errno =>
        by_cases hErrno : errno = EINPROGRESS
        · subst hErrno
          simp only [connect, if_pos hFree, ne_eq, not_true, if_false]
          exact .detects hFree
        · simp only [connect, if_pos hFree, ne_eq, hErrno, not_false_eq_true,
            if_true]
          exact .fails hFree hErrno
  · simp only [connect, if_neg hFree]
    exact .ignored ret hFree

/-- The ways a step can be taken, with their preconditions. -/
inductive Stepped (onSplit : σ → List UInt8 → Int × σ) (c : StreamClient σ) :
    ClientAction → StreamClient σ → Prop
  | call (call : ClientCall) : Stepped onSplit c (.call call) (c.call call)
  | execTask {faults : TaskFaults} {ret : SendRet} {task : ClientTask}
      {tasks : List ClientTask} (hIdle : c.pending = [])
      (hQueue : c.ioQueue = task :: tasks) :
      Stepped onSplit c (.execTask faults ret)
        ({ c with ioQueue := tasks }.exec faults ret task)
  | socketCb {fuel : Nat} {inv : Invocation} {attempt : Nat}
      (hIdle : c.pending = [])
      (hInstalled : c.streamSlot.event.cb = some (.socketCb attempt)) :
      Stepped onSplit c (.dispatch fuel inv) (c.socketCb attempt inv)
  | handler {fuel : Nat} {inv : Invocation} {split : σ} {h : HandlerState}
      (hIdle : c.pending = [])
      (hInstalled : c.streamSlot.event.cb = some .handler)
      (hReturns : StreamClientSocket.handler onSplit fuel inv c.split c.conn =
        some (split, h)) :
      Stepped onSplit c (.dispatch fuel inv) (c.leave split h)
  | perform {effect : Effect} {effects : List Effect}
      (hPending : c.pending = effect :: effects) :
      Stepped onSplit c .perform ({ c with pending := effects }.perform effect)
  | timerExpires {attempt : Nat} (hIdle : c.pending = [])
      (hInstalled : c.timerSlot.event.cb = some attempt) :
      Stepped onSplit c .timerExpires (c.timerCb attempt)

theorem stepped {onSplit : σ → List UInt8 → Int × σ} {c next : StreamClient σ}
    {action : ClientAction} (hStep : step onSplit c action = some next) :
    Stepped onSplit c action next := by
  cases action with
  | call call =>
      obtain rfl : c.call call = next := by simpa [step] using hStep
      exact .call call
  | execTask faults ret =>
      simp only [step] at hStep
      split at hStep
      · rename_i hIdle hQueue
        obtain rfl := Option.some.inj hStep
        exact .execTask hIdle hQueue
      · cases hStep
  | dispatch fuel inv =>
      simp only [step] at hStep
      split at hStep
      · rename_i hIdle hInstalled
        obtain rfl := Option.some.inj hStep
        exact .socketCb hIdle hInstalled
      · rename_i hIdle hInstalled
        obtain ⟨⟨split, h⟩, hReturns, rfl⟩ := Option.map_eq_some_iff.mp hStep
        exact .handler hIdle hInstalled hReturns
      · cases hStep
  | perform =>
      simp only [step] at hStep
      split at hStep
      · rename_i hPending
        obtain rfl := Option.some.inj hStep
        exact .perform hPending
      · cases hStep
  | timerExpires =>
      simp only [step] at hStep
      split at hStep
      · rename_i hIdle hInstalled
        obtain rfl := Option.some.inj hStep
        exact .timerExpires hIdle hInstalled
      · cases hStep

/-! ## The table entries once the queue is drained -/

/-- The tasks of a queue that concern the stream socket. -/
def streamTasks (tasks : List ClientTask) : List (FdTask StreamCb) :=
  tasks.filterMap fun
    | .stream task => some task
    | _ => none

/-- The tasks of a queue that concern the timer. -/
def timerTasks (tasks : List ClientTask) : List (FdTask Nat) :=
  tasks.filterMap fun
    | .timer task => some task
    | _ => none

/-- The entry of the stream socket the queued tasks lead to. -/
def settled (c : StreamClient σ) : FdSlot StreamCb :=
  c.streamSlot.drain (streamTasks c.ioQueue)

/-- The entry of the timer the queued tasks lead to. -/
def timerSettled (c : StreamClient σ) : FdSlot Nat :=
  c.timerSlot.drain (timerTasks c.ioQueue)

@[simp]
theorem streamTasks_nil : streamTasks [] = [] := rfl

@[simp]
theorem streamTasks_stream_cons (task : FdTask StreamCb)
    (tasks : List ClientTask) :
    streamTasks (.stream task :: tasks) = task :: streamTasks tasks := rfl

@[simp]
theorem streamTasks_timer_cons (task : FdTask Nat) (tasks : List ClientTask) :
    streamTasks (.timer task :: tasks) = streamTasks tasks := rfl

@[simp]
theorem streamTasks_resetTimer_cons (timeoutMs : Nat)
    (tasks : List ClientTask) :
    streamTasks (.resetTimer timeoutMs :: tasks) = streamTasks tasks := rfl

@[simp]
theorem streamTasks_send_cons (data : List UInt8) (tasks : List ClientTask) :
    streamTasks (.send data :: tasks) = streamTasks tasks := rfl

@[simp]
theorem streamTasks_append (tasks later : List ClientTask) :
    streamTasks (tasks ++ later) = streamTasks tasks ++ streamTasks later :=
  List.filterMap_append

@[simp]
theorem timerTasks_append (tasks later : List ClientTask) :
    timerTasks (tasks ++ later) = timerTasks tasks ++ timerTasks later :=
  List.filterMap_append

@[simp]
theorem settled_post (c : StreamClient σ) (tasks : List ClientTask) :
    (c.post tasks).settled = c.settled.drain (streamTasks tasks) := by
  simp [settled, post]

@[simp]
theorem timerSettled_post (c : StreamClient σ) (tasks : List ClientTask) :
    (c.post tasks).timerSettled = c.timerSettled.drain (timerTasks tasks) := by
  simp [timerSettled, post]

@[simp]
theorem streamTasks_map_request (requests : List ChannelInfo) :
    streamTasks (requests.map ClientTask.request) =
      requests.map ChannelInfo.enableFd := by
  induction requests with
  | nil => rfl
  | cons channel requests ih =>
      show channel.enableFd :: streamTasks _ = _
      rw [ih, List.map_cons]

theorem timerTasks_map_request (requests : List ChannelInfo) :
    timerTasks (requests.map ClientTask.request) = [] := by
  induction requests with
  | nil => rfl
  | cons channel requests ih => exact ih

/-- Executing a task of the stream socket without a fault leads where the
queue led before. -/
theorem settled_exec_stream {c : StreamClient σ} {task : FdTask StreamCb}
    {tasks : List ClientTask} (ret : SendRet)
    (hQueue : c.ioQueue = .stream task :: tasks) :
    ({ c with ioQueue := tasks }.exec {} ret (.stream task)).settled =
      c.settled := by
  simp only [settled, exec, hQueue, streamTasks_stream_cons, FdSlot.drain_cons]

/-- The mask `start` asks for. -/
def startTypes (isEmpty : Bool) : EventType :=
  if isEmpty then kRead ||| kError else kRead ||| kWrite ||| kError

theorem settled_install (c : StreamClient σ) (isEmpty : Bool) :
    (c.install isEmpty).settled = c.settled.drain
      [.enableFdCb (startTypes isEmpty) EventMode.kDefault .handler] :=
  settled_post c _

theorem settled_detect (c : StreamClient σ) (timeoutMs : Nat) :
    (c.detect timeoutMs).settled = c.settled.drain
      [.enableFdCb kWrite EventMode.kDefault (.socketCb c.attempts)] :=
  settled_post c _

theorem settled_stop (c : StreamClient σ) :
    c.stop.settled = c.settled.drain [.disableFd] :=
  settled_post _ _

theorem timerSettled_install (c : StreamClient σ) (isEmpty : Bool) :
    (c.install isEmpty).timerSettled = c.timerSettled :=
  timerSettled_post c _

theorem timerSettled_detect (c : StreamClient σ) (timeoutMs : Nat) :
    (c.detect timeoutMs).timerSettled = c.timerSettled.drain
      [.enableFdCb kRead EventMode.kDefault c.attempts] :=
  timerSettled_post c _

theorem timerSettled_stop (c : StreamClient σ) :
    c.stop.timerSettled = c.timerSettled.drain [.disableFd] :=
  timerSettled_post _ _

/-- The entry the queued tasks and the effects still to be performed lead to. -/
def foreseen (c : StreamClient σ) : FdSlot StreamCb :=
  c.settled.drain ((requestsOf c.pending).map ChannelInfo.enableFd)

theorem foreseen_of_idle {c : StreamClient σ} (hIdle : c.pending = []) :
    c.foreseen = c.settled := by
  simp [foreseen, hIdle, requestsOf]

/-- Between invocations it is enough to look at the queue. -/
theorem waits_foreseen {c : StreamClient σ} (hIdle : c.pending = [])
    (hWaits : Waits c.conn c.settled) : Waits c.conn c.foreseen := by
  rw [foreseen_of_idle hIdle]
  exact hWaits

/-- Installing the handler sets cache and interest to the same mask, which is
the right one unless `send_buf_` is wrongly taken for empty. -/
theorem waits_install {c : StreamClient σ} {isEmpty : Bool}
    (hIdle : c.pending = [])
    (hRegistered : c.settled.event.inRegister = true)
    (hEmpty : isEmpty = true → c.conn.sendBuf.live = []) :
    Waits (c.install isEmpty).conn (c.install isEmpty).foreseen := by
  refine waits_foreseen hIdle ?_
  rw [settled_install, FdSlot.drain_cons, FdSlot.drain_nil,
    FdSlot.exec_enableFdCb_ok hRegistered]
  refine { follows := { registered := rfl, interest := rfl }, reads := ?_,
           writes := ?_ }
  · simp only [install]
    split <;> decide
  · intro hQueued
    have hNotEmpty : ¬ isEmpty = true := fun hTrue => hQueued (hEmpty hTrue)
    simp only [install, if_neg hNotEmpty]
    decide

theorem registered_install {c : StreamClient σ} (isEmpty : Bool)
    (hRegistered : c.settled.event.inRegister = true) :
    (c.install isEmpty).settled.event.inRegister = true := by
  rw [settled_install]
  exact FdSlot.drain_inRegister hRegistered (by simp)

/-- Performing an effect other than a notification leads where the pending
effects led before. -/
theorem foreseen_perform {c : StreamClient σ} {effect : Effect}
    {effects : List Effect} (hPending : c.pending = effect :: effects)
    (hGoesOn : effect.isNotice = false) :
    ({ c with pending := effects }.perform effect).foreseen = c.foreseen := by
  rw [foreseen, foreseen, hPending, requestsOf_cons, List.map_append,
    FdSlot.drain_append]
  cases effect with
  | updateEvent types modes =>
      have hSettled : ({ c with pending := effects }.perform
          (.updateEvent types modes)).settled =
          c.settled.drain [.enableFd types modes] :=
        settled_post { c with pending := effects } _
      rw [hSettled]
      rfl
  | onFragment fragment => rfl
  | onError errno => cases hGoesOn
  | onDisconnect => cases hGoesOn

/-- No effect ends the registration of the stream socket. -/
theorem registered_perform {c : StreamClient σ}
    (hRegistered : c.settled.event.inRegister = true) (effect : Effect)
    (effects : List Effect) :
    ({ c with pending := effects }.perform effect).settled.event.inRegister =
      true := by
  have hPosted (tasks : List ClientTask)
      (hTasks : ∀ task ∈ streamTasks tasks, task ≠ .unregisterFd) :
      (({ c with pending := effects } : StreamClient σ).post
        tasks).settled.event.inRegister = true := by
    rw [settled_post]
    exact FdSlot.drain_inRegister hRegistered hTasks
  cases effect with
  | updateEvent types modes => exact hPosted _ (by simp)
  | onFragment fragment => exact hRegistered
  | onError errno => exact hPosted _ (by simp)
  | onDisconnect => exact hPosted _ (by simp)

/-- A task that does not concern the stream socket leaves the queue. -/
theorem settled_pop {c : StreamClient σ} {task : ClientTask}
    {tasks : List ClientTask} (hQueue : c.ioQueue = task :: tasks)
    (hOther : streamTasks (task :: tasks) = streamTasks tasks) :
    ({ c with ioQueue := tasks } : StreamClient σ).settled = c.settled := by
  rw [settled, settled, hQueue, hOther]

/-! ## What an executed task leaves alone -/

@[simp]
theorem connected_exec (faults : TaskFaults) (ret : SendRet)
    (c : StreamClient σ) (task : ClientTask) :
    (c.exec faults ret task).connected = c.connected := by
  cases task with
  | send data =>
      simp only [exec, execSend]
      split <;> rfl
  | stream task => rfl
  | timer task => rfl
  | resetTimer timeoutMs => rfl

@[simp]
theorem pending_exec (faults : TaskFaults) (ret : SendRet)
    (c : StreamClient σ) (task : ClientTask) :
    (c.exec faults ret task).pending = c.pending := by
  cases task with
  | send data =>
      simp only [exec, execSend]
      split <;> rfl
  | stream task => rfl
  | timer task => rfl
  | resetTimer timeoutMs => rfl

@[simp]
theorem log_exec (faults : TaskFaults) (ret : SendRet) (c : StreamClient σ)
    (task : ClientTask) : (c.exec faults ret task).log = c.log := by
  cases task with
  | send data =>
      simp only [exec, execSend]
      split <;> rfl
  | stream task => rfl
  | timer task => rfl
  | resetTimer timeoutMs => rfl

@[simp]
theorem attempts_exec (faults : TaskFaults) (ret : SendRet)
    (c : StreamClient σ) (task : ClientTask) :
    (c.exec faults ret task).attempts = c.attempts := by
  cases task with
  | send data =>
      simp only [exec, execSend]
      split <;> rfl
  | stream task => rfl
  | timer task => rfl
  | resetTimer timeoutMs => rfl

@[simp]
theorem attempts_start (c : StreamClient σ) : c.start.attempts = c.attempts := by
  unfold start
  split <;> rfl

@[simp]
theorem log_start (c : StreamClient σ) : c.start.log = c.log := by
  unfold start
  split <;> rfl

@[simp]
theorem connected_start (c : StreamClient σ) :
    c.start.connected = c.connected := by
  unfold start
  split <;> rfl

end StreamClient
end Net
end KZEvent
