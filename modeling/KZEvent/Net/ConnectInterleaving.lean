import KZEvent.Net.StreamClient

/-!
# A connect call against the io thread

In the model of a client a call is one step.  Here the calls of the user thread
are taken apart: the compare-and-swap of `connect`, `::connect`, the assignment
of `kConnected`, and then the compare-and-swap of `start`, its look at
`send_buf_` and its `update_event` are steps of their own, and the io thread
executes whole tasks in between.  It dispatches events only between two calls.

A connected client should be wired up: the stream handler is installed and the
kernel waits for what the connection needs.  Two things go wrong.  `start`
returns early when `started_` is set already, whatever is installed; and a send
task executed after the look at `send_buf_` leaves bytes there that the mask of
the `update_event` to come does not know about.
-/

namespace KZEvent
namespace Net

open KZEvent.Core Foundation EventType

variable {σ : Type*}

/-! ## The system -/

/-- What the user thread does next. -/
inductive UserPc
  | idle
  | connecting (timeoutMs : Nat)
  | established
  | starting
  | checking
  | installing (isEmpty : Bool)
  | failing
deriving DecidableEq

/-- A client and the user thread. -/
structure ConnectingClient (σ : Type*) where
  client : StreamClient σ
  pc : UserPc

/-- The calls the user thread makes. -/
inductive UserCall
  | connect (timeoutMs : Nat)
  | start
  | stop

/-- A step of a run: the user thread begins a call, or takes its next step, or
another thread takes a step of the client.  `ret` is the result of `::connect`
where the step calls it. -/
inductive ThreadAction
  | begin (call : UserCall)
  | advance (ret : ConnectRet)
  | other (action : ClientAction)

namespace ConnectingClient

def make (split : σ) : ConnectingClient σ where
  client := .make split
  pc := .idle

/-- The first step of a call; `stop` has only one. -/
def begin (s : ConnectingClient σ) : UserCall → ConnectingClient σ
  | .connect timeoutMs =>
      if s.client.connected = .kDisconnected then
        { client := { s.client with
            connected := .kConnecting
            attempts := s.client.attempts + 1 }
          pc := .connecting timeoutMs }
      else
        s
  | .start => { s with pc := .starting }
  | .stop => { s with client := s.client.stop }

/-- `::connect` was called. -/
def connectStep (c : StreamClient σ) (timeoutMs : Nat) :
    ConnectRet → ConnectingClient σ
  | .success =>
      { client := c.record (.attempt c.attempts .success)
        pc := .established }
  | .error errno =>
      let tried := c.record (.attempt c.attempts (.error errno))
      if errno ≠ EINPROGRESS then
        { client := tried.failAttempt c.attempts errno
          pc := .failing }
      else
        { client := tried.detect timeoutMs
          pc := .idle }

/-- The next step of a call. -/
def advance (ret : ConnectRet) (s : ConnectingClient σ) :
    Option (ConnectingClient σ) :=
  match s.pc with
  | .idle => none
  | .connecting timeoutMs => some (connectStep s.client timeoutMs ret)
  | .established =>
      some { client := s.client.succeed s.client.attempts, pc := .starting }
  | .starting =>
      if s.client.started then
        -- Whatever callback is installed stays.
        some { s with pc := .idle }
      else
        some { client := { s.client with started := true }, pc := .checking }
  | .checking => some { s with pc := .installing s.client.conn.sendBuf.empty }
  | .installing isEmpty =>
      -- The mask rests on what `send_buf_` was at the last step.
      some { client := s.client.install isEmpty, pc := .idle }
  | .failing =>
      some { client := { s.client with connected := .kDisconnected }
             pc := .idle }

/-- The steps another thread may take while the user thread is at `pc`. -/
def Allowed (pc : UserPc) : ClientAction → Prop
  | .call (.postSendTask _) => True
  | .call _ => False
  | .execTask _ _ => True
  | .dispatch _ _ | .perform | .timerExpires => pc = .idle

instance (pc : UserPc) (action : ClientAction) :
    Decidable (Allowed pc action) :=
  match action with
  | .call (.postSendTask _) => .isTrue trivial
  | .call (.connect _ _) | .call .connectReturns | .call .start | .call .stop =>
      .isFalse id
  | .execTask _ _ => .isTrue trivial
  | .dispatch _ _ | .perform | .timerExpires => inferInstanceAs (Decidable (_ = _))

/-- One step.  A call begins when no other is in progress and no effect of a
handler invocation is left to be performed. -/
def step (onSplit : σ → List UInt8 → Int × σ) (s : ConnectingClient σ) :
    ThreadAction → Option (ConnectingClient σ)
  | .begin call =>
      if s.pc = .idle ∧ s.client.pending.isEmpty then some (s.begin call)
      else none
  | .advance ret => s.advance ret
  | .other action =>
      if Allowed s.pc action then
        (s.client.step onSplit action).map fun next => { s with client := next }
      else
        none

/-- The ways a step can be taken, with their preconditions. -/
inductive Stepped (onSplit : σ → List UInt8 → Int × σ) (s : ConnectingClient σ) :
    ThreadAction → ConnectingClient σ → Prop
  | begin (call : UserCall) (hFree : s.pc = .idle)
      (hIdle : s.client.pending = []) : Stepped onSplit s (.begin call) (s.begin call)
  | advance {ret : ConnectRet} {next : ConnectingClient σ}
      (hAdvance : s.advance ret = some next) :
      Stepped onSplit s (.advance ret) next
  | other {action : ClientAction} {next : StreamClient σ}
      (hAllowed : Allowed s.pc action)
      (hStep : StreamClient.Stepped onSplit s.client action next) :
      Stepped onSplit s (.other action) { s with client := next }

theorem stepped {onSplit : σ → List UInt8 → Int × σ}
    {s next : ConnectingClient σ} {action : ThreadAction}
    (hStep : step onSplit s action = some next) :
    Stepped onSplit s action next := by
  cases action with
  | begin call =>
      simp only [step] at hStep
      split at hStep
      · rename_i hReady
        obtain rfl := Option.some.inj hStep
        exact .begin call hReady.1 (List.isEmpty_iff.mp hReady.2)
      · cases hStep
  | advance ret => exact .advance hStep
  | other action =>
      simp only [step] at hStep
      split at hStep
      · rename_i hAllowed
        obtain ⟨client, hClient, rfl⟩ := Option.map_eq_some_iff.mp hStep
        exact .other hAllowed (StreamClient.stepped hClient)
      · cases hStep

/-! ## Without an interruption a call is the call of the client model -/

section Uninterrupted

variable (onSplit : σ → List UInt8 → Int × σ) (ret : ConnectRet)

/-- `start`, from its compare-and-swap on. -/
theorem run_starting (c : StreamClient σ) :
    ∃ count, run (step onSplit) { client := c, pc := .starting }
      (List.replicate count (.advance ret)) =
        some { client := c.start, pc := .idle } := by
  by_cases hStarted : c.started = true
  · refine ⟨1, ?_⟩
    simp [List.replicate, run, step, advance, StreamClient.start, hStarted]
  · refine ⟨3, ?_⟩
    simp [List.replicate, run, step, advance, StreamClient.start, hStarted]

/-- The whole of `connect`, with the return from `on_error`. -/
def connectCompleted (c : StreamClient σ) (timeoutMs : Nat) : StreamClient σ :=
  let next := c.connect ret timeoutMs
  if c.failing < next.failing then next.connectReturns else next

/-- Taken without a step of another thread in between, the steps of `connect`
are the step of the client model. -/
theorem run_connect {c : StreamClient σ} (hIdle : c.pending = [])
    (timeoutMs : Nat) :
    ∃ count, run (step onSplit) { client := c, pc := .idle }
      (.begin (.connect timeoutMs) :: List.replicate count (.advance ret)) =
        some { client := connectCompleted ret c timeoutMs, pc := .idle } := by
  have hBegin (actions : List ThreadAction) :
      run (step onSplit) { client := c, pc := .idle }
        (.begin (.connect timeoutMs) :: actions) =
      run (step onSplit)
        (begin { client := c, pc := .idle } (.connect timeoutMs)) actions := by
    simp [run, step, hIdle]
  have hConnects := c.connects ret timeoutMs
  simp only [connectCompleted]
  generalize c.connect ret timeoutMs = next at hConnects ⊢
  cases hConnects with
  | ignored _ hBusy =>
      refine ⟨0, ?_⟩
      rw [hBegin]
      simp [begin, hBusy]
  | succeeds hFree =>
      -- `::connect`, the assignment, and the steps of `start`.
      obtain ⟨count, hStarting⟩ := run_starting onSplit .success
        ((c.claim .success).succeed (c.attempts + 1))
      have hFailing : ((c.claim .success).succeed
          (c.attempts + 1)).start.failing = c.failing := by
        unfold StreamClient.start
        split <;> rfl
      refine ⟨count + 2, ?_⟩
      rw [hBegin, hFailing, if_neg (Nat.lt_irrefl _), ← hStarting]
      simp only [begin, hFree, if_true, List.replicate_succ, run, step, advance,
        connectStep, Option.bind_some]
      rfl
  | fails hFree hErrno =>
      -- `::connect` with `on_error`, and the reset.
      refine ⟨2, ?_⟩
      rw [hBegin]
      simp only [begin, hFree, if_true, List.replicate, run, step, advance,
        connectStep, hErrno, ne_eq, not_false_eq_true, Option.bind_some,
        Nat.lt_succ_self]
      simp [StreamClient.connectReturns, StreamClient.claim,
        StreamClient.failAttempt, StreamClient.record, StreamClient.stop,
        StreamClient.post]
  | detects hFree =>
      refine ⟨1, ?_⟩
      have hFailing :
          ((c.claim (.error EINPROGRESS)).detect timeoutMs).failing =
            c.failing := rfl
      rw [hBegin, hFailing, if_neg (Nat.lt_irrefl _)]
      simp only [begin, hFree, if_true, List.replicate, run, step, advance,
        connectStep, ne_eq, not_true, if_false, Option.bind_some]
      rfl

end Uninterrupted

end ConnectingClient

/-! ## The property -/

/-- A connection was established, and the client was not stopped since. -/
def keptUp : List ClientEvent → Bool
  | [] => false
  | .attempt _ _ :: _ => false
  | .established _ :: _ => true
  | .stopped :: _ => false
  | _ :: log => keptUp log

namespace StreamClient

/-- The client is connected, and was not stopped since. -/
def Up (c : StreamClient σ) : Prop :=
  c.connected = .kConnected ∧ keptUp c.log = true

instance (c : StreamClient σ) : Decidable c.Up :=
  inferInstanceAs (Decidable (_ ∧ _))

end StreamClient

/-- The handler is installed, and the kernel waits for input, for errors, and
for output when there is something to send. -/
structure Wired (conn : StreamConn) (slot : FdSlot StreamCb) : Prop where
  waits : Waits conn slot
  errors : hasFlag conn.channel.eventTypes kError = true
  handler : slot.event.cb = some .handler

instance (conn : StreamConn) (slot : FdSlot StreamCb) :
    Decidable (Wired conn slot) :=
  decidable_of_iff
    ((slot.event.inRegister = true ∧
        slot.interest = some conn.channel.interest) ∧
      hasFlag conn.channel.eventTypes kRead = true ∧
      (conn.sendBuf.live ≠ [] →
        hasFlag conn.channel.eventTypes kWrite = true) ∧
      hasFlag conn.channel.eventTypes kError = true ∧
      slot.event.cb = some .handler)
    ⟨fun h => ⟨⟨⟨h.1.1, h.1.2⟩, h.2.1, h.2.2.1⟩, h.2.2.2.1, h.2.2.2.2⟩,
      fun h => ⟨⟨h.waits.follows.registered, h.waits.follows.interest⟩,
        h.waits.reads, h.waits.writes, h.errors, h.handler⟩⟩

/-- A client that is up is wired up whenever nothing is in progress. -/
def ConnectingClient.WiredUp (s : ConnectingClient σ) : Prop :=
  s.pc = .idle → s.client.pending = [] → s.client.ioQueue = [] → s.client.Up →
    s.client.streamSlot.event.cb = some .handler ∧
    ∃ interest, s.client.streamSlot.interest = some interest ∧
      hasFlag interest EPOLLIN = true ∧ hasFlag interest EPOLLERR = true ∧
      (s.client.conn.sendBuf.live ≠ [] → hasFlag interest EPOLLOUT = true)

namespace Wired

variable {conn : StreamConn} {slot : FdSlot StreamCb} {data : List UInt8}
  {h : HandlerState}

theorem enqueue (hWired : Wired conn slot) (hQueued : conn.sendBuf.live ≠ []) :
    Wired (conn.enqueue data) slot where
  waits := hWired.waits.enqueue hQueued
  errors := hWired.errors
  handler := hWired.handler

theorem requests_cb (hWired : Wired conn slot) (channels : List ChannelInfo) :
    (slot.drain (channels.map ChannelInfo.enableFd)).event.cb =
      some .handler := by
  rw [← hWired.handler]
  exact FdSlot.drain_map_enableFd_cb hWired.waits.follows.registered channels _ _

theorem sendNow (hWired : Wired conn slot) (ret : SendRet) (data : List UInt8)
    (hEmpty : conn.sendBuf.live = []) :
    Wired (conn.sendNow ret data).conn
      (slot.drain ((conn.sendNow ret data).requests.map
        ChannelInfo.enableFd)) where
  waits := hWired.waits.sendNow ret data hEmpty
  errors := by
    rcases (sendNow_spec ret data hEmpty).channel with hSame | hWrite
    · rw [hSame]
      exact hWired.errors
    · rw [hWrite, hasFlag_kError_or_kWrite]
      exact hWired.errors
  handler := hWired.requests_cb _

theorem invocation (hWired : Wired conn slot) (hSpec : CleanSpec conn h) :
    Wired h.conn
      (slot.drain ((requestsOf h.effects).map ChannelInfo.enableFd)) where
  waits := hWired.waits.handler hSpec
  errors := by
    rcases hSpec.channel with hSame | ⟨-, hDropped⟩
    · rw [hSame]
      exact hWired.errors
    · rw [hDropped, hasFlag_kError_andNot_kWrite]
      exact hWired.errors
  handler := hWired.requests_cb _

/-- What the kernel waits for once the tasks are executed. -/
theorem armed (hWired : Wired conn slot) :
    ∃ interest, slot.interest = some interest ∧
      hasFlag interest EPOLLIN = true ∧ hasFlag interest EPOLLERR = true ∧
      (conn.sendBuf.live ≠ [] → hasFlag interest EPOLLOUT = true) := by
  refine ⟨conn.channel.interest, hWired.waits.follows.interest, ?_, ?_, ?_⟩
  · rw [ChannelInfo.interest, hasFlag_EPOLLIN]
    exact hWired.waits.reads
  · rw [ChannelInfo.interest, hasFlag_EPOLLERR]
    exact hWired.errors
  · intro hQueued
    rw [ChannelInfo.interest, hasFlag_EPOLLOUT]
    exact hWired.waits.writes hQueued

end Wired

/-- Installing the handler wires a client up, unless `send_buf_` is wrongly
taken for empty. -/
theorem StreamClient.wired_install {c : StreamClient σ} {isEmpty : Bool}
    (hIdle : c.pending = []) (hRegistered : c.settled.event.inRegister = true)
    (hEmpty : isEmpty = true → c.conn.sendBuf.live = []) :
    Wired (c.install isEmpty).conn (c.install isEmpty).foreseen where
  waits := waits_install hIdle hRegistered hEmpty
  errors := by
    simp only [install]
    split <;> decide
  handler := by
    have hForeseen : (c.install isEmpty).foreseen = (c.install isEmpty).settled :=
      foreseen_of_idle hIdle
    rw [hForeseen, settled_install, FdSlot.drain_cons, FdSlot.drain_nil,
      FdSlot.exec_enableFdCb_ok hRegistered]

namespace ConnectingClient

/-! ## The condition -/

/-- When `start` returns early for a client that is up, the client is wired up
already; nothing was queued between its look at `send_buf_` and its
`update_event`; and no call of the kernel fails in a task. -/
def KeepsWired (s : ConnectingClient σ) : ThreadAction → Prop
  | .begin _ => True
  | .advance _ =>
      (s.pc = .starting → s.client.started = true → s.client.Up →
        Wired s.client.conn s.client.settled) ∧
      (s.pc = .installing true → s.client.Up → s.client.conn.sendBuf.live = [])
  | .other (.execTask faults _) => faults = {}
  | .other (.dispatch _ inv) =>
      s.client.streamSlot.event.cb ≠ some .handler →
        hasFlag inv.types kWrite = true → inv.soError = 0 →
        s.client.started = true → Wired s.client.conn s.client.settled
  | .other _ => True

instance (s : ConnectingClient σ) (action : ThreadAction) :
    Decidable (s.KeepsWired action) :=
  match action with
  | .begin _ => .isTrue trivial
  | .advance _ => inferInstanceAs (Decidable (_ ∧ _))
  | .other (.execTask _ _) => inferInstanceAs (Decidable (_ = _))
  | .other (.dispatch _ _) => inferInstanceAs (Decidable (_ → _))
  | .other (.call _) | .other .perform | .other .timerExpires => .isTrue trivial

end ConnectingClient

/-! ## The invariant -/

/-- `start` is at work and has not installed anything yet. -/
def UserPc.Deciding : UserPc → Prop
  | .starting | .checking | .installing _ => True
  | _ => False

namespace StreamClient

/-- A client that is up is wired up, once the queued tasks are executed, unless
`start` is still deciding about it or a notification is about to stop it. -/
structure WireInv (deciding : Prop) (c : StreamClient σ) : Prop where
  registered : c.settled.event.inRegister = true
  wired : ¬ deciding → c.Up → noticesOf c.pending = [] →
    Wired c.conn c.foreseen

namespace WireInv

variable {deciding : Prop} {c : StreamClient σ}

theorem wired_settled (hInv : WireInv deciding c) (hDecided : ¬ deciding)
    (hUp : c.Up) (hIdle : c.pending = []) : Wired c.conn c.settled := by
  rw [← foreseen_of_idle hIdle]
  exact hInv.wired hDecided hUp (by rw [hIdle]; rfl)

/-- A client that is not up need not be wired up. -/
theorem down (hRegistered : c.settled.event.inRegister = true)
    (hDown : ¬ c.Up) : WireInv deciding c where
  registered := hRegistered
  wired := fun _ hUp => absurd hUp hDown

theorem registered_drain (hInv : WireInv deciding c)
    {tasks : List (FdTask StreamCb)} (hTasks : .unregisterFd ∉ tasks) :
    (c.settled.drain tasks).event.inRegister = true := by
  apply FdSlot.drain_inRegister hInv.registered
  rintro task hMem rfl
  exact hTasks hMem

/-- Tasks that do not concern the stream socket. -/
theorem post (hInv : WireInv deciding c) {tasks : List ClientTask}
    (hTasks : streamTasks tasks = []) : WireInv deciding (c.post tasks) := by
  have hSame : (c.post tasks).settled = c.settled := by
    rw [settled_post, hTasks, FdSlot.drain_nil]
  constructor
  · rw [hSame]
    exact hInv.registered
  · intro hDecided hUp hSilent
    rw [foreseen, hSame]
    exact hInv.wired hDecided hUp hSilent

theorem stop (hInv : WireInv deciding c) : WireInv deciding c.stop := by
  refine down ?_ ?_
  · rw [settled_stop]
    exact hInv.registered_drain (by simp)
  · rintro ⟨-, hKept⟩
    cases hKept

theorem failAttempt (hInv : WireInv deciding c) (attempt : Nat) (errno : Errno) :
    WireInv deciding (c.failAttempt attempt errno) := by
  refine down ?_ ?_
  · have hStopped : (c.failAttempt attempt errno).settled =
        c.settled.drain [.disableFd] := settled_stop _
    rw [hStopped]
    exact hInv.registered_drain (by simp)
  · rintro ⟨-, hKept⟩
    cases hKept

/-- `start` installs the handler, or finds the client wired up. -/
theorem start (hRegistered : c.settled.event.inRegister = true)
    (hIdle : c.pending = [])
    (hEarly : c.started = true → Wired c.conn c.settled) :
    WireInv deciding c.start := by
  unfold StreamClient.start
  split
  · rename_i hStarted
    refine ⟨hRegistered, fun _ _ _ => ?_⟩
    rw [foreseen_of_idle hIdle]
    exact hEarly hStarted
  · refine ⟨registered_install _ hRegistered, fun _ _ _ => ?_⟩
    exact wired_install hIdle hRegistered
      (LiveBuffer.empty_iff c.conn.sendBuf).mp

/-- Requests for a change of the interest are posted. -/
theorem requests (c : StreamClient σ) (channels : List ChannelInfo)
    (hRegistered : c.settled.event.inRegister = true) (hIdle : c.pending = [])
    (hWired : ¬ deciding → c.Up → Wired c.conn
      (c.settled.drain (channels.map ChannelInfo.enableFd))) :
    WireInv deciding (c.post (channels.map ClientTask.request)) := by
  have hSettled : (c.post (channels.map ClientTask.request)).settled =
      c.settled.drain (channels.map ChannelInfo.enableFd) := by
    rw [settled_post, streamTasks_map_request]
  constructor
  · rw [hSettled]
    apply FdSlot.drain_inRegister hRegistered
    simp [ChannelInfo.enableFd]
  · intro hDecided hUp _
    have hForeseen : (c.post (channels.map ClientTask.request)).foreseen =
        (c.post (channels.map ClientTask.request)).settled :=
      foreseen_of_idle hIdle
    rw [hForeseen, hSettled]
    exact hWired hDecided hUp

theorem execSend (hInv : WireInv deciding c) (hIdle : c.pending = [])
    (ret : SendRet) (data : List UInt8) :
    WireInv deciding (c.execSend ret data) := by
  unfold StreamClient.execSend
  split_ifs with hQueues
  · -- A client that is up queues only behind what it waits for already.
    refine ⟨hInv.registered, fun hDecided hUp _ => ?_⟩
    have hQueued : c.conn.sendBuf.live ≠ [] := by
      intro hNil
      rcases hQueues with hNotEmpty | hNot
      · exact hNotEmpty ((LiveBuffer.empty_iff c.conn.sendBuf).mpr hNil)
      · exact hNot hUp.1
    exact (hInv.wired hDecided hUp (by rw [hIdle]; rfl)).enqueue hQueued
  · rw [not_or, not_not, not_not] at hQueues
    have hNil := (LiveBuffer.empty_iff c.conn.sendBuf).mp hQueues.1
    exact requests
      { c with
        conn := (c.conn.sendNow ret data).conn
        traffic := c.traffic.sendTask data (c.conn.sendNow ret data).accepted }
      _ hInv.registered hIdle fun hDecided hUp =>
        (hInv.wired_settled hDecided hUp hIdle).sendNow ret data hNil

theorem exec {task : ClientTask} {tasks : List ClientTask}
    (hInv : WireInv deciding c) (hIdle : c.pending = [])
    (hQueue : c.ioQueue = task :: tasks) (ret : SendRet) :
    WireInv deciding ({ c with ioQueue := tasks }.exec {} ret task) := by
  have hTaken (slot : FdSlot StreamCb)
      (hLeft : slot.drain (streamTasks tasks) = c.settled) :
      WireInv deciding { c with ioQueue := tasks, streamSlot := slot } := by
    constructor
    · rw [settled, hLeft]
      exact hInv.registered
    · intro hDecided hUp hSilent
      rw [foreseen, settled, hLeft]
      exact hInv.wired hDecided hUp hSilent
  have hSettled : c.settled = c.streamSlot.drain (streamTasks (task :: tasks)) := by
    rw [settled, hQueue]
  cases task with
  | stream task => exact hTaken _ hSettled.symm
  | timer task =>
      have hRest := hTaken _ hSettled.symm
      exact ⟨hRest.registered, hRest.wired⟩
  | resetTimer timeoutMs => exact hTaken _ hSettled.symm
  | send data => exact execSend (hTaken _ hSettled.symm) hIdle ret data

theorem perform {effect : Effect} {effects : List Effect}
    (hInv : WireInv deciding c) (hPending : c.pending = effect :: effects) :
    WireInv deciding ({ c with pending := effects }.perform effect) := by
  have hRegistered := registered_perform hInv.registered effect effects
  have hSilent := hInv.wired
  rw [hPending] at hSilent
  have hWired (hGoesOn : effect.isNotice = false) (hDecided : ¬ deciding)
      (hUp : c.Up) (hRest : noticesOf (effect :: effects) = []) :
      Wired c.conn ({ c with pending := effects }.perform effect).foreseen := by
    rw [foreseen_perform hPending hGoesOn]
    exact hSilent hDecided hUp hRest
  cases effect with
  | updateEvent types modes => exact ⟨hRegistered, hWired rfl⟩
  | onFragment fragment => exact ⟨hInv.registered, hWired rfl⟩
  | onError errno =>
      apply down hRegistered
      rintro ⟨-, hKept⟩
      cases hKept
  | onDisconnect =>
      apply down hRegistered
      rintro ⟨-, hKept⟩
      cases hKept

/-- The callbacks that detect the end of an attempt. -/
theorem socketCb {inv : Invocation} (hInv : WireInv deciding c)
    (hIdle : c.pending = [])
    (hEarly : hasFlag inv.types kWrite = true → inv.soError = 0 →
      c.started = true → Wired c.conn c.settled) (attempt : Nat) :
    WireInv deciding (c.socketCb attempt inv) := by
  unfold StreamClient.socketCb
  split
  · rename_i hWrite
    split
    · have hReset : WireInv deciding { c with connected := .kDisconnected } :=
        down hInv.registered fun hUp => by cases hUp.1
      exact (hReset.post rfl).failAttempt attempt inv.soError
    · rename_i hNoError
      have hTimer : ((c.succeed attempt).post [.timer .disableFd]).settled =
          c.settled := by
        rw [settled_post]
        rfl
      refine start ?_ hIdle ?_
      · rw [hTimer]
        exact hInv.registered
      · intro hStarted
        rw [hTimer]
        exact hEarly hWrite (not_not.mp hNoError) hStarted
  · exact hInv

theorem timerCb (hInv : WireInv deciding c) (attempt : Nat) :
    WireInv deciding (c.timerCb attempt) := by
  unfold StreamClient.timerCb
  split
  · exact hInv.post rfl
  · have hReset : WireInv deciding { c with connected := .kDisconnected } :=
      down hInv.registered fun hUp => by cases hUp.1
    exact (hReset.post rfl).failAttempt attempt ETIMEDOUT

/-- An invocation of the handler; one that issues a notification is about to
stop the client. -/
theorem leave {verdict : Invocation → SocketVerdict} {inv : Invocation}
    {frames : List (List UInt8)} {h : HandlerState}
    (hInv : WireInv deciding c) (hIdle : c.pending = [])
    (hOutcome : HandlerOutcome verdict inv c.conn frames h) (split : σ) :
    WireInv deciding (c.leave split h) := by
  refine ⟨hInv.registered, fun hDecided hUp hSilent => ?_⟩
  have hWired := hInv.wired_settled hDecided hUp hIdle
  exact hWired.invocation (hOutcome.silent hSilent)

end WireInv

end StreamClient

namespace ConnectingClient

structure ThreadInv (s : ConnectingClient σ) : Prop where
  client : s.client.WireInv s.pc.Deciding
  idle : s.pc ≠ .idle → s.client.pending = []

theorem threadInv_make (split : σ) : ThreadInv (make split) where
  client := .down rfl fun hUp => by cases hUp.1
  idle := fun _ => rfl

theorem threadInv_begin {s : ConnectingClient σ} (hInv : ThreadInv s)
    (hIdle : s.client.pending = []) (call : UserCall) :
    ThreadInv (s.begin call) := by
  cases call with
  | connect timeoutMs =>
      simp only [begin]
      split
      · refine ⟨.down hInv.client.registered ?_, fun _ => hIdle⟩
        exact fun hUp => by cases hUp.1
      · exact hInv
  | start =>
      refine ⟨⟨hInv.client.registered, ?_⟩, fun _ => hIdle⟩
      exact fun hDecided => absurd trivial hDecided
  | stop => exact ⟨hInv.client.stop, fun _ => hIdle⟩

/-- The attempt is on record, so the client is not up until it is
established. -/
theorem threadInv_connectStep {c : StreamClient σ}
    (hRegistered : c.settled.event.inRegister = true) (hIdle : c.pending = [])
    (timeoutMs : Nat) (ret : ConnectRet) :
    ThreadInv (connectStep c timeoutMs ret) := by
  have hTried (deciding : Prop) (ret : ConnectRet) :
      (c.record (.attempt c.attempts ret)).WireInv deciding := by
    refine .down hRegistered ?_
    rintro ⟨-, hKept⟩
    cases hKept
  cases ret with
  | success => exact ⟨hTried _ _, fun _ => hIdle⟩
  | error errno =>
      simp only [connectStep]
      split
      · exact ⟨(hTried _ _).failAttempt c.attempts errno, fun _ => hIdle⟩
      · refine ⟨.down ?_ ?_, fun _ => hIdle⟩
        · rw [StreamClient.settled_detect]
          exact (hTried True _).registered_drain (by simp)
        · rintro ⟨-, hKept⟩
          cases hKept

theorem threadInv_advance {s next : ConnectingClient σ} {ret : ConnectRet}
    (hInv : ThreadInv s) (hKeeps : s.KeepsWired (.advance ret))
    (hAdvance : s.advance ret = some next) : ThreadInv next := by
  obtain ⟨c, pc⟩ := s
  obtain ⟨hClient, hIdle⟩ := hInv
  obtain ⟨hEarly, hStale⟩ := hKeeps
  cases pc with
  | idle => cases hAdvance
  | connecting timeoutMs =>
      obtain rfl := Option.some.inj hAdvance
      exact threadInv_connectStep hClient.registered (hIdle (by simp)) timeoutMs ret
  | established =>
      obtain rfl := Option.some.inj hAdvance
      refine ⟨⟨hClient.registered, ?_⟩, fun _ => hIdle (by simp)⟩
      exact fun hDecided => absurd trivial hDecided
  | starting =>
      -- The early return is where the guard is needed: nothing gets installed.
      have hNone := hIdle (by simp)
      simp only [advance] at hAdvance
      split at hAdvance
      · rename_i hStarted
        obtain rfl := Option.some.inj hAdvance
        refine ⟨⟨hClient.registered, fun _ hUp _ => ?_⟩, fun _ => hNone⟩
        rw [StreamClient.foreseen_of_idle hNone]
        exact hEarly rfl hStarted hUp
      · obtain rfl := Option.some.inj hAdvance
        refine ⟨⟨hClient.registered, ?_⟩, fun _ => hNone⟩
        exact fun hDecided => absurd trivial hDecided
  | checking =>
      obtain rfl := Option.some.inj hAdvance
      refine ⟨⟨hClient.registered, ?_⟩, fun _ => hIdle (by simp)⟩
      exact fun hDecided => absurd trivial hDecided
  | installing isEmpty =>
      -- What `start` saw of `send_buf_` may be stale; the guard says it is not.
      have hNone := hIdle (by simp)
      obtain rfl := Option.some.inj hAdvance
      have hRegistered := c.registered_install isEmpty hClient.registered
      refine ⟨⟨hRegistered, fun _ hUp _ => ?_⟩, fun _ => hNone⟩
      apply StreamClient.wired_install hNone hClient.registered
      rintro rfl
      exact hStale rfl hUp
  | failing =>
      obtain rfl := Option.some.inj hAdvance
      refine ⟨.down hClient.registered ?_, fun _ => hIdle (by simp)⟩
      exact fun hUp => by cases hUp.1

theorem threadInv_other {onSplit : σ → List UInt8 → Int × σ}
    {s : ConnectingClient σ} {action : ClientAction} {next : StreamClient σ}
    (hInv : ThreadInv s) (hKeeps : s.KeepsWired (.other action))
    (hAllowed : Allowed s.pc action)
    (hStep : StreamClient.Stepped onSplit s.client action next) :
    ThreadInv { s with client := next } := by
  obtain ⟨c, pc⟩ := s
  obtain ⟨hClient, hIdle⟩ := hInv
  cases hStep with
  | call call =>
      cases call with
      | postSendTask data => exact ⟨hClient.post rfl, hIdle⟩
      | connect ret timeoutMs => exact hAllowed.elim
      | connectReturns => exact hAllowed.elim
      | start => exact hAllowed.elim
      | stop => exact hAllowed.elim
  | execTask hNone hQueue =>
      obtain rfl := hKeeps
      refine ⟨hClient.exec hNone hQueue _, fun _ => ?_⟩
      rw [StreamClient.pending_exec]
      exact hNone
  | socketCb hNone hInstalled =>
      -- The detection is installed, not the handler, so the guard speaks.
      refine ⟨hClient.socketCb hNone ?_ _, fun hBusy => absurd hAllowed hBusy⟩
      refine hKeeps fun hHandler => ?_
      cases hInstalled.symm.trans hHandler
  | handler hNone hInstalled hReturns =>
      obtain ⟨frames, hOutcome⟩ := streamHandler_outcome hReturns
      exact ⟨hClient.leave hNone hOutcome _, fun hBusy => absurd hAllowed hBusy⟩
  | perform hPending =>
      exact ⟨hClient.perform hPending, fun hBusy => absurd hAllowed hBusy⟩
  | timerExpires hNone hInstalled =>
      exact ⟨hClient.timerCb _, fun hBusy => absurd hAllowed hBusy⟩

theorem threadInv_step {onSplit : σ → List UInt8 → Int × σ}
    (s : ConnectingClient σ) (action : ThreadAction) (next : ConnectingClient σ)
    (hInv : ThreadInv s) (hKeeps : s.KeepsWired action)
    (hStep : step onSplit s action = some next) : ThreadInv next := by
  cases stepped hStep with
  | begin call hFree hIdle => exact threadInv_begin hInv hIdle call
  | advance hAdvance => exact threadInv_advance hInv hKeeps hAdvance
  | other hAllowed hClient => exact threadInv_other hInv hKeeps hAllowed hClient

end ConnectingClient

/-! ## The law -/

/-- **A connected client is wired up.**  It is in every state reached by a run
whose steps keep to `KeepsWired`. -/
theorem connected_client_wired_up (onSplit : σ → List UInt8 → Int × σ)
    (split : σ) (actions : List ThreadAction) (s : ConnectingClient σ)
    (hGuarded : Guarded (ConnectingClient.step onSplit)
      ConnectingClient.KeepsWired (.make split) actions)
    (hRun : run (ConnectingClient.step onSplit) (.make split) actions = some s) :
    s.WiredUp := by
  have hInv : s.ThreadInv := run_invariant ConnectingClient.threadInv_step
    (ConnectingClient.threadInv_make split) hGuarded hRun
  intro hFree hIdle hDrained hUp
  have hDecided : ¬ s.pc.Deciding := by
    rw [hFree]
    exact id
  have hWired := hInv.client.wired_settled hDecided hUp hIdle
  rw [StreamClient.settled, hDrained, StreamClient.streamTasks_nil,
    FdSlot.drain_nil] at hWired
  exact ⟨hWired.handler, hWired.armed⟩

/-- A send task is executed while `start` is still to look at `send_buf_`, and
the socket takes nothing. -/
theorem connected_client_wired_up_again :
    let onSplit : Unit → List UInt8 → Int × Unit := stateless fun _ => 0
    let actions : List ThreadAction :=
      [.begin (.connect 1000), .advance .success, .advance .success,
        .other (.call (.postSendTask [1])), .other (.execTask {} (.sent 0)),
        .other (.execTask {} (.sent 0)),
        .other (.execTask {} (.error EAGAIN)), .advance .success,
        .advance .success, .advance .success, .other (.execTask {} (.sent 0)),
        .other (.execTask {} (.sent 0))]
    ∃ s, run (ConnectingClient.step onSplit) (.make ()) actions = some s ∧
      s.client.conn.sendBuf.live = [1] ∧
      s.client.streamSlot.interest = some
        (epollInterest (kRead ||| kWrite ||| kError) EventMode.kDefault) ∧
      s.WiredUp := by
  intro onSplit actions
  obtain ⟨hGuarded, hOutcome⟩ :
      Guarded (ConnectingClient.step onSplit) ConnectingClient.KeepsWired
        (.make ()) actions ∧
      (run (ConnectingClient.step onSplit) (.make ()) actions).map
        (fun s => (s.client.conn.sendBuf.live,
          s.client.streamSlot.interest)) =
        some ([1], some
          (epollInterest (kRead ||| kWrite ||| kError) EventMode.kDefault)) := by
    decide +kernel
  obtain ⟨s, hRun, hView⟩ := Option.map_eq_some_iff.mp hOutcome
  obtain ⟨hLive, hInterest⟩ := Prod.mk.inj hView
  exact ⟨s, hRun, hLive, hInterest,
    connected_client_wired_up onSplit () actions s hGuarded hRun⟩

/-- Two connected clients that are not wired up.  The first one looked at
`send_buf_` before a send task left a byte there, and does not wait for output.
The second one was started before it connected, and still has the detection of
the attempt installed. -/
theorem connected_client_not_wired_up :
    let onSplit : Unit → List UInt8 → Int × Unit := stateless fun _ => 0
    (∃ s, run (ConnectingClient.step onSplit) (.make ())
        [.begin (.connect 1000), .advance .success, .advance .success,
          .other (.execTask {} (.sent 0)), .other (.execTask {} (.sent 0)),
          .advance .success, .advance .success,
          .other (.call (.postSendTask [1])),
          .other (.execTask {} (.error EAGAIN)), .advance .success,
          .other (.execTask {} (.sent 0)), .other (.execTask {} (.sent 0))] =
        some s ∧
      s.client.conn.sendBuf.live = [1] ∧
      s.client.streamSlot.interest =
        some (epollInterest (kRead ||| kError) EventMode.kDefault) ∧
      ¬ s.WiredUp) ∧
    ∃ s, run (ConnectingClient.step onSplit) (.make ())
        [.begin .start, .advance .success, .advance .success, .advance .success,
          .begin (.connect 1000), .advance (.error EINPROGRESS),
          .other (.execTask {} (.sent 0)), .other (.execTask {} (.sent 0)),
          .other (.execTask {} (.sent 0)), .other (.execTask {} (.sent 0)),
          .other (.execTask {} (.sent 0)), .other (.execTask {} (.sent 0)),
          .other (.dispatch 0 ⟨kWrite, [], [], 0⟩),
          .other (.execTask {} (.sent 0))] = some s ∧
      s.client.connected = .kConnected ∧
      s.client.streamSlot.event.cb = some (.socketCb 1) ∧ ¬ s.WiredUp := by
  intro onSplit
  constructor
  · have hOutcome : (run (ConnectingClient.step onSplit) (.make ())
        [.begin (.connect 1000), .advance .success, .advance .success,
          .other (.execTask {} (.sent 0)), .other (.execTask {} (.sent 0)),
          .advance .success, .advance .success,
          .other (.call (.postSendTask [1])),
          .other (.execTask {} (.error EAGAIN)), .advance .success,
          .other (.execTask {} (.sent 0)), .other (.execTask {} (.sent 0))]).any
        (fun s => decide ((s.pc = .idle ∧ s.client.pending.isEmpty ∧
          s.client.ioQueue = [] ∧ s.client.Up) ∧
          s.client.conn.sendBuf.live = [1] ∧
          s.client.streamSlot.interest =
            some (epollInterest (kRead ||| kError) EventMode.kDefault))) =
        true := by
      decide +kernel
    obtain ⟨s, hRun, hView⟩ := (Option.any_eq_true _ _).mp hOutcome
    obtain ⟨⟨hFree, hIdle, hDrained, hUp⟩, hLive, hInterest⟩ :=
      of_decide_eq_true hView
    refine ⟨s, hRun, hLive, hInterest, fun hWired => ?_⟩
    obtain ⟨-, interest, hSome, -, -, hWrites⟩ :=
      hWired hFree (List.isEmpty_iff.mp hIdle) hDrained hUp
    obtain rfl := Option.some.inj (hInterest.symm.trans hSome)
    have hOut := hWrites (by rw [hLive]; exact List.cons_ne_nil 1 [])
    rw [hasFlag_EPOLLOUT] at hOut
    exact absurd hOut (by decide)
  · have hOutcome : (run (ConnectingClient.step onSplit) (.make ())
        [.begin .start, .advance .success, .advance .success, .advance .success,
          .begin (.connect 1000), .advance (.error EINPROGRESS),
          .other (.execTask {} (.sent 0)), .other (.execTask {} (.sent 0)),
          .other (.execTask {} (.sent 0)), .other (.execTask {} (.sent 0)),
          .other (.execTask {} (.sent 0)), .other (.execTask {} (.sent 0)),
          .other (.dispatch 0 ⟨kWrite, [], [], 0⟩),
          .other (.execTask {} (.sent 0))]).any
        (fun s => decide ((s.pc = .idle ∧ s.client.pending.isEmpty ∧
          s.client.ioQueue = [] ∧ s.client.Up) ∧
          s.client.streamSlot.event.cb = some (.socketCb 1))) = true := by
      decide +kernel
    obtain ⟨s, hRun, hView⟩ := (Option.any_eq_true _ _).mp hOutcome
    obtain ⟨⟨hFree, hIdle, hDrained, hUp⟩, hCb⟩ := of_decide_eq_true hView
    refine ⟨s, hRun, hUp.1, hCb, fun hWired => ?_⟩
    have hHandler :=
      (hWired hFree (List.isEmpty_iff.mp hIdle) hDrained hUp).1
    cases hCb.symm.trans hHandler

end Net
end KZEvent
