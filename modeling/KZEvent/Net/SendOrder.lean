import KZEvent.Net.StreamClient
import KZEvent.Net.StreamSession

/-!
# Sending in order, without loss and without a stall

A payload is sent at once, sent in part, queued behind older data, or queued
before there is a connection.  Two invariants carry all of it: the bytes the
kernel accepted followed by the send buffer are the payloads in task order, and
a channel with something to send waits for the write event, in its cached mask
as well as in the interest the queued tasks lead to.

A session whose server is gone drops the payloads of its tasks, so the session
half of the result is about sessions with a server.
-/

namespace KZEvent
namespace Net

open KZEvent.Core Foundation EventType

variable {σ Cb : Type*}

/-- Nothing is lost and nothing overtakes: `base` was in the send buffer at the
start. -/
def Traffic.Conserves (traffic : Traffic) (base : List UInt8)
    (conn : StreamConn) : Prop :=
  traffic.accepted ++ conn.sendBuf.live = base ++ traffic.payloads.flatten

/-- The result of a `send` that fails in no way. -/
def SendRet.Fine (ret : SendRet) : Prop :=
  ret.status = .kSuccess ∨ ret.status = .kTryAgain

instance (ret : SendRet) : Decidable ret.Fine :=
  inferInstanceAs (Decidable (_ ∨ _))

/-! ## Queueing, sending, and the handler -/

section Steps

variable {base data : List UInt8} {traffic : Traffic} {conn : StreamConn}
  {slot : FdSlot Cb} {ret : SendRet} {h : HandlerState}

theorem Traffic.Conserves.enqueue (hConserves : traffic.Conserves base conn) :
    (traffic.sendTask data []).Conserves base (conn.enqueue data) := by
  simp only [Conserves] at hConserves
  simp only [Conserves, sendTask, StreamConn.enqueue, LiveBuffer.live_insert,
    List.append_nil, List.flatten_append, List.flatten_singleton]
  rw [← List.append_assoc, hConserves, List.append_assoc]

theorem Traffic.Conserves.sendNow (hConserves : traffic.Conserves base conn)
    (hEmpty : conn.sendBuf.live = []) (hFine : ret.Fine) :
    (traffic.sendTask data (conn.sendNow ret data).accepted).Conserves base
      (conn.sendNow ret data).conn := by
  have hSent := (sendNow_spec ret data hEmpty).conserved hFine
  simp only [Conserves, hEmpty, List.append_nil] at hConserves
  simp only [Conserves, sendTask, List.flatten_append, List.flatten_singleton]
  rw [List.append_assoc, hSent, hEmpty, List.nil_append, hConserves,
    List.append_assoc]

theorem Traffic.Conserves.handler (hConserves : traffic.Conserves base conn)
    (hSpec : CleanSpec conn h) :
    (traffic.exchange h.received h.accepted).Conserves base h.conn := by
  simp only [Conserves] at hConserves
  simp only [Conserves, exchange, List.append_assoc]
  rw [hSpec.conserved, hConserves]

end Steps

/-! ## Sessions -/

namespace StreamSession

/-- A session that is neither stopped nor started again keeps its server, and
no call to the kernel fails. -/
def SendsFlow (s : StreamSession σ) : SessionAction → Prop
  | .call (.postSendTask _) => True
  | .call _ => False
  | .execTask faults ret => faults = {} ∧ ret.Fine
  | .dispatch _ inv => inv.Clean s.conn.sendBuf.live.length
  | .perform => True
  | .destroyServer => False

instance (s : StreamSession σ) (action : SessionAction) :
    Decidable (s.SendsFlow action) :=
  match action with
  | .call (.postSendTask _) => .isTrue trivial
  | .call .start | .call .stop => .isFalse id
  | .execTask _ _ => inferInstanceAs (Decidable (_ ∧ _))
  | .dispatch _ _ => inferInstanceAs (Decidable (Invocation.Clean _ _))
  | .perform => .isTrue trivial
  | .destroyServer => .isFalse id

/-- The entry the queued tasks and the effects still to be performed lead to. -/
def foreseen (s : StreamSession σ) : FdSlot Unit :=
  s.settled.drain ((requestsOf s.pending).map ChannelInfo.enableFd)

structure SendInv (base : List UInt8) (s : StreamSession σ) : Prop where
  serverAlive : s.serverAlive = true
  silent : noticesOf s.pending = []
  conserves : s.traffic.Conserves base s.conn
  waits : Waits s.conn s.foreseen

theorem foreseen_of_idle {s : StreamSession σ} (hIdle : s.pending = []) :
    s.foreseen = s.settled := by
  simp [foreseen, hIdle, requestsOf]

/-- Between invocations it is enough to look at the queue. -/
theorem waits_foreseen {s : StreamSession σ} (hIdle : s.pending = [])
    (hWaits : Waits s.conn s.settled) : Waits s.conn s.foreseen := by
  rw [foreseen_of_idle hIdle]
  exact hWaits

theorem sendInv_accepted (split : σ) : SendInv [] (accepted split) where
  serverAlive := rfl
  silent := rfl
  conserves := by simp [Traffic.Conserves, accepted, start, post, Traffic.none]
  waits :=
    { follows := { registered := rfl, interest := rfl }
      reads := by
        show hasFlag (kRead ||| kError) kRead = true
        decide
      writes := by simp [accepted, start, post] }

theorem sendInv_execSend {base : List UInt8} {s : StreamSession σ}
    {ret : SendRet} (data : List UInt8) (hInv : SendInv base s)
    (hFine : ret.Fine) (hIdle : s.pending = []) :
    SendInv base (s.execSend ret data) := by
  have hWaits : Waits s.conn s.settled := by
    rw [← foreseen_of_idle hIdle]
    exact hInv.waits
  rw [execSend, if_pos hInv.serverAlive]
  by_cases hEmpty : s.conn.sendBuf.empty = true
  · have hNil := (LiveBuffer.empty_iff s.conn.sendBuf).mp hEmpty
    rw [if_pos hEmpty]
    exact
      { serverAlive := hInv.serverAlive
        silent := hInv.silent
        conserves := hInv.conserves.sendNow hNil hFine
        waits := waits_foreseen hIdle (by
          dsimp only
          rw [settled_post, fdTasks_map_request]
          exact hWaits.sendNow ret data hNil) }
  · have hQueued : s.conn.sendBuf.live ≠ [] := by
      intro hNil
      exact hEmpty ((LiveBuffer.empty_iff s.conn.sendBuf).mpr hNil)
    rw [if_neg hEmpty]
    exact
      { serverAlive := hInv.serverAlive
        silent := hInv.silent
        conserves := hInv.conserves.enqueue
        waits := waits_foreseen hIdle (hWaits.enqueue hQueued) }

theorem sendInv_execTask {base : List UInt8} {s : StreamSession σ}
    {ret : SendRet} {task : SessionTask} {tasks : List SessionTask}
    (hInv : SendInv base s) (hFine : ret.Fine) (hIdle : s.pending = [])
    (hQueue : s.ioQueue = task :: tasks) :
    SendInv base ({ s with ioQueue := tasks }.exec {} ret task) := by
  have hWaits : Waits s.conn s.settled := by
    rw [← foreseen_of_idle hIdle]
    exact hInv.waits
  have hPopped (hSame : fdTasks (task :: tasks) = fdTasks tasks) :
      SendInv base { s with ioQueue := tasks } :=
    { hInv with
      waits := waits_foreseen hIdle (by
        rw [settled, hQueue, hSame] at hWaits
        exact hWaits) }
  cases task with
  | fd task =>
      exact
        { hInv with
          waits := waits_foreseen hIdle (by
            rw [settled_exec_fd ret hQueue]
            exact hWaits) }
  | erase =>
      have hInvPopped := hPopped (fdTasks_erase_cons tasks)
      rw [exec, if_pos hInvPopped.serverAlive]
      exact { hInvPopped with }
  | send data =>
      exact sendInv_execSend data (hPopped (fdTasks_send_cons data tasks)) hFine
        hIdle

theorem sendInv_perform {base : List UInt8} {s : StreamSession σ}
    {effect : Effect} {effects : List Effect} (hInv : SendInv base s)
    (hPending : s.pending = effect :: effects) :
    SendInv base ({ s with pending := effects }.perform effect) := by
  have hWaits := hInv.waits
  have hSilent := hInv.silent
  rw [foreseen, hPending, requestsOf_cons, List.map_append,
    FdSlot.drain_append] at hWaits
  rw [hPending] at hSilent
  cases effect with
  | updateEvent types modes =>
      exact
        { hInv with
          silent := hSilent
          waits := by
            rw [foreseen, perform, settled_post]
            exact hWaits }
  | onFragment fragment =>
      exact { hInv with silent := hSilent, waits := hWaits }
  | onError errno => cases hSilent
  | onDisconnect => cases hSilent

theorem sendInv_step {onSplit : σ → List UInt8 → Int × σ} {base : List UInt8}
    (s : StreamSession σ) (action : SessionAction) (next : StreamSession σ)
    (hInv : SendInv base s) (hFlow : s.SendsFlow action)
    (hStep : step onSplit s action = some next) : SendInv base next := by
  cases stepped hStep with
  | call call =>
      cases call with
      | postSendTask data =>
          have hSame : (s.call (.postSendTask data)).foreseen = s.foreseen := by
            rw [foreseen, StreamSession.call, postSendTask, settled_post]
            rfl
          exact { hInv with waits := by rw [hSame]; exact hInv.waits }
      | start => exact hFlow.elim
      | stop => exact hFlow.elim
  | execTask hIdle hQueue =>
      obtain ⟨rfl, hFine⟩ := hFlow
      exact sendInv_execTask hInv hFine hIdle hQueue
  | dispatch hIdle hInstalled hReturns =>
      rename_i fuel inv split h
      have hClean : inv.Clean s.conn.sendBuf.live.length := hFlow
      rw [handler, if_pos hInv.serverAlive] at hReturns
      obtain ⟨frames, hOutcome⟩ := streamHandler_outcome hReturns
      have hSpec := hOutcome.clean hClean (verdict_of_soError_eq_zero hClean.soError)
      have hWaits : Waits s.conn s.settled := by
        rw [← foreseen_of_idle hIdle]
        exact hInv.waits
      exact
        { serverAlive := hInv.serverAlive
          silent := hSpec.silent
          conserves := hInv.conserves.handler hSpec
          waits := hWaits.handler hSpec }
  | perform hPending => exact sendInv_perform hInv hPending
  | destroyServer hIdle => exact hFlow.elim

end StreamSession

/-! ## Clients -/

namespace StreamClient

/-- One attempt to connect, which stays in progress and completes before its timer
expires; the client is neither stopped nor started by a call, and no call to the
kernel fails. -/
def SendsFlow (c : StreamClient σ) : ClientAction → Prop
  | .call (.postSendTask _) => True
  | .call (.connect ret _) => ret = .error EINPROGRESS
  | .call _ => False
  | .execTask faults ret => faults = {} ∧ ret.Fine
  | .dispatch _ inv =>
      if c.streamSlot.event.cb = some .handler then
        inv.Clean c.conn.sendBuf.live.length
      else
        inv.soError = 0
  | .perform => True
  | .timerExpires => c.connected = .kConnected

instance (c : StreamClient σ) (action : ClientAction) :
    Decidable (c.SendsFlow action) :=
  match action with
  | .call (.postSendTask _) => .isTrue trivial
  | .call (.connect _ _) => inferInstanceAs (Decidable (_ = _))
  | .call .connectReturns | .call .start | .call .stop => .isFalse id
  | .execTask _ _ => inferInstanceAs (Decidable (_ ∧ _))
  | .dispatch _ _ => inferInstanceAs (Decidable (ite _ _ _))
  | .perform => .isTrue trivial
  | .timerExpires => inferInstanceAs (Decidable (_ = _))

structure SendInv (base : List UInt8) (c : StreamClient σ) : Prop where
  silent : noticesOf c.pending = []
  conserves : c.traffic.Conserves base c.conn
  registered : c.settled.event.inRegister = true
  waits : c.connected = .kConnected → Waits c.conn c.foreseen
  notStarted : c.connected ≠ .kConnected → c.started = false

theorem SendInv.waits_settled {base : List UInt8} {c : StreamClient σ}
    (hInv : SendInv base c) (hIdle : c.pending = [])
    (hConnected : c.connected = .kConnected) : Waits c.conn c.settled := by
  rw [← foreseen_of_idle hIdle]
  exact hInv.waits hConnected

/-- A client that is connecting for the first time since it was stopped. -/
structure ReadyToConnect (c : StreamClient σ) : Prop where
  connected : c.connected = .kDisconnected
  started : c.started = false
  idle : c.pending = []
  registered : c.settled.event.inRegister = true
  traffic : c.traffic = .none

theorem ReadyToConnect.sendInv {c : StreamClient σ} (hReady : c.ReadyToConnect) :
    SendInv c.conn.sendBuf.live c where
  silent := by simp [hReady.idle, noticesOf]
  conserves := by simp [Traffic.Conserves, hReady.traffic, Traffic.none]
  registered := hReady.registered
  waits := by simp [hReady.connected]
  notStarted := fun _ => hReady.started

/-- Tasks that concern neither the stream socket nor its interest. -/
theorem SendInv.post {base : List UInt8} {c : StreamClient σ}
    (hInv : SendInv base c) {tasks : List ClientTask}
    (hTasks : streamTasks tasks = []) : SendInv base (c.post tasks) :=
  have hSame : (c.post tasks).settled = c.settled := by
    rw [settled_post, hTasks, FdSlot.drain_nil]
  { silent := hInv.silent
    conserves := hInv.conserves
    registered := by
      rw [hSame]
      exact hInv.registered
    waits := by
      intro hConnected
      rw [foreseen, hSame]
      exact hInv.waits hConnected
    notStarted := hInv.notStarted }

/-- The end of the attempt: the handler is installed, unless it was before. -/
theorem sendInv_start_succeed {base : List UInt8} {c : StreamClient σ}
    (attempt : Nat)
    (hInv : SendInv base c) (hIdle : c.pending = []) :
    SendInv base ((c.succeed attempt).post [.timer .disableFd]).start := by
  have hTimer : ((c.succeed attempt).post [.timer .disableFd]).settled = c.settled := by
    rw [settled_post]
    rfl
  by_cases hStarted : c.started = true
  · -- The detection reports success once more: the handler was installed then.
    have hConnected : c.connected = .kConnected := by
      by_contra hNot
      rw [hInv.notStarted hNot] at hStarted
      cases hStarted
    have hSame : ((c.succeed attempt).post [.timer .disableFd]).start =
        (c.succeed attempt).post [.timer .disableFd] := if_pos hStarted
    rw [hSame]
    exact
      { silent := hInv.silent
        conserves := hInv.conserves
        registered := by
          rw [hTimer]
          exact hInv.registered
        waits := fun _ => waits_foreseen hIdle (by
          rw [hTimer]
          exact hInv.waits_settled hIdle hConnected)
        notStarted := fun hNot => absurd rfl hNot }
  · have hInstalled : ((c.succeed attempt).post [.timer .disableFd]).start =
        ({ (c.succeed attempt).post [.timer .disableFd] with started := true }).install
          c.conn.sendBuf.empty := if_neg hStarted
    have hRegistered :
        ({ (c.succeed attempt).post [.timer .disableFd] with started := true } :
          StreamClient σ).settled.event.inRegister = true := by
      have hKept := hInv.registered
      rw [← hTimer] at hKept
      exact hKept
    rw [hInstalled]
    exact
      { silent := hInv.silent
        conserves := hInv.conserves
        registered := registered_install _ hRegistered
        waits := fun _ => waits_install hIdle hRegistered
          (LiveBuffer.empty_iff c.conn.sendBuf).mp
        notStarted := fun hNot => absurd rfl hNot }

theorem sendInv_connect {base : List UInt8} {c : StreamClient σ}
    (hInv : SendInv base c) (timeoutMs : Nat) :
    SendInv base (c.connect (.error EINPROGRESS) timeoutMs) := by
  have hConnects := c.connects (.error EINPROGRESS) timeoutMs
  generalize c.connect (.error EINPROGRESS) timeoutMs = next at hConnects
  cases hConnects with
  | ignored _ hBusy => exact hInv
  | fails hFree hErrno => exact absurd rfl hErrno
  | detects hFree =>
      exact
        { silent := hInv.silent
          conserves := hInv.conserves
          registered := by
            rw [settled_detect]
            exact FdSlot.drain_inRegister hInv.registered (by simp)
          waits := fun hConnected => by cases hConnected
          notStarted := fun _ => hInv.notStarted (by simp [hFree]) }

theorem sendInv_execSend {base : List UInt8} {c : StreamClient σ}
    {ret : SendRet} (data : List UInt8) (hInv : SendInv base c)
    (hFine : ret.Fine) (hIdle : c.pending = []) :
    SendInv base (c.execSend ret data) := by
  unfold execSend
  split_ifs with hQueues
  · exact
      { silent := hInv.silent
        conserves := hInv.conserves.enqueue
        registered := hInv.registered
        waits := by
          intro hConnected
          have hQueued : c.conn.sendBuf.live ≠ [] := by
            intro hNil
            rcases hQueues with hNotEmpty | hNot
            · exact hNotEmpty ((LiveBuffer.empty_iff c.conn.sendBuf).mpr hNil)
            · exact hNot hConnected
          -- What was queued before is what the channel waits for.
          exact waits_foreseen hIdle
            ((hInv.waits_settled hIdle hConnected).enqueue hQueued)
        notStarted := hInv.notStarted }
  · rw [not_or, not_not, not_not] at hQueues
    obtain ⟨hEmpty, hConnected⟩ := hQueues
    have hNil := (LiveBuffer.empty_iff c.conn.sendBuf).mp hEmpty
    have hWaits := (hInv.waits_settled hIdle hConnected).sendNow ret
      data hNil
    exact
      { silent := hInv.silent
        conserves := hInv.conserves.sendNow hNil hFine
        registered := by
          dsimp only
          rw [settled_post, streamTasks_map_request]
          exact hWaits.follows.registered
        waits := fun _ => waits_foreseen hIdle (by
          dsimp only
          rw [settled_post, streamTasks_map_request]
          exact hWaits)
        notStarted := hInv.notStarted }

theorem sendInv_execTask {base : List UInt8} {c : StreamClient σ}
    {ret : SendRet} {task : ClientTask} {tasks : List ClientTask}
    (hInv : SendInv base c) (hFine : ret.Fine) (hIdle : c.pending = [])
    (hQueue : c.ioQueue = task :: tasks) :
    SendInv base ({ c with ioQueue := tasks }.exec {} ret task) := by
  have hPopped (hOther : streamTasks (task :: tasks) = streamTasks tasks) :
      SendInv base { c with ioQueue := tasks } := by
    have hSettled := settled_pop hQueue hOther
    exact
      { hInv with
        registered := by
          rw [hSettled]
          exact hInv.registered
        waits := fun hConnected => waits_foreseen hIdle (by
          rw [hSettled]
          exact hInv.waits_settled hIdle hConnected) }
  cases task with
  | stream task =>
      have hSettled := settled_exec_stream ret hQueue
      exact
        { hInv with
          registered := by
            rw [hSettled]
            exact hInv.registered
          waits := fun hConnected => waits_foreseen hIdle (by
            rw [hSettled]
            exact hInv.waits_settled hIdle hConnected) }
  | timer task =>
      have hInvPopped := hPopped (streamTasks_timer_cons task tasks)
      exact { hInvPopped with }
  | resetTimer timeoutMs =>
      exact hPopped (streamTasks_resetTimer_cons timeoutMs tasks)
  | send data =>
      exact sendInv_execSend data (hPopped (streamTasks_send_cons data tasks))
        hFine hIdle

theorem sendInv_perform {base : List UInt8} {c : StreamClient σ}
    {effect : Effect} {effects : List Effect} (hInv : SendInv base c)
    (hPending : c.pending = effect :: effects) :
    SendInv base ({ c with pending := effects }.perform effect) := by
  have hSilent := hInv.silent
  rw [hPending] at hSilent
  have hRegistered := registered_perform hInv.registered effect effects
  have hWaits (hGoesOn : effect.isNotice = false)
      (hConnected : c.connected = .kConnected) : Waits c.conn
        ({ c with pending := effects }.perform effect).foreseen := by
    rw [foreseen_perform hPending hGoesOn]
    exact hInv.waits hConnected
  cases effect with
  | updateEvent types modes =>
      exact
        { hInv with
          silent := hSilent
          registered := hRegistered
          waits := hWaits rfl }
  | onFragment fragment =>
      exact
        { hInv with
          silent := hSilent
          waits := hWaits rfl }
  | onError errno => cases hSilent
  | onDisconnect => cases hSilent

theorem sendInv_step {onSplit : σ → List UInt8 → Int × σ} {base : List UInt8}
    (c : StreamClient σ) (action : ClientAction) (next : StreamClient σ)
    (hInv : SendInv base c) (hFlow : c.SendsFlow action)
    (hStep : step onSplit c action = some next) : SendInv base next := by
  cases stepped hStep with
  | call call =>
      cases call with
      | postSendTask data => exact hInv.post rfl
      | connect ret timeoutMs =>
          obtain rfl : ret = .error EINPROGRESS := hFlow
          exact sendInv_connect hInv timeoutMs
      | connectReturns => exact hFlow.elim
      | start => exact hFlow.elim
      | stop => exact hFlow.elim
  | execTask hIdle hQueue =>
      obtain ⟨rfl, hFine⟩ := hFlow
      exact sendInv_execTask hInv hFine hIdle hQueue
  | socketCb hIdle hInstalled =>
      rename_i fuel inv attempt
      have hNoError : inv.soError = 0 := by
        simpa [SendsFlow, hInstalled] using hFlow
      simp only [socketCb, hNoError, ne_eq, not_true, if_false]
      split
      · exact sendInv_start_succeed attempt hInv hIdle
      · exact hInv
  | handler hIdle hInstalled hReturns =>
      rename_i fuel inv split h
      have hClean : inv.Clean c.conn.sendBuf.live.length := by
        simpa [SendsFlow, hInstalled] using hFlow
      obtain ⟨frames, hOutcome⟩ := streamHandler_outcome hReturns
      have hSpec := hOutcome.clean hClean
        (StreamClientSocket.verdict_of_soError_eq_zero hClean.soError)
      exact
        { silent := hSpec.silent
          conserves := hInv.conserves.handler hSpec
          registered := hInv.registered
          waits := fun hConnected =>
            (hInv.waits_settled hIdle hConnected).handler hSpec
          notStarted := hInv.notStarted }
  | perform hPending => exact sendInv_perform hInv hPending
  | timerExpires hIdle hInstalled =>
      have hConnected : c.connected = .kConnected := hFlow
      rw [timerCb, if_pos hConnected]
      exact hInv.post rfl

end StreamClient

/-! ## The law -/

/-- **Send order, no loss, no stall.**  In every run of a started session that
keeps its server, and of a client that connects with an attempt in progress,
without a failure: the bytes accepted followed by the send buffer are the
payloads in task order; and while something is left to send, the cached mask
contains `kWrite` and `kRead`, and so does the interest of the kernel once the
io queue is empty. -/
theorem send_order_kept (onSplit : σ → List UInt8 → Int × σ) :
    (∀ split actions s,
      Guarded (StreamSession.step onSplit) StreamSession.SendsFlow
        (.accepted split) actions →
      run (StreamSession.step onSplit) (.accepted split) actions = some s →
      s.traffic.accepted ++ s.conn.sendBuf.live = s.traffic.payloads.flatten ∧
      (s.conn.sendBuf.live ≠ [] →
        hasFlag s.conn.channel.eventTypes kWrite = true ∧
        hasFlag s.conn.channel.eventTypes kRead = true ∧
        (s.pending = [] → s.ioQueue = [] →
          ∃ interest, s.slot.interest = some interest ∧
            hasFlag interest EPOLLOUT = true ∧
            hasFlag interest EPOLLIN = true))) ∧
    ∀ c₀ actions c, StreamClient.ReadyToConnect c₀ →
      Guarded (StreamClient.step onSplit) StreamClient.SendsFlow c₀ actions →
      run (StreamClient.step onSplit) c₀ actions = some c →
      c.traffic.accepted ++ c.conn.sendBuf.live =
        c₀.conn.sendBuf.live ++ c.traffic.payloads.flatten ∧
      (c.connected = .kConnected → c.conn.sendBuf.live ≠ [] →
        hasFlag c.conn.channel.eventTypes kWrite = true ∧
        hasFlag c.conn.channel.eventTypes kRead = true ∧
        (c.pending = [] → c.ioQueue = [] →
          ∃ interest, c.streamSlot.interest = some interest ∧
            hasFlag interest EPOLLOUT = true ∧
            hasFlag interest EPOLLIN = true)) := by
  constructor
  · intro split actions s hGuarded hRun
    have hInv : StreamSession.SendInv [] s :=
      run_invariant StreamSession.sendInv_step
        (StreamSession.sendInv_accepted split) hGuarded hRun
    refine ⟨hInv.conserves, fun hQueued => ?_⟩
    refine ⟨hInv.waits.writes hQueued, hInv.waits.reads, fun hIdle hDrained => ?_⟩
    have hArmed := hInv.waits.armed hQueued
    rwa [StreamSession.foreseen_of_idle hIdle, StreamSession.settled, hDrained]
      at hArmed
  · intro c₀ actions c hReady hGuarded hRun
    have hInv : StreamClient.SendInv c₀.conn.sendBuf.live c :=
      run_invariant StreamClient.sendInv_step hReady.sendInv hGuarded hRun
    refine ⟨hInv.conserves, fun hConnected hQueued => ?_⟩
    have hWaits := hInv.waits hConnected
    refine ⟨hWaits.writes hQueued, hWaits.reads, fun hIdle hDrained => ?_⟩
    have hArmed := hWaits.armed hQueued
    rwa [StreamClient.foreseen_of_idle hIdle, StreamClient.settled, hDrained]
      at hArmed

/-- A session, and a client once its attempt has ended, send three bytes, of
which the kernel takes one, and then execute everything queued. -/
theorem send_order_kept_partial :
    let onSplit : Unit → List UInt8 → Int × Unit := stateless fun _ => 0
    let actions : List SessionAction :=
      [.call (.postSendTask [1, 2, 3]), .execTask {} (.sent 0),
        .execTask {} (.sent 0), .execTask {} (.sent 1), .execTask {} (.sent 0)]
    let clientActions : List ClientAction :=
      [.call (.connect (.error EINPROGRESS) 1000), .execTask {} (.sent 0),
        .execTask {} (.sent 0), .execTask {} (.sent 0), .execTask {} (.sent 0),
        .execTask {} (.sent 0), .dispatch 0 ⟨kWrite, [], [], 0⟩,
        .call (.postSendTask [1, 2, 3]), .execTask {} (.sent 0),
        .execTask {} (.sent 0), .execTask {} (.sent 1), .execTask {} (.sent 0)]
    (∃ s, run (StreamSession.step onSplit) (.accepted ()) actions = some s ∧
      s.traffic.accepted = [1] ∧ s.conn.sendBuf.live = [2, 3] ∧
      ∃ interest, s.slot.interest = some interest ∧
        hasFlag interest EPOLLOUT = true ∧ hasFlag interest EPOLLIN = true) ∧
    ∃ c, run (StreamClient.step onSplit) (.make ()) clientActions = some c ∧
      c.traffic.accepted = [1] ∧ c.conn.sendBuf.live = [2, 3] ∧
      ∃ interest, c.streamSlot.interest = some interest ∧
        hasFlag interest EPOLLOUT = true ∧ hasFlag interest EPOLLIN = true := by
  intro onSplit actions clientActions
  have hLaw := send_order_kept onSplit
  constructor
  · obtain ⟨hGuarded, hOutcome⟩ :
        Guarded (StreamSession.step onSplit) StreamSession.SendsFlow
          (.accepted ()) actions ∧
        (run (StreamSession.step onSplit) (.accepted ()) actions).map
          (fun s => (s.traffic.accepted, s.conn.sendBuf.live, s.pending,
            s.ioQueue.length)) = some ([1], [2, 3], [], 0) := by
      decide +kernel
    obtain ⟨s, hRun, hView⟩ := Option.map_eq_some_iff.mp hOutcome
    obtain ⟨hAccepted, hLive, hIdle, hDrained⟩ :
        s.traffic.accepted = [1] ∧ s.conn.sendBuf.live = [2, 3] ∧
          s.pending = [] ∧ s.ioQueue.length = 0 := by
      simpa using hView
    have hQueued : s.conn.sendBuf.live ≠ [] := by
      rw [hLive]
      exact List.cons_ne_nil 2 [3]
    have hWaits := (hLaw.1 () actions s hGuarded hRun).2 hQueued
    exact ⟨s, hRun, hAccepted, hLive,
      hWaits.2.2 hIdle (List.length_eq_zero_iff.mp hDrained)⟩
  · have hReady : StreamClient.ReadyToConnect (.make ()) :=
      { connected := rfl
        started := rfl
        idle := rfl
        registered := rfl
        traffic := rfl }
    obtain ⟨hGuarded, hOutcome⟩ :
        Guarded (StreamClient.step onSplit) StreamClient.SendsFlow (.make ())
          clientActions ∧
        (run (StreamClient.step onSplit) (.make ()) clientActions).map
          (fun c => (c.traffic.accepted, c.conn.sendBuf.live, c.pending,
            c.ioQueue.length, c.connected)) =
          some ([1], [2, 3], [], 0, .kConnected) := by
      decide +kernel
    obtain ⟨c, hRun, hView⟩ := Option.map_eq_some_iff.mp hOutcome
    obtain ⟨hAccepted, hLive, hIdle, hDrained, hConnected⟩ :
        c.traffic.accepted = [1] ∧ c.conn.sendBuf.live = [2, 3] ∧
          c.pending = [] ∧ c.ioQueue.length = 0 ∧
          c.connected = .kConnected := by
      simpa using hView
    have hQueued : c.conn.sendBuf.live ≠ [] := by
      rw [hLive]
      exact List.cons_ne_nil 2 [3]
    have hWaits := (hLaw.2 _ clientActions c hReady hGuarded hRun).2 hConnected
      hQueued
    exact ⟨c, hRun, hAccepted, hLive,
      hWaits.2.2 hIdle (List.length_eq_zero_iff.mp hDrained)⟩

/-- A started session whose server is gone: the payload of an executed task is
neither sent nor queued. -/
theorem orphaned_session_drops_payload :
    let onSplit : Unit → List UInt8 → Int × Unit := stateless fun _ => 0
    (run (StreamSession.step onSplit) (.accepted ())
      [.execTask {} (.sent 0), .execTask {} (.sent 0), .destroyServer,
        .call (.postSendTask [1]), .execTask {} (.sent 1)]).map
      (fun s => (s.traffic.payloads.flatten,
        s.traffic.accepted ++ s.conn.sendBuf.live)) = some ([1], []) := by
  decide +kernel

end Net
end KZEvent
