import KZEvent.Core.EventType
import KZEvent.Net.StreamIo

/-!
# The stream event handlers

`StreamSession::start` and `StreamClientSocket::start` install a callback that
reads until nothing is left to read, writes until nothing is left to send or
the kernel refuses more, collects the pending socket error, cuts frames off the
receive buffer, and reports a disconnection last.

One invocation is a function from the buffers and the answers of the kernel to
the buffers and a list of effects: what the handler asks of its surroundings,
in the order in which it asks.  The read, write, framing and disconnect phases
of the two handlers are the same text; their error phases are not.
-/

namespace KZEvent
namespace Net

open KZEvent.Core Foundation EventType

/-- What a `LoopChannel` remembers of its last `update_event`. -/
structure ChannelInfo where
  eventTypes : EventType
  eventModes : EventMode

/-- The loop is kept informed of a change of the interest: either nothing
changed and nothing is asked, or exactly the new interest is asked for. -/
def Announces (before after : ChannelInfo) (requests : List ChannelInfo) : Prop :=
  (after = before ∧ requests = []) ∨ requests = [after]

/-- `recv_buf_`, `send_buf_` and the cached interest of the stream channel. -/
structure StreamConn where
  recvBuf : LiveBuffer
  sendBuf : LiveBuffer
  channel : ChannelInfo

/-- What a handler asks of the channel and of the server or client it belongs
to.  `onError` is `on_session_error` in a session. -/
inductive Effect
  | updateEvent (types : EventType) (modes : EventMode)
  | onFragment (fragment : List UInt8)
  | onError (errno : Errno)
  | onDisconnect
deriving DecidableEq

/-- The event mask of one invocation and the answers of the kernel to its
calls.  When a list of answers is used up the kernel answers `EAGAIN`. -/
structure Invocation where
  types : EventType
  reads : List ReadvRet
  sends : List SendRet
  soError : Errno

/-- What the error phase concludes from `SO_ERROR`. -/
inductive SocketVerdict
  | quiet
  | closed
  | failed (errno : Errno)
deriving DecidableEq

/-- The state of an invocation: the socket, the local variable `disconnected`,
what went over the wire so far, and the effects so far. -/
structure HandlerState where
  conn : StreamConn
  disconnected : Bool
  received : List UInt8
  accepted : List UInt8
  effects : List Effect

namespace HandlerState

def enter (conn : StreamConn) : HandlerState where
  conn := conn
  disconnected := false
  received := []
  accepted := []
  effects := []

@[simp] theorem enter_conn (conn : StreamConn) : (enter conn).conn = conn := rfl

@[simp] theorem enter_disconnected (conn : StreamConn) :
    (enter conn).disconnected = false := rfl

@[simp] theorem enter_received (conn : StreamConn) :
    (enter conn).received = [] := rfl

@[simp] theorem enter_accepted (conn : StreamConn) :
    (enter conn).accepted = [] := rfl

@[simp] theorem enter_effects (conn : StreamConn) :
    (enter conn).effects = [] := rfl

/-- `update_event` without a callback: the loop is asked to change the interest
and the channel remembers it. -/
def updateEvent (h : HandlerState) (types : EventType) (modes : EventMode) :
    HandlerState :=
  { h with
    conn := { h.conn with channel := ⟨types, modes⟩ }
    effects := h.effects ++ [.updateEvent types modes] }

def clearRecvBuf (h : HandlerState) : HandlerState :=
  { h with conn := { h.conn with recvBuf := h.conn.recvBuf.clear } }

def clearBoth (h : HandlerState) : HandlerState :=
  { h with
    conn := { h.conn with
      recvBuf := h.conn.recvBuf.clear
      sendBuf := h.conn.sendBuf.clear } }

/-- The read loop. -/
def readLoop : List ReadvRet → HandlerState → HandlerState
  | [], h => h
  | ret :: rets, h =>
      let result := streamRecv ret h.conn.recvBuf
      let h := { h with conn := { h.conn with recvBuf := result.2 } }
      match result.1 with
      | .kSuccess => readLoop rets { h with received := h.received ++ ret.bytes }
      | .kTryAgain => h
      -- What arrived before the end of the stream is still framed below.
      | .kDisconnected => { h with disconnected := true }
      | .kError => h.clearRecvBuf

/-- The write loop.  On a failure it is the receive buffer that is cleared. -/
def writeLoop : List SendRet → HandlerState → HandlerState
  | [], h => h
  | ret :: rets, h =>
      let accepted := h.conn.sendBuf.live.take ret.count
      let result := streamSend ret h.conn.sendBuf
      let h := { h with conn := { h.conn with sendBuf := result.2 } }
      match result.1 with
      | .kSuccess =>
          let h := { h with accepted := h.accepted ++ accepted }
          if h.conn.sendBuf.empty then
            -- All sent: stop waiting for the write event.
            h.updateEvent (h.conn.channel.eventTypes &&& ~~~kWrite)
              h.conn.channel.eventModes
          else
            writeLoop rets h
      | .kTryAgain => h
      | .kDisconnected => { h with disconnected := true }
      | .kError => h.clearRecvBuf

def readPhase (inv : Invocation) (h : HandlerState) : HandlerState :=
  if hasFlag inv.types kRead then readLoop inv.reads h else h

def writePhase (inv : Invocation) (h : HandlerState) : HandlerState :=
  if hasFlag inv.types kWrite then writeLoop inv.sends h else h

/-- The branches of the error phase, shared by both handlers. -/
def settle (h : HandlerState) : SocketVerdict → HandlerState
  | .quiet => h
  | .closed => { h with disconnected := true }
  | .failed err =>
      { h.clearBoth with effects := h.effects ++ [.onError err] }

/-- The framing loop, given `fuel` rounds; `none` when it needs more. -/
def frameLoop {σ : Type*} (onSplit : σ → List UInt8 → Int × σ) :
    Nat → σ → HandlerState → Option (σ × HandlerState)
  | 0, _, _ => none
  | fuel + 1, callback, h =>
      let verdict := onSplit callback h.conn.recvBuf.live
      let consumeLen := verdict.1.toNat
      if verdict.1 ≤ 0 then
        some (verdict.2, h)
      else
        -- The fragment is handed out before it is popped, and nothing compares
        -- its length with what the buffer holds.
        frameLoop onSplit fuel verdict.2
          { h with
            conn := { h.conn with recvBuf := h.conn.recvBuf.pop consumeLen }
            effects :=
              h.effects ++ [.onFragment (h.conn.recvBuf.front consumeLen)] }

def disconnectPhase (h : HandlerState) : HandlerState :=
  if h.disconnected then
    { h.clearBoth with effects := h.effects ++ [.onDisconnect] }
  else
    h

end HandlerState

open HandlerState

/-- The text the two handlers share, around the error phase of each. -/
def streamHandler {σ : Type*} (verdict : Invocation → SocketVerdict)
    (onSplit : σ → List UInt8 → Int × σ) (fuel : Nat) (inv : Invocation)
    (callback : σ) (conn : StreamConn) : Option (σ × HandlerState) :=
  let h := settle (writePhase inv (readPhase inv (enter conn))) (verdict inv)
  (frameLoop onSplit fuel callback h).map fun result =>
    (result.1, disconnectPhase result.2)

/-- What `StreamSession`'s handler makes of `SO_ERROR`. -/
def StreamSession.verdict (inv : Invocation) : SocketVerdict :=
  if hasFlag inv.types kError then
    if inv.soError ≠ 0 then
      if inv.soError = ECONNRESET ∨ inv.soError = EPIPE then
        .closed
      else
        .failed inv.soError
    else .quiet
  else .quiet

/-- What `StreamClientSocket`'s handler makes of `SO_ERROR`: the outer test
already excludes what the inner one looks for. -/
def StreamClientSocket.verdict (inv : Invocation) : SocketVerdict :=
  if hasFlag inv.types kError then
    if inv.soError ≠ 0 ∧ inv.soError ≠ ECONNRESET ∧ inv.soError ≠ EPIPE then
      if inv.soError = ECONNRESET ∨ inv.soError = EPIPE then
        -- Unreachable.
        .closed
      else
        .failed inv.soError
    else .quiet
  else .quiet

/-- The callback `StreamSession::start` installs.  Without a server it returns
at once. -/
def StreamSession.handler {σ : Type*} (onSplit : σ → List UInt8 → Int × σ)
    (fuel : Nat) (serverAlive : Bool) (inv : Invocation) (callback : σ)
    (conn : StreamConn) : Option (σ × HandlerState) :=
  if serverAlive then
    streamHandler StreamSession.verdict onSplit fuel inv callback conn
  else
    some (callback, enter conn)

/-- The callback `StreamClientSocket::start` installs. -/
def StreamClientSocket.handler {σ : Type*} (onSplit : σ → List UInt8 → Int × σ)
    (fuel : Nat) (inv : Invocation) (callback : σ) (conn : StreamConn) :
    Option (σ × HandlerState) :=
  streamHandler StreamClientSocket.verdict onSplit fuel inv callback conn

/-! ## Sending from a task

The tasks `post_send_task` posts send at once when nothing is queued, and queue
what the kernel does not take. -/

/-- The result of a direct send: the socket, the bytes the kernel accepted, and
the interest the loop is asked for, if any. -/
structure SendState where
  conn : StreamConn
  accepted : List UInt8
  requests : List ChannelInfo

/-- Queue `data` behind the send buffer. -/
def StreamConn.enqueue (conn : StreamConn) (data : List UInt8) : StreamConn :=
  { conn with sendBuf := conn.sendBuf.insert data }

/-- Queue `data` and ask for the write event. -/
def StreamConn.enqueueAndWait (conn : StreamConn) (accepted data : List UInt8) :
    SendState :=
  let channel : ChannelInfo :=
    ⟨conn.channel.eventTypes ||| kWrite, conn.channel.eventModes⟩
  { conn := { conn.enqueue data with channel := channel }
    accepted := accepted
    requests := [channel] }

/-- The direct send both `post_send_task`s make of `data`. -/
def StreamConn.sendNow (conn : StreamConn) (ret : SendRet)
    (data : List UInt8) : SendState :=
  match ret.status with
  | .kSuccess =>
      if ret.count = data.length then
        { conn := conn, accepted := data, requests := [] }
      else
        -- A partial send: the rest waits for the write event.
        conn.enqueueAndWait (data.take ret.count) (data.drop ret.count)
  | .kTryAgain => conn.enqueueAndWait [] data
  -- The payload is dropped without a notification.
  | .kDisconnected | .kError => { conn := conn, accepted := [], requests := [] }

/-- What a direct send does to the sending side: whatever is queued is waited
for, and a send that fails in no way loses nothing. -/
structure SendSpec (data : List UInt8) (conn : StreamConn) (ret : SendRet)
    (final : SendState) : Prop where
  conserved : ret.status = .kSuccess ∨ ret.status = .kTryAgain →
    final.accepted ++ final.conn.sendBuf.live = conn.sendBuf.live ++ data
  waits : final.conn.sendBuf.live ≠ [] →
    hasFlag final.conn.channel.eventTypes kWrite = true
  channel : final.conn.channel = conn.channel ∨
    final.conn.channel =
      ⟨conn.channel.eventTypes ||| kWrite, conn.channel.eventModes⟩

/-- A direct send never touches what was received. -/
@[simp]
theorem recvBuf_sendNow (conn : StreamConn) (ret : SendRet)
    (data : List UInt8) :
    (conn.sendNow ret data).conn.recvBuf = conn.recvBuf := by
  simp only [StreamConn.sendNow]
  split
  · split <;> rfl
  · rfl
  · rfl
  · rfl

/-- A direct send asks for exactly the changes of the interest it makes. -/
theorem announces_sendNow (conn : StreamConn) (ret : SendRet)
    (data : List UInt8) :
    Announces conn.channel (conn.sendNow ret data).conn.channel
      (conn.sendNow ret data).requests := by
  simp only [StreamConn.sendNow]
  split
  · split
    · exact .inl ⟨rfl, rfl⟩
    · exact .inr rfl
  · exact .inr rfl
  · exact .inl ⟨rfl, rfl⟩
  · exact .inl ⟨rfl, rfl⟩

theorem sendNow_spec {conn : StreamConn} (ret : SendRet) (data : List UInt8)
    (hEmpty : conn.sendBuf.live = []) :
    SendSpec data conn ret (conn.sendNow ret data) := by
  cases hStatus : ret.status with
  | kSuccess =>
      by_cases hAll : ret.count = data.length
      · simp only [StreamConn.sendNow, hStatus, hAll, if_true]
        constructor <;> simp [hEmpty]
      · simp only [StreamConn.sendNow, hStatus, hAll, if_false]
        constructor <;>
          simp [StreamConn.enqueueAndWait, StreamConn.enqueue, hEmpty]
  | kTryAgain =>
      simp only [StreamConn.sendNow, hStatus]
      constructor <;> simp [StreamConn.enqueueAndWait, StreamConn.enqueue]
  | kDisconnected =>
      simp only [StreamConn.sendNow, hStatus]
      constructor <;> simp [hEmpty, hStatus]
  | kError =>
      simp only [StreamConn.sendNow, hStatus]
      constructor <;> simp [hEmpty, hStatus]

/-! ## The outcome of each phase -/

namespace Invocation

/-- What ended the reads of the invocation. -/
def readEnd (inv : Invocation) : IoStatus :=
  if hasFlag inv.types kRead then Net.readEnd inv.reads else .kTryAgain

/-- The bytes received in the invocation. -/
def readBytes (inv : Invocation) : List UInt8 :=
  if hasFlag inv.types kRead then Net.readBytes inv.reads else []

/-- What ended the sends of the invocation, with `pending` bytes to send. -/
def sendEnd (inv : Invocation) (pending : Nat) : IoStatus :=
  if hasFlag inv.types kWrite then Net.sendEnd pending inv.sends else .kTryAgain

end Invocation

/-- What reading does: it appends to the receive buffer, or clears it on a
failure, and touches nothing of the sending side. -/
structure ReadSpec (status : IoStatus) (bytes : List UInt8)
    (h final : HandlerState) : Prop where
  recvBuf : final.conn.recvBuf.live =
    if status = .kError then [] else h.conn.recvBuf.live ++ bytes
  sendBuf : final.conn.sendBuf = h.conn.sendBuf
  channel : final.conn.channel = h.conn.channel
  disconnected : final.disconnected = (h.disconnected || status == .kDisconnected)
  received : final.received = h.received ++ bytes
  accepted : final.accepted = h.accepted
  effects : final.effects = h.effects

theorem readLoop_spec (rets : List ReadvRet) (h : HandlerState) :
    ReadSpec (readEnd rets) (readBytes rets) h (readLoop rets h) := by
  induction rets generalizing h with
  | nil => constructor <;> simp [readLoop, readEnd, readBytes]
  | cons ret rets ih =>
      by_cases hSuccess : ret.status = .kSuccess
      · have hLive := live_streamRecv_success h.conn.recvBuf hSuccess
        have hRest := ih
          { h with
            conn := { h.conn with recvBuf := (streamRecv ret h.conn.recvBuf).2 }
            received := h.received ++ ret.bytes }
        have hLoop : readLoop (ret :: rets) h = readLoop rets
            { h with
              conn := { h.conn with recvBuf := (streamRecv ret h.conn.recvBuf).2 }
              received := h.received ++ ret.bytes } := by
          simp only [readLoop, streamRecv_status, hSuccess]
        rw [hLoop]
        simp only [readEnd, readBytes, hSuccess, if_true]
        exact
          { hRest with
            recvBuf := by rw [hRest.recvBuf, hLive, List.append_assoc]
            received := by rw [hRest.received, List.append_assoc] }
      · -- Any other status ends the loop with the buffer as it was.
        have hSame := streamRecv_of_ne_success h.conn.recvBuf hSuccess
        simp only [readLoop, readEnd, readBytes, streamRecv_status, hSuccess,
          if_false, hSame]
        cases hStatus : ret.status with
        | kSuccess => exact absurd hStatus hSuccess
        | kTryAgain => constructor <;> simp
        | kDisconnected => constructor <;> simp
        | kError => constructor <;> simp [clearRecvBuf]

theorem readPhase_spec (inv : Invocation) (h : HandlerState) :
    ReadSpec inv.readEnd inv.readBytes h (readPhase inv h) := by
  simp only [readPhase, Invocation.readEnd, Invocation.readBytes]
  split
  · exact readLoop_spec inv.reads h
  · constructor <;> simp

/-- What writing does: the accepted bytes leave the front of the send buffer,
the write interest is dropped once the buffer is empty, and a failure clears
the receive buffer. -/
structure WriteSpec (status : IoStatus) (h final : HandlerState) : Prop where
  recvBuf : final.conn.recvBuf.live =
    if status = .kError then [] else h.conn.recvBuf.live
  conserved : final.accepted ++ final.conn.sendBuf.live =
    h.accepted ++ h.conn.sendBuf.live
  drained : status = .kSuccess → final.conn.sendBuf.live = []
  channel : final.conn.channel =
    if status = .kSuccess then
      ⟨h.conn.channel.eventTypes &&& ~~~kWrite, h.conn.channel.eventModes⟩
    else h.conn.channel
  disconnected : final.disconnected = (h.disconnected || status == .kDisconnected)
  received : final.received = h.received
  effects : final.effects = h.effects ++
    if status = .kSuccess then
      [.updateEvent (h.conn.channel.eventTypes &&& ~~~kWrite)
        h.conn.channel.eventModes]
    else []

theorem writeLoop_spec (rets : List SendRet) (h : HandlerState) :
    WriteSpec (sendEnd h.conn.sendBuf.live.length rets) h (writeLoop rets h) := by
  induction rets generalizing h with
  | nil => constructor <;> simp [writeLoop, sendEnd]
  | cons ret rets ih =>
      by_cases hSuccess : ret.status = .kSuccess
      · have hPop := streamSend_success h.conn.sendBuf hSuccess
        have hLeft : (h.conn.sendBuf.pop ret.count).live.length =
            h.conn.sendBuf.live.length - ret.count := by
          rw [LiveBuffer.live_pop, List.length_drop]
        -- What is accepted and what stays queued make up what was queued.
        have hTaken : h.conn.sendBuf.live.take ret.count ++
            (h.conn.sendBuf.pop ret.count).live = h.conn.sendBuf.live := by
          rw [LiveBuffer.live_pop, List.take_append_drop]
        simp only [writeLoop, sendEnd, streamSend_status, hSuccess, if_true, hPop]
        by_cases hEmpty : (h.conn.sendBuf.pop ret.count).empty = true
        · have hNil := (LiveBuffer.empty_iff _).mp hEmpty
          have hDone : h.conn.sendBuf.live.length - ret.count = 0 := by
            rw [← hLeft, hNil]
            rfl
          simp only [hEmpty, hDone, if_true]
          constructor <;> simp [updateEvent, hNil]
          omega
        · have hNotDone : ¬ h.conn.sendBuf.live.length - ret.count = 0 := by
            rw [← hLeft]
            intro hZero
            exact hEmpty ((LiveBuffer.empty_iff _).mpr
              (List.length_eq_zero_iff.mp hZero))
          simp only [hEmpty, hNotDone, if_false, Bool.false_eq_true]
          have hRest := ih
            { h with
              conn := { h.conn with sendBuf := h.conn.sendBuf.pop ret.count }
              accepted := h.accepted ++ h.conn.sendBuf.live.take ret.count }
          simp only [hLeft] at hRest
          exact
            { hRest with
              conserved := by
                rw [hRest.conserved, List.append_assoc, hTaken] }
      · have hSame := streamSend_of_ne_success h.conn.sendBuf hSuccess
        simp only [writeLoop, sendEnd, streamSend_status, hSuccess, if_false,
          hSame]
        cases hStatus : ret.status with
        | kSuccess => exact absurd hStatus hSuccess
        | kTryAgain => constructor <;> simp
        | kDisconnected => constructor <;> simp
        | kError => constructor <;> simp [clearRecvBuf]

theorem writePhase_spec (inv : Invocation) (h : HandlerState) :
    WriteSpec (inv.sendEnd h.conn.sendBuf.live.length) h (writePhase inv h) := by
  simp only [writePhase, Invocation.sendEnd]
  split
  · exact writeLoop_spec inv.sends h
  · constructor <;> simp

end Net
end KZEvent
