import KZEvent.Foundation.Drain
import KZEvent.Net.AddrCodec
import KZEvent.Net.StreamHandler

/-!
# Edge-triggered receive loops

Under `EPOLLET` a handler invoked with `kRead` hears of queued input once, so
its loop has to go on until the kernel reports `EAGAIN` or, on a stream, the end
of the connection.  Four loops do this: those of a datagram socket, of a session
and a client, and of a listening socket.  Each of them also breaks on other
answers: on an `errno` it does not expect, and the datagram loop on a source it
cannot decode.  What is queued behind such an answer stays there until the next
edge.
-/

namespace KZEvent
namespace Net

open KZEvent.Core Foundation HandlerState

/-! ## The datagram loop -/

/-- The result of `recvfrom`. -/
inductive RecvfromRet
  | packet (bytes : List UInt8) (source : Sockaddr)
  | error (errno : Errno)

/-- `dgram_recv`: the result of the call, and the source if there is one. -/
def dgramRecv : RecvfromRet → Int × Option InetAddr
  | .packet bytes source =>
      (bytes.length, InetAddr.makeFromSockaddr (some source))
  | .error _ => (-1, none)

/-- The bytes `recvfrom` left in `recv_buf_`. -/
def RecvfromRet.bytes : RecvfromRet → List UInt8
  | packet bytes _ => bytes
  | error _ => []

/-- One turn of the loop in `DgramSocket::start`: what is handed to `on_read`,
or a break where there is no source. -/
def DgramSocket.receiveTurn (ret : RecvfromRet) : DrainTurn (List UInt8 × InetAddr) :=
  match dgramRecv ret with
  | (len, some source) => .goesOn (some (ret.bytes.take len.toNat, source))
  | (_, none) => .breaks

def DgramSocket.receiveLoop (rets : List RecvfromRet) :
    Drained RecvfromRet (List UInt8 × InetAddr) :=
  drain receiveTurn rets

namespace RecvfromRet

/-- Nothing is left to receive. -/
def Final (ret : RecvfromRet) : Prop := ret = error EAGAIN

/-- Another `errno`, or a source that cannot be decoded. -/
def Disturbs : RecvfromRet → Prop
  | packet _ source => InetAddr.makeFromSockaddr (some source) = none
  | error errno => errno ≠ EAGAIN

end RecvfromRet

theorem DgramSocket.receiveTurn_breaks_iff (ret : RecvfromRet) :
    receiveTurn ret = .breaks ↔ ret.Final ∨ ret.Disturbs := by
  cases ret with
  | packet bytes source =>
      simp only [receiveTurn, dgramRecv, RecvfromRet.Final,
        RecvfromRet.Disturbs, reduceCtorEq, false_or]
      cases InetAddr.makeFromSockaddr (some source) <;> simp
  | error errno =>
      simp only [receiveTurn, dgramRecv, RecvfromRet.Final,
        RecvfromRet.Disturbs, RecvfromRet.error.injEq, true_iff]
      exact Decidable.em _

/-! ## The stream loops -/

/-- One turn of the read loops in `StreamSession::start` and
`StreamClientSocket::start`. -/
def streamReceiveTurn (ret : ReadvRet) : DrainTurn (List UInt8) :=
  match ret.status with
  | .kSuccess => .goesOn (some ret.bytes)
  | _ => .breaks

def StreamSession.receiveLoop (rets : List ReadvRet) :
    Drained ReadvRet (List UInt8) :=
  drain streamReceiveTurn rets

def StreamClientSocket.receiveLoop (rets : List ReadvRet) :
    Drained ReadvRet (List UInt8) :=
  drain streamReceiveTurn rets

namespace ReadvRet

/-- Nothing is left to read, or the connection has ended. -/
def Final (ret : ReadvRet) : Prop :=
  ret = error EAGAIN ∨ ret = read [] ∨ ret = error ECONNRESET

def Disturbs : ReadvRet → Prop
  | read _ => False
  | error errno => errno ≠ EAGAIN ∧ errno ≠ ECONNRESET

end ReadvRet

theorem streamReceiveTurn_breaks_iff (ret : ReadvRet) :
    streamReceiveTurn ret = .breaks ↔ ret.Final ∨ ret.Disturbs := by
  cases ret with
  | read bytes =>
      cases bytes with
      | nil => simp [streamReceiveTurn, ReadvRet.status, ReadvRet.Final]
      | cons byte bytes =>
          simp [streamReceiveTurn, ReadvRet.status, ReadvRet.Final,
            ReadvRet.Disturbs]
  | error errno =>
      have hBreaks : streamReceiveTurn (.error errno) = .breaks := by
        simp only [streamReceiveTurn, ReadvRet.status]
        split_ifs <;> rfl
      simp only [hBreaks, ReadvRet.Final, ReadvRet.Disturbs, reduceCtorEq,
        ReadvRet.error.injEq, false_or, true_iff]
      by_cases hAgain : errno = EAGAIN
      · exact .inl (.inl hAgain)
      · by_cases hReset : errno = ECONNRESET
        · exact .inl (.inr hReset)
        · exact .inr ⟨hAgain, hReset⟩

theorem streamReceiveTurn_of_success {ret : ReadvRet}
    (hSuccess : ret.status = .kSuccess) :
    streamReceiveTurn ret = .goesOn (some ret.bytes) := by
  simp only [streamReceiveTurn, hSuccess]

theorem streamReceiveTurn_of_ne_success {ret : ReadvRet}
    (hOther : ret.status ≠ .kSuccess) : streamReceiveTurn ret = .breaks := by
  simp only [streamReceiveTurn]

/-- The read loop of the handlers takes what the loop above takes: it appends
the bytes handled, and the answers behind the one it breaks on do not matter. -/
theorem readLoop_drain (rets : List ReadvRet) (h : HandlerState) :
    (readLoop rets h).received =
        h.received ++ (drain streamReceiveTurn rets).handled.flatten ∧
      readLoop rets h = readLoop ((drain streamReceiveTurn rets).taken ++
        (drain streamReceiveTurn rets).last.toList) h := by
  induction rets generalizing h with
  | nil => simp [drain, readLoop]
  | cons ret rets ih =>
      by_cases hSuccess : ret.status = .kSuccess
      · have hTurn := streamReceiveTurn_of_success hSuccess
        obtain ⟨hReceived, hTaken⟩ := ih
          { h with
            conn := { h.conn with recvBuf := (streamRecv ret h.conn.recvBuf).2 }
            received := h.received ++ ret.bytes }
        simp only [readLoop, drain, hTurn, streamRecv_status, hSuccess,
          List.cons_append]
        refine ⟨?_, hTaken⟩
        rw [hReceived]
        simp
      · have hTurn := streamReceiveTurn_of_ne_success hSuccess
        have hSame := streamRecv_of_ne_success h.conn.recvBuf hSuccess
        simp only [readLoop, drain, hTurn, streamRecv_status, hSame,
          Option.toList_some, List.nil_append, List.flatten_nil,
          List.append_nil]
        cases hStatus : ret.status with
        | kSuccess => exact absurd hStatus hSuccess
        | kTryAgain => exact ⟨rfl, rfl⟩
        | kDisconnected => exact ⟨rfl, rfl⟩
        | kError => exact ⟨rfl, rfl⟩

/-! ## The accept loop -/

/-- The result of `accept4`. -/
inductive Accept4Ret
  | accepted (fd : Nat)
  | error (errno : Errno)

/-- One turn of the loop in `StreamServerSocket::start`: a new session, another
try, or a break. -/
def StreamServerSocket.acceptTurn : Accept4Ret → DrainTurn Nat
  | .accepted fd => .goesOn (some fd)
  | .error errno =>
      if errno = EAGAIN then .breaks
      else if errno ≠ EAGAIN ∧ errno ≠ ECONNABORTED then .breaks
      else .goesOn none

def StreamServerSocket.acceptLoop (rets : List Accept4Ret) :
    Drained Accept4Ret Nat :=
  drain acceptTurn rets

namespace Accept4Ret

/-- No connection is waiting. -/
def Final (ret : Accept4Ret) : Prop := ret = error EAGAIN

def Disturbs : Accept4Ret → Prop
  | accepted _ => False
  | error errno => errno ≠ EAGAIN ∧ errno ≠ ECONNABORTED

end Accept4Ret

theorem StreamServerSocket.acceptTurn_breaks_iff (ret : Accept4Ret) :
    acceptTurn ret = .breaks ↔ ret.Final ∨ ret.Disturbs := by
  cases ret with
  | accepted fd =>
      simp [acceptTurn, Accept4Ret.Final, Accept4Ret.Disturbs]
  | error errno =>
      simp only [acceptTurn, Accept4Ret.Final, Accept4Ret.Disturbs,
        Accept4Ret.error.injEq]
      by_cases hAgain : errno = EAGAIN
      · simp [hAgain]
      · by_cases hAborted : errno = ECONNABORTED <;> simp [hAgain, hAborted]

/-- **When the receive loops drain.**  Each of the four loops stops on nothing
but `EAGAIN` or, on a stream, the end of the connection, if and only if no
answer of the kernel before that is an `errno` the loop does not expect or, for
datagrams, a source that cannot be decoded.  The read loop of the stream
handlers does nothing with the answers behind the one it stops on. -/
theorem receive_loops_drain_iff (datagrams : List RecvfromRet)
    (reads : List ReadvRet) (h : HandlerState) (accepts : List Accept4Ret) :
    ((DgramSocket.receiveLoop datagrams).EndsOn RecvfromRet.Final ↔
      Undisturbed RecvfromRet.Final RecvfromRet.Disturbs datagrams) ∧
    ((StreamSession.receiveLoop reads).EndsOn ReadvRet.Final ↔
      Undisturbed ReadvRet.Final ReadvRet.Disturbs reads) ∧
    ((StreamClientSocket.receiveLoop reads).EndsOn ReadvRet.Final ↔
      Undisturbed ReadvRet.Final ReadvRet.Disturbs reads) ∧
    readLoop reads h = readLoop ((StreamSession.receiveLoop reads).taken ++
      (StreamSession.receiveLoop reads).last.toList) h ∧
    ((StreamServerSocket.acceptLoop accepts).EndsOn Accept4Ret.Final ↔
      Undisturbed Accept4Ret.Final Accept4Ret.Disturbs accepts) := by
  have hStreamCalm (ret : ReadvRet) (hFinal : ret.Final) : ¬ ret.Disturbs := by
    rcases hFinal with rfl | rfl | rfl
    · exact fun hDisturbs => hDisturbs.1 rfl
    · exact id
    · exact fun hDisturbs => hDisturbs.2 rfl
  refine ⟨?_, ?_, ?_, ?_, ?_⟩
  · refine endsOn_drain_iff DgramSocket.receiveTurn_breaks_iff ?_ datagrams
    rintro _ rfl hDisturbs
    exact hDisturbs rfl
  · exact endsOn_drain_iff streamReceiveTurn_breaks_iff hStreamCalm reads
  · exact endsOn_drain_iff streamReceiveTurn_breaks_iff hStreamCalm reads
  · exact (readLoop_drain reads h).2
  · refine endsOn_drain_iff StreamServerSocket.acceptTurn_breaks_iff ?_ accepts
    rintro _ rfl hDisturbs
    exact hDisturbs.1 rfl

/-- A datagram socket that an earlier send has left an error on, with a datagram
queued: the loop stops on the error. -/
theorem receive_loops_leave_input :
    ¬ ∀ rets, (DgramSocket.receiveLoop rets).EndsOn RecvfromRet.Final := by
  intro hClaim
  let source : Sockaddr := ⟨[2, 0, 0, 9, 127, 0, 0, 1, 0, 0, 0, 0, 0, 0, 0, 0],
    16, by decide⟩
  have hLast := hClaim [.error ECONNREFUSED, .packet [1] source]
    (.error ECONNREFUSED) rfl
  simp [RecvfromRet.Final, ECONNREFUSED, EAGAIN] at hLast

end Net
end KZEvent
