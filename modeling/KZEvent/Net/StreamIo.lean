import KZEvent.Core.Errno
import KZEvent.StreamBuffer.Fifo

/-!
# Stream input and output

`stream_recv` and `stream_send` make one system call each and translate its
result into an `IoStatus`.  The result of the call is an argument here: bytes
read or accepted, or an `errno`.
-/

namespace KZEvent
namespace Net

open KZEvent.Core Foundation

inductive IoStatus
  | kSuccess
  | kTryAgain
  | kDisconnected
  | kError
deriving DecidableEq, Repr

/-- The result of `readv`; reading no bytes at all is the end of the stream. -/
inductive ReadvRet
  | read (bytes : List UInt8)
  | error (errno : Errno)
deriving DecidableEq, Repr

/-- The result of `send`: the number of bytes the kernel accepted. -/
inductive SendRet
  | sent (count : Nat)
  | error (errno : Errno)
deriving DecidableEq, Repr

/-! ## `stream_recv` -/

/-- The status `stream_recv` makes of the result of `readv`. -/
def ReadvRet.status : ReadvRet → IoStatus
  | read bytes => if bytes.length = 0 then .kDisconnected else .kSuccess
  | error errno =>
      if errno = EAGAIN then .kTryAgain
      else if errno = ECONNRESET then .kDisconnected
      else .kError

/-- The bytes a `readv` delivered. -/
def ReadvRet.bytes : ReadvRet → List UInt8
  | read bytes => bytes
  | error _ => []

/-- `stream_recv`: `readv` fills the space of the buffer first and then the
stack buffer, whose part is inserted behind. -/
def streamRecv (ret : ReadvRet) (buf : LiveBuffer) : IoStatus × LiveBuffer :=
  let bufSpace := buf.space
  let received :=
    buf.receive (ret.bytes.take bufSpace) (List.length_take_le _ _)
  match ret.status with
  | .kSuccess =>
      if bufSpace < ret.bytes.length then
        -- The rest is in the stack buffer.
        (.kSuccess, received.insert (ret.bytes.drop bufSpace))
      else
        (.kSuccess, received)
  | status => (status, buf)

@[simp]
theorem streamRecv_status (ret : ReadvRet) (buf : LiveBuffer) :
    (streamRecv ret buf).1 = ret.status := by
  simp only [streamRecv]
  cases ret.status with
  | kSuccess => simp only; split <;> rfl
  | kTryAgain => rfl
  | kDisconnected => rfl
  | kError => rfl

/-- A successful read appends exactly the bytes read, whichever of the two
areas they went through. -/
theorem live_streamRecv_success {ret : ReadvRet} (buf : LiveBuffer)
    (hStatus : ret.status = .kSuccess) :
    (streamRecv ret buf).2.live = buf.live ++ ret.bytes := by
  simp only [streamRecv, hStatus]
  split
  · simp only [LiveBuffer.live_insert, LiveBuffer.live_receive,
      List.append_assoc, List.take_append_drop]
  · rename_i hFits
    rw [LiveBuffer.live_receive, List.take_of_length_le (by omega)]

theorem streamRecv_of_ne_success {ret : ReadvRet} (buf : LiveBuffer)
    (hStatus : ret.status ≠ .kSuccess) :
    (streamRecv ret buf).2 = buf := by
  simp only [streamRecv]

/-! ## `stream_send` -/

/-- The status both overloads of `stream_send` make of the result of `send`. -/
def SendRet.status : SendRet → IoStatus
  | sent _ => .kSuccess
  | error errno =>
      if errno = EAGAIN then .kTryAgain
      else if errno = EPIPE then .kDisconnected
      else .kError

/-- The number of bytes a `send` took. -/
def SendRet.count : SendRet → Nat
  | sent count => count
  | error _ => 0

/-- `stream_send` of a buffer: what the kernel accepted is popped. -/
def streamSend (ret : SendRet) (buf : LiveBuffer) : IoStatus × LiveBuffer :=
  match ret.status with
  | .kSuccess => (.kSuccess, buf.pop ret.count)
  | status => (status, buf)

@[simp]
theorem streamSend_status (ret : SendRet) (buf : LiveBuffer) :
    (streamSend ret buf).1 = ret.status := by
  simp only [streamSend]
  cases ret.status <;> rfl

theorem streamSend_success {ret : SendRet} (buf : LiveBuffer)
    (hStatus : ret.status = .kSuccess) :
    (streamSend ret buf).2 = buf.pop ret.count := by
  simp only [streamSend, hStatus]

theorem streamSend_of_ne_success {ret : SendRet} (buf : LiveBuffer)
    (hStatus : ret.status ≠ .kSuccess) :
    (streamSend ret buf).2 = buf := by
  simp only [streamSend]

/-! ## What ends a loop of calls

The handlers repeat `stream_recv` until its status is not `kSuccess`, and
`stream_send` until its status is not `kSuccess` or nothing is left to send.
Once the results listed for an invocation are used up the kernel answers
`EAGAIN`. -/

/-- The status that ends the read loop. -/
def readEnd : List ReadvRet → IoStatus
  | [] => .kTryAgain
  | ret :: rets => if ret.status = .kSuccess then readEnd rets else ret.status

/-- The bytes the read loop receives. -/
def readBytes : List ReadvRet → List UInt8
  | [] => []
  | ret :: rets =>
      if ret.status = .kSuccess then ret.bytes ++ readBytes rets else []

/-- The status that ends the write loop with `pending` bytes to send;
`kSuccess` when all were sent. -/
def sendEnd (pending : Nat) : List SendRet → IoStatus
  | [] => .kTryAgain
  | ret :: rets =>
      if ret.status = .kSuccess then
        if pending - ret.count = 0 then .kSuccess
        else sendEnd (pending - ret.count) rets
      else ret.status

/-! ## Why a loop of calls ended

The same loops in terms of what the kernel reported: an `errno` other than
`EAGAIN`, or the end of the stream. -/

/-- The `errno` with which the reads failed. -/
def readFailure : List ReadvRet → Option Errno
  | [] => none
  | .read bytes :: rets => if bytes.length = 0 then none else readFailure rets
  | .error errno :: _ => if errno = EAGAIN then none else some errno

/-- The reads reached the end of the stream. -/
def readEof : List ReadvRet → Bool
  | [] => false
  | .read bytes :: rets => if bytes.length = 0 then true else readEof rets
  | .error _ :: _ => false

/-- The `errno` with which the sends failed, with `pending` bytes to send. -/
def sendFailure (pending : Nat) : List SendRet → Option Errno
  | [] => none
  | .sent count :: rets =>
      if pending - count = 0 then none else sendFailure (pending - count) rets
  | .error errno :: _ => if errno = EAGAIN then none else some errno

theorem readEnd_eq (rets : List ReadvRet) :
    readEnd rets =
      match readFailure rets with
      | some errno => if errno = ECONNRESET then .kDisconnected else .kError
      | none => if readEof rets then .kDisconnected else .kTryAgain := by
  induction rets with
  | nil => rfl
  | cons ret rets ih =>
      -- Reading no bytes is the end; any other read goes on.
      cases ret with
      | read bytes =>
          simp only [readEnd, ReadvRet.status, readFailure, readEof]
          split
          · rfl
          · exact ih
      | error errno =>
          simp only [readEnd, ReadvRet.status, readFailure, readEof]
          split_ifs <;> simp_all

theorem sendEnd_eq_kError_iff (pending : Nat) (rets : List SendRet) :
    sendEnd pending rets = .kError ↔
      ∃ errno, sendFailure pending rets = some errno ∧ errno ≠ EPIPE := by
  induction rets generalizing pending with
  | nil => simp [sendEnd, sendFailure]
  | cons ret rets ih =>
      cases ret with
      | sent count =>
          simp only [sendEnd, SendRet.status, SendRet.count, sendFailure, if_true]
          by_cases hDone : pending - count = 0
          · simp [hDone]
          · simpa only [hDone, if_false] using ih (pending - count)
      | error errno =>
          simp only [sendEnd, SendRet.status, SendRet.count, sendFailure]
          split_ifs <;> simp_all

theorem sendEnd_eq_kDisconnected_iff (pending : Nat) (rets : List SendRet) :
    sendEnd pending rets = .kDisconnected ↔
      sendFailure pending rets = some EPIPE := by
  induction rets generalizing pending with
  | nil => simp [sendEnd, sendFailure]
  | cons ret rets ih =>
      cases ret with
      | sent count =>
          simp only [sendEnd, SendRet.status, SendRet.count, sendFailure, if_true]
          by_cases hDone : pending - count = 0
          · simp [hDone]
          · simpa only [hDone, if_false] using ih (pending - count)
      | error errno =>
          simp only [sendEnd, SendRet.status, SendRet.count, sendFailure]
          split_ifs <;> simp_all

/-- A failure of the reads is not the end of the stream. -/
theorem readEof_of_readFailure {rets : List ReadvRet} {errno : Errno}
    (hFailure : readFailure rets = some errno) : readEof rets = false := by
  induction rets with
  | nil => rfl
  | cons ret rets ih =>
      cases ret with
      | read bytes =>
          simp only [readFailure, readEof] at hFailure ⊢
          split at hFailure
          · cases hFailure
          · rw [if_neg (by assumption)]
            exact ih hFailure
      | error errno => rfl

theorem readEnd_eq_kError_iff (rets : List ReadvRet) :
    readEnd rets = .kError ↔
      ∃ errno, readFailure rets = some errno ∧ errno ≠ ECONNRESET := by
  rw [readEnd_eq]
  cases readFailure rets with
  | none =>
      simp only [reduceCtorEq, false_and, exists_false, iff_false]
      split <;> simp
  | some errno =>
      by_cases hReset : errno = ECONNRESET <;> simp [hReset]

theorem readEnd_eq_kDisconnected_iff (rets : List ReadvRet) :
    readEnd rets = .kDisconnected ↔
      readEof rets = true ∨ readFailure rets = some ECONNRESET := by
  rw [readEnd_eq]
  cases hFailure : readFailure rets with
  | none => simp
  | some errno =>
      have hNotEof := readEof_of_readFailure hFailure
      by_cases hReset : errno = ECONNRESET <;> simp [hReset, hNotEof]

end Net
end KZEvent
