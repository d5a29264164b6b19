import KZEvent.Net.StreamIo

/-!
# A read into two areas

`stream_recv` lets one `readv` fill the space behind the writer and then an
array on the stack.  What went into the array is inserted into the buffer, which
grows for it.  Seen from outside, the bytes of the read are appended: in every
state a buffer can be in, and for every result of `readv`.
-/

namespace KZEvent
namespace Net

open KZEvent.Core Foundation

/-- `UINT16_MAX`, the size of the array on the stack. -/
def exBufSize : Nat := 65535

/-- An area of memory into whose front as many of `bytes` are written as it has
room for. -/
def fillArea (area bytes : List UInt8) : List UInt8 :=
  overwrite area 0 (bytes.take area.length)

/-- `readv` into the space of the buffer and the array on the stack. -/
def readvInto (ret : ReadvRet) (buf : StreamBuffer) :
    StreamBuffer × List UInt8 :=
  let tail := buf.buffer.drop buf.writer
  let exBuf := List.replicate exBufSize 0
  ({ buf with
      buffer := buf.buffer.take buf.writer ++ fillArea tail ret.bytes },
    fillArea exBuf (ret.bytes.drop tail.length))

/-- `stream_recv`, with the two areas of its `readv`. -/
def streamRecvScattered (ret : ReadvRet) (buf : StreamBuffer) :
    IoStatus × StreamBuffer :=
  let bufSpace := buf.space
  let (buf, exBuf) := readvInto ret buf
  match ret with
  | .error errno =>
      if errno = EAGAIN then (.kTryAgain, buf)
      else if errno = ECONNRESET then (.kDisconnected, buf)
      else (.kError, buf)
  | .read bytes =>
      if bytes.length = 0 then (.kDisconnected, buf)
      else if bufSpace < bytes.length then
        let buf := buf.push bufSpace
        (.kSuccess, buf.insert (exBuf.take (bytes.length - bufSpace)))
      else (.kSuccess, buf.push bytes.length)

/-! ## Both areas together -/

/-- An area that is large enough begins with the bytes. -/
theorem take_fillArea {area bytes : List UInt8}
    (hLength : bytes.length ≤ area.length) :
    (fillArea area bytes).take bytes.length = bytes := by
  rw [fillArea, List.take_of_length_le hLength, overwrite, List.take_zero,
    List.nil_append, List.take_left]

/-- Filling the space of the buffer is a write at its end. -/
theorem fillArea_tail (buf : StreamBuffer) (bytes : List UInt8) :
    buf.buffer.take buf.writer ++
        fillArea (buf.buffer.drop buf.writer) bytes =
      overwrite buf.buffer buf.writer (bytes.take buf.space) := by
  have hTail : (buf.buffer.drop buf.writer).length = buf.space :=
    List.length_drop
  simp only [fillArea, overwrite, hTail, List.take_zero, List.nil_append,
    Nat.zero_add, List.drop_drop, List.append_assoc]

theorem readvInto_eq (ret : ReadvRet) (buf : StreamBuffer) :
    readvInto ret buf =
      (buf.writeAtEnd (ret.bytes.take buf.space),
        fillArea (List.replicate exBufSize 0) (ret.bytes.drop buf.space)) := by
  have hTail : (buf.buffer.drop buf.writer).length = buf.space :=
    List.length_drop
  simp only [readvInto, fillArea_tail, hTail, StreamBuffer.writeAtEnd]

theorem writeAtEnd_nil (buf : StreamBuffer) : buf.writeAtEnd [] = buf := by
  simp [StreamBuffer.writeAtEnd, overwrite]

/-- What is copied out of the array is what the space had no room for. -/
theorem exBuf_eq {bytes : List UInt8} {bufSpace : Nat}
    (hFits : bytes.length ≤ bufSpace + exBufSize) :
    (fillArea (List.replicate exBufSize 0) (bytes.drop bufSpace)).take
      (bytes.length - bufSpace) = bytes.drop bufSpace := by
  have hRest : (bytes.drop bufSpace).length = bytes.length - bufSpace :=
    List.length_drop
  rw [← hRest]
  apply take_fillArea
  rw [hRest, List.length_replicate]
  omega

/-- A read that fits into the two areas does to the buffer what `streamRecv`
says. -/
theorem streamRecvScattered_eq (ret : ReadvRet) (buf : LiveBuffer)
    (hFits : ret.bytes.length ≤ buf.space + exBufSize) :
    streamRecvScattered ret buf.toStreamBuffer =
      ((streamRecv ret buf).1, (streamRecv ret buf).2.toStreamBuffer) := by
  rw [streamRecvScattered, readvInto_eq]
  cases ret with
  | error errno =>
      simp only [ReadvRet.bytes, List.take_nil, writeAtEnd_nil, streamRecv,
        ReadvRet.status]
      split_ifs <;> rfl
  | read bytes =>
      have hBytes : bytes.length ≤ buf.space + exBufSize := hFits
      by_cases hEof : bytes.length = 0
      · -- No byte is written anywhere.
        obtain rfl := List.eq_nil_of_length_eq_zero hEof
        simp [ReadvRet.bytes, streamRecv, ReadvRet.status, writeAtEnd_nil]
      · simp only [ReadvRet.bytes, streamRecv, ReadvRet.status, hEof, if_false]
        split
        · rename_i hBeyond
          have hTaken : (bytes.take buf.space).length = buf.space :=
            List.length_take_of_le (Nat.le_of_lt hBeyond)
          simp only [exBuf_eq hBytes, if_pos hBeyond, LiveBuffer.insert,
            LiveBuffer.receive, hTaken]
        · rename_i hWithin
          have hTaken : bytes.take buf.space = bytes :=
            List.take_of_length_le (Nat.not_lt.mp hWithin)
          simp only [if_neg hWithin, LiveBuffer.receive, hTaken]

/-! ## Every state and every result -/

/-- The states of a buffer that is read into, appended to and taken from. -/
inductive ReachableBuffer : StreamBuffer → Prop
  | make (initialSize : Nat) : ReachableBuffer (StreamBuffer.make initialSize)
  | recv {b : StreamBuffer} (hReach : ReachableBuffer b) (ret : ReadvRet)
      (hFits : ret.bytes.length ≤ b.space + exBufSize) :
      ReachableBuffer (streamRecvScattered ret b).2
  | insert {b : StreamBuffer} (hReach : ReachableBuffer b) (data : List UInt8) :
      ReachableBuffer (b.insert data)
  | pop {b : StreamBuffer} (hReach : ReachableBuffer b) (len : Nat) :
      ReachableBuffer (b.pop len)
  | clear {b : StreamBuffer} (hReach : ReachableBuffer b) :
      ReachableBuffer b.clear

theorem ReachableBuffer.valid {b : StreamBuffer} (hReach : ReachableBuffer b) :
    b.Valid := by
  induction hReach with
  | make initialSize => exact StreamBuffer.make_valid initialSize
  | recv _ ret hFits ih =>
      rw [streamRecvScattered_eq ret ⟨_, ih⟩ hFits]
      exact (streamRecv ret ⟨_, ih⟩).2.valid
  | insert _ data ih => exact StreamBuffer.insert_valid ih data
  | pop _ len ih => exact StreamBuffer.pop_valid ih len
  | clear _ ih => exact StreamBuffer.clear_valid ih

/-- **A scattered read appends.**  In every state of a buffer, a read of `n`
bytes that the two areas have room for appends exactly these bytes and reports
success; the end of the stream and every error leave the live bytes alone and
report something else. -/
theorem streamRecvScattered_appends (b : StreamBuffer)
    (hReach : ReachableBuffer b) :
    (∀ bytes : List UInt8, 0 < bytes.length →
      bytes.length ≤ b.space + exBufSize →
      (streamRecvScattered (.read bytes) b).1 = .kSuccess ∧
        (streamRecvScattered (.read bytes) b).2.live = b.live ++ bytes) ∧
    (∀ ret : ReadvRet, (ret = .read [] ∨ ∃ errno, ret = .error errno) →
      (streamRecvScattered ret b).1 ≠ .kSuccess ∧
        (streamRecvScattered ret b).2.live = b.live) := by
  constructor
  · intro bytes hSome hFits
    have hStatus : (ReadvRet.read bytes).status = .kSuccess :=
      if_neg (Nat.ne_of_gt hSome)
    rw [streamRecvScattered_eq (.read bytes) ⟨b, hReach.valid⟩ hFits]
    exact ⟨(streamRecv_status _ _).trans hStatus,
      live_streamRecv_success _ hStatus⟩
  · intro ret hNone
    have hFits : ret.bytes.length ≤ b.space + exBufSize := by
      rcases hNone with rfl | ⟨errno, rfl⟩ <;> exact Nat.zero_le _
    have hStatus : ret.status ≠ .kSuccess := by
      rcases hNone with rfl | ⟨errno, rfl⟩
      · decide
      · simp only [ReadvRet.status]
        split_ifs <;> decide
    rw [streamRecvScattered_eq ret ⟨b, hReach.valid⟩ hFits,
      streamRecv_of_ne_success _ hStatus]
    exact ⟨fun hSuccess => hStatus ((streamRecv_status _ _).symm.trans hSuccess),
      rfl⟩

/-- A full buffer: the whole read goes through the array on the stack. -/
theorem streamRecvScattered_appends_full :
    let b := (StreamBuffer.make 2).insert [1, 2]
    b.space = 0 ∧
      (streamRecvScattered (.read [3, 4, 5]) b).2.live = [1, 2, 3, 4, 5] := by
  intro b
  have hReach : ReachableBuffer b := .insert (.make 2) [1, 2]
  have hLive : b.live = [1, 2] := by decide
  refine ⟨by decide, ?_⟩
  rw [((streamRecvScattered_appends b hReach).1 [3, 4, 5] (by decide)
    (by decide)).2, hLive]
  rfl

end Net
end KZEvent
