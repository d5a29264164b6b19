import KZEvent.Foundation.Fifo
import KZEvent.Foundation.Run
import KZEvent.StreamBuffer.Basic

/-!
# The stream buffer is a byte queue

Every sequence of permitted operations on a `StreamBuffer` leaves between the
reader and the writer exactly the contents of a plain queue of bytes, whatever
compaction, growth and shrinking did to the vector in between.

The second half packages a buffer with its well-formedness.  All operations a
socket performs on its buffers keep it, so the socket models never carry it as
a hypothesis.
-/

namespace KZEvent

open Foundation

/-- The operations of a `StreamBuffer`.  `push` is always preceded by a write
of the same number of bytes at `end()`, so it carries these bytes. -/
inductive BufferOp
  | insert (data : List UInt8)
  | push (data : List UInt8)
  | pop (len : Nat)
  | clear

namespace BufferOp

/-- The contract of the operations: a `push` fits into the space behind the
writer and a `pop` takes no more than the live bytes. -/
def Permitted (b : StreamBuffer) : BufferOp → Prop
  | push data => data.length ≤ b.space
  | pop len => len ≤ b.size
  | insert _ | clear => True

instance (b : StreamBuffer) (op : BufferOp) : Decidable (Permitted b op) :=
  match op with
  | .push _ | .pop _ => inferInstanceAs (Decidable (_ ≤ _))
  | .insert _ | .clear => .isTrue trivial

/-- What the vector itself asks of an operation.  A `pop` may be asked for more
than there is. -/
def Fits (b : StreamBuffer) : BufferOp → Prop
  | push data => data.length ≤ b.space
  | insert _ | pop _ | clear => True

instance (b : StreamBuffer) (op : BufferOp) : Decidable (Fits b op) :=
  match op with
  | .push _ => inferInstanceAs (Decidable (_ ≤ _))
  | .insert _ | .pop _ | .clear => .isTrue trivial

theorem Permitted.fits {b : StreamBuffer} {op : BufferOp}
    (hPermitted : Permitted b op) : Fits b op := by
  cases op with
  | push data => exact hPermitted
  | insert data => trivial
  | pop len => trivial
  | clear => trivial

def apply (b : StreamBuffer) : BufferOp → StreamBuffer
  | insert data => b.insert data
  | push data => (b.writeAtEnd data).push data.length
  | pop len => b.pop len
  | clear => b.clear

/-- One permitted operation. -/
def step (b : StreamBuffer) (op : BufferOp) : Option StreamBuffer :=
  if Permitted b op then some (apply b op) else none

theorem step_eq_some_iff {b next : StreamBuffer} {op : BufferOp} :
    step b op = some next ↔ Permitted b op ∧ apply b op = next := by
  simp only [step, Option.ite_none_right_eq_some, Option.some.injEq]

/-- What the operation asks of the abstract queue. -/
def toQueueOp : BufferOp → QueueOp UInt8
  | insert data => .enqueue data
  | push data => .enqueue data
  | pop len => .dequeue len
  | clear => .empty

theorem apply_valid_of_fits {b : StreamBuffer} {op : BufferOp}
    (hValid : b.Valid) (hFits : Fits b op) : (apply b op).Valid := by
  cases op with
  | insert data => exact StreamBuffer.insert_valid hValid data
  | push data => exact StreamBuffer.push_writeAtEnd_valid hValid hFits
  | pop len => exact StreamBuffer.pop_valid hValid len
  | clear => exact StreamBuffer.clear_valid hValid

theorem apply_valid {b : StreamBuffer} {op : BufferOp} (hValid : b.Valid)
    (hPermitted : Permitted b op) : (apply b op).Valid :=
  apply_valid_of_fits hValid hPermitted.fits

theorem live_apply {b : StreamBuffer} (hValid : b.Valid) (op : BufferOp) :
    (apply b op).live = op.toQueueOp.apply b.live := by
  cases op with
  | insert data => exact StreamBuffer.live_insert hValid data
  | push data => exact StreamBuffer.live_push_writeAtEnd hValid data
  | pop len => exact StreamBuffer.live_pop hValid len
  | clear => exact StreamBuffer.live_clear b

theorem apply_initialSize (b : StreamBuffer) (op : BufferOp) :
    (apply b op).initialSize = b.initialSize := by
  cases op with
  | pop len =>
      simp only [apply, StreamBuffer.pop]
      split_ifs
      · exact StreamBuffer.shrink_initialSize _
      · rfl
      · rfl
  | insert data => rfl
  | push data => rfl
  | clear => rfl

end BufferOp

/-- The buffer stands for the queue `contents` and was built with
`initialSize`. -/
structure Represents (initialSize : Nat) (b : StreamBuffer)
    (contents : List UInt8) : Prop where
  valid : b.Valid
  live_eq : b.live = contents
  initialSize_eq : b.initialSize = initialSize

theorem represents_step {initialSize : Nat} {b next : StreamBuffer}
    {contents : List UInt8} {op : BufferOp}
    (hRep : Represents initialSize b contents)
    (hStep : BufferOp.step b op = some next) :
    Represents initialSize next (op.toQueueOp.apply contents) := by
  obtain ⟨hPermitted, rfl⟩ := BufferOp.step_eq_some_iff.mp hStep
  exact
    { valid := BufferOp.apply_valid hRep.valid hPermitted
      live_eq := by rw [BufferOp.live_apply hRep.valid, hRep.live_eq]
      initialSize_eq := by
        rw [BufferOp.apply_initialSize, hRep.initialSize_eq] }

/-- **A stream buffer refines a byte queue.**  After any sequence of permitted
operations the live bytes are the contents of the queue under the same
operations, the reader is not past the writer, the writer is inside the vector,
and the vector is no smaller than at the start. -/
theorem streamBuffer_refines_queue (initialSize : Nat) (ops : List BufferOp)
    (b : StreamBuffer)
    (hRun : run BufferOp.step (StreamBuffer.make initialSize) ops = some b) :
    b.live = QueueOp.applyAll [] (ops.map BufferOp.toQueueOp) ∧
      b.reader ≤ b.writer ∧ b.writer ≤ b.buffer.length ∧
      b.initialSize = initialSize ∧ initialSize ≤ b.buffer.length := by
  have hInit : Represents initialSize (StreamBuffer.make initialSize) [] :=
    { valid := StreamBuffer.make_valid initialSize
      live_eq := StreamBuffer.live_make initialSize
      initialSize_eq := rfl }
  have hFinal := run_simulates
    (fun contents (op : BufferOp) => op.toQueueOp.apply contents)
    (fun _ _ _ _ hRep hStep => represents_step hRep hStep) hInit hRun
  -- The rule folds over the operations of the buffer, the queue over its own.
  have hFold : ops.foldl (fun contents op => op.toQueueOp.apply contents) [] =
      QueueOp.applyAll [] (ops.map BufferOp.toQueueOp) := by
    simp [QueueOp.applyAll, List.foldl_map]
  rw [← hFold]
  exact ⟨hFinal.live_eq, hFinal.valid.reader_le_writer,
    hFinal.valid.writer_le_size, hFinal.initialSize_eq,
    by simpa only [hFinal.initialSize_eq] using hFinal.valid.initial_le_size⟩

/-- A run through growth, a compacting `pop`, and a draining `pop`. -/
theorem streamBuffer_refines_queue_growing :
    let ops : List BufferOp :=
      [.push [1, 2], .insert [3, 4, 5], .pop 4, .insert [6], .pop 2]
    ∃ b, run BufferOp.step (StreamBuffer.make 2) ops = some b ∧
      b.live = QueueOp.applyAll [] (ops.map BufferOp.toQueueOp) := by
  refine ⟨⟨[5, 6, 3, 4, 5], 0, 0, 1, 2⟩, by decide +kernel, ?_⟩
  exact (streamBuffer_refines_queue 2 _ _ (by decide +kernel)).1

/-! ## Buffers with their invariant -/

/-- A stream buffer together with its well-formedness. -/
structure LiveBuffer extends StreamBuffer where
  valid : toStreamBuffer.Valid

namespace LiveBuffer

def make (initialSize : Nat) : LiveBuffer :=
  ⟨.make initialSize, StreamBuffer.make_valid initialSize⟩

def insert (b : LiveBuffer) (data : List UInt8) : LiveBuffer :=
  ⟨b.toStreamBuffer.insert data, StreamBuffer.insert_valid b.valid data⟩

/-- Bytes written at `end()` by the kernel, then `push`. -/
def receive (b : LiveBuffer) (data : List UInt8)
    (hSpace : data.length ≤ b.space) : LiveBuffer :=
  ⟨(b.toStreamBuffer.writeAtEnd data).push data.length,
    StreamBuffer.push_writeAtEnd_valid b.valid hSpace⟩

def pop (b : LiveBuffer) (len : Nat) : LiveBuffer :=
  ⟨b.toStreamBuffer.pop len, StreamBuffer.pop_valid b.valid len⟩

def clear (b : LiveBuffer) : LiveBuffer :=
  ⟨b.toStreamBuffer.clear, StreamBuffer.clear_valid b.valid⟩

@[simp]
theorem live_make (initialSize : Nat) : (make initialSize).live = [] :=
  StreamBuffer.live_make initialSize

@[simp]
theorem live_insert (b : LiveBuffer) (data : List UInt8) :
    (b.insert data).live = b.live ++ data :=
  StreamBuffer.live_insert b.valid data

@[simp]
theorem live_receive (b : LiveBuffer) (data : List UInt8)
    (hSpace : data.length ≤ b.space) :
    (b.receive data hSpace).live = b.live ++ data :=
  StreamBuffer.live_push_writeAtEnd b.valid data

@[simp]
theorem live_pop (b : LiveBuffer) (len : Nat) :
    (b.pop len).live = b.live.drop len :=
  StreamBuffer.live_pop b.valid len

@[simp]
theorem live_clear (b : LiveBuffer) : b.clear.live = [] :=
  StreamBuffer.live_clear b.toStreamBuffer

theorem empty_iff (b : LiveBuffer) : b.empty = true ↔ b.live = [] :=
  StreamBuffer.empty_iff_live_eq_nil b.valid

/-- A prefix no longer than the live bytes consists of live bytes. -/
theorem front_eq_take (b : LiveBuffer) {len : Nat} (hLen : len ≤ b.live.length) :
    b.front len = b.live.take len := by
  rw [StreamBuffer.length_live b.valid, StreamBuffer.size] at hLen
  simp only [StreamBuffer.front, StreamBuffer.live, window, List.take_take,
    Nat.add_sub_cancel_left]
  rw [Nat.min_eq_left hLen]

end LiveBuffer
end KZEvent
