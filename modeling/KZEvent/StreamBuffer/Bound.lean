import KZEvent.StreamBuffer.Fifo

/-!
# The memory of a stream buffer

`insert` grows the vector from the writer on and never uses the space in front
of the reader, so the vector can be larger than the live bytes.  How much larger
is decided by `pop`: it leaves at most half of the vector in front of the
reader, whatever growth and shrinking did to the vector before.  Hence a vector
grows to at most twice the live bytes, unless it was built larger.
-/

namespace KZEvent

open Foundation

namespace StreamBuffer

/-- At most half of the vector lies in front of the reader. -/
def HeadAtMostHalf (b : StreamBuffer) : Prop :=
  b.reader ≤ b.buffer.length / 2

theorem shrink_length_le {b : StreamBuffer}
    (hInitial : b.initialSize ≤ b.buffer.length) :
    b.shrink.buffer.length ≤ b.buffer.length := by
  show b.shrink.capacity.size ≤ b.capacity.size
  rw [capacity_shrink]
  exact DelayedHalving.size_tick_le hInitial

/-- `pop` never enlarges the vector, and afterwards at most half of the vector
lies in front of the reader. -/
theorem pop_spec {b : StreamBuffer} (hValid : b.Valid) (len : Nat) :
    (b.pop len).buffer.length ≤ b.buffer.length ∧
      (b.pop len).HeadAtMostHalf := by
  simp only [pop, HeadAtMostHalf]
  split_ifs with hAll hHead
  · exact ⟨shrink_length_le (b := { b with reader := b.reader + len })
      hValid.initial_le_size, Nat.zero_le _⟩
  · have hMoved := hValid.advance (Nat.le_of_not_le hAll)
    exact ⟨Nat.le_of_eq (compact_length hMoved), Nat.zero_le _⟩
  · exact ⟨Nat.le_refl _, Nat.le_of_not_lt hHead⟩

end StreamBuffer

namespace BufferOp

/-- What holds of every buffer whose live bytes never exceeded `limit`. -/
structure Bounded (initialSize limit : Nat) (b : StreamBuffer) : Prop where
  valid : b.Valid
  head : b.HeadAtMostHalf
  memory : b.buffer.length ≤ max initialSize (2 * limit)

variable {initialSize limit : Nat} {b : StreamBuffer}

theorem bounded_make (initialSize limit : Nat) :
    Bounded initialSize limit (StreamBuffer.make initialSize) where
  valid := StreamBuffer.make_valid initialSize
  head := Nat.zero_le _
  memory := by
    simp only [StreamBuffer.make, List.length_replicate]
    exact Nat.le_max_left _ _

/-- Every operation leaves at most half of the vector in front of the reader. -/
theorem head_apply {op : BufferOp} (hValid : b.Valid) (hHead : b.HeadAtMostHalf)
    (hPermitted : Permitted b op) : (apply b op).HeadAtMostHalf := by
  simp only [StreamBuffer.HeadAtMostHalf] at hHead
  cases op with
  | insert data =>
      show b.reader ≤ (b.insert data).buffer.length / 2
      rw [StreamBuffer.insert_length hValid]
      omega
  | push data =>
      show b.reader ≤ ((b.writeAtEnd data).push data.length).buffer.length / 2
      rw [StreamBuffer.push_writeAtEnd_length hValid hPermitted]
      exact hHead
  | pop len => exact (StreamBuffer.pop_spec hValid len).2
  | clear => exact Nat.zero_le _

/-- Only `insert` enlarges the vector, and then to what is in front of the
reader and the live bytes. -/
theorem memory_apply {op : BufferOp} (hBounded : Bounded initialSize limit b)
    (hPermitted : Permitted b op) (hLimit : (apply b op).size ≤ limit) :
    (apply b op).buffer.length ≤ max initialSize (2 * limit) := by
  have hMemory := hBounded.memory
  cases op with
  | insert data =>
      have hOrder := hBounded.valid.reader_le_writer
      have hHead : b.reader ≤ b.buffer.length / 2 := hBounded.head
      have hLive : b.writer + data.length - b.reader ≤ limit := hLimit
      show (b.insert data).buffer.length ≤ _
      rw [StreamBuffer.insert_length hBounded.valid]
      omega
  | push data =>
      show ((b.writeAtEnd data).push data.length).buffer.length ≤ _
      rw [StreamBuffer.push_writeAtEnd_length hBounded.valid hPermitted]
      exact hMemory
  | pop len => exact Nat.le_trans (StreamBuffer.pop_spec hBounded.valid len).1 hMemory
  | clear => exact hMemory

theorem Bounded.step {op : BufferOp} {next : StreamBuffer}
    (hBounded : Bounded initialSize limit b) (hLimit : (apply b op).size ≤ limit)
    (hStep : BufferOp.step b op = some next) : Bounded initialSize limit next := by
  obtain ⟨hPermitted, rfl⟩ := step_eq_some_iff.mp hStep
  exact
    { valid := apply_valid hBounded.valid hPermitted
      head := head_apply hBounded.valid hBounded.head hPermitted
      memory := memory_apply hBounded hPermitted hLimit }

end BufferOp

/-- **Memory is bounded by live data.**  As long as no operation of a run leaves
more than `limit` live bytes, the vector stays within its initial size and twice
`limit`; and after every operation at most half of it lies in front of the
reader. -/
theorem streamBuffer_memory_bounded (initialSize limit : Nat)
    (ops : List BufferOp) (b : StreamBuffer)
    (hRun : run BufferOp.step (StreamBuffer.make initialSize) ops = some b)
    (hLimit : Guarded BufferOp.step
      (fun before op => (BufferOp.apply before op).size ≤ limit)
      (StreamBuffer.make initialSize) ops) :
    b.buffer.length ≤ max initialSize (2 * limit) ∧
      b.reader ≤ b.buffer.length / 2 := by
  have hBounded : BufferOp.Bounded initialSize limit b :=
    run_invariant (fun _ _ _ hInv hGuard hStep => hInv.step hGuard hStep)
      (BufferOp.bounded_make initialSize limit) hLimit hRun
  exact ⟨hBounded.memory, hBounded.head⟩

/-- Five live bytes at most, in a vector that was built for two and grew to
seven behind a head that was not reused. -/
theorem streamBuffer_memory_bounded_growing :
    let ops : List BufferOp :=
      [.push [1, 2], .insert [3, 4], .pop 2, .insert [5, 6, 7]]
    ∃ b, run BufferOp.step (StreamBuffer.make 2) ops = some b ∧
      b.buffer.length = 7 ∧
      b.buffer.length ≤ max 2 (2 * 5) ∧ b.reader ≤ b.buffer.length / 2 := by
  refine ⟨⟨[1, 2, 3, 4, 5, 6, 7], 2, 7, 0, 2⟩, by decide +kernel, rfl, ?_⟩
  exact streamBuffer_memory_bounded 2 5
    [.push [1, 2], .insert [3, 4], .pop 2, .insert [5, 6, 7]] _
    (by decide +kernel) (by decide +kernel)

end KZEvent
