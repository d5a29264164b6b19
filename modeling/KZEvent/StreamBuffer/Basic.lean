import KZEvent.Foundation.Halving
import KZEvent.Foundation.Window

/-!
# The stream buffer

`StreamBuffer` is one vector of bytes with a reader and a writer position.  The
live bytes are those between the two positions.  `pop` moves the reader and may
then move the live bytes to the front (`compact`) or, when nothing is live,
reduce the vector (`shrink`); `insert` grows the vector when the space behind
the writer is too small.

The positions are `ssize_t` and the counter is `uint8_t` in the source.  They
are natural numbers here: the positions stay between zero and the size of the
vector, and the counter is incremented only below `kShrinkThreshold`.
-/

namespace KZEvent

open Foundation

/-- `StreamBuffer`: the vector, the two positions, and the shrink counter. -/
structure StreamBuffer where
  buffer : List UInt8
  reader : Nat
  writer : Nat
  shrinkCount : Nat
  initialSize : Nat
deriving DecidableEq, Repr

namespace StreamBuffer

def kShrinkThreshold : Nat := 10
def kShrinkDivisor : Nat := 2

/-- `StreamBuffer(size_t initial_size)`. -/
def make (initialSize : Nat) : StreamBuffer where
  buffer := List.replicate initialSize 0
  reader := 0
  writer := 0
  shrinkCount := 0
  initialSize := initialSize

def size (b : StreamBuffer) : Nat :=
  b.writer - b.reader

/-- Bytes left behind the writer. -/
def space (b : StreamBuffer) : Nat :=
  b.buffer.length - b.writer

def empty (b : StreamBuffer) : Bool :=
  b.reader == b.writer

/-- The bytes `[begin(), end())`. -/
def live (b : StreamBuffer) : List UInt8 :=
  window b.buffer b.reader b.writer

/-- The bytes `[begin(), begin() + len)`, which need not all be live. -/
def front (b : StreamBuffer) (len : Nat) : List UInt8 :=
  window b.buffer b.reader (b.reader + len)

/-- `insert`: grow the vector if the tail is too small, then copy the range. -/
def insert (b : StreamBuffer) (data : List UInt8) : StreamBuffer :=
  let buffer :=
    if b.space < data.length then
      -- The vector only grows as far as this range needs.
      resize 0 b.buffer (b.writer + data.length)
    else
      b.buffer
  { b with
    buffer := overwrite buffer b.writer data
    writer := b.writer + data.length }

/-- A foreign write of `data` at `end()`, as `readv` does. -/
def writeAtEnd (b : StreamBuffer) (data : List UInt8) : StreamBuffer :=
  { b with buffer := overwrite b.buffer b.writer data }

def push (b : StreamBuffer) (len : Nat) : StreamBuffer :=
  { b with writer := b.writer + len }

/-- `compact`: move the live bytes to the front of the vector. -/
def compact (b : StreamBuffer) : StreamBuffer :=
  let dataLen := b.writer - b.reader
  { b with
    buffer := overwrite b.buffer 0 b.live
    reader := 0
    writer := dataLen }

/-- `shrink`: every eleventh call halves a vector larger than at the start. -/
def shrink (b : StreamBuffer) : StreamBuffer :=
  if b.buffer.length ≤ b.initialSize then
    -- The vector never grew: the counter starts over.
    { b with shrinkCount := 0 }
  else if b.shrinkCount < kShrinkThreshold then
    { b with shrinkCount := b.shrinkCount + 1 }
  else
    let newSize :=
      if b.buffer.length / kShrinkDivisor < b.initialSize then
        -- Halving would go below what the constructor allocated.
        b.initialSize
      else
        b.buffer.length / kShrinkDivisor
    { b with
      shrinkCount := 0
      buffer := resize 0 b.buffer newSize }

def pop (b : StreamBuffer) (len : Nat) : StreamBuffer :=
  let b := { b with reader := b.reader + len }
  if b.writer ≤ b.reader then
    -- Everything was taken at once.
    { b.shrink with reader := 0, writer := 0 }
  else if b.buffer.length / 2 < b.reader then
    -- More than half of the vector lies in front of the reader.
    b.compact
  else
    b

def clear (b : StreamBuffer) : StreamBuffer :=
  { b with reader := 0, writer := 0 }

/-! ## Well-formed buffers -/

/-- What every operation of the buffer relies on and keeps. -/
structure Valid (b : StreamBuffer) : Prop where
  reader_le_writer : b.reader ≤ b.writer
  writer_le_size : b.writer ≤ b.buffer.length
  initial_le_size : b.initialSize ≤ b.buffer.length
  shrinkCount_le : b.shrinkCount ≤ kShrinkThreshold

theorem length_live {b : StreamBuffer} (hValid : b.Valid) :
    b.live.length = b.size := by
  have hSize := hValid.writer_le_size
  simp only [live, size, length_window]
  omega

theorem empty_iff_live_eq_nil {b : StreamBuffer} (hValid : b.Valid) :
    b.empty = true ↔ b.live = [] := by
  rw [← List.length_eq_zero_iff, length_live hValid]
  have hOrder := hValid.reader_le_writer
  simp only [empty, beq_iff_eq, size]
  omega

@[simp]
theorem live_make (initialSize : Nat) : (make initialSize).live = [] := by
  simp [live, make]

theorem make_valid (initialSize : Nat) : (make initialSize).Valid where
  reader_le_writer := Nat.le_refl _
  writer_le_size := Nat.zero_le _
  initial_le_size := by simp [make]
  shrinkCount_le := Nat.zero_le _

/-- The reader may move up to the writer. -/
theorem Valid.advance {b : StreamBuffer} {len : Nat} (hValid : b.Valid)
    (hLen : b.reader + len ≤ b.writer) :
    Valid { b with reader := b.reader + len } :=
  { hValid with reader_le_writer := hLen }

/-! ## `insert` and `push` -/

theorem live_insert {b : StreamBuffer} (hValid : b.Valid) (data : List UInt8) :
    (b.insert data).live = b.live ++ data := by
  have hOrder := hValid.reader_le_writer
  have hSize := hValid.writer_le_size
  simp only [insert, live]
  split
  · rw [window_overwrite_end hOrder (by simp), window_resize hSize (by omega)]
  · exact window_overwrite_end hOrder hSize

theorem insert_length {b : StreamBuffer} (hValid : b.Valid) (data : List UInt8) :
    (b.insert data).buffer.length =
      max b.buffer.length (b.writer + data.length) := by
  have hSize := hValid.writer_le_size
  by_cases hTail : b.space < data.length
  · simp only [insert, hTail, if_true]
    rw [length_overwrite (by simp), length_resize]
    simp only [space] at hTail
    omega
  · simp only [insert, hTail, if_false]
    simp only [space] at hTail
    rw [length_overwrite (by omega)]
    omega

theorem insert_valid {b : StreamBuffer} (hValid : b.Valid) (data : List UInt8) :
    (b.insert data).Valid := by
  have hLength := insert_length hValid data
  obtain ⟨hOrder, hSize, hInitial, hCount⟩ := hValid
  exact
    { reader_le_writer := by simp only [insert]; omega
      writer_le_size := by
        show b.writer + data.length ≤ (b.insert data).buffer.length
        omega
      initial_le_size := by
        show b.initialSize ≤ (b.insert data).buffer.length
        omega
      shrinkCount_le := hCount }

theorem live_push_writeAtEnd {b : StreamBuffer} (hValid : b.Valid)
    (data : List UInt8) :
    ((b.writeAtEnd data).push data.length).live = b.live ++ data :=
  window_overwrite_end hValid.reader_le_writer hValid.writer_le_size

theorem push_writeAtEnd_length {b : StreamBuffer} (hValid : b.Valid)
    {data : List UInt8} (hSpace : data.length ≤ b.space) :
    ((b.writeAtEnd data).push data.length).buffer.length = b.buffer.length := by
  have hSize := hValid.writer_le_size
  simp only [space] at hSpace
  exact length_overwrite (by omega)

theorem push_writeAtEnd_valid {b : StreamBuffer} (hValid : b.Valid)
    {data : List UInt8} (hSpace : data.length ≤ b.space) :
    ((b.writeAtEnd data).push data.length).Valid := by
  have hLength := push_writeAtEnd_length hValid hSpace
  obtain ⟨hOrder, hSize, hInitial, hCount⟩ := hValid
  simp only [space] at hSpace
  exact
    { reader_le_writer := by simp only [push, writeAtEnd]; omega
      writer_le_size := by
        rw [hLength]
        simp only [push, writeAtEnd]
        omega
      initial_le_size := by
        rw [hLength]
        exact hInitial
      shrinkCount_le := hCount }

/-! ## `shrink` -/

/-- The size of the vector and the draining pops counted since it last
changed. -/
def capacity (b : StreamBuffer) : DelayedHalving where
  size := b.buffer.length
  waited := b.shrinkCount

/-- `shrink` is one tick of a halving with delay. -/
theorem capacity_shrink (b : StreamBuffer) :
    b.shrink.capacity = b.capacity.tick b.initialSize kShrinkThreshold := by
  by_cases hSmall : b.buffer.length ≤ b.initialSize
  · simp only [shrink, hSmall, if_true]
    exact (DelayedHalving.tick_of_le (s := b.capacity) hSmall).symm
  · have hLarge : b.initialSize < b.capacity.size := Nat.not_le.mp hSmall
    simp only [shrink, hSmall, if_false]
    split_ifs with hWaits hClamped
    · exact (DelayedHalving.tick_of_waits hLarge hWaits).symm
    · have hMax : max b.initialSize (b.buffer.length / 2) = b.initialSize :=
        max_eq_left (Nat.le_of_lt hClamped)
      rw [DelayedHalving.tick_of_patient hLarge (Nat.not_lt.mp hWaits)]
      simp only [capacity, length_resize, hMax]
    · have hMax : max b.initialSize (b.buffer.length / 2) =
          b.buffer.length / kShrinkDivisor :=
        max_eq_right (Nat.not_lt.mp hClamped)
      rw [DelayedHalving.tick_of_patient hLarge (Nat.not_lt.mp hWaits)]
      simp only [capacity, length_resize, hMax]

theorem shrink_initialSize (b : StreamBuffer) :
    b.shrink.initialSize = b.initialSize := by
  simp only [shrink]
  split_ifs <;> rfl

/-- `shrink` never cuts the vector below its initial size. -/
theorem shrink_size (b : StreamBuffer)
    (hInitial : b.initialSize ≤ b.buffer.length) :
    b.shrink.initialSize = b.initialSize ∧
      b.initialSize ≤ b.shrink.buffer.length ∧
      b.shrink.shrinkCount ≤ kShrinkThreshold := by
  have hSize : b.shrink.buffer.length =
      (b.capacity.tick b.initialSize kShrinkThreshold).size :=
    congrArg DelayedHalving.size (capacity_shrink b)
  have hCount : b.shrink.shrinkCount =
      (b.capacity.tick b.initialSize kShrinkThreshold).waited :=
    congrArg DelayedHalving.waited (capacity_shrink b)
  refine ⟨shrink_initialSize b, ?_, ?_⟩
  · rw [hSize]
    exact DelayedHalving.le_size_tick hInitial
  · rw [hCount]
    exact DelayedHalving.waited_tick_le _

/-! ## `pop` and `clear` -/

theorem live_compact {b : StreamBuffer} (hValid : b.Valid) :
    b.compact.live = b.live := by
  have hLength : b.writer - b.reader = b.live.length := (length_live hValid).symm
  show window (overwrite b.buffer 0 b.live) 0 (b.writer - b.reader) = b.live
  rw [hLength]
  exact window_overwrite_front b.buffer b.live

theorem compact_length {b : StreamBuffer} (hValid : b.Valid) :
    b.compact.buffer.length = b.buffer.length := by
  have hLive := length_live hValid
  have hSize := hValid.writer_le_size
  simp only [size] at hLive
  exact length_overwrite (by omega)

theorem compact_valid {b : StreamBuffer} (hValid : b.Valid) :
    b.compact.Valid := by
  have hLength := compact_length hValid
  obtain ⟨hOrder, hSize, hInitial, hCount⟩ := hValid
  exact
    { reader_le_writer := Nat.zero_le _
      writer_le_size := by rw [hLength]; simp only [compact]; omega
      initial_le_size := by rw [hLength]; exact hInitial
      shrinkCount_le := hCount }

theorem live_pop {b : StreamBuffer} (hValid : b.Valid) (len : Nat) :
    (b.pop len).live = b.live.drop len := by
  have hLength := length_live hValid
  simp only [size] at hLength
  simp only [pop]
  split
  · rename_i hAll
    have hTaken : b.live.length ≤ len := by omega
    rw [List.drop_eq_nil_of_le hTaken]
    simp [live]
  · rename_i hSome
    -- The reader has moved but not passed the writer; `compact` changes nothing.
    have hMoved := hValid.advance (Nat.le_of_not_le hSome)
    have hDrop : live { b with reader := b.reader + len } = b.live.drop len := by
      simp only [live, drop_window]
    split
    · rw [live_compact hMoved, hDrop]
    · exact hDrop

theorem pop_valid {b : StreamBuffer} (hValid : b.Valid) (len : Nat) :
    (b.pop len).Valid := by
  simp only [pop]
  split
  · obtain ⟨hKeep, hInitial, hCount⟩ :=
      shrink_size { b with reader := b.reader + len } hValid.initial_le_size
    exact
      { reader_le_writer := Nat.le_refl _
        writer_le_size := Nat.zero_le _
        initial_le_size := by simpa only [hKeep] using hInitial
        shrinkCount_le := hCount }
  · rename_i hSome
    have hMoved := hValid.advance (Nat.le_of_not_le hSome)
    split
    · exact compact_valid hMoved
    · exact hMoved

theorem live_clear (b : StreamBuffer) : b.clear.live = [] := by
  simp [live, clear]

theorem clear_valid {b : StreamBuffer} (hValid : b.Valid) : b.clear.Valid :=
  { hValid with
    reader_le_writer := Nat.le_refl _
    writer_le_size := Nat.zero_le _ }

end StreamBuffer
end KZEvent
