import KZEvent.StreamBuffer.Bound

/-!
# The way back to the initial capacity

Only `shrink` makes the vector smaller, and only a `pop` that drains the buffer
calls it.  Its counter is touched by no other operation, growth included, so the
draining pops it counts need not follow one another.  On the size and the
counter `shrink` is a halving with delay, whose floor is the initial size and
whose patience is the threshold.
-/

namespace KZEvent

open Foundation

namespace StreamBuffer

variable {b : StreamBuffer} {len : Nat}

/-- A `pop` drains the buffer exactly if it takes the branch that shrinks. -/
theorem empty_pop_iff (b : StreamBuffer) (len : Nat) :
    (b.pop len).empty = true ↔ b.writer ≤ b.reader + len := by
  simp only [pop, empty, beq_iff_eq]
  split_ifs with hAll hHead
  · exact ⟨fun _ => hAll, fun _ => rfl⟩
  · -- `compact` leaves the live bytes between the two positions.
    simp only [compact]
    omega
  · simp only
    omega

theorem capacity_pop_of_le (hAll : b.writer ≤ b.reader + len) :
    (b.pop len).capacity =
      b.capacity.tick b.initialSize kShrinkThreshold := by
  simp only [pop, hAll, if_true]
  exact capacity_shrink { b with reader := b.reader + len }

theorem capacity_pop_of_lt (hValid : b.Valid)
    (hSome : b.reader + len < b.writer) :
    (b.pop len).capacity = b.capacity := by
  have hMoved := hValid.advance (Nat.le_of_lt hSome)
  simp only [pop, Nat.not_le.mpr hSome, if_false]
  split
  · show DelayedHalving.mk _ _ = DelayedHalving.mk _ _
    rw [compact_length hMoved]
    rfl
  · rfl

end StreamBuffer

namespace BufferOp

variable {b final next : StreamBuffer} {op : BufferOp} {initialSize left : Nat}

/-- One operation that fits, whether or not it asks for more than there is. -/
def perform (b : StreamBuffer) (op : BufferOp) : Option StreamBuffer :=
  if Fits b op then some (apply b op) else none

/-- The operation is a `pop` after which the buffer is empty. -/
def drains (b : StreamBuffer) : BufferOp → Bool
  | pop len => (b.pop len).empty
  | insert _ | push _ | clear => false

/-- The operation enlarges the vector. -/
def Grows (b : StreamBuffer) (op : BufferOp) : Prop :=
  b.buffer.length < (apply b op).buffer.length

instance (b : StreamBuffer) (op : BufferOp) : Decidable (Grows b op) :=
  inferInstanceAs (Decidable (_ < _))

theorem perform_eq_some_iff :
    perform b op = some next ↔ Fits b op ∧ apply b op = next := by
  simp only [perform, Option.ite_none_right_eq_some, Option.some.injEq]

/-- Short of growth, only draining pops touch the size and the counter. -/
theorem capacity_apply (hValid : b.Valid) (hFits : Fits b op)
    (hNoGrowth : ¬ Grows b op) :
    (apply b op).capacity =
      if drains b op then
        b.capacity.tick b.initialSize StreamBuffer.kShrinkThreshold
      else b.capacity := by
  cases op with
  | insert data =>
      have hLength := StreamBuffer.insert_length hValid data
      have hSame : (b.insert data).buffer.length = b.buffer.length := by
        have hAtMost : (b.insert data).buffer.length ≤ b.buffer.length :=
          Nat.not_lt.mp hNoGrowth
        omega
      show DelayedHalving.mk (b.insert data).buffer.length b.shrinkCount = _
      rw [hSame]
      rfl
  | push data =>
      show DelayedHalving.mk
        ((b.writeAtEnd data).push data.length).buffer.length b.shrinkCount = _
      rw [StreamBuffer.push_writeAtEnd_length hValid hFits]
      rfl
  | pop len =>
      show (b.pop len).capacity = if (b.pop len).empty = true then _ else _
      split_ifs with hEmpty
      · exact StreamBuffer.capacity_pop_of_le
          ((StreamBuffer.empty_pop_iff b len).mp hEmpty)
      · rw [StreamBuffer.empty_pop_iff, Nat.not_le] at hEmpty
        exact StreamBuffer.capacity_pop_of_lt hValid hEmpty
  | clear => rfl

/-- A buffer whose vector is at its initial size after at most `left` draining
pops. -/
structure Returning (initialSize : Nat) (b : StreamBuffer) (left : Nat) :
    Prop where
  valid : b.Valid
  initialSize_eq : b.initialSize = initialSize
  ticksLeft_le :
    b.capacity.ticksLeft initialSize StreamBuffer.kShrinkThreshold ≤ left

theorem Returning.perform (hReturning : Returning initialSize b left)
    (hNoGrowth : ¬ Grows b op) (hStep : perform b op = some next) :
    Returning initialSize next (left - (drains b op).toNat) := by
  obtain ⟨hFits, rfl⟩ := perform_eq_some_iff.mp hStep
  obtain ⟨hValid, hInitial, hLeft⟩ := hReturning
  refine
    { valid := apply_valid_of_fits hValid hFits
      initialSize_eq := (apply_initialSize b op).trans hInitial
      ticksLeft_le := ?_ }
  rw [capacity_apply hValid hFits hNoGrowth, hInitial]
  cases drains b op with
  | false => exact hLeft
  | true =>
      calc (b.capacity.tick initialSize _).ticksLeft initialSize _
          ≤ b.capacity.ticksLeft initialSize _ - 1 :=
            DelayedHalving.ticksLeft_tick hValid.shrinkCount_le
        _ ≤ left - 1 := Nat.sub_le_sub_right hLeft 1

/-- A buffer with nothing left to wait for is back at its initial size. -/
theorem Returning.length_eq (hReturning : Returning initialSize b 0) :
    b.buffer.length = initialSize := by
  obtain ⟨hValid, hInitial, hLeft⟩ := hReturning
  have hFloor : initialSize ≤ b.capacity.size := by
    rw [← hInitial]
    exact hValid.initial_le_size
  exact DelayedHalving.size_eq_of_ticksLeft hFloor hValid.shrinkCount_le
    (Nat.le_zero.mp hLeft)

/-- Every buffer needs at most eleven draining pops for each halving. -/
theorem returning_of_valid (hValid : b.Valid) :
    Returning b.initialSize b (11 * halvings b.initialSize b.buffer.length) where
  valid := hValid
  initialSize_eq := rfl
  ticksLeft_le := Nat.sub_le _ _

theorem valid_of_run {ops : List BufferOp} (hValid : b.Valid)
    (hRun : run BufferOp.perform b ops = some final) :
    final.Valid ∧ final.initialSize = b.initialSize := by
  have hKeeps (s : StreamBuffer) (op : BufferOp) (next : StreamBuffer)
      (hInv : s.Valid ∧ s.initialSize = b.initialSize)
      (hStep : BufferOp.perform s op = some next) :
      next.Valid ∧ next.initialSize = b.initialSize := by
    obtain ⟨hFits, rfl⟩ := perform_eq_some_iff.mp hStep
    exact ⟨apply_valid_of_fits hInv.1 hFits,
      (apply_initialSize s op).trans hInv.2⟩
  exact run_keeps hKeeps ⟨hValid, rfl⟩ hRun

end BufferOp

/-- What a draining `pop` of `len` bytes does: nothing is lost that was not asked
for, and the vector stays as it is or is halved, though not below its initial
size. -/
structure DrainedBy (initialSize : Nat) (b : StreamBuffer) (len : Nat) :
    Prop where
  asked : b.live.length ≤ len
  live_eq : (b.pop len).live = b.live.drop len
  capacity : (b.pop len).buffer.length = b.buffer.length ∨
    (b.pop len).buffer.length = max initialSize (b.buffer.length / 2)

theorem drainedBy_of_empty {b : StreamBuffer} {len : Nat} (hValid : b.Valid)
    (hEmpty : (b.pop len).empty = true) : DrainedBy b.initialSize b len := by
  have hAll : b.writer ≤ b.reader + len :=
    (StreamBuffer.empty_pop_iff b len).mp hEmpty
  have hAsked : b.live.length ≤ len := by
    rw [StreamBuffer.length_live hValid, StreamBuffer.size]
    omega
  have hCapacity : (b.pop len).buffer.length =
      (b.capacity.tick b.initialSize StreamBuffer.kShrinkThreshold).size :=
    congrArg DelayedHalving.size (StreamBuffer.capacity_pop_of_le hAll)
  refine
    { asked := hAsked
      live_eq := StreamBuffer.live_pop hValid len
      capacity := ?_ }
  rw [hCapacity]
  exact DelayedHalving.size_tick _ _ _

/-- **A buffer returns to its initial capacity.**  From any buffer that operations
can lead to, whatever it holds and whatever its counter says: as long as the
vector does not grow, every draining `pop` leaves its size or halves it down to
the initial one and loses no live byte, the counter stays within ten, and after
eleven draining pops for each halving the size is the initial one. -/
theorem streamBuffer_returns_to_initial (initialSize : Nat)
    (before ops : List BufferOp) (b final : StreamBuffer)
    (hBefore : run BufferOp.perform (StreamBuffer.make initialSize) before =
      some b)
    (hRun : run BufferOp.perform b ops = some final)
    (hNoGrowth : Guarded BufferOp.perform (fun s op => ¬ BufferOp.Grows s op)
      b ops) :
    (∀ earlier len later reached, ops = earlier ++ .pop len :: later →
      run BufferOp.perform b earlier = some reached →
      (reached.pop len).empty = true → DrainedBy initialSize reached len) ∧
    final.shrinkCount ≤ 10 ∧
    (11 * halvings initialSize b.buffer.length ≤
        countSteps BufferOp.perform BufferOp.drains b ops →
      final.buffer.length = initialSize) := by
  obtain ⟨hValid, rfl⟩ : b.Valid ∧ b.initialSize = initialSize :=
    BufferOp.valid_of_run (StreamBuffer.make_valid initialSize) hBefore
  refine ⟨fun earlier len later reached hSplit hReached hEmpty => ?_, ?_,
    fun hPops => ?_⟩
  · obtain ⟨hThere, hInitial⟩ := BufferOp.valid_of_run hValid hReached
    rw [← hInitial]
    exact drainedBy_of_empty hThere hEmpty
  · exact (BufferOp.valid_of_run hValid hRun).1.shrinkCount_le
  · have hFinal := run_countdown
      (fun _ _ _ _ hReturning hKeeps hStep => hReturning.perform hKeeps hStep)
      (BufferOp.returning_of_valid hValid) hNoGrowth hRun
    rw [Nat.sub_eq_zero_of_le hPops] at hFinal
    exact hFinal.length_eq

/-- A vector that was built for two and grew to seven is back at two after
twenty-two draining pops, with a byte received between any two of them. -/
theorem streamBuffer_returns_to_initial_grown :
    let before : List BufferOp := [.insert [1, 2, 3, 4, 5, 6, 7]]
    let ops : List BufferOp :=
      .pop 7 :: (List.replicate 21 [.push [8], .pop 1]).flatten
    ∃ b final, run BufferOp.perform (StreamBuffer.make 2) before = some b ∧
      run BufferOp.perform b ops = some final ∧
      b.buffer.length = 7 ∧ final.buffer.length = 2 := by
  intro before ops
  have hHalvings : halvings 2 7 ≤ 2 := halvings_le (by decide)
  let grown : StreamBuffer := ⟨[1, 2, 3, 4, 5, 6, 7], 0, 7, 0, 2⟩
  have hBefore : run BufferOp.perform (StreamBuffer.make 2) before =
      some grown := by decide +kernel
  have hSome : (run BufferOp.perform grown ops).isSome = true := by
    decide +kernel
  have hPops : 22 ≤ countSteps BufferOp.perform BufferOp.drains grown ops := by
    decide +kernel
  obtain ⟨final, hRun⟩ := Option.isSome_iff_exists.mp hSome
  refine ⟨grown, final, hBefore, hRun, rfl, ?_⟩
  exact (streamBuffer_returns_to_initial 2 before ops grown final hBefore hRun
    (by decide +kernel)).2.2
    (Nat.le_trans (Nat.mul_le_mul_left 11 hHalvings) hPops)

end KZEvent
