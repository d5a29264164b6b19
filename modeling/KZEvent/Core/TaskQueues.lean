import KZEvent.Core.Loop

/-!
# The task queues of the loop

Whatever the order of the posters' steps, of the executors' steps and of the
steps of `start` and `stop`: what was pushed is what was executed, followed by
what the executor has swapped out and not executed yet, followed by the buffer.
And an executor that sleeps with tasks in its buffer has a wake-up on its way.

For the io executor the eventfd carries the argument.  As long as its counter
is not zero, the edge is still to be reported, or its event is in the batch at
hand, or it is being read; and the executor swaps only after it read the counter
down to zero, so that a later push writes a new edge.
-/

namespace KZEvent
namespace Core

open Foundation

variable {Task : Type*} {exeState : ExeState} {calling : Bool}

/-! ## The io queue -/

namespace IoSide

variable {s next : IoSide Task}

/-- The io executor is blocked in `epoll_wait` without a pending wake-up, its
buffer is not empty, and no poster is about to wake it. -/
def Stalled (s : IoSide Task) : Prop :=
  s.pc = .waiting ∧ ¬ s.wakeFd.Ready ∧ s.queue.buffer ≠ [] ∧ s.posters = 0

/-- The queue is exact, and the eventfd announces what is in the buffer. -/
structure Sound (s : IoSide Task) : Prop where
  exact : s.queue.Exact
  idle : ¬ s.pc.Executing → s.queue.Idle
  announced : 0 < s.wakeFd.counter →
    s.wakeFd.edge = true ∨ s.pc.Announces
  buffered : s.queue.buffer ≠ [] →
    0 < s.wakeFd.counter ∨ 0 < s.posters ∨ s.pc.Taking

theorem sound_initial : Sound (initial : IoSide Task) where
  exact := DoubleBuffer.exact_empty
  idle _ := DoubleBuffer.idle_empty
  announced hCounter := absurd hCounter (Nat.lt_irrefl 0)
  buffered hBuffer := absurd rfl hBuffer

theorem Sound.push (hSound : Sound s) (task : Task) : Sound (s.push task) where
  exact := hSound.exact.push task
  idle hPc := (hSound.idle hPc).push task
  announced := hSound.announced
  buffered _ := .inr (.inl (Nat.succ_pos _))

/-- After a write the counter is not zero, and the edge is not reported less
than before. -/
theorem write_spec (fd : EventFd) :
    0 < fd.write.counter ∧ (fd.write.edge = true ∨ fd.write = fd) := by
  unfold EventFd.write
  split
  · exact ⟨Nat.succ_pos _, .inl rfl⟩
  · rename_i hFull
    refine ⟨?_, .inr rfl⟩
    have hMax : 0 < EventFd.maxCounter := by decide
    omega

theorem Sound.wakeIoUp (hSound : Sound s) : Sound s.wakeIoUp where
  exact := hSound.exact
  idle := hSound.idle
  announced hCounter := by
    rcases (write_spec s.wakeFd).2 with hEdge | hSame
    · exact .inl hEdge
    · show s.wakeFd.write.edge = true ∨ _
      have hBefore : 0 < s.wakeFd.write.counter := hCounter
      rw [hSame] at hBefore ⊢
      exact hSound.announced hBefore
  buffered _ := .inl (write_spec s.wakeFd).1

theorem Sound.pushed (hSound : Sound s) :
    Sound { s.wakeIoUp with posters := s.posters - 1 } where
  exact := hSound.exact
  idle := hSound.idle
  announced := hSound.wakeIoUp.announced
  buffered _ := .inl (write_spec s.wakeFd).1

/-- A change of the program counter alone that gives up neither the queue nor
the eventfd. -/
theorem Sound.withPc (hSound : Sound s) {pc : IoPc}
    (hExecuting : s.pc.Executing → pc.Executing)
    (hAnnounces : s.pc.Announces → pc.Announces)
    (hTaking : s.pc.Taking → pc.Taking) : Sound { s with pc := pc } where
  exact := hSound.exact
  idle hPc := hSound.idle fun hBefore => hPc (hExecuting hBefore)
  announced hCounter := (hSound.announced hCounter).imp id hAnnounces
  buffered hBuffer :=
    (hSound.buffered hBuffer).imp id (Or.imp id hTaking)

/-- A thread that has ended was at none of these places. -/
theorem Sound.withPc_of_ended (hSound : Sound s) {pc : IoPc}
    (hEnded : s.pc.Ended) : Sound { s with pc := pc } := by
  rcases hEnded with hPc | hPc
  · exact hSound.withPc (by simp [hPc, IoPc.Executing])
      (by simp [hPc, IoPc.Announces, IoPc.events]) (by simp [hPc, IoPc.Taking])
  · exact hSound.withPc (by simp [hPc, IoPc.Executing])
      (by simp [hPc, IoPc.Announces, IoPc.events]) (by simp [hPc, IoPc.Taking])

theorem Sound.step {input : IoInput} (hSound : Sound s)
    (hStep : Stepped exeState calling input s next) : Sound next := by
  have hIdle (hPc : ¬ s.pc.Executing) : s.queue.Idle := hSound.idle hPc
  cases hStep with
  | enters hPc hExe | leaves hPc hExe | interrupted hPc | batchEnds hPc
  | delivers hPc hNone =>
      exact hSound.withPc (by simp [hPc, IoPc.Executing])
        (by simp [hPc, IoPc.Announces, IoPc.events]) (by simp [hPc, IoPc.Taking])
  | deliversWake hPc hMem hReady =>
      -- The edge is spent, and the event is in the batch.
      refine ⟨hSound.exact, fun _ => hIdle (by simp [hPc, IoPc.Executing]),
        fun _ => .inr (.inl hMem), fun hBuffer => ?_⟩
      simpa [hPc, IoPc.Taking] using hSound.buffered hBuffer
  | findsWake hPc =>
      exact hSound.withPc (by simp [hPc, IoPc.Executing])
        (fun _ => .inr ⟨_, rfl⟩) (fun _ => trivial)
  | skips hPc | callsBack hPc | callbackReturns hPc hFree =>
      exact hSound.withPc (by simp [hPc, IoPc.Executing])
        (by simp [hPc, IoPc.Announces, IoPc.events]) (by simp [hPc, IoPc.Taking])
  | reads hPc hCounter =>
      refine ⟨hSound.exact, fun _ => hIdle (by simp [hPc, IoPc.Executing]),
        fun hPos => absurd hPos (Nat.lt_irrefl 0), fun _ => .inr (.inr ?_)⟩
      simp [hPc, IoPc.Taking]
  | drains hPc hCounter =>
      refine ⟨hSound.exact, fun _ => hIdle (by simp [hPc, IoPc.Executing]),
        fun hPos => ?_, fun _ => .inr (.inr trivial)⟩
      exact absurd hCounter (Nat.ne_of_gt hPos)
  | swaps hPc =>
      have hEmpty : s.queue.Idle := hIdle (by simp [hPc, IoPc.Executing])
      refine ⟨hSound.exact.swap hEmpty, fun hPc => absurd trivial hPc,
        fun hCounter => ?_, fun hBuffer => absurd hEmpty.1 hBuffer⟩
      simpa [hPc, IoPc.Announces, IoPc.events] using hSound.announced hCounter
  | executes hPc hQueue =>
      obtain ⟨item, -, hSame⟩ := DoubleBuffer.execute_spec hQueue
      refine ⟨hSound.exact.execute hQueue, fun hPc => absurd trivial hPc,
        fun hCounter => ?_, fun hBuffer => ?_⟩
      · simpa [hPc, IoPc.Announces, IoPc.events] using hSound.announced hCounter
      · rw [hSame] at hBuffer
        simpa [hPc, IoPc.Taking] using hSound.buffered hBuffer
  | clears hPc hQueue =>
      refine ⟨hSound.exact.clear hQueue, fun _ => DoubleBuffer.idle_clear _,
        fun hCounter => ?_, fun hBuffer => ?_⟩
      · simpa [hPc, IoPc.Announces, IoPc.events] using hSound.announced hCounter
      · simpa [hPc, IoPc.Taking] using hSound.buffered hBuffer
  | taskReturns hPc hFree =>
      exact hSound.withPc (fun _ => trivial)
        (by simp [hPc, IoPc.Announces, IoPc.events]) (by simp [hPc, IoPc.Taking])

theorem Sound.not_stalled (hSound : Sound s) : ¬ s.Stalled := by
  rintro ⟨hPc, hReady, hBuffer, hPosters⟩
  rcases hSound.buffered hBuffer with hCounter | hPosted | hTaking
  · rcases hSound.announced hCounter with hEdge | hAnnounces
    · exact hReady ⟨hEdge, hCounter⟩
    · simp [hPc, IoPc.Announces, IoPc.events] at hAnnounces
  · omega
  · rw [hPc] at hTaking
    cases hTaking

end IoSide

/-! ## The heavy queue -/

namespace HeavySide

variable {s next : HeavySide Task}

/-- The heavy executor is blocked without a notification, its buffer is not
empty, and no poster is about to notify it. -/
def Stalled (s : HeavySide Task) : Prop :=
  s.pc = .blocked ∧ s.queue.buffer ≠ [] ∧ s.posters = 0

/-- The queue is exact, and the executor goes to sleep only with an empty
buffer. -/
structure Sound (s : HeavySide Task) : Prop where
  exact : s.queue.Exact
  idle : ¬ s.pc.Executing → s.queue.Idle
  window : s.pc = .window → s.queue.buffer = []
  blocked : s.pc = .blocked → s.queue.buffer ≠ [] → 0 < s.posters

theorem sound_initial : Sound (initial : HeavySide Task) where
  exact := DoubleBuffer.exact_empty
  idle _ := DoubleBuffer.idle_empty
  window hPc := by cases hPc
  blocked hPc := by cases hPc

/-- A push waits for the lock, so it does not come between the predicate and
the block. -/
theorem Sound.push (hSound : Sound s) (hFree : ¬ s.pc.Locked) (task : Task) :
    Sound { s with queue := s.queue.push task, posters := s.posters + 1 } where
  exact := hSound.exact.push task
  idle hPc := (hSound.idle hPc).push task
  window hPc := absurd (.inr (.inl hPc)) hFree
  blocked _ _ := Nat.succ_pos _

theorem Sound.withPc (hSound : Sound s) {pc : HeavyPc}
    (hExecuting : s.pc.Executing → pc.Executing)
    (hWindow : pc ≠ .window) (hBlocked : pc ≠ .blocked) :
    Sound { s with pc := pc } where
  exact := hSound.exact
  idle hPc := hSound.idle (fun hBefore => hPc (hExecuting hBefore))
  window hPc := absurd hPc hWindow
  blocked hPc := absurd hPc hBlocked

theorem wakeHeavyUp_spec (s : HeavySide Task) :
    s.wakeHeavyUp.pc ≠ .blocked ∧
      (s.wakeHeavyUp = s ∨
        s.pc = .blocked ∧ s.wakeHeavyUp = { s with pc := .woken }) := by
  unfold wakeHeavyUp
  split
  · exact ⟨by simp, .inr ⟨‹_›, rfl⟩⟩
  · exact ⟨‹_›, .inl rfl⟩

/-- A notification brings the executor nowhere but to the step after its wait. -/
theorem wakeHeavyUp_pc_ne {pc : HeavyPc} (hPc : s.pc ≠ pc) (hWoken : pc ≠ .woken) :
    s.wakeHeavyUp.pc ≠ pc := by
  rcases (wakeHeavyUp_spec s).2 with hSame | ⟨-, hWakes⟩
  · rw [hSame]
    exact hPc
  · rw [hWakes]
    exact hWoken.symm

theorem Sound.wakeHeavyUp (hSound : Sound s) : Sound s.wakeHeavyUp := by
  rcases (wakeHeavyUp_spec s).2 with hSame | ⟨hPc, hWoken⟩
  · rw [hSame]
    exact hSound
  · rw [hWoken]
    refine hSound.withPc ?_ (by simp) (by simp)
    intro hExecuting
    rw [hPc] at hExecuting
    rcases hExecuting with hPc | hPc <;> cases hPc

theorem Sound.pushed (hSound : Sound s) :
    Sound { s.wakeHeavyUp with posters := s.posters - 1 } where
  exact := hSound.wakeHeavyUp.exact
  idle := hSound.wakeHeavyUp.idle
  window := hSound.wakeHeavyUp.window
  blocked hPc := absurd hPc (wakeHeavyUp_spec s).1

theorem Sound.step (hSound : Sound s)
    (hStep : Stepped exeState calling s next) : Sound next := by
  cases hStep with
  | enters hPc hExe | leaves hPc hExe | passes hPc hPred =>
      exact hSound.withPc (by simp [hPc, HeavyPc.Executing]) (by simp) (by simp)
  | locks hPc =>
      refine hSound.withPc ?_ (by simp) (by simp)
      rcases hPc with hPc | hPc <;> simp [hPc, HeavyPc.Executing]
  | refuses hPc hBuffer hExe =>
      refine ⟨hSound.exact, fun _ => hSound.idle ?_, fun _ => hBuffer, by simp⟩
      simp [hPc, HeavyPc.Executing]
  | blocks hPc =>
      refine ⟨hSound.exact, fun _ => hSound.idle ?_, by simp, fun _ hBuffer => ?_⟩
      · simp [hPc, HeavyPc.Executing]
      · exact absurd (hSound.window hPc) hBuffer
  | swaps hPc =>
      have hIdle : s.queue.Idle := hSound.idle (by simp [hPc, HeavyPc.Executing])
      exact ⟨hSound.exact.swap hIdle, fun hPc => absurd (.inl rfl) hPc, by simp,
        by simp⟩
  | executes hPc hQueue =>
      exact ⟨hSound.exact.execute hQueue, fun hPc => absurd (.inr rfl) hPc,
        by simp, by simp⟩
  | clears hPc hQueue =>
      exact ⟨hSound.exact.clear hQueue, fun _ => DoubleBuffer.idle_clear _,
        by simp, by simp⟩
  | taskReturns hPc hFree =>
      exact hSound.withPc (fun _ => .inl rfl) (by simp) (by simp)

theorem Sound.not_stalled (hSound : Sound s) : ¬ s.Stalled := by
  rintro ⟨hPc, hBuffer, hPosters⟩
  have hPosted : 0 < s.posters := hSound.blocked hPc hBuffer
  omega

end HeavySide

/-! ## The loop -/

namespace Loop

/-- Both sides are sound. -/
structure Sound (l : Loop Task) : Prop where
  io : l.io.Sound
  heavy : l.heavy.Sound

theorem sound_initial : Sound (initial : Loop Task) :=
  ⟨IoSide.sound_initial, HeavySide.sound_initial⟩

theorem Sound.startStepped {l next : Loop Task} (hSound : Sound l) {t : Thread}
    {pc : StartPc} (hStart : StartStepped l t pc next) : Sound next := by
  obtain ⟨hIo, hHeavy⟩ := hSound
  cases hStart with
  | joinsIo hEnded => exact ⟨hIo.withPc_of_ended hEnded, hHeavy⟩
  | joinsHeavy hEnded =>
      refine ⟨hIo, hHeavy.withPc ?_ (by simp) (by simp)⟩
      rcases hEnded with hPc | hPc <;> simp [hPc, HeavyPc.Executing]
  | spawnsIo hDead => exact ⟨hIo.withPc_of_ended (.inl hDead), hHeavy⟩
  | spawnsHeavy hDead =>
      exact ⟨hIo, hHeavy.withPc (by simp [hDead, HeavyPc.Executing]) (by simp)
        (by simp)⟩
  | _ => exact ⟨hIo, hHeavy⟩

theorem Sound.stopStepped {l next : Loop Task} (hSound : Sound l) {t : Thread}
    {pc : StopPc} (hStop : StopStepped l t pc next) : Sound next := by
  obtain ⟨hIo, hHeavy⟩ := hSound
  cases hStop with
  | wakesIo => exact ⟨hIo.wakeIoUp, hHeavy⟩
  | joinsIo hEnded => exact ⟨hIo.withPc_of_ended hEnded, hHeavy⟩
  | notifies => exact ⟨hIo, hHeavy.wakeHeavyUp⟩
  | joinsHeavy hEnded =>
      refine ⟨hIo, hHeavy.withPc ?_ (by simp) (by simp)⟩
      rcases hEnded with hPc | hPc <;> simp [hPc, HeavyPc.Executing]
  | _ => exact ⟨hIo, hHeavy⟩

theorem Sound.step {l next : Loop Task} {action : LoopAction Task}
    (hSound : Sound l) (hStep : Stepped l action next) : Sound next := by
  cases hStep with
  | pushIo task => exact ⟨hSound.io.push task, hSound.heavy⟩
  | wakeIo hPosted => exact ⟨hSound.io.pushed, hSound.heavy⟩
  | pushHeavy hFree => exact ⟨hSound.io, hSound.heavy.push hFree _⟩
  | notifyHeavy hPosted => exact ⟨hSound.io, hSound.heavy.pushed⟩
  | spuriousWake hBlocked =>
      exact ⟨hSound.io, hSound.heavy.withPc
        (by simp [hBlocked, HeavyPc.Executing]) (by simp) (by simp)⟩
  | io hIo => exact ⟨hSound.io.step hIo, hSound.heavy⟩
  | heavy hHeavy => exact ⟨hSound.io, hSound.heavy.step hHeavy⟩
  | begin hFree hMay => exact ⟨hSound.io, hSound.heavy⟩
  | start hCall hStart => exact hSound.startStepped hStart
  | stop hCall hStop => exact hSound.stopStepped hStop

theorem sound_of_run {l final : Loop Task} {actions : List (LoopAction Task)}
    (hSound : Sound l) (hRun : run step l actions = some final) : Sound final :=
  run_keeps (fun _ _ _ hBefore hStep => hBefore.step (stepped hStep)) hSound hRun

/-- **Exactly once, in order, with no lost wake-up.**  In every run of posting
threads, executors and calls of `start` and `stop`, the tasks of a queue are
executed at most once and in the order of the pushes, and none is dropped; and
no executor sleeps without a pending wake-up while its buffer is not empty and
no poster is about to wake it. -/
theorem task_queues_exactly_once {l : Loop Task}
    {actions : List (LoopAction Task)} (hRun : run step initial actions = some l) :
    l.io.queue.executed ++ l.io.queue.rest ++ l.io.queue.buffer =
        l.io.queue.pushed ∧
      l.heavy.queue.executed ++ l.heavy.queue.rest ++ l.heavy.queue.buffer =
        l.heavy.queue.pushed ∧
      ¬ l.io.Stalled ∧ ¬ l.heavy.Stalled := by
  have hSound : Sound l := sound_of_run sound_initial hRun
  exact ⟨hSound.io.exact, hSound.heavy.exact, hSound.io.not_stalled,
    hSound.heavy.not_stalled⟩

/-- A task is pushed between the last read of the eventfd and the swap, and one
while the loop is stopped: it is executed after the restart. -/
theorem task_queues_exactly_once_restarted :
    let actions : List (LoopAction Nat) :=
      callSteps .user .start 5 ++
        [.pushIo 1, .wakeIo] ++ ioSteps 5 ++ [.pushIo 2] ++ ioSteps 6 ++
        callSteps .user .stop 3 ++ [.wakeIo] ++ ioSteps 2 ++
        [.advance .user, .advance .user, .advance .user] ++ heavySteps 1 ++
        [.advance .user, .advance .user, .pushIo 3, .wakeIo] ++
        callSteps .user .start 5 ++ ioSteps 7
    ∃ l, run step initial actions = some l ∧
      l.io.queue.pushed = [1, 2, 3] ∧ l.io.queue.executed = [1, 2, 3] ∧
      l.io.queue.executed ++ l.io.queue.rest ++ l.io.queue.buffer =
        l.io.queue.pushed ∧
      ¬ l.io.Stalled := by
  intro actions
  have hOutcome : (run step initial actions).map
      (fun l => (l.io.queue.pushed, l.io.queue.executed)) =
        some ([1, 2, 3], [1, 2, 3]) := by
    decide +kernel
  obtain ⟨l, hRun, hView⟩ := Option.map_eq_some_iff.mp hOutcome
  obtain ⟨hPushed, hExecuted⟩ := Prod.mk.inj hView
  obtain ⟨hIo, -, hStalled, -⟩ := task_queues_exactly_once hRun
  exact ⟨l, hRun, hPushed, hExecuted, hIo, hStalled⟩

end Loop
end Core
end KZEvent
