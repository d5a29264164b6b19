import KZEvent.Core.Lifecycle

/-!
# When start gets through its joins

Outside the state `Running` the executors leave their loops: the io executor is
not blocked without a wake-up on its way, and the heavy executor gets through
its predicate unless it sleeps without a notification on its way.  So a `start`
that has not claimed the state yet can always be completed by steps that finish
what was begun.  The proof gives a variant that counts these steps.
-/

namespace KZEvent
namespace Core

open Foundation

variable {Task : Type*}

/-- The heavy executor does not sleep, or a notification is on its way. -/
def HeavySide.WillWake (s : HeavySide Task) : Prop :=
  s.pc ≠ .window ∧ (s.pc = .blocked → 0 < s.posters)

instance (s : HeavySide Task) : Decidable s.WillWake :=
  inferInstanceAs (Decidable (_ ∧ _))

namespace CallPc

/-- `start` has still to find the state `Stopped`. -/
def Claiming : CallPc → Prop
  | .start .spawnIo | .start .spawnHeavy => False
  | .start _ => True
  | .stop _ => False

/-- The io executor is about to be woken by `stop`. -/
def Waking (pc : CallPc) : Prop := pc = .stop .testIo ∨ pc = .stop .wakeIo

/-- The executors may be gone while the state is still `Stopping`. -/
def Resetting (pc : CallPc) : Prop :=
  pc = .start .resetIo ∨ pc = .start .resetHeavy ∨ pc.Requested

end CallPc

namespace Loop

variable {l next : Loop Task} {t : Thread} {action : LoopAction Task}

/-! ## Wake-ups outside the state Running -/

/-- Outside the state `Running` a wake-up of a waiting io executor is pending or
on its way. -/
def Woken (l : Loop Task) : Prop :=
  l.exeState ≠ .Running → l.io.pc = .waiting →
    l.io.wakeFd.Ready ∨ ∃ t pc, l.call t = some pc ∧ pc.Waking

theorem woken_initial : Woken (initial : Loop Task) := nofun

theorem ready_write {fd : EventFd} (hReady : fd.Ready) : fd.write.Ready := by
  rcases (IoSide.write_spec fd).2 with hEdge | hSame
  · exact ⟨hEdge, (IoSide.write_spec fd).1⟩
  · rw [hSame]
    exact hReady

/-- A write makes the eventfd ready for an executor that waits. -/
theorem ready_wakeIoUp {s : IoSide Task} (hSound : s.Sound)
    (hPc : s.pc = .waiting) : s.wakeFd.write.Ready := by
  have hCounter : 0 < s.wakeFd.write.counter := (IoSide.write_spec s.wakeFd).1
  rcases hSound.wakeIoUp.announced hCounter with hEdge | hAnnounces
  · exact ⟨hEdge, hCounter⟩
  · simp [IoSide.wakeIoUp, hPc, IoPc.Announces, IoPc.events] at hAnnounces

theorem woken_startStepped {pc : StartPc} (hCalls : CallsOk l) (hWoken : Woken l)
    (hCall : l.call t = some (.start pc)) (hStart : StartStepped l t pc next) :
    Woken next := by
  -- A thread that is about to wake the executor is another one.
  have hKept (hBefore : l.io.wakeFd.Ready ∨
        ∃ t' pc', l.call t' = some pc' ∧ pc'.Waking) :
      l.io.wakeFd.Ready ∨ ∃ t' pc', next.call t' = some pc' ∧ pc'.Waking := by
    apply hBefore.imp id
    rintro ⟨t', pc', hCall', hWaking⟩
    have hOther : t' ≠ t := by
      rintro rfl
      obtain rfl := Option.some.inj (hCall.symm.trans hCall')
      rcases hWaking with hPc | hPc <;> cases hPc
    exact ⟨t', pc', (hStart.call_eq hOther).trans hCall', hWaking⟩
  have hOk : CallOk l t (.start pc) := hCalls _ _ hCall
  intro hExe hWaiting
  cases hStart with
  | joinsIo hEnded | spawnsIo hDead => cases hWaiting
  | resetsIo | resetsHeavy =>
      have hDead : l.io.pc = .dead := hOk.pastIo trivial
      exact absurd (hDead.symm.trans hWaiting) nofun
  | claims hStopped => exact absurd rfl hExe
  | _ => exact hKept (hWoken hExe hWaiting)

theorem woken_stopStepped {pc : StopPc} (hSound : l.Sound) (hCalls : CallsOk l)
    (hCall : l.call t = some (.stop pc)) (hStop : StopStepped l t pc next) :
    Woken next := by
  have hOk : CallOk l t (.stop pc) := hCalls _ _ hCall
  intro hExe hWaiting
  have hPastIo (hPast : (CallPc.stop pc).PastIo)
      (hSame : next.io.pc = l.io.pc) : False := by
    have hDead : l.io.pc = .dead := hOk.pastIo hPast
    rw [hSame, hDead] at hWaiting
    cases hWaiting
  cases hStop with
  | requests hRunning | goesOn hRunning =>
      exact .inr ⟨t, .stop .testIo, by simp, .inl rfl⟩
  | ioNotJoinable hDead => exact absurd (hDead.symm.trans hWaiting) nofun
  | ioSelf hAlive hSelf =>
      subst hSelf
      have hMay := hOk.may
      rw [MayCall, show l.io.pc = .waiting from hWaiting] at hMay
      exact hMay.elim
  | ioJoinable hAlive hOther => exact .inr ⟨t, .stop .wakeIo, by simp, .inr rfl⟩
  | wakesIo => exact .inl (ready_wakeIoUp hSound.io hWaiting)
  | joinsIo hEnded => cases hWaiting
  | _ => exact (hPastIo trivial rfl).elim

theorem woken_step (hSound : l.Sound) (hCalls : CallsOk l) (hWoken : Woken l)
    (hStep : Stepped l action next) : Woken next := by
  cases hStep with
  | wakeIo hPosted =>
      intro hExe hWaiting
      exact (hWoken hExe hWaiting).imp ready_write id
  | io hIo => exact fun hExe hWaiting => absurd (hIo.pc.waiting hWaiting) hExe
  | begin hFree hMay =>
      intro hExe hWaiting
      apply (hWoken hExe hWaiting).imp id
      rintro ⟨t', pc', hCall', hWaking⟩
      exact ⟨t', pc', goto_call_of_call hFree hCall', hWaking⟩
  | start hCall hStart => exact woken_startStepped hCalls hWoken hCall hStart
  | stop hCall hStop => exact woken_stopStepped hSound hCalls hCall hStop
  | _ => exact hWoken

/-- Outside the state `Running` a heavy executor that does not sleep, or is
about to be notified, stays so. -/
theorem willWake_step (hStep : Stepped l action next)
    (hExe : l.exeState ≠ .Running) (hWill : l.heavy.WillWake) :
    next.heavy.WillWake := by
  have hNotify {s : HeavySide Task} (hPc : s.pc = l.heavy.wakeHeavyUp.pc) :
      s.WillWake := by
    constructor
    · rw [hPc]
      exact HeavySide.wakeHeavyUp_pc_ne hWill.1 nofun
    · intro hBlocked
      exact absurd (hPc.symm.trans hBlocked)
        (HeavySide.wakeHeavyUp_spec l.heavy).1
  cases hStep with
  | pushHeavy hFree => exact ⟨hWill.1, fun _ => Nat.succ_pos _⟩
  | notifyHeavy hPosted => exact hNotify rfl
  | spuriousWake hBlocked => exact ⟨nofun, nofun⟩
  | heavy hHeavy =>
      refine ⟨fun hWindow => ?_, fun hBlocked => ?_⟩
      · exact hExe (hHeavy.pc.window hWindow)
      · exact absurd (hHeavy.pc.blocked hBlocked) hWill.1
  | start hCall hStart =>
      cases hStart with
      | joinsHeavy hEnded | spawnsHeavy hDead => exact ⟨nofun, nofun⟩
      | _ => exact hWill
  | stop hCall hStop =>
      cases hStop with
      | joinsHeavy hEnded => exact ⟨nofun, nofun⟩
      | notifies => exact hNotify rfl
      | _ => exact hWill
  | _ => exact hWill

/-! ## The end of a shutdown -/

/-- In the state `Stopping` an executor is left, or the user thread is on its
way to reset the state. -/
def Unfinished (l : Loop Task) : Prop :=
  l.exeState = .Stopping →
    l.io.pc ≠ .dead ∨ l.heavy.pc ≠ .dead ∨
      ∃ pc, l.call .user = some pc ∧ pc.Resetting

theorem unfinished_initial : Unfinished (initial : Loop Task) := nofun

/-- A call of an executor is made by an executor that is left. -/
theorem CallOk.left {pc : CallPc} (hOk : CallOk l t pc) (hOther : t ≠ .user) :
    l.io.pc ≠ .dead ∨ l.heavy.pc ≠ .dead := by
  by_contra hDead
  rw [not_or, not_not, not_not] at hDead
  exact hOther (hOk.user (.inl hDead.1) (.inl hDead.2))

theorem unfinished_startStepped {pc : StartPc} (hCalls : CallsOk l)
    (hLeft : Unfinished l) (hCall : l.call t = some (.start pc))
    (hStart : StartStepped l t pc next) : Unfinished next := by
  have hOk : CallOk l t (.start pc) := hCalls _ _ hCall
  -- What is left stays, unless the user thread leaves one of its resets.
  have hKept (hReset : ¬ (CallPc.start pc).Resetting)
      (hBefore : l.io.pc ≠ .dead ∨ l.heavy.pc ≠ .dead ∨
        ∃ pc', l.call .user = some pc' ∧ pc'.Resetting) :
      l.io.pc ≠ .dead ∨ l.heavy.pc ≠ .dead ∨
        ∃ pc', next.call .user = some pc' ∧ pc'.Resetting := by
    refine hBefore.imp id (Or.imp id ?_)
    rintro ⟨pc', hUser, hResetting⟩
    have hOther : Thread.user ≠ t := by
      rintro rfl
      obtain rfl := Option.some.inj (hCall.symm.trans hUser)
      exact hReset hResetting
    exact ⟨pc', (hStart.call_eq hOther).trans hUser, hResetting⟩
  intro hStopping
  cases hStart with
  | joinsIo hEnded =>
      by_cases hUser : t = .user
      · subst hUser
        exact .inr (.inr ⟨.start .resetIo, by simp, .inl rfl⟩)
      · refine .inr (.inl fun hDead => hUser ?_)
        exact hOk.user hEnded (.inl hDead)
  | joinsHeavy hEnded =>
      have hUser : t = .user := hOk.user (.inl (hOk.pastIo trivial)) hEnded
      subst hUser
      exact .inr (.inr ⟨.start .resetHeavy, by simp, .inr (.inl rfl)⟩)
  | resetsIo | resetsHeavy | claims hStopped => cases hStopping
  | spawnsIo hDead => exact .inl nofun
  | spawnsHeavy hDead => exact .inr (.inl nofun)
  | _ => exact hKept (by simp [CallPc.Resetting, CallPc.Requested]) (hLeft hStopping)

theorem unfinished_stopStepped {pc : StopPc} (hCalls : CallsOk l)
    (hCall : l.call t = some (.stop pc)) (hStop : StopStepped l t pc next) :
    Unfinished next := by
  have hOk : CallOk l t (.stop pc) := hCalls _ _ hCall
  intro hStopping
  by_cases hUser : t = .user
  · subst hUser
    right; right
    cases hStop with
    | ioSelf hAlive hSelf | heavySelf hAlive hSelf => cases hSelf
    | resets => cases hStopping
    | _ =>
        refine ⟨_, goto_call_self _ _ _, .inr (.inr ?_)⟩
        simp [CallPc.Requested]
  · have hBefore := hOk.left hUser
    cases hStop with
    | joinsIo hEnded =>
        refine .inr (.inl fun hDead => hUser ?_)
        exact hOk.user hEnded (.inl hDead)
    | joinsHeavy hEnded =>
        exact absurd (hOk.user (.inl (hOk.pastIo trivial)) hEnded) hUser
    | notifies =>
        exact hBefore.imp id fun hAlive =>
          .inl (HeavySide.wakeHeavyUp_pc_ne hAlive nofun)
    | resets => cases hStopping
    | _ => exact hBefore.imp id .inl

theorem unfinished_step (hCalls : CallsOk l) (hLeft : Unfinished l)
    (hStep : Stepped l action next) : Unfinished next := by
  cases hStep with
  | notifyHeavy hPosted =>
      intro hStopping
      apply (hLeft hStopping).imp id (Or.imp _ id)
      intro hAlive
      exact HeavySide.wakeHeavyUp_pc_ne hAlive nofun
  | spuriousWake hBlocked => exact fun _ => .inr (.inl nofun)
  | io hIo => exact fun _ => .inl hIo.pc.notDead
  | heavy hHeavy => exact fun _ => .inr (.inl hHeavy.pc.notDead)
  | begin hFree hMay =>
      intro hStopping
      apply (hLeft hStopping).imp id (Or.imp id _)
      rintro ⟨pc, hUser, hResetting⟩
      exact ⟨pc, goto_call_of_call hFree hUser, hResetting⟩
  | start hCall hStart => exact unfinished_startStepped hCalls hLeft hCall hStart
  | stop hCall hStop => exact unfinished_stopStepped hCalls hCall hStop
  | _ => exact hLeft

/-! ## Between the two new threads -/

/-- While `start` is about to start the heavy thread, the io thread is there. -/
def Spawned (l : Loop Task) : Prop :=
  l.call .user = some (.start .spawnHeavy) → l.io.pc ≠ .dead

theorem spawned_initial : Spawned (initial : Loop Task) := nofun

theorem spawned_startStepped {pc : StartPc} (hCalls : CallsOk l)
    (hSpawned : Spawned l) (hCall : l.call t = some (.start pc))
    (hStart : StartStepped l t pc next) : Spawned next := by
  intro hUser
  by_cases hSame : t = .user
  · subst hSame
    cases hStart with
    | spawnsIo hDead => nofun
    | _ => simp at hUser
  · have hBefore : l.call .user = some (.start .spawnHeavy) :=
      (hStart.call_eq (Ne.symm hSame)).symm.trans hUser
    have hDead : l.heavy.pc = .dead := (hCalls _ _ hBefore).pastHeavy trivial
    cases hStart with
    | joinsIo hEnded =>
        exact absurd ((hCalls _ _ hCall).user hEnded (.inl hDead)) hSame
    | spawnsIo hIo => nofun
    | _ => exact hSpawned hBefore

theorem spawned_stopStepped {pc : StopPc} (hCalls : CallsOk l)
    (hSpawned : Spawned l) (hCall : l.call t = some (.stop pc))
    (hStop : StopStepped l t pc next) : Spawned next := by
  intro hUser
  by_cases hSame : t = .user
  · subst hSame
    cases hStop <;> simp at hUser
  · have hBefore : l.call .user = some (.start .spawnHeavy) :=
      (hStop.call_eq (Ne.symm hSame)).symm.trans hUser
    have hDead : l.heavy.pc = .dead := (hCalls _ _ hBefore).pastHeavy trivial
    cases hStop with
    | joinsIo hEnded =>
        exact absurd ((hCalls _ _ hCall).user hEnded (.inl hDead)) hSame
    | _ => exact hSpawned hBefore

theorem spawned_step (hCalls : CallsOk l) (hSpawned : Spawned l)
    (hStep : Stepped l action next) : Spawned next := by
  cases hStep with
  | io hIo => exact fun _ => hIo.pc.notDead
  | begin hFree hMay =>
      rename_i t call
      intro hUser
      by_cases hSame : Thread.user = t
      · subst hSame
        cases call <;> simp [Loop.goto, LoopCall.first] at hUser
      · exact hSpawned ((Function.update_of_ne hSame _ _).symm.trans hUser)
  | start hCall hStart => exact spawned_startStepped hCalls hSpawned hCall hStart
  | stop hCall hStop => exact spawned_stopStepped hCalls hSpawned hCall hStop
  | _ => exact hSpawned

/-! ## A start that can be completed -/

/-- A step that finishes something: it does not begin a call, push a task or
come from nowhere. -/
def Proceeds : LoopAction Task → Prop
  | .pushIo _ | .pushHeavy _ | .spuriousWake | .begin _ _ => False
  | .wakeIo | .notifyHeavy | .io _ | .heavy | .advance _ => True

/-- Only the exchange of `start` makes the state `Running`. -/
theorem Stepped.running (hCalls : CallsOk l) (hStep : Stepped l action next)
    (hRunning : next.exeState = .Running) :
    l.exeState = .Running ∨ next.call .user = some (.start .spawnIo) := by
  cases hStep with
  | start hCall hStart =>
      have hOk := hCalls _ _ hCall
      cases hStart with
      | resetsIo | resetsHeavy => cases hRunning
      | claims hStopped =>
          have hIo : l.io.pc = .dead := hOk.pastIo trivial
          have hHeavy : l.heavy.pc = .dead := hOk.pastHeavy trivial
          rw [hOk.user (.inl hIo) (.inl hHeavy)]
          exact .inr (goto_call_self _ _ _)
      | _ => exact .inl hRunning
  | stop hCall hStop =>
      cases hStop with
      | requests hBefore => exact .inl hBefore
      | resets => cases hRunning
      | _ => exact .inl hRunning
  | _ => exact .inl hRunning

theorem Proceeds.not_begin (hProceeds : Proceeds action) (t : Thread)
    (call : LoopCall) : action ≠ .begin t call := by
  rintro rfl
  exact hProceeds

/-- The steps of `start` up to the exchange follow one another. -/
theorem claiming_before {pc : CallPc} (hStep : Stepped l action next)
    (hBegin : ∀ call, action ≠ .begin t call) (hCall : next.call t = some pc)
    (hClaiming : pc.Claiming) :
    ∃ before, l.call t = some before ∧ before.Claiming := by
  by_cases hAdvance : action = .advance t
  · subst hAdvance
    cases hStep with
    | start hBefore hStart =>
        refine ⟨_, hBefore, ?_⟩
        cases hStart with
        | spawnsIo hDead =>
            rw [goto_call_self] at hCall
            obtain rfl := Option.some.inj hCall
            exact hClaiming.elim
        | spawnsHeavy hDead => simp at hCall
        | _ => trivial
    | stop hBefore hStop =>
        cases hStop with
        | ioSelf hAlive hSelf | heavySelf hAlive hSelf | resets => simp at hCall
        | _ =>
            rw [goto_call_self] at hCall
            obtain rfl := Option.some.inj hCall
            exact hClaiming.elim
  · exact ⟨pc, (hStep.call_eq hBegin hAdvance).symm.trans hCall, hClaiming⟩

/-- What `start` needs to get through its joins. -/
structure Completing (l : Loop Task) : Prop where
  sound : l.Sound
  calls : CallsOk l
  woken : Woken l
  unfinished : Unfinished l
  spawned : Spawned l
  claiming : ∀ pc, l.call .user = some pc → pc.Claiming →
    l.exeState ≠ .Running ∧ l.heavy.WillWake

theorem Completing.step (hCompleting : Completing l)
    (hStep : Stepped l action next) (hProceeds : Proceeds action) :
    Completing next where
  sound := hCompleting.sound.step hStep
  calls := hCompleting.calls.step hStep
  woken := woken_step hCompleting.sound hCompleting.calls hCompleting.woken hStep
  unfinished := unfinished_step hCompleting.calls hCompleting.unfinished hStep
  spawned := spawned_step hCompleting.calls hCompleting.spawned hStep
  claiming := by
    intro pc hCall hClaiming
    obtain ⟨before, hBefore, hClaimed⟩ :=
      claiming_before hStep (hProceeds.not_begin .user) hCall hClaiming
    obtain ⟨hExe, hWill⟩ := hCompleting.claiming before hBefore hClaimed
    refine ⟨fun hRunning => ?_, willWake_step hStep hExe hWill⟩
    rcases hStep.running hCompleting.calls hRunning with hSame | hSpawn
    · exact hExe hSame
    · rw [hSpawn] at hCall
      obtain rfl := Option.some.inj hCall
      exact hClaiming

end Loop

/-! ## The variant -/

/-- Steps for the rest of a batch, with `count` tasks in the buffer. -/
def eventsCost (count : Nat) : List LoopEvent → Nat
  | [] => 0
  | .wake :: events => 6 + 2 * count + eventsCost count events
  | .other :: events => 1 + eventsCost count events

/-- Steps until the io executor leaves its loop. -/
def IoSide.cost (s : IoSide Task) : Nat :=
  let count := s.queue.buffer.length
  let rest := s.queue.rest.length
  match s.pc with
  | .dead | .finished => 0
  | .test => 1
  | .waiting => 9 + 2 * count
  | .scan events => 2 + eventsCost count events
  | .inCallback events => 3 + eventsCost count events
  | .reading events =>
      (if 0 < s.wakeFd.counter then 7 else 6) + 2 * count +
        eventsCost count events
  | .swapping events => 5 + 2 * count + eventsCost count events
  | .running events => 3 + 2 * rest + eventsCost count events
  | .inTask events => 4 + 2 * rest + eventsCost count events

/-- Steps until the heavy executor leaves its loop. -/
def HeavySide.cost (s : HeavySide Task) : Nat :=
  let count := s.queue.buffer.length
  let rest := s.queue.rest.length
  match s.pc with
  | .dead | .finished | .window => 0
  | .test => 1
  | .running => 2 + 2 * rest
  | .inTask => 3 + 2 * rest
  | .swapping => 3 + 2 * count
  | .check => 4 + 2 * count
  | .lock | .woken => 5 + 2 * count
  | .blocked => 6 + 2 * count

/-- Steps until a call returns; the last two start a thread, which costs one
more. -/
def CallPc.cost : CallPc → Nat
  | .start .testIo => 11
  | .start .joinIo => 10
  | .start .resetIo => 9
  | .start .testHeavy => 8
  | .start .joinHeavy => 7
  | .start .resetHeavy => 6
  | .start .exchange => 5
  | .start .spawnIo => 4
  | .start .spawnHeavy => 2
  | .stop .exchange => 8
  | .stop .testIo => 7
  | .stop .wakeIo => 6
  | .stop .joinIo => 5
  | .stop .testHeavy => 4
  | .stop .notifyHeavy => 3
  | .stop .joinHeavy => 2
  | .stop .reset => 1

theorem eventsCost_mono {count count' : Nat} (hCount : count ≤ count')
    (events : List LoopEvent) :
    eventsCost count events ≤ eventsCost count' events := by
  induction events with
  | nil => exact Nat.le_refl _
  | cons event events ih =>
      cases event <;> simp only [eventsCost] <;> omega

namespace Loop

variable {l next : Loop Task} {t : Thread} {action : LoopAction Task}

def callCost (l : Loop Task) (t : Thread) : Nat :=
  match l.call t with
  | none => 0
  | some pc => pc.cost

def callsCost (l : Loop Task) : Nat :=
  l.callCost .user + l.callCost .io + l.callCost .heavy

/-- Steps until the executors have left their loops and the calls returned. -/
def variant (l : Loop Task) : Nat := l.io.cost + l.heavy.cost + l.callsCost

theorem callsCost_goto {old : CallPc} (hCall : l.call t = some old)
    (pc : CallPc) :
    (l.goto t pc).callsCost + old.cost = l.callsCost + pc.cost := by
  cases t <;> simp [callsCost, callCost, hCall] <;> omega

theorem callsCost_returns {old : CallPc} (hCall : l.call t = some old) :
    (l.returns t).callsCost + old.cost = l.callsCost := by
  cases t <;> simp [callsCost, callCost, hCall] <;> omega

end Loop

/-! ## Some step always decreases the variant -/

/-- Outside the state `Running`, unless it waits for a wake-up or for a call to
return, the io executor has a step that brings it nearer to its end. -/
theorem IoSide.advances {s : IoSide Task} {exeState : ExeState} (calling : Bool)
    (hSound : s.Sound) (hExe : exeState ≠ .Running) (hAlive : ¬ s.pc.Ended)
    (hReady : s.pc = .waiting → s.wakeFd.Ready)
    (hFree : s.pc.InBody → calling = false) :
    ∃ input next, s.step exeState calling input = some next ∧
      next.cost < s.cost := by
  cases hPc : s.pc with
  | dead => exact absurd (.inl hPc) hAlive
  | finished => exact absurd (.inr hPc) hAlive
  | test =>
      exact ⟨{}, { s with pc := .finished }, by simp [step, hPc, hExe],
        by simp [cost, hPc]⟩
  | waiting =>
      refine ⟨{ batch := some [.wake] },
        { s with pc := .scan [.wake], wakeFd := { s.wakeFd with edge := false } },
        by simp [step, hPc, deliver, hReady hPc], ?_⟩
      simp only [cost, hPc, eventsCost]
      omega
  | scan events =>
      cases events with
      | nil =>
          exact ⟨{}, { s with pc := .test }, by simp [step, hPc],
            by simp [cost, hPc, eventsCost]⟩
      | cons event events =>
          cases event with
          | wake =>
              refine ⟨{}, { s with pc := .reading events },
                by simp [step, hPc], ?_⟩
              simp only [cost, hPc, eventsCost]
              split <;> omega
          | other =>
              refine ⟨{}, { s with pc := .scan events },
                by simp [step, hPc], ?_⟩
              simp only [cost, hPc, eventsCost]
              omega
  | inCallback events =>
      have hCalling : calling = false := hFree (by simp [hPc, IoPc.InBody])
      refine ⟨{}, { s with pc := .scan events },
        by simp [step, hPc, hCalling], ?_⟩
      simp [cost, hPc]
  | reading events =>
      by_cases hCounter : 0 < s.wakeFd.counter
      · refine ⟨{}, { s with wakeFd := { s.wakeFd with counter := 0 } },
          by simp [step, hPc, hCounter], ?_⟩
        simp [cost, hPc, hCounter]
      · refine ⟨{}, { s with pc := .swapping events },
          by simp [step, hPc, hCounter], ?_⟩
        simp [cost, hPc, hCounter]
  | swapping events =>
      refine ⟨{}, { s with pc := .running events, queue := s.queue.swap },
        by simp [step, hPc], ?_⟩
      have hIdle : s.queue.Idle := hSound.idle (by simp [hPc, IoPc.Executing])
      have hRest : s.queue.swap.rest = s.queue.buffer := List.drop_zero
      have hLess := eventsCost_mono (Nat.zero_le s.queue.buffer.length) events
      simp only [cost, hPc, hRest, DoubleBuffer.swap_buffer, hIdle.1,
        List.length_nil]
      omega
  | running events =>
      cases hQueue : s.queue.execute with
      | some queue =>
          refine ⟨{}, { s with pc := .inTask events, queue := queue },
            by simp [step, hPc, hQueue], ?_⟩
          have hRest := DoubleBuffer.execute_rest_length hQueue
          simp only [cost, hPc, DoubleBuffer.execute_buffer hQueue]
          omega
      | none =>
          refine ⟨{}, { s with pc := .scan events, queue := s.queue.clear },
            by simp [step, hPc, hQueue], ?_⟩
          simp only [cost, hPc, DoubleBuffer.clear_buffer]
          omega
  | inTask events =>
      have hCalling : calling = false := hFree (by simp [hPc, IoPc.InBody])
      refine ⟨{}, { s with pc := .running events },
        by simp [step, hPc, hCalling], ?_⟩
      simp [cost, hPc]

/-- The same for the heavy executor. -/
theorem HeavySide.advances {s : HeavySide Task} {exeState : ExeState}
    (calling : Bool) (hExe : exeState ≠ .Running) (hAlive : ¬ s.pc.Ended)
    (hWaits : ¬ s.pc.Waits) (hFree : s.pc = .inTask → calling = false) :
    ∃ next, s.step exeState calling = some next ∧ next.cost < s.cost := by
  cases hPc : s.pc with
  | dead => exact absurd (.inl hPc) hAlive
  | finished => exact absurd (.inr hPc) hAlive
  | window => exact absurd (.inl hPc) hWaits
  | blocked => exact absurd (.inr hPc) hWaits
  | test =>
      exact ⟨{ s with pc := .finished }, by simp [step, hPc, hExe],
        by simp [cost, hPc]⟩
  | lock | woken =>
      exact ⟨{ s with pc := .check }, by simp [step, hPc], by simp [cost, hPc]⟩
  | check =>
      exact ⟨{ s with pc := .swapping }, by simp [step, hPc, hExe],
        by simp [cost, hPc]⟩
  | swapping =>
      refine ⟨{ s with pc := .running, queue := s.queue.swap },
        by simp [step, hPc], ?_⟩
      have hRest : s.queue.swap.rest = s.queue.buffer := List.drop_zero
      simp only [cost, hPc, hRest]
      omega
  | running =>
      cases hQueue : s.queue.execute with
      | some queue =>
          refine ⟨{ s with pc := .inTask, queue := queue },
            by simp [step, hPc, hQueue], ?_⟩
          have hRest := DoubleBuffer.execute_rest_length hQueue
          simp only [cost, hPc]
          omega
      | none =>
          refine ⟨{ s with pc := .test, queue := s.queue.clear },
            by simp [step, hPc, hQueue], ?_⟩
          simp only [cost, hPc]
          omega
  | inTask =>
      exact ⟨{ s with pc := .running }, by simp [step, hPc, hFree hPc],
        by simp [cost, hPc]⟩

namespace Loop

variable {l next : Loop Task} {t : Thread} {action : LoopAction Task}

/-- Some step that proceeds, other than one of the user thread, decreases the
variant. -/
def Advances (l : Loop Task) : Prop :=
  ∃ action next, Proceeds action ∧ action ≠ .advance .user ∧
    l.step action = some next ∧ next.variant < l.variant

theorem step_start {pc : StartPc} (hCall : l.call t = some (.start pc)) :
    l.step (.advance t) = l.startStep t pc := by
  simp only [step, hCall]

theorem step_stop {pc : StopPc} (hCall : l.call t = some (.stop pc)) :
    l.step (.advance t) = l.stopStep t pc := by
  simp only [step, hCall]

theorem variant_goto {old pc : CallPc} (hCall : l.call t = some old)
    (hCost : pc.cost < old.cost) : (l.goto t pc).variant < l.variant := by
  have hCalls := callsCost_goto hCall pc
  show l.io.cost + l.heavy.cost + (l.goto t pc).callsCost < _
  simp only [variant]
  omega

theorem variant_returns {old : CallPc} (hCall : l.call t = some old) :
    (l.returns t).variant < l.variant := by
  have hCalls := callsCost_returns hCall
  have hCost : 0 < old.cost := by
    cases old with
    | start pc => cases pc <;> decide
    | stop pc => cases pc <;> decide
  show l.io.cost + l.heavy.cost + (l.returns t).callsCost < _
  simp only [variant]
  omega

theorem ioCost_of_ended {s : IoSide Task} (hEnded : s.pc.Ended) : s.cost = 0 := by
  rcases hEnded with hPc | hPc <;> simp [IoSide.cost, hPc]

theorem variant_joinsIo (hEnded : l.io.pc.Ended) :
    (l.withIoPc .dead).variant = l.variant := by
  have hDead : (l.withIoPc .dead).io.cost = 0 := ioCost_of_ended (.inl rfl)
  have hCost : l.io.cost = 0 := ioCost_of_ended hEnded
  show (l.withIoPc .dead).io.cost + l.heavy.cost + l.callsCost = _
  rw [variant, hDead, hCost]

/-- A step of a call of an executor, to a step that is nearer to its return. -/
theorem advances_goto {old : CallPc} (t : Thread) (before : Loop Task)
    (pc : CallPc) (hOther : t ≠ .user) (hCall : l.call t = some old)
    (hBefore : before.call = l.call) (hVariant : before.variant = l.variant)
    (hStep : l.step (.advance t) = some (before.goto t pc))
    (hCost : pc.cost < old.cost) : l.Advances := by
  refine ⟨.advance t, before.goto t pc, trivial,
    fun hSame => hOther (LoopAction.advance.inj hSame), hStep, ?_⟩
  rw [← hVariant]
  exact variant_goto (hBefore ▸ hCall) hCost

theorem advances_returns {old : CallPc} (t : Thread) (next : Loop Task)
    (hOther : t ≠ .user) (hCall : l.call t = some old)
    (hStep : l.step (.advance t) = some next)
    (hReturns : next.variant = (l.returns t).variant) : l.Advances := by
  refine ⟨.advance t, next, trivial,
    fun hSame => hOther (LoopAction.advance.inj hSame), hStep, ?_⟩
  rw [hReturns]
  exact variant_returns hCall

/-- A call of the io thread returns without waiting. -/
theorem ioCall_advances {pc : CallPc} (hCalls : CallsOk l)
    (hExe : l.exeState ≠ .Running) (hCall : l.call .io = some pc) : l.Advances := by
  have hOk : CallOk l .io pc := hCalls _ _ hCall
  have hAlive : l.io.pc ≠ .dead := fun hDead => hOk.ne_io (.inl hDead) rfl
  rcases hOk.permitted with rfl | rfl | rfl
  · refine advances_returns .io (l.startReturns .io false) nofun hCall ?_ rfl
    rw [step_start hCall, startStep, if_neg hAlive, if_pos rfl]
  · refine advances_goto .io l (.stop .testIo) nofun hCall rfl rfl ?_ (by decide)
    rw [step_stop hCall, stopStep, if_neg hExe]
  · refine advances_returns .io (l.returns .io) nofun hCall ?_ rfl
    rw [step_stop hCall, stopStep, if_neg hAlive, if_pos rfl]

/-- Nor does a call of the heavy thread when the io thread is gone. -/
theorem heavyCall_advances {pc : CallPc} (hCalls : CallsOk l)
    (hExe : l.exeState ≠ .Running) (hDead : l.io.pc = .dead)
    (hCall : l.call .heavy = some pc) : l.Advances := by
  have hOk : CallOk l .heavy pc := hCalls _ _ hCall
  have hAlive : l.heavy.pc ≠ .dead := fun hPc => hOk.ne_heavy (.inl hPc) rfl
  have hEnded : l.io.pc.Ended := .inl hDead
  have hPermitted := hOk.permitted
  cases pc with
  | start pc =>
      rcases hPermitted with rfl | rfl | rfl | rfl
      · refine advances_goto .heavy l (.start .testHeavy) nofun hCall rfl
          rfl ?_ (by decide)
        rw [step_start hCall, startStep, if_pos hDead]
      · refine advances_goto .heavy (l.withIoPc .dead) (.start .resetIo) nofun
          hCall rfl (variant_joinsIo hEnded) ?_ (by decide)
        rw [step_start hCall, startStep, if_pos hEnded]
      · refine advances_goto .heavy (l.withExeState .Stopped)
          (.start .testHeavy) nofun hCall rfl rfl ?_ (by decide)
        rw [step_start hCall, startStep]
      · refine advances_returns .heavy (l.startReturns .heavy false) nofun hCall
          ?_ rfl
        rw [step_start hCall, startStep, if_neg hAlive, if_pos rfl]
  | stop pc =>
      rcases hPermitted with rfl | rfl | rfl | rfl | rfl
      · refine advances_goto .heavy l (.stop .testIo) nofun hCall rfl rfl
          ?_ (by decide)
        rw [step_stop hCall, stopStep, if_neg hExe]
      · refine advances_goto .heavy l (.stop .testHeavy) nofun hCall rfl rfl
          ?_ (by decide)
        rw [step_stop hCall, stopStep, if_pos hDead]
      · have hCost : ({ l with io := l.io.wakeIoUp } : Loop Task).variant =
            l.variant := by
          have hWoken : l.io.wakeIoUp.cost = 0 := ioCost_of_ended hEnded
          have hBefore : l.io.cost = 0 := ioCost_of_ended hEnded
          show l.io.wakeIoUp.cost + l.heavy.cost + l.callsCost = _
          rw [variant, hWoken, hBefore]
        refine advances_goto .heavy { l with io := l.io.wakeIoUp }
          (.stop .joinIo) nofun hCall rfl hCost ?_ (by decide)
        rw [step_stop hCall, stopStep]
      · refine advances_goto .heavy (l.withIoPc .dead) (.stop .testHeavy)
          nofun hCall rfl (variant_joinsIo hEnded) ?_ (by decide)
        rw [step_stop hCall, stopStep, if_pos hEnded]
      · refine advances_returns .heavy (l.returns .heavy) nofun hCall ?_ rfl
        rw [step_stop hCall, stopStep, if_neg hAlive, if_pos rfl]

theorem isSome_call_eq_false {inBody : Prop}
    (hCalling : ¬ (inBody ∧ l.call t ≠ none)) (hBody : inBody) :
    (l.call t).isSome = false := by
  have hFree : l.call t = none := by
    by_contra hCall
    exact hCalling ⟨hBody, hCall⟩
  rw [hFree]
  rfl

/-- Outside the state `Running` something brings the io executor nearer to its
end: a step of its own, a call it is in, or a `stop` about to wake it. -/
theorem io_advances (hSound : l.Sound) (hCalls : CallsOk l) (hWoken : Woken l)
    (hExe : l.exeState ≠ .Running) (hAlive : ¬ l.io.pc.Ended)
    (hUser : ∀ pc, l.call .user = some pc → ¬ pc.Waking) : l.Advances := by
  by_cases hCalling : l.io.pc.InBody ∧ l.call .io ≠ none
  · obtain ⟨pc, hCall⟩ := Option.ne_none_iff_exists'.mp hCalling.2
    exact ioCall_advances hCalls hExe hCall
  by_cases hSleeps : l.io.pc = .waiting ∧ ¬ l.io.wakeFd.Ready
  · rcases hWoken hExe hSleeps.1 with hReady | ⟨t, pc, hCall, hWaking⟩
    · exact absurd hReady hSleeps.2
    · have hOther : t ≠ .user := by
        rintro rfl
        exact hUser pc hCall hWaking
      have hNotIo : t ≠ .io := by
        rintro rfl
        have hMay := (hCalls _ _ hCall).may
        simp [MayCall, hSleeps.1, IoPc.InBody] at hMay
      rcases hWaking with rfl | rfl
      · refine advances_goto t l (.stop .wakeIo) hOther hCall rfl rfl ?_
          (by decide)
        rw [step_stop hCall, stopStep, if_neg (by simp [hSleeps.1]),
          if_neg hNotIo]
      · have hCost : ({ l with io := l.io.wakeIoUp } : Loop Task).variant =
            l.variant := by
          have hPc : l.io.wakeIoUp.pc = .waiting := hSleeps.1
          show l.io.wakeIoUp.cost + l.heavy.cost + l.callsCost = _
          simp only [variant, IoSide.cost, hPc, hSleeps.1]
          rfl
        refine advances_goto t { l with io := l.io.wakeIoUp } (.stop .joinIo)
          hOther hCall rfl hCost ?_ (by decide)
        rw [step_stop hCall, stopStep]
  · obtain ⟨input, io, hStep, hCost⟩ :=
      IoSide.advances (l.call .io).isSome hSound.io hExe hAlive
        (fun hPc => by_contra fun hReady => hSleeps ⟨hPc, hReady⟩)
        (isSome_call_eq_false hCalling)
    refine ⟨.io input, { l with io := io }, trivial, by simp, ?_, ?_⟩
    · simp only [step, hStep, Option.map_some]
    · show io.cost + l.heavy.cost + l.callsCost < _
      simp only [variant]
      omega

/-- The same for the heavy executor once the io thread is gone. -/
theorem heavy_advances (hCalls : CallsOk l) (hExe : l.exeState ≠ .Running)
    (hDead : l.io.pc = .dead) (hWill : l.heavy.WillWake)
    (hAlive : ¬ l.heavy.pc.Ended) : l.Advances := by
  by_cases hCalling : l.heavy.pc = .inTask ∧ l.call .heavy ≠ none
  · obtain ⟨pc, hCall⟩ := Option.ne_none_iff_exists'.mp hCalling.2
    exact heavyCall_advances hCalls hExe hDead hCall
  by_cases hBlocked : l.heavy.pc = .blocked
  · have hPosted : 0 < l.heavy.posters := hWill.2 hBlocked
    refine ⟨.notifyHeavy, { l with heavy :=
      { l.heavy with pc := .woken, posters := l.heavy.posters - 1 } },
      trivial, by simp, ?_, ?_⟩
    · simp [step, HeavySide.pushed, HeavySide.wakeHeavyUp, hBlocked, hPosted]
    · simp only [variant, HeavySide.cost, hBlocked]
      show _ + l.callsCost < _
      omega
  · obtain ⟨heavy, hStep, hCost⟩ :=
      HeavySide.advances (l.call .heavy).isSome hExe hAlive
        (fun hWaits => hWaits.elim hWill.1 hBlocked)
        (isSome_call_eq_false hCalling)
    refine ⟨.heavy, { l with heavy := heavy }, trivial, by simp, ?_, ?_⟩
    · simp only [step, hStep, Option.map_some]
    · show l.io.cost + heavy.cost + l.callsCost < _
      simp only [variant]
      omega

/-! ## start returns -/

/-- The last `start`, which found the state `found`, returned `true` to the user
thread, and both executors were started. -/
structure Restarted (found : ExeState) (l : Loop Task) : Prop where
  returned : l.call .user = none
  last : ∃ earlier, l.starts =
    earlier ++ [{ thread := .user, found := found, result := true }]
  io : l.io.pc ≠ .dead
  heavy : l.heavy.pc ≠ .dead

/-- The user thread is inside a `start` that found the state `found`. -/
def Starting (found : ExeState) (l : Loop Task) : Prop :=
  (∃ pc, l.call .user = some (.start pc)) ∧ l.found .user = found

theorem Stepped.found_eq (hStep : Stepped l action next)
    (hProceeds : Proceeds action) : next.found = l.found := by
  cases hStep with
  | begin hFree hMay => exact hProceeds.elim
  | start hCall hStart => cases hStart <;> rfl
  | stop hCall hStop => cases hStop <;> rfl
  | _ => rfl

/-- A step of another thread leaves the user thread where it is. -/
theorem Starting.step {found : ExeState} (hStarting : Starting found l)
    (hStep : Stepped l action next) (hProceeds : Proceeds action)
    (hOther : action ≠ .advance .user) : Starting found next := by
  obtain ⟨⟨pc, hCall⟩, hFound⟩ := hStarting
  have hSame : next.call .user = l.call .user :=
    hStep.call_eq (hProceeds.not_begin .user) hOther
  refine ⟨⟨pc, hSame.trans hCall⟩, ?_⟩
  rw [hStep.found_eq hProceeds]
  exact hFound

/-- Some step leaves a `start` of the user thread that found `found` nearer to its
return. -/
def StartAdvances (found : ExeState) (l : Loop Task) : Prop :=
  ∃ action next, Proceeds action ∧ l.step action = some next ∧
    (Starting found next ∨ Restarted found next) ∧ next.variant < l.variant

/-- A step of another thread does. -/
theorem Starting.advances_of_other {found : ExeState}
    (hStarting : Starting found l) (hAdvances : l.Advances) :
    StartAdvances found l := by
  obtain ⟨action, next, hProceeds, hNotUser, hStep, hLess⟩ := hAdvances
  exact ⟨action, next, hProceeds, hStep,
    .inl (hStarting.step (stepped hStep) hProceeds hNotUser), hLess⟩

/-- So does a step of the call itself to a step that is nearer to its return. -/
theorem startAdvances_of_own {found : ExeState} {pc : StartPc}
    (hCall : l.call .user = some (.start pc)) (hFound : l.found .user = found)
    (before : Loop Task) (pc' : StartPc)
    (hBefore : before.call = l.call ∧ before.found = l.found)
    (hStep : l.startStep .user pc = some (before.goto .user (.start pc')))
    (hVariant : before.variant + (CallPc.start pc').cost <
      l.variant + (CallPc.start pc).cost) : StartAdvances found l := by
  refine ⟨.advance .user, before.goto .user (.start pc'), trivial,
    (step_start hCall).trans hStep, .inl ⟨⟨pc', goto_call_self _ _ _⟩, ?_⟩, ?_⟩
  · show before.found .user = found
    rw [hBefore.2]
    exact hFound
  · have hCalls := callsCost_goto (hBefore.1 ▸ hCall) (.start pc')
    show before.io.cost + before.heavy.cost +
      (before.goto .user (.start pc')).callsCost < _
    simp only [variant] at hVariant ⊢
    omega

/-- Both executors are gone before the exchange, and the state is `Stopped`. -/
theorem Completing.stopped (hCompleting : Completing l)
    (hCall : l.call .user = some (.start .exchange)) : l.exeState = .Stopped := by
  have hOk : CallOk l .user (.start .exchange) := hCompleting.calls _ _ hCall
  cases hExe : l.exeState with
  | Stopped => rfl
  | Running => exact absurd hExe (hCompleting.claiming _ hCall trivial).1
  | Stopping =>
      -- Nobody is to reset the state.
      rcases hCompleting.unfinished hExe with hIo | hHeavy | ⟨pc, hPc, hReset⟩
      · exact absurd (hOk.pastIo trivial) hIo
      · exact absurd (hOk.pastHeavy trivial) hHeavy
      · obtain rfl := Option.some.inj (hCall.symm.trans hPc)
        simp [CallPc.Resetting, CallPc.Requested] at hReset

/-- In a `start` of the user thread some step always decreases the variant. -/
theorem start_advances {found : ExeState} {pc : StartPc}
    (hCompleting : Completing l) (hCall : l.call .user = some (.start pc))
    (hFound : l.found .user = found) : StartAdvances found l := by
  have hOk : CallOk l .user (.start pc) := hCompleting.calls _ _ hCall
  have hStarting : Starting found l := ⟨⟨pc, hCall⟩, hFound⟩
  have hOwn := startAdvances_of_own hCall hFound
  cases pc with
  | testIo =>
      by_cases hDead : l.io.pc = .dead
      · refine hOwn l .testHeavy ⟨rfl, rfl⟩ ?_ (by simp [CallPc.cost])
        rw [startStep, if_pos hDead]
      · refine hOwn l .joinIo ⟨rfl, rfl⟩ ?_ (by simp [CallPc.cost])
        rw [startStep, if_neg hDead, if_neg (by decide)]
  | joinIo =>
      by_cases hEnded : l.io.pc.Ended
      · refine hOwn (l.withIoPc .dead) .resetIo ⟨rfl, rfl⟩ ?_ ?_
        · rw [startStep, if_pos hEnded]
        · rw [variant_joinsIo hEnded]
          simp [CallPc.cost]
      · refine hStarting.advances_of_other (io_advances hCompleting.sound
          hCompleting.calls hCompleting.woken
          (hCompleting.claiming _ hCall trivial).1 hEnded ?_)
        intro pc hWaits
        obtain rfl := Option.some.inj (hCall.symm.trans hWaits)
        simp [CallPc.Waking]
  | resetIo =>
      refine hOwn (l.withExeState .Stopped) .testHeavy ⟨rfl, rfl⟩ rfl ?_
      show l.variant + _ < _
      simp [CallPc.cost]
  | testHeavy =>
      by_cases hDead : l.heavy.pc = .dead
      · refine hOwn l .exchange ⟨rfl, rfl⟩ ?_ (by simp [CallPc.cost])
        rw [startStep, if_pos hDead]
      · refine hOwn l .joinHeavy ⟨rfl, rfl⟩ ?_ (by simp [CallPc.cost])
        rw [startStep, if_neg hDead, if_neg (by decide)]
  | joinHeavy =>
      by_cases hEnded : l.heavy.pc.Ended
      · refine hOwn (l.withHeavyPc .dead) .resetHeavy ⟨rfl, rfl⟩ ?_ ?_
        · rw [startStep, if_pos hEnded]
        · have hCost : l.heavy.cost = 0 := by
            rcases hEnded with hPc | hPc <;> simp [HeavySide.cost, hPc]
          show l.io.cost + 0 + l.callsCost + _ < _
          simp only [variant, CallPc.cost]
          omega
      · obtain ⟨hExe, hWill⟩ := hCompleting.claiming _ hCall trivial
        exact hStarting.advances_of_other (heavy_advances hCompleting.calls hExe
          (hOk.pastIo trivial) hWill hEnded)
  | resetHeavy =>
      refine hOwn (l.withExeState .Stopped) .exchange ⟨rfl, rfl⟩ rfl ?_
      show l.variant + _ < _
      simp [CallPc.cost]
  | exchange =>
      have hStopped := hCompleting.stopped hCall
      refine hOwn (l.withExeState .Running) .spawnIo ⟨rfl, rfl⟩ ?_ ?_
      · rw [startStep, if_pos hStopped]
      · show l.variant + _ < _
        simp [CallPc.cost]
  | spawnIo =>
      have hDead : l.io.pc = .dead := hOk.pastIo trivial
      refine hOwn (l.withIoPc .test) .spawnHeavy ⟨rfl, rfl⟩ ?_ ?_
      · rw [startStep, if_pos hDead]
      · show 1 + l.heavy.cost + l.callsCost + _ < _
        simp only [variant, CallPc.cost]
        omega
  | spawnHeavy =>
      have hDead : l.heavy.pc = .dead := hOk.pastHeavy trivial
      have hReturns := callsCost_returns hCall
      refine ⟨.advance .user, (l.withHeavyPc .test).startReturns .user true,
        trivial, ?_, .inr ⟨?_, ?_, hCompleting.spawned hCall, ?_⟩, ?_⟩
      · rw [step_start hCall, startStep, if_pos hDead]
      · rw [startReturns_call, if_pos rfl]
      · refine ⟨l.starts, ?_⟩
        rw [← hFound]
        rfl
      · show HeavyPc.test ≠ .dead
        decide
      · show l.io.cost + 1 + (l.returns .user).callsCost < _
        simp only [CallPc.cost] at hReturns
        simp only [variant]
        omega

/-- **A start gets through its joins**, by steps that finish what was begun,
returns `true`, and starts both executors. -/
theorem start_completes {pc : StartPc} (hCompleting : Completing l)
    (hCall : l.call .user = some (.start pc)) :
    ∃ actions final, (∀ action ∈ actions, Proceeds action) ∧
      run step l actions = some final ∧ Restarted (l.found .user) final := by
  have hAdvances (state : Loop Task)
      (hState : Completing state ∧
        (Starting (l.found .user) state ∨ Restarted (l.found .user) state))
      (hGoal : ¬ Restarted (l.found .user) state) :
      ∃ action next, Proceeds action ∧ state.step action = some next ∧
        (Completing next ∧
          (Starting (l.found .user) next ∨ Restarted (l.found .user) next)) ∧
        next.variant < state.variant := by
    obtain ⟨hBefore, hStarting⟩ := hState
    obtain ⟨⟨pc, hPc⟩, hFound⟩ := hStarting.resolve_right hGoal
    obtain ⟨action, next, hProceeds, hStep, hNext, hLess⟩ :=
      start_advances hBefore hPc hFound
    exact ⟨action, next, hProceeds, hStep,
      ⟨hBefore.step (stepped hStep) hProceeds, hNext⟩, hLess⟩
  obtain ⟨actions, final, hActions, hRun, -, hRestarted⟩ :=
    exists_run_of_variant variant hAdvances
      ⟨hCompleting, .inl ⟨⟨pc, hCall⟩, rfl⟩⟩
  exact ⟨actions, final, hActions, hRun, hRestarted⟩

end Loop
end Core
end KZEvent
