import KZEvent.Timers.DueOrder

/-!
# No timer is forgotten

The timerfd is armed again only when a new unit is first in the queue, and when a
wake-up stops at a unit that is not due.  In between it stays armed for the unit
that was first before.  Arming cuts the time off to milliseconds, which makes the
alarm early, and an alarm that would be in the past is set for one nanosecond from
now, since zero would disarm the timerfd.
-/

namespace KZEvent
namespace Timers

open KZEvent.Core Foundation

universe u

variable {Cb Owner : Type u} {impl : TimerQueue Cb Owner}

/-! ## What is written to the timerfd -/

/-- The instant for which an `itimerspec` written at `now` arms the timerfd. -/
def ItimerSpec.instant (now : Int) (spec : ItimerSpec) : Int :=
  now + (spec.tvSec * 1000000000 + spec.tvNsec)

/-- An `itimerspec` the kernel accepts, and which does not disarm. -/
structure ItimerSpec.Arms (spec : ItimerSpec) : Prop where
  sec : 0 ≤ spec.tvSec
  nsec : 0 ≤ spec.tvNsec ∧ spec.tvNsec < 1000000000
  nonzero : ¬ (spec.tvSec = 0 ∧ spec.tvNsec = 0)

namespace Timer

variable {t next : Timer impl}

/-- `set_next_wake_time` arms the timerfd, not later than asked for or for one
nanosecond from now. -/
theorem wakeSpec_exact (time now : Int) :
    ItimerSpec.Arms (wakeSpec Chrono.exact time now) ∧
      (ItimerSpec.instant now (wakeSpec Chrono.exact time now) ≤ time ∨
        ItimerSpec.instant now (wakeSpec Chrono.exact time now) = now + 1) := by
  have hSub : Chrono.exact.sub time now = time - now := rfl
  unfold wakeSpec
  dsimp only
  rw [hSub]
  generalize hMs : (time - now).tdiv 1000000 = timeoutMs
  split
  · exact ⟨⟨by decide, by decide, by decide⟩, .inr rfl⟩
  · rename_i hLate
    have hFuture : 0 ≤ time - now := by
      by_contra hPast
      have hNeg : (time - now).tdiv 1000000 ≤ 0 := by
        rw [← Int.neg_sub, Int.neg_tdiv]
        exact Int.neg_nonpos_of_nonneg (Int.tdiv_nonneg (by omega) (by omega))
      omega
    have hFloor : timeoutMs * 1000000 ≤ time - now := by
      rw [← hMs, Int.tdiv_eq_ediv_of_nonneg hFuture]
      omega
    have hSec : timeoutMs.tdiv 1000 = timeoutMs / 1000 :=
      Int.tdiv_eq_ediv_of_nonneg (by omega)
    have hNsec : timeoutMs.tmod 1000 = timeoutMs % 1000 :=
      Int.tmod_eq_emod_of_nonneg (by omega)
    rw [hSec, hNsec]
    refine ⟨⟨?_, ?_, ?_⟩, .inl ?_⟩
    · show 0 ≤ timeoutMs / 1000
      omega
    · show 0 ≤ timeoutMs % 1000 * 1000000 ∧ timeoutMs % 1000 * 1000000 < 1000000000
      omega
    · show ¬ (timeoutMs / 1000 = 0 ∧ timeoutMs % 1000 * 1000000 = 0)
      omega
    · show now + (timeoutMs / 1000 * 1000000000 + timeoutMs % 1000 * 1000000) ≤ time
      omega

/-! ## The alarm -/

/-- With units in the queue the timerfd expired and was not read, or it is armed
for an instant not after the first of them or the next nanosecond. -/
def Alarmed (t : Timer impl) : Prop :=
  t.units ≠ 0 → t.timerFd.expired = true ∨
    ∃ instant, t.timerFd.armed = some instant ∧
      ((∀ unit ∈ t.units, instant ≤ unit.timeStamp) ∨ instant ≤ t.now + 1)

/-- No `itimerspec` disarms the timerfd. -/
def NeverDisarms (t : Timer impl) : Prop :=
  ∀ spec ∈ t.written, ItimerSpec.Arms spec

theorem written_setNextWakeTime (t : Timer impl) (time : Int) :
    (t.setNextWakeTime Chrono.exact time).written =
      t.written ++ [wakeSpec Chrono.exact time t.readClock.now] := by
  unfold setNextWakeTime
  dsimp only
  split <;> rfl

theorem NeverDisarms.setNextWakeTime (hNever : NeverDisarms t) (time : Int) :
    NeverDisarms (t.setNextWakeTime Chrono.exact time) := by
  intro spec hSpec
  rw [written_setNextWakeTime] at hSpec
  rcases List.mem_append.mp hSpec with hSpec | hSpec
  · exact hNever spec hSpec
  · rw [List.mem_singleton.mp hSpec]
    exact (wakeSpec_exact _ _).1

/-- When `timerfd_settime` succeeds, the timerfd is armed for what was written. -/
theorem setNextWakeTime_armed (hFault : t.settimeFault = none) (time : Int) :
    (t.setNextWakeTime Chrono.exact time).timerFd.armed =
        some (ItimerSpec.instant t.readClock.now
          (wakeSpec Chrono.exact time t.readClock.now)) ∧
      (t.setNextWakeTime Chrono.exact time).now = t.readClock.now := by
  have hFault' : t.readClock.settimeFault = none := hFault
  unfold setNextWakeTime
  dsimp only
  rw [hFault']
  refine ⟨?_, rfl⟩
  show (TimerFd.settime _ _).armed = _
  unfold TimerFd.settime
  rw [if_neg (wakeSpec_exact time t.readClock.now).1.nonzero]
  rfl

theorem alarmed_setNextWakeTime (hFault : t.settimeFault = none) {time : Int}
    (hFirst : ∀ unit ∈ t.units, time ≤ unit.timeStamp) :
    Alarmed (t.setNextWakeTime Chrono.exact time) := by
  intro _
  obtain ⟨hArmed, hNow⟩ := setNextWakeTime_armed hFault time
  refine .inr ⟨_, hArmed, ?_⟩
  have hUnits : (t.setNextWakeTime Chrono.exact time).units = t.units :=
    congrArg impl.items (quiet_setNextWakeTime t time).timerQueue
  rw [hUnits, hNow]
  rcases (wakeSpec_exact time t.readClock.now).2 with hEarly | hNext
  · exact .inl fun unit hUnit => hEarly.trans (hFirst unit hUnit)
  · exact .inr hNext.le

/-- The timerfd and the queue stay, and time passes. -/
theorem Alarmed.of_same (hAlarmed : Alarmed t) (hFd : next.timerFd = t.timerFd)
    (hUnits : next.units = t.units) (hNow : t.now ≤ next.now) : Alarmed next := by
  intro hSome
  rw [hUnits] at hSome ⊢
  rw [hFd]
  apply (hAlarmed hSome).imp_right
  rintro ⟨instant, hArmed, hBound⟩
  exact ⟨instant, hArmed, hBound.imp_right fun hSoon => hSoon.trans (by omega)⟩

/-- A new unit that is not first leaves the alarm as it is. -/
theorem Alarmed.push (hAlarmed : Alarmed t) {unit first : TimerUnit Cb Owner}
    {queue : impl.Queue} (hUnits : impl.items queue = unit ::ₘ t.units)
    (hTop : impl.top queue = some first) (hLater : first.timeStamp ≠ unit.timeStamp)
    (hFd : next.timerFd = t.timerFd) (hQueue : next.timerQueue = queue)
    (hNow : t.now ≤ next.now) : Alarmed next := by
  have hFirst : first ∈ t.units := by
    have hMem := PriorityQueue.top_mem hTop
    rw [hUnits, Multiset.mem_cons] at hMem
    exact hMem.resolve_left (fun hSame => hLater (congrArg _ hSame))
  have hSome : t.units ≠ 0 := by
    intro hEmpty
    rw [hEmpty] at hFirst
    exact Multiset.notMem_zero _ hFirst
  have hNext : next.units = unit ::ₘ t.units := by rw [units, hQueue, hUnits]
  intro _
  rw [hFd, hNext]
  apply (hAlarmed hSome).imp_right
  rintro ⟨instant, hArmed, hBound⟩
  refine ⟨instant, hArmed, hBound.imp ?_ fun hSoon => hSoon.trans (by omega)⟩
  intro hAll other hOther
  rcases Multiset.mem_cons.mp hOther with rfl | hOther
  · have hLe : first.timeStamp ≤ other.timeStamp :=
      PriorityQueue.top_le hTop (hUnits ▸ Multiset.mem_cons_self _ _)
    exact (hAll first hFirst).trans hLe
  · exact hAll other hOther

/-! ## Steps -/

/-- What holds between the steps of the io thread. -/
structure Remembered (t : Timer impl) : Prop where
  alarmed : Alarmed t
  never : NeverDisarms t

theorem remembered_initial (impl : TimerQueue Cb Owner) (now : Int) :
    Remembered (initial impl now) where
  alarmed hSome := absurd impl.items_empty hSome
  never _ hSpec := by cases hSpec

theorem Remembered.of_same (hRemembered : Remembered t)
    (hFd : next.timerFd = t.timerFd) (hUnits : next.units = t.units)
    (hWritten : next.written = t.written) (hNow : t.now ≤ next.now) :
    Remembered next where
  alarmed := hRemembered.alarmed.of_same hFd hUnits hNow
  never := by
    rw [NeverDisarms, hWritten]
    exact hRemembered.never

/-- Arming for the first unit. -/
theorem remembered_setNextWakeTime (hNever : NeverDisarms t)
    (hFault : t.settimeFault = none) {time : Int}
    (hFirst : ∀ unit ∈ t.units, time ≤ unit.timeStamp) :
    Remembered (t.setNextWakeTime Chrono.exact time) where
  alarmed := alarmed_setNextWakeTime hFault hFirst
  never := hNever.setNextWakeTime time

/-- A new unit is first, and the timerfd is armed for it; or it is not. -/
theorem Remembered.pushUnit (hRemembered : Remembered t)
    (hFault : t.settimeFault = none) (cb : Cb) (owner : Owner)
    (timeout repeatInterval : Int) (timerId : Nat) :
    Remembered (t.pushUnit Chrono.exact cb owner timeout repeatInterval timerId) := by
  have hNow := t.quiet_readClock.now
  unfold Timer.pushUnit
  dsimp only
  split
  · rename_i first hTop
    split
    · refine remembered_setNextWakeTime ?_ ?_ ?_
      · exact hRemembered.never
      · exact hFault
      · intro unit hUnit
        exact PriorityQueue.top_le hTop hUnit
    · rename_i hLater
      exact ⟨hRemembered.alarmed.push (impl.items_push _ _) hTop hLater rfl rfl hNow,
        hRemembered.never⟩
  · rename_i hTop
    have hMem : ∃ unit, unit ∈ impl.items (impl.push t.timerQueue
        ⟨cb, owner, Chrono.exact.add t.readClock.now timeout, repeatInterval,
          timerId⟩) := ⟨_, by rw [impl.items_push]; exact Multiset.mem_cons_self _ _⟩
    obtain ⟨unit, hUnit⟩ := hMem
    obtain ⟨first, hFirst⟩ := PriorityQueue.exists_top hUnit
    exact absurd (hFirst.symm.trans hTop) nofun

theorem Remembered.exec (hRemembered : Remembered t)
    (hFault : t.settimeFault = none) (task : TimerTask Cb Owner) :
    Remembered (t.exec Chrono.exact task) := by
  cases task with
  | postOnce cb owner timeoutMs timerId =>
      exact hRemembered.pushUnit hFault cb owner _ _ timerId
  | postRepeat cb owner timeoutMs timerId =>
      exact hRemembered.pushUnit hFault cb owner _ _ timerId
  | cancel timerId => exact hRemembered.of_same rfl rfl rfl le_rfl

/-- A wake-up ends with an empty queue, or the timerfd is armed for the first unit
that is left. -/
theorem remembered_onExpire (hNever : NeverDisarms t)
    (hFault : t.settimeFault = none) {fuel : Nat}
    (hWake : t.onExpire Chrono.exact fuel = some next) : Remembered next := by
  cases hPop : impl.pop t.timerQueue with
  | none =>
      rw [onExpire_of_empty hPop] at hWake
      obtain rfl := Option.some.inj hWake
      exact ⟨fun hSome => absurd (impl.items_of_pop_none _ hPop) hSome, hNever⟩
  | some popped =>
      rw [onExpire_of_pop hPop] at hWake
      have hStart : NeverDisarms t.readFd.readClock ∧
          t.readFd.readClock.settimeFault = none := ⟨hNever, hFault⟩
      generalize t.readFd.readClock = read at hWake hStart
      have hAgain (s s' : Timer impl)
          (hInv : NeverDisarms s ∧ s.settimeFault = none)
          (hTurn : s.expireTurn Chrono.exact read.now = .again s') :
          NeverDisarms s' ∧ s'.settimeFault = none := by
        have hExpired := expired Chrono.exact read.now s
        rw [hTurn] at hExpired
        cases hExpired <;> exact hInv
      have hDone (s s' : Timer impl)
          (hInv : NeverDisarms s ∧ s.settimeFault = none)
          (hTurn : s.expireTurn Chrono.exact read.now = .done s') :
          Remembered s' := by
        have hExpired := expired Chrono.exact read.now s
        rw [hTurn] at hExpired
        cases hExpired with
        | empty hPop =>
            exact ⟨fun hSome => absurd (impl.items_of_pop_none _ hPop) hSome, hInv.1⟩
        | early hPop hEarly =>
            refine remembered_setNextWakeTime hInv.1 hInv.2 fun unit hUnit => ?_
            exact PriorityQueue.top_le (PriorityQueue.top_of_pop hPop) hUnit
      exact loop_rule hAgain hDone hStart hWake

/-- `timerfd_settime` succeeds. -/
def SettimeSucceeds (_t : Timer impl) : TimerAction Cb Owner → Prop
  | .runTask input | .wake input => input.settimeFault = none
  | _ => True

instance (t : Timer impl) (action : TimerAction Cb Owner) :
    Decidable (t.SettimeSucceeds action) :=
  match action with
  | .runTask _ | .wake _ => inferInstanceAs (Decidable (_ = _))
  | .postOnceTask _ _ _ | .postRepeatTask _ _ _ | .cancelTask _ | .post _
  | .passes _ | .fire => .isTrue trivial

theorem Remembered.step (hRemembered : Remembered t) {action : TimerAction Cb Owner}
    (hGuard : t.SettimeSucceeds action)
    (hStep : step Chrono.exact t action = some next) : Remembered next := by
  cases action with
  | postOnceTask | postRepeatTask | cancelTask =>
      obtain rfl := Option.some.inj hStep
      exact hRemembered.of_same rfl rfl rfl le_rfl
  | post index =>
      obtain ⟨task, -, rfl⟩ := Option.map_eq_some_iff.mp hStep
      exact hRemembered.of_same rfl rfl rfl le_rfl
  | passes duration =>
      obtain rfl := Option.some.inj hStep
      exact hRemembered.of_same rfl rfl rfl
        (Int.le_add_of_nonneg_right (Int.natCast_nonneg _))
  | fire =>
      simp only [Timer.step] at hStep
      split at hStep
      · split at hStep
        · obtain rfl := Option.some.inj hStep
          exact ⟨fun _ => .inl rfl, hRemembered.never⟩
        · cases hStep
      · cases hStep
  | runTask input =>
      simp only [Timer.step] at hStep
      split at hStep
      · cases hStep
      · rename_i task tasks hTasks
        obtain rfl := Option.some.inj hStep
        have hBegin : Remembered (t.begin input) :=
          hRemembered.of_same rfl rfl rfl le_rfl
        have hExec := hBegin.exec hGuard task
        exact hExec.of_same rfl rfl rfl le_rfl
  | wake input =>
      have hNever : NeverDisarms (t.begin input) := hRemembered.never
      exact remembered_onExpire hNever hGuard hStep

/-- **No timer is forgotten.**  In every run in which `timerfd_settime` succeeds,
with units in the queue the timerfd expired and was not read, or it is armed for
an instant not after the smallest time stamp or not after the next nanosecond;
nothing that is written to it disarms it; and while a unit is due, the timerfd
expired already or will within a nanosecond. -/
theorem never_forgotten {start : Int} {actions : List (TimerAction Cb Owner)}
    (hGuard : Guarded (Timer.step Chrono.exact) SettimeSucceeds (initial impl start)
      actions)
    (hRun : run (Timer.step Chrono.exact) (initial impl start) actions = some t) :
    (t.units ≠ 0 → t.timerFd.expired = true ∨
        ∃ instant, t.timerFd.armed = some instant ∧
          ((∀ unit ∈ t.units, instant ≤ unit.timeStamp) ∨ instant ≤ t.now + 1)) ∧
      (∀ spec ∈ t.written, ¬ (spec.tvSec = 0 ∧ spec.tvNsec = 0)) ∧
      ((∃ unit ∈ t.units, unit.timeStamp ≤ t.now) → t.timerFd.expired = true ∨
        ∃ instant, t.timerFd.armed = some instant ∧ instant ≤ t.now + 1) := by
  have hRemembered : Remembered t :=
    run_invariant (fun _ _ _ hRemembered hGuard hStep => hRemembered.step hGuard hStep)
      (remembered_initial impl start) hGuard hRun
  refine ⟨hRemembered.alarmed, fun spec hSpec => (hRemembered.never spec hSpec).nonzero,
    ?_⟩
  rintro ⟨unit, hUnit, hDue⟩
  have hSome : t.units ≠ 0 := by
    intro hEmpty
    rw [hEmpty] at hUnit
    exact Multiset.notMem_zero _ hUnit
  apply (hRemembered.alarmed hSome).imp_right
  rintro ⟨instant, hArmed, hBound⟩
  refine ⟨instant, hArmed, ?_⟩
  rcases hBound with hAll | hSoon
  · have hFirst := hAll unit hUnit
    omega
  · exact hSoon

/-- The second unit is first, and less than a millisecond away when the timerfd is
armed for it, so the alarm is for the next nanosecond; the wake-up comes too early
and arms it again. -/
theorem never_forgotten_early :
    let impl : TimerQueue Nat Unit := PriorityQueue.ofList TimerUnit.timeStamp
    let actions : List (TimerAction Nat Unit) :=
      [.postOnceTask 1 () 30, .postOnceTask 2 () 1, .post 0, .post 0, .runTask {},
        .runTask { elapsed := [5, 1] }, .passes 1, .fire, .wake { fuel := 1 }]
    ∃ t, run (step Chrono.exact) (initial impl 0) actions = some t ∧
      t.units.card = 2 ∧ (t.timerFd.expired = true ∨
        ∃ instant, t.timerFd.armed = some instant ∧
          ((∀ unit ∈ t.units, instant ≤ unit.timeStamp) ∨ instant ≤ t.now + 1)) := by
  intro impl actions
  have hRuns : Guarded (step Chrono.exact) SettimeSucceeds (initial impl 0) actions ∧
      (run (step Chrono.exact) (initial impl 0) actions).any (fun t =>
        t.units.card = 2) = true := by
    decide +kernel
  obtain ⟨t, hRun, hCard⟩ := (Option.any_eq_true _ _).mp hRuns.2
  have hCard : t.units.card = 2 := of_decide_eq_true hCard
  have hSome : t.units ≠ 0 := by
    intro hEmpty
    rw [hEmpty] at hCard
    cases hCard
  exact ⟨t, hRun, hCard, (never_forgotten hRuns.1 hRun).1 hSome⟩

end Timer
end Timers
end KZEvent
