import KZEvent.Timers.Alarm
import KZEvent.Timers.Cadence
import Mathlib.Algebra.GroupWithZero.Nat

/-!
# Timers are on time

How late a timer is handed over is up to the io thread: it answers an alarm within
some time, and one of its steps takes some time.  Nothing is added to that but the
nanosecond for which an alarm in the past is set.  Arming the timerfd anew forgets an
expiry that was not read; but that is done for a unit which is first in the queue and
not past when it is pushed, so nothing that is due is behind it.

A repeated unit goes back into the queue within the step that hands it over.  So its
hand-overs follow each other within the interval and that delay, which bounds their
rate from below as `repeat_timer_cadence` does from above.
-/

namespace KZEvent
namespace Timers

open Foundation

universe u

variable {Cb Owner : Type u} {impl : TimerQueue Cb Owner}

/-! ## The alarm -/

/-- A timer, and the instant of the alarm its timerfd last expired for. -/
structure Watched {Cb Owner : Type u} (impl : TimerQueue Cb Owner) where
  timer : Timer impl
  rang : Option Int

namespace Watched

def initial (impl : TimerQueue Cb Owner) (now : Int) : Watched impl where
  timer := .initial impl now
  rang := none

/-- A step of the timer; the alarm is noted down when the timerfd expires. -/
def step (w : Watched impl) (action : TimerAction Cb Owner) : Option (Watched impl) :=
  (w.timer.step Chrono.exact action).map fun next =>
    { timer := next
      rang := match action with
        | .fire => w.timer.timerFd.armed
        | _ => w.rang }

/-- The alarm that was not answered yet, or the one that is set. -/
def alarm (w : Watched impl) : Option Int :=
  if w.timer.timerFd.expired then w.rang else w.timer.timerFd.armed

/-- No alarm waits for the io thread longer than `latency`. -/
def Answered (latency : Nat) (w : Watched impl) : Prop :=
  ∀ instant ∈ w.alarm, w.timer.now ≤ instant + latency

instance (latency : Nat) (w : Watched impl) : Decidable (w.Answered latency) :=
  inferInstanceAs (Decidable (∀ instant ∈ w.alarm, _))

/-- An alarm is answered within `latency`, a step of the io thread takes at most
`work`, and `timerfd_settime` succeeds. -/
def OnTime (latency work : Nat) (w : Watched impl) : TimerAction Cb Owner → Prop
  | .runTask input => input.settimeFault = none ∧ input.elapsed.sum ≤ work
  | .wake input =>
      input.settimeFault = none ∧ input.elapsed.sum ≤ work ∧ w.Answered latency
  | _ => True

instance (latency work : Nat) (w : Watched impl) (action : TimerAction Cb Owner) :
    Decidable (w.OnTime latency work action) :=
  match action with
  | .runTask _ | .wake _ => inferInstanceAs (Decidable (_ ∧ _))
  | .postOnceTask _ _ _ | .postRepeatTask _ _ _ | .cancelTask _ | .post _
  | .passes _ | .fire => .isTrue trivial

end Watched

namespace Timer

variable {t next : Timer impl} {work : Nat}

/-- When the step of the io thread is over, at the latest. -/
def stepEnd (t : Timer impl) : Int :=
  t.now + t.elapsed.sum

theorem stepEnd_readClock (t : Timer impl) : t.readClock.stepEnd = t.stepEnd := by
  show t.now + (t.elapsed.headD 0 : Nat) + (t.elapsed.tail.sum : Nat) =
    t.now + (t.elapsed.sum : Nat)
  cases t.elapsed with
  | nil => exact Int.add_zero _
  | cons first elapsed =>
      rw [List.headD_cons, List.tail_cons, List.sum_cons]
      omega

theorem now_le_stepEnd (t : Timer impl) : t.now ≤ t.stepEnd :=
  Int.le_add_of_nonneg_right (Int.natCast_nonneg _)

/-- The timerfd is armed for an instant that is hardly behind any unit. -/
structure Rings (work : Nat) (t : Timer impl) : Prop where
  waiting : t.timerFd.expired = false
  armed : ∃ instant, t.timerFd.armed = some instant ∧
    ∀ unit ∈ t.units, instant ≤ unit.timeStamp + work + 1

theorem timerFd_setNextWakeTime (hFault : t.settimeFault = none) (time : Int) :
    (t.setNextWakeTime Chrono.exact time).timerFd =
      .settime t.readClock.now (wakeSpec Chrono.exact time t.readClock.now) := by
  have hFault' : t.readClock.settimeFault = none := hFault
  unfold setNextWakeTime
  dsimp only
  rw [hFault']

/-- Arming for the first unit, in a step that ends hardly behind any. -/
theorem rings_setNextWakeTime (hFault : t.settimeFault = none) {time : Int}
    (hFirst : ∀ unit ∈ t.units, time ≤ unit.timeStamp)
    (hEnd : ∀ unit ∈ t.units, t.stepEnd ≤ unit.timeStamp + work) :
    Rings work (t.setNextWakeTime Chrono.exact time) := by
  have hUnits : (t.setNextWakeTime Chrono.exact time).units = t.units :=
    congrArg impl.items (quiet_setNextWakeTime t time).timerQueue
  refine ⟨?_, _, (setNextWakeTime_armed hFault time).1, fun unit hUnit => ?_⟩
  · rw [timerFd_setNextWakeTime hFault]
    rfl
  · rw [hUnits] at hUnit
    have hFirst := hFirst unit hUnit
    have hEnd := hEnd unit hUnit
    have hRead := t.readClock.now_le_stepEnd
    rw [stepEnd_readClock] at hRead
    rcases (wakeSpec_exact time t.readClock.now).2 with hEarly | hNext
    · omega
    · omega

/-- The turns of a wake-up leave the timerfd alone, and the last one may arm it. -/
theorem rings_onExpire (hFault : t.settimeFault = none)
    (hWork : t.stepEnd ≤ t.now + work) {fuel : Nat}
    (hWake : t.onExpire Chrono.exact fuel = some next) :
    next.timerFd.expired = false ∧ (next.units = 0 ∨ Rings work next) := by
  cases hPop : impl.pop t.timerQueue with
  | none =>
      rw [onExpire_of_empty hPop] at hWake
      obtain rfl := Option.some.inj hWake
      exact ⟨rfl, .inl (impl.items_of_pop_none _ hPop)⟩
  | some popped =>
      rw [onExpire_of_pop hPop] at hWake
      have hNow : t.now ≤ t.readFd.readClock.now := (quiet_readClock t.readFd).now
      have hStart : t.readFd.readClock.settimeFault = none ∧
          t.readFd.readClock.timerFd.expired = false ∧
          t.readFd.readClock.stepEnd ≤ t.readFd.readClock.now + work := by
        refine ⟨hFault, rfl, ?_⟩
        rw [stepEnd_readClock]
        exact hWork.trans (by omega)
      generalize t.readFd.readClock = read at hWake hStart
      have hAgain (s s' : Timer impl)
          (hInv : s.settimeFault = none ∧ s.timerFd.expired = false ∧
            s.stepEnd ≤ read.now + work)
          (hTurn : s.expireTurn Chrono.exact read.now = .again s') :
          s'.settimeFault = none ∧ s'.timerFd.expired = false ∧
            s'.stepEnd ≤ read.now + work := by
        have hExpired := expired Chrono.exact read.now s
        rw [hTurn] at hExpired
        cases hExpired with
        | drops | ends => exact hInv
        | repeats =>
            obtain ⟨hFault, hWaiting, hEnd⟩ := hInv
            rw [← stepEnd_readClock] at hEnd
            exact ⟨hFault, hWaiting, hEnd⟩
      have hDone (s s' : Timer impl)
          (hInv : s.settimeFault = none ∧ s.timerFd.expired = false ∧
            s.stepEnd ≤ read.now + work)
          (hTurn : s.expireTurn Chrono.exact read.now = .done s') :
          s'.timerFd.expired = false ∧ (s'.units = 0 ∨ Rings work s') := by
        obtain ⟨hFault, hWaiting, hEnd⟩ := hInv
        have hExpired := expired Chrono.exact read.now s
        rw [hTurn] at hExpired
        cases hExpired with
        | empty hPop => exact ⟨hWaiting, .inl (impl.items_of_pop_none _ hPop)⟩
        | early hPop hEarly =>
            rename_i first rest
            have hFirst (unit : TimerUnit Cb Owner) (hUnit : unit ∈ s.units) :
                first.timeStamp ≤ unit.timeStamp :=
              PriorityQueue.top_le (PriorityQueue.top_of_pop hPop) hUnit
            have hRings : Rings work (s.setNextWakeTime Chrono.exact first.timeStamp) := by
              refine rings_setNextWakeTime hFault hFirst fun unit hUnit => ?_
              have hBehind := hFirst unit hUnit
              omega
            exact ⟨hRings.waiting, .inr hRings⟩
      exact loop_rule hAgain hDone hStart hWake

end Timer

/-! ## The alarm is set -/

namespace Watched

open Timer

variable {w next : Watched impl} {latency work : Nat}

/-- With units in the queue there is an alarm, and it is hardly behind any. -/
structure Timely (work : Nat) (w : Watched impl) : Prop where
  once : w.timer.timerFd.expired = true → w.timer.timerFd.armed = none
  alarm : w.timer.units ≠ 0 → ∃ instant, w.alarm = some instant ∧
    ∀ unit ∈ w.timer.units, instant ≤ unit.timeStamp + work + 1

theorem timely_initial (impl : TimerQueue Cb Owner) (now : Int) :
    Timely work (initial impl now) where
  once _ := rfl
  alarm hSome := absurd impl.items_empty hSome

theorem timely_of_rings (hRings : Rings work w.timer) : Timely work w := by
  obtain ⟨instant, hArmed, hBound⟩ := hRings.armed
  have hWaiting := hRings.waiting
  refine ⟨fun hExpired => ?_, fun _ => ⟨instant, ?_, hBound⟩⟩
  · rw [hWaiting] at hExpired
    cases hExpired
  · rw [Watched.alarm, hWaiting]
    exact hArmed

theorem Timely.of_same (hTimely : Timely work w)
    (hFd : next.timer.timerFd = w.timer.timerFd) (hRang : next.rang = w.rang)
    (hUnits : next.timer.units = w.timer.units) : Timely work next where
  once := by
    rw [hFd]
    exact hTimely.once
  alarm := by
    rw [Watched.alarm, hFd, hRang, hUnits]
    exact hTimely.alarm

/-- The timerfd expires: the alarm stays what it was. -/
theorem Timely.fires (hTimely : Timely work w) {instant : Int}
    (hArmed : w.timer.timerFd.armed = some instant) :
    Timely work
      { timer := { w.timer with timerFd := { armed := none, expired := true } }
        rang := w.timer.timerFd.armed } where
  once _ := rfl
  alarm := by
    have hWaiting : w.timer.timerFd.expired = false := by
      by_contra hExpired
      rw [Bool.not_eq_false] at hExpired
      rw [hTimely.once hExpired] at hArmed
      cases hArmed
    have hSame : w.alarm = w.timer.timerFd.armed := by
      rw [Watched.alarm, hWaiting]
      rfl
    have hAlarm := hTimely.alarm
    rw [hSame] at hAlarm
    exact hAlarm

/-- A new unit that is not first leaves the alarm as it is. -/
theorem Timely.push (hTimely : Timely work w) {unit first : TimerUnit Cb Owner}
    {queue : impl.Queue} (hUnits : impl.items queue = unit ::ₘ w.timer.units)
    (hTop : impl.top queue = some first) (hLater : first.timeStamp ≠ unit.timeStamp)
    (hFd : next.timer.timerFd = w.timer.timerFd) (hRang : next.rang = w.rang)
    (hQueue : next.timer.timerQueue = queue) : Timely work next where
  once := by
    rw [hFd]
    exact hTimely.once
  alarm := by
    have hFirst : first ∈ w.timer.units := by
      have hMem := PriorityQueue.top_mem hTop
      rw [hUnits, Multiset.mem_cons] at hMem
      exact hMem.resolve_left (fun hSame => hLater (congrArg _ hSame))
    have hSome : w.timer.units ≠ 0 := by
      intro hEmpty
      rw [hEmpty] at hFirst
      exact Multiset.notMem_zero _ hFirst
    have hNext : next.timer.units = unit ::ₘ w.timer.units := by
      rw [Timer.units, hQueue, hUnits]
    obtain ⟨instant, hAlarm, hBound⟩ := hTimely.alarm hSome
    rw [Watched.alarm, hFd, hRang, hNext]
    refine fun _ => ⟨instant, hAlarm, fun other hOther => ?_⟩
    rcases Multiset.mem_cons.mp hOther with rfl | hOther
    · have hBehind : first.timeStamp ≤ other.timeStamp :=
        PriorityQueue.top_le hTop (hUnits ▸ Multiset.mem_cons_self _ _)
      have hBound := hBound first hFirst
      omega
    · exact hBound other hOther

/-- A new unit is first, and the timerfd is armed for it; or it is not. -/
theorem Timely.pushUnit {t : Timer impl} {rang : Option Int}
    (hTimely : Timely work { timer := t, rang := rang })
    (hFault : t.settimeFault = none) (hWork : t.stepEnd ≤ t.now + work) (cb : Cb)
    (owner : Owner) {timeout : Int} (hTimeout : 0 ≤ timeout) (repeatInterval : Int)
    (timerId : Nat) :
    Timely work
      { timer := t.pushUnit Chrono.exact cb owner timeout repeatInterval timerId
        rang := rang } := by
  have hNow := t.quiet_readClock.now
  unfold Timer.pushUnit
  dsimp only
  split
  · rename_i first hTop
    split
    · rename_i hSame
      have hStamp : t.readClock.now ≤ first.timeStamp := by
        rw [hSame]
        exact Int.le_add_of_nonneg_right hTimeout
      refine timely_of_rings (rings_setNextWakeTime ?_ ?_ ?_)
      · exact hFault
      · exact fun unit hUnit => PriorityQueue.top_le hTop hUnit
      · intro unit hUnit
        have hBehind : first.timeStamp ≤ unit.timeStamp :=
          PriorityQueue.top_le hTop hUnit
        show t.readClock.stepEnd ≤ _
        rw [stepEnd_readClock]
        omega
    · rename_i hLater
      exact hTimely.push (impl.items_push _ _) hTop hLater rfl rfl rfl
  · rename_i hTop
    have hMem : ∃ unit, unit ∈ impl.items (impl.push t.timerQueue
        ⟨cb, owner, Chrono.exact.add t.readClock.now timeout, repeatInterval,
          timerId⟩) := ⟨_, by rw [impl.items_push]; exact Multiset.mem_cons_self _ _⟩
    obtain ⟨unit, hUnit⟩ := hMem
    obtain ⟨first, hFirst⟩ := PriorityQueue.exists_top hUnit
    exact absurd (hFirst.symm.trans hTop) nofun

end Watched

/-! ## What is handed over -/

namespace Timer

variable {t next : Timer impl} {slack work : Nat}

/-- The hand-overs of one timer. -/
def handed (t : Timer impl) (timerId : Nat) : List (Dispatched Cb Owner) :=
  t.dispatched.filter fun d => d.unit.timerId = timerId

/-- What was handed over was not overdue by more than `slack`, and a unit that was
handed over before is due an interval after that, give or take a step. -/
structure Punctual (slack work : Nat) (t : Timer impl) : Prop where
  due : ∀ d ∈ t.dispatched, d.now ≤ d.unit.timeStamp + slack
  again : ∀ unit ∈ t.units, ∀ last ∈ (t.handed unit.timerId).getLast?,
    unit.timeStamp ≤ last.now + unit.repeatInterval + work
  steady : ∀ timerId, (t.handed timerId).IsChain
    fun (d later : Dispatched Cb Owner) =>
      later.now ≤ d.now + later.unit.repeatInterval + work + slack

theorem punctual_initial (impl : TimerQueue Cb Owner) (now : Int) :
    Punctual slack work (initial impl now) where
  due _ hMem := by cases hMem
  again _ _ _ hLast := by cases hLast
  steady _ := .nil

theorem handed_of_dispatched (hDispatched : next.dispatched = t.dispatched) :
    next.handed = t.handed := by
  ext1 timerId
  rw [handed, handed, hDispatched]

/-- Nothing is handed over and nothing is queued. -/
theorem Punctual.fewer (hPunctual : Punctual slack work t)
    (hUnits : ∀ unit ∈ next.units, unit ∈ t.units)
    (hDispatched : next.dispatched = t.dispatched) : Punctual slack work next := by
  have hHanded := handed_of_dispatched hDispatched
  refine ⟨?_, ?_, ?_⟩
  · rw [hDispatched]
    exact hPunctual.due
  · rw [hHanded]
    exact fun unit hUnit => hPunctual.again unit (hUnits unit hUnit)
  · rw [hHanded]
    exact hPunctual.steady

/-- A unit is queued under an id that was never handed over. -/
theorem Punctual.queues (hPunctual : Punctual slack work t)
    {unit : TimerUnit Cb Owner} (hUnits : next.units = unit ::ₘ t.units)
    (hDispatched : next.dispatched = t.dispatched)
    (hNew : ∀ d ∈ t.dispatched, d.unit.timerId ≠ unit.timerId) :
    Punctual slack work next := by
  have hHanded := handed_of_dispatched hDispatched
  refine ⟨?_, ?_, ?_⟩
  · rw [hDispatched]
    exact hPunctual.due
  · rw [hHanded, hUnits]
    intro other hOther last hLast
    rcases Multiset.mem_cons.mp hOther with rfl | hOther
    · have hMem := List.mem_filter.mp (List.mem_of_getLast? hLast)
      exact absurd (of_decide_eq_true hMem.2) (hNew last hMem.1)
    · exact hPunctual.again other hOther last hLast
  · rw [hHanded]
    exact hPunctual.steady

/-- The first unit is handed over, and may go back an interval later. -/
theorem Punctual.hands (hPunctual : Punctual slack work t) (hQueued : Queued t)
    {unit : TimerUnit Cb Owner} {rest : impl.Queue} {now : Int}
    (hPop : impl.pop t.timerQueue = some (unit, rest))
    (hLate : now ≤ unit.timeStamp + slack) (hEnd : next.now ≤ now + work)
    (hDispatched : next.dispatched = t.dispatched ++ [{ unit := unit, now := now }])
    (hUnits : ∀ other ∈ next.units, other ∈ impl.items rest ∨
      other = { unit with timeStamp := next.now + unit.repeatInterval }) :
    Punctual slack work next := by
  have hPopped := popped_mem_units hPop
  have hGone := hQueued.gone_of_pop hPop
  have hSame : next.handed unit.timerId =
      t.handed unit.timerId ++ [{ unit := unit, now := now }] := by
    rw [handed, handed, hDispatched, List.filter_append]
    exact congrArg _ (List.filter_cons_of_pos (decide_eq_true rfl))
  have hOther (timerId : Nat) (hId : unit.timerId ≠ timerId) :
      next.handed timerId = t.handed timerId := by
    rw [handed, handed, hDispatched, List.filter_append]
    refine (congrArg _ (List.filter_cons_of_neg ?_)).trans (List.append_nil _)
    exact fun hSome => hId (of_decide_eq_true hSome)
  refine ⟨fun d hMem => ?_, fun other hMem last hLast => ?_, fun timerId => ?_⟩
  · rw [hDispatched] at hMem
    rcases List.mem_append.mp hMem with hMem | hMem
    · exact hPunctual.due d hMem
    · obtain rfl := List.mem_singleton.mp hMem
      exact hLate
  · rcases hUnits other hMem with hOld | rfl
    · -- No other unit has the id of the one handed over.
      have hId : unit.timerId ≠ other.timerId := by
        intro hId
        exact hGone (Multiset.mem_map.mpr ⟨other, hOld, hId.symm⟩)
      rw [hOther other.timerId hId] at hLast
      exact hPunctual.again other (mem_units_of_pop hPop hOld) last hLast
    · rw [hSame, List.getLast?_concat] at hLast
      obtain rfl := Option.some.inj hLast
      show next.now + unit.repeatInterval ≤ now + unit.repeatInterval + work
      omega
  · by_cases hId : unit.timerId = timerId
    · rw [← hId, hSame, List.isChain_append]
      refine ⟨hPunctual.steady _, .singleton _, fun last hLast later hLater => ?_⟩
      obtain rfl := Option.some.inj hLater
      have hAgain := hPunctual.again unit hPopped last hLast
      show now ≤ last.now + unit.repeatInterval + work + slack
      omega
    · rw [hOther timerId hId]
      exact hPunctual.steady timerId

/-- What holds between the turns of a wake-up that read the clock as `now`. -/
structure Handing (slack work : Nat) (now : Int) (t : Timer impl) : Prop where
  sound : Sound t
  punctual : Punctual slack work t
  reading : now ≤ t.now
  ends : t.stepEnd ≤ now + work
  late : ∀ unit ∈ t.units, now ≤ unit.timeStamp + slack

theorem Sound.changes (hSound : Sound t)
    (hChanges : Changes Chrono.exact PostAllowed t next) : Sound next := by
  induction hChanges with
  | refl => exact hSound
  | tail _ hLast ih => exact ih.change hLast

/-- A unit that goes back into the queue is not overdue. -/
theorem Handing.again {now : Int} (hHanding : Handing slack work now t)
    (hTurn : t.expireTurn Chrono.exact now = .again next) :
    Handing slack work now next := by
  have hAny : Changes Chrono.exact PostAllowed t next ∧ now ≤ next.now :=
    changes_again hHanding.reading hTurn
  obtain ⟨hChanges, hReading⟩ := hAny
  have hSound : Sound next := hHanding.sound.changes hChanges
  have hExpired := expired Chrono.exact now t
  rw [hTurn] at hExpired
  cases hExpired with
  | drops hPop =>
      have hFewer {other} (hOther : other ∈ _) := mem_units_of_pop hPop hOther
      exact
        { sound := hSound
          punctual := hHanding.punctual.fewer (fun _ hOther => hFewer hOther) rfl
          reading := hReading
          ends := hHanding.ends
          late := fun other hOther => hHanding.late other (hFewer hOther) }
  | ends hPop hDue hAlive hOnce =>
      have hLate := hHanding.late _ (popped_mem_units hPop)
      have hEnd := t.now_le_stepEnd.trans hHanding.ends
      exact
        { sound := hSound
          punctual := hHanding.punctual.hands hHanding.sound.queued hPop hLate hEnd rfl
            fun _ hOther => .inl hOther
          reading := hReading
          ends := hHanding.ends
          late := fun other hOther =>
            hHanding.late other (mem_units_of_pop hPop hOther) }
  | repeats hPop hDue hAlive hRepeats =>
      have hLate := hHanding.late _ (popped_mem_units hPop)
      have hInterval := hHanding.sound.ordered.intervals _ (popped_mem_units hPop)
      have hEnds : t.readClock.stepEnd ≤ now + work := by
        rw [stepEnd_readClock]
        exact hHanding.ends
      have hEnd := t.readClock.now_le_stepEnd.trans hEnds
      rename_i unit rest
      let again : TimerUnit Cb Owner :=
        { unit with timeStamp := t.readClock.now + unit.repeatInterval }
      have hUnits (other : TimerUnit Cb Owner)
          (hOther : other ∈ impl.items (impl.push rest again)) :
          other ∈ impl.items rest ∨ other = again := by
        rw [impl.items_push] at hOther
        exact (Multiset.mem_cons.mp hOther).symm
      refine
        { sound := hSound
          punctual := hHanding.punctual.hands hHanding.sound.queued hPop hLate hEnd rfl
            hUnits
          reading := hReading
          ends := hEnds
          late := fun other hOther => ?_ }
      rcases hUnits other hOther with hOld | rfl
      · exact hHanding.late other (mem_units_of_pop hPop hOld)
      · have hReading : now ≤ t.readClock.now := hReading
        show now ≤ t.readClock.now + unit.repeatInterval + slack
        omega

/-- A wake-up in which nothing is overdue by more than `slack` at its end. -/
theorem punctual_onExpire (hSound : Sound t) (hPunctual : Punctual slack work t)
    (hWork : t.stepEnd ≤ t.now + work)
    (hLate : ∀ unit ∈ t.units, t.stepEnd ≤ unit.timeStamp + slack) {fuel : Nat}
    (hWake : t.onExpire Chrono.exact fuel = some next) :
    Punctual slack work next := by
  cases hPop : impl.pop t.timerQueue with
  | none =>
      rw [onExpire_of_empty hPop] at hWake
      obtain rfl := Option.some.inj hWake
      exact hPunctual.fewer (fun _ hUnit => hUnit) rfl
  | some popped =>
      rw [onExpire_of_pop hPop] at hWake
      have hQuiet : Quiet t t.readFd.readClock := t.quiet_readFd.trans (quiet_readClock _)
      have hEnd : t.readFd.readClock.stepEnd = t.stepEnd := stepEnd_readClock t.readFd
      have hStart : Handing slack work t.readFd.readClock.now t.readFd.readClock := by
        refine ⟨hSound.change (.quiet hQuiet), hPunctual.fewer (fun _ hUnit => hUnit) rfl,
          le_rfl, ?_, fun unit hUnit => ?_⟩
        · have hNow := hQuiet.now
          omega
        · have hRead := t.readFd.readClock.now_le_stepEnd
          have hLate := hLate unit hUnit
          omega
      generalize t.readFd.readClock = read at hWake hStart
      have hDone (s s' : Timer impl) (hInv : Handing slack work read.now s)
          (hTurn : s.expireTurn Chrono.exact read.now = .done s') :
          Punctual slack work s' := by
        have hExpired := expired Chrono.exact read.now s
        rw [hTurn] at hExpired
        cases hExpired with
        | empty => exact hInv.punctual
        | early =>
            have hQuiet (time : Int) : Quiet s (s.setNextWakeTime Chrono.exact time) :=
              quiet_setNextWakeTime s time
            refine hInv.punctual.fewer (fun unit hUnit => ?_) (hQuiet _).dispatched
            rw [units, (hQuiet _).timerQueue] at hUnit
            exact hUnit
      exact loop_rule (fun _ _ hInv hTurn => hInv.again hTurn) hDone hStart hWake

/-- An id that was not posted before was not handed over. -/
theorem Sound.not_handed (hSound : Sound t) {task : TimerTask Cb Owner}
    {tasks : List (TimerTask Cb Owner)} {timerId : Nat}
    (hTasks : t.tasks = task :: tasks) (hId : task.postId = some timerId) :
    ∀ d ∈ t.dispatched, d.unit.timerId ≠ timerId := by
  intro d hMem hSame
  obtain ⟨post, hPost, now, hMade⟩ := hSound.handed.made d hMem
  exact absurd (hSame ▸ postId_of_unit hMade) (hSound.issued.fresh hTasks hId hPost)

end Timer

/-! ## Steps -/

namespace Watched

open Timer

variable {w next : Watched impl} {latency work : Nat}

/-- What holds between the steps of the io thread. -/
structure Kept (latency work : Nat) (w : Watched impl) : Prop where
  sound : Sound w.timer
  punctual : Punctual (latency + 2 * work + 1) work w.timer
  timely : Timely work w

theorem kept_initial (impl : TimerQueue Cb Owner) (now : Int) :
    Kept latency work (initial impl now) where
  sound := sound_initial impl now
  punctual := punctual_initial impl now
  timely := timely_initial impl now

/-- While no alarm waits longer than `latency`, no unit is overdue by more than that and
a step. -/
theorem Timely.overdue_le (hTimely : Timely work w) (hAnswered : w.Answered latency)
    {unit : TimerUnit Cb Owner} (hUnit : unit ∈ w.timer.units) :
    w.timer.now ≤ unit.timeStamp + latency + work + 1 := by
  have hSome : w.timer.units ≠ 0 := by
    intro hEmpty
    rw [hEmpty] at hUnit
    exact Multiset.notMem_zero _ hUnit
  obtain ⟨instant, hAlarm, hBound⟩ := hTimely.alarm hSome
  have hLatency := hAnswered instant hAlarm
  have hBound := hBound unit hUnit
  omega

/-- A post is executed. -/
theorem Kept.pushUnit (hKept : Kept latency work w) {task : TimerTask Cb Owner}
    {tasks : List (TimerTask Cb Owner)} {input : IoInput} {timerId : Nat}
    (hTasks : w.timer.tasks = task :: tasks) (hId : task.postId = some timerId)
    (hFault : input.settimeFault = none) (hWork : input.elapsed.sum ≤ work) (cb : Cb)
    (owner : Owner) {timeout : Int} (hTimeout : 0 ≤ timeout) (repeatInterval : Int) :
    let pushed := (w.timer.begin input).pushUnit Chrono.exact cb owner timeout
      repeatInterval timerId
    Punctual (latency + 2 * work + 1) work pushed ∧
      Timely work { timer := pushed, rang := w.rang } := by
  intro pushed
  have hQuiet := quiet_pushUnit Chrono.exact (w.timer.begin input) cb owner timeout
    repeatInterval timerId
  have hEnd : (w.timer.begin input).stepEnd ≤ (w.timer.begin input).now + work :=
    Int.add_le_add_left (Int.ofNat_le.mpr hWork) _
  have hBegin : Timely work { timer := w.timer.begin input, rang := w.rang } :=
    hKept.timely.of_same rfl rfl rfl
  refine ⟨?_, hBegin.pushUnit hFault hEnd cb owner hTimeout repeatInterval timerId⟩
  let unit : TimerUnit Cb Owner :=
    ⟨cb, owner, (w.timer.begin input).readClock.now + timeout, repeatInterval, timerId⟩
  have hUnits : pushed.units = unit ::ₘ w.timer.units := by
    rw [Timer.units, hQuiet.timerQueue]
    exact impl.items_push _ _
  exact hKept.punctual.queues hUnits hQuiet.dispatched
    (hKept.sound.not_handed hTasks hId)

/-- A task is executed. -/
theorem Kept.exec (hKept : Kept latency work w) {task : TimerTask Cb Owner}
    {tasks : List (TimerTask Cb Owner)} {input : IoInput}
    (hTasks : w.timer.tasks = task :: tasks) (hFault : input.settimeFault = none)
    (hWork : input.elapsed.sum ≤ work) :
    let executed := (w.timer.begin input).exec Chrono.exact task
    Punctual (latency + 2 * work + 1) work executed ∧
      Timely work { timer := executed, rang := w.rang } := by
  have hDuration (timeoutMs : Nat) : 0 ≤ Chrono.exact.milliseconds timeoutMs := by
    show 0 ≤ (timeoutMs : Int) * 1000000
    omega
  cases task with
  | postOnce cb owner timeoutMs timerId =>
      exact hKept.pushUnit hTasks rfl hFault hWork cb owner (hDuration timeoutMs) _
  | postRepeat cb owner timeoutMs timerId =>
      exact hKept.pushUnit hTasks rfl hFault hWork cb owner (hDuration timeoutMs) _
  | cancel timerId =>
      exact ⟨hKept.punctual.fewer (fun _ hUnit => hUnit) rfl,
        hKept.timely.of_same rfl rfl rfl⟩

/-- The io thread wakes up: what is overdue is handed over, and an alarm is set for what
is left. -/
theorem Kept.wake (hKept : Kept latency work w) {input : IoInput}
    (hFault : input.settimeFault = none) (hWork : input.elapsed.sum ≤ work)
    (hAnswered : w.Answered latency) {timer : Timer impl} {rang : Option Int}
    (hWake : (w.timer.begin input).onExpire Chrono.exact input.fuel = some timer) :
    Punctual (latency + 2 * work + 1) work timer ∧
      Timely work { timer := timer, rang := rang } := by
  have hSpent : (input.elapsed.sum : Int) ≤ work := Int.ofNat_le.mpr hWork
  have hEnd : (w.timer.begin input).stepEnd ≤ (w.timer.begin input).now + work :=
    Int.add_le_add_left hSpent _
  have hSound : Sound (w.timer.begin input) :=
    hKept.sound.change (.quiet (w.timer.quiet_begin input))
  have hPunctual : Punctual (latency + 2 * work + 1) work (w.timer.begin input) :=
    hKept.punctual.fewer (fun _ hUnit => hUnit) rfl
  constructor
  · refine punctual_onExpire hSound hPunctual hEnd (fun unit hUnit => ?_) hWake
    have hOverdue := hKept.timely.overdue_le hAnswered hUnit
    show w.timer.now + (input.elapsed.sum : Nat) ≤ _
    omega
  · obtain ⟨hWaiting, hEmpty | hRings⟩ := rings_onExpire hFault hEnd hWake
    · refine ⟨fun hExpired => ?_, fun hSome => absurd hEmpty hSome⟩
      rw [hWaiting] at hExpired
      cases hExpired
    · exact timely_of_rings hRings

theorem Kept.step (hKept : Kept latency work w) {action : TimerAction Cb Owner}
    (hAllowed : w.timer.PostAllowed action) (hOnTime : w.OnTime latency work action)
    (hStep : w.step action = some next) : Kept latency work next := by
  obtain ⟨timer, hTimer, rfl⟩ := Option.map_eq_some_iff.mp hStep
  have hSound : Sound timer := hKept.sound.changes (step_changes hAllowed hTimer)
  have hSame (hUnits : timer.units = w.timer.units)
      (hDispatched : timer.dispatched = w.timer.dispatched) :
      Punctual (latency + 2 * work + 1) work timer :=
    hKept.punctual.fewer (fun unit hUnit => hUnits ▸ hUnit) hDispatched
  cases action with
  | postOnceTask | postRepeatTask | cancelTask | passes =>
      obtain rfl := Option.some.inj hTimer
      exact ⟨hSound, hSame rfl rfl, hKept.timely.of_same rfl rfl rfl⟩
  | post index =>
      obtain ⟨task, -, rfl⟩ := Option.map_eq_some_iff.mp hTimer
      exact ⟨hSound, hSame rfl rfl, hKept.timely.of_same rfl rfl rfl⟩
  | fire =>
      simp only [Timer.step] at hTimer
      split at hTimer
      · rename_i instant hArmed
        split at hTimer
        · obtain rfl := Option.some.inj hTimer
          exact ⟨hSound, hSame rfl rfl, hKept.timely.fires hArmed⟩
        · cases hTimer
      · cases hTimer
  | runTask input =>
      simp only [Timer.step] at hTimer
      split at hTimer
      · cases hTimer
      · rename_i task tasks hTasks
        obtain rfl := Option.some.inj hTimer
        obtain ⟨hPunctual, hTimely⟩ := hKept.exec hTasks hOnTime.1 hOnTime.2
        exact ⟨hSound, hPunctual.fewer (fun _ hUnit => hUnit) rfl,
          hTimely.of_same rfl rfl rfl⟩
  | wake input =>
      obtain ⟨hFault, hWork, hAnswered⟩ := hOnTime
      obtain ⟨hPunctual, hTimely⟩ := hKept.wake hFault hWork hAnswered hTimer
      exact ⟨hSound, hPunctual, hTimely⟩

/-! ## The rate of a timer -/

/-- The hand-overs of a repeated timer follow each other within its interval and the
delay. -/
theorem Kept.close (hKept : Kept latency work w) {cb : Cb} {owner : Owner}
    {timeoutMs timerId : Nat}
    (hRepeat : .postRepeat cb owner timeoutMs timerId ∈ w.timer.ran) :
    Close (timeoutMs * 1000000 + latency + 3 * work + 1) (w.timer.handOvers timerId) := by
  refine (List.isChain_map _).mpr ?_
  refine (hKept.punctual.steady timerId).imp_of_mem_imp ?_
  intro d later _ hLater hSteady
  obtain ⟨hMem, hId⟩ := List.mem_filter.mp hLater
  obtain rfl := of_decide_eq_true hId
  have hInterval := hKept.sound.interval_eq (hKept.sound.handed.made later hMem) hRepeat
  rw [hInterval] at hSteady
  push_cast at hSteady
  omega

/-- The next hand-over is overdue by no more than that. -/
theorem Kept.now_le (hKept : Kept latency work w) (hAnswered : w.Answered latency)
    {cb : Cb} {owner : Owner} {timeoutMs timerId : Nat}
    (hRepeat : .postRepeat cb owner timeoutMs timerId ∈ w.timer.ran)
    (hAlive : .cancel timerId ∉ w.timer.ran) {last : Int}
    (hLast : last ∈ (w.timer.handOvers timerId).getLast?) :
    w.timer.now ≤ last + (timeoutMs * 1000000 + latency + 3 * work + 1) := by
  have hQueued := hKept.sound.queued.repeats cb owner timeoutMs timerId hRepeat hAlive
  obtain ⟨unit, hUnit, rfl⟩ := Multiset.mem_map.mp hQueued
  have hInterval := hKept.sound.interval_eq (hKept.sound.queued.made unit hUnit) hRepeat
  have hMap : (w.timer.handOvers unit.timerId).getLast? =
      (w.timer.handed unit.timerId).getLast?.map (·.now) := List.getLast?_map
  rw [hMap] at hLast
  obtain ⟨d, hFinal, rfl⟩ := Option.mem_map.mp hLast
  have hAgain := hKept.punctual.again unit hUnit d hFinal
  have hOverdue := hKept.timely.overdue_le hAnswered hUnit
  omega

/-- **Timers are on time.**  In every run with fewer than `2 ^ 64 - 1` posts, repeat
timeouts above zero and times that do not overflow, in which `timerfd_settime` succeeds
and the io thread answers an alarm within `latency` and takes at most `work` for a
step: a timer is handed over at most `latency` and two steps and a nanosecond after it
is due; nothing in the queue is overdue for longer than that; hand-overs of a repeated
timer follow each other within its interval and that delay and a step; and until it is
cancelled a window behind its first hand-over holds as many of them as that fits into
it, but one. -/
theorem timers_on_time {latency work : Nat} {start : Int}
    {actions : List (TimerAction Cb Owner)}
    (hAllowed : Guarded step (fun w => w.timer.PostAllowed) (initial impl start) actions)
    (hOnTime : Guarded step (OnTime latency work) (initial impl start) actions)
    (hRun : run step (initial impl start) actions = some w) :
    (∀ d ∈ w.timer.dispatched,
      d.unit.timeStamp ≤ d.now ∧ d.now ≤ d.unit.timeStamp + (latency + 2 * work + 1)) ∧
    (w.Answered latency → ∀ unit ∈ w.timer.units,
      w.timer.now ≤ unit.timeStamp + latency + work + 1) ∧
    ∀ cb owner timeoutMs timerId, .postRepeat cb owner timeoutMs timerId ∈ w.timer.ran →
      let within : Int := timeoutMs * 1000000 + latency + 3 * work + 1
      Close within (w.timer.handOvers timerId) ∧
      (.cancel timerId ∉ w.timer.ran → w.Answered latency → ∀ first last : Int,
        (∃ handOver ∈ (w.timer.handOvers timerId).head?, handOver ≤ first) →
        last ≤ w.timer.now →
        last - first ≤
          ((inWindow (first + 1) last (w.timer.handOvers timerId) : Int) + 1) *
            within) := by
  have hStep (s : Watched impl) (action : TimerAction Cb Owner) (s' : Watched impl)
      (hKept : Kept latency work s)
      (hGuard : s.timer.PostAllowed action ∧ s.OnTime latency work action)
      (hStep : s.step action = some s') : Kept latency work s' :=
    hKept.step hGuard.1 hGuard.2 hStep
  have hKept : Kept latency work w :=
    run_invariant hStep (kept_initial impl start) (hAllowed.and hOnTime) hRun
  refine ⟨fun d hMem => ⟨(hKept.sound.ordered.due d hMem).1, ?_⟩,
    fun hAnswered unit hUnit => hKept.timely.overdue_le hAnswered hUnit, ?_⟩
  · have hDue := hKept.punctual.due d hMem
    push_cast at hDue
    exact hDue
  intro cb owner timeoutMs timerId hRepeat within
  have hClose := hKept.close hRepeat
  refine ⟨hClose, fun hAlive hAnswered first last hFirst hLast => ?_⟩
  have hEnd (final : Int) (hFinal : final ∈ (w.timer.handOvers timerId).getLast?) :
      last ≤ final + within :=
    hLast.trans (hKept.now_le hAnswered hRepeat hAlive hFinal)
  cases hHandOvers : w.timer.handOvers timerId with
  | nil =>
      rw [hHandOvers] at hFirst
      obtain ⟨handOver, hNone, -⟩ := hFirst
      cases hNone
  | cons handOver handOvers =>
      rw [hHandOvers] at hFirst hClose hEnd
      obtain ⟨earliest, hHead, hEarly⟩ := hFirst
      obtain rfl := Option.some.inj hHead
      exact hClose.le_inWindow_mul (by omega) hEarly hEnd

/-- A timer of ten milliseconds whose alarms are answered within one and a half: it is
handed over three more times in the thirty-one milliseconds behind the first time,
where the bound asks for two. -/
theorem timers_on_time_late :
    let impl : TimerQueue Nat Unit := PriorityQueue.ofList TimerUnit.timeStamp
    let wake : List (TimerAction Nat Unit) :=
      [.passes 10500000, .fire, .wake { elapsed := [500, 300, 200], fuel := 4 }]
    let actions : List (TimerAction Nat Unit) :=
      [.postRepeatTask 1 () 10, .post 0, .runTask { elapsed := [500, 500] }] ++ wake ++
        wake ++ wake ++ wake
    ∃ w, run step (initial impl 0) actions = some w ∧
      w.timer.handOvers 1 = [10501500, 21002500, 31503500, 42004500] ∧
      Close 11503001 (w.timer.handOvers 1) ∧
      (42005000 - 10501500 : Int) ≤
        ((inWindow 10501501 42005000 (w.timer.handOvers 1) : Int) + 1) * 11503001 ∧
      ∀ d ∈ w.timer.dispatched, d.now ≤ d.unit.timeStamp + 1502001 := by
  intro impl wake actions
  have hRuns : (Guarded step (fun w => w.timer.PostAllowed) (initial impl 0) actions ∧
      Guarded step (OnTime 1500000 1000) (initial impl 0) actions) ∧
      (run step (initial impl 0) actions).any (fun w =>
        w.timer.handOvers 1 = [10501500, 21002500, 31503500, 42004500] ∧
          .postRepeat 1 () 10 1 ∈ w.timer.ran ∧ .cancel 1 ∉ w.timer.ran ∧
          w.Answered 1500000 ∧ 42005000 ≤ w.timer.now) = true := by
    decide +kernel
  obtain ⟨w, hRun, hReached⟩ := (Option.any_eq_true _ _).mp hRuns.2
  obtain ⟨hHandOvers, hRepeat, hAlive, hAnswered, hNow⟩ := of_decide_eq_true hReached
  obtain ⟨hDue, -, hRate⟩ := timers_on_time hRuns.1.1 hRuns.1.2 hRun
  obtain ⟨hClose, hMany⟩ := hRate 1 () 10 1 hRepeat
  refine ⟨w, hRun, hHandOvers, hClose, ?_, fun d hMem => (hDue d hMem).2⟩
  refine hMany hAlive hAnswered 10501500 42005000 ⟨10501500, ?_, le_rfl⟩ hNow
  rw [hHandOvers]
  rfl

end Watched
end Timers
end KZEvent
