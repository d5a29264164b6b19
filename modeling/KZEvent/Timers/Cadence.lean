import KZEvent.Foundation.Spacing
import KZEvent.Timers.DispatchRuns

/-!
# The cadence of a repeated timer

A unit that is handed over is queued again with a stamp one interval after a reading
of the clock that is not before the one which made it due.  So hand-overs of one timer
lie an interval apart, however late the wake-ups are: what was missed is not made up
for.  And the next hand-over is never due later than an interval from now.
-/

namespace KZEvent
namespace Timers

open Foundation

universe u

variable {Cb Owner : Type u} {impl : TimerQueue Cb Owner}

namespace Timer

variable {t next : Timer impl}

/-- An interval after a hand-over its timer is handed over again, at the earliest. -/
structure Paced (t : Timer impl) : Prop where
  apart : t.dispatched.Pairwise fun d later =>
    later.unit.timerId = d.unit.timerId →
      d.now + d.unit.repeatInterval ≤ later.unit.timeStamp
  ahead : ∀ d ∈ t.dispatched, ∀ unit ∈ t.units, unit.timerId = d.unit.timerId →
    d.now + d.unit.repeatInterval ≤ unit.timeStamp
  near : ∀ unit ∈ t.units, unit.repeatInterval ≠ 0 →
    unit.timeStamp ≤ t.now + unit.repeatInterval

theorem paced_initial (impl : TimerQueue Cb Owner) (now : Int) :
    Paced (initial impl now) := by
  have hUnits : (initial impl now).units = 0 := impl.items_empty
  refine ⟨.nil, nofun, ?_⟩
  rw [hUnits]
  exact fun _ hUnit => absurd hUnit (Multiset.notMem_zero _)

/-- Nothing is handed over and nothing is queued. -/
theorem Paced.fewer (hPaced : Paced t)
    (hUnits : ∀ unit ∈ next.units, unit ∈ t.units)
    (hDispatched : next.dispatched = t.dispatched) (hNow : t.now ≤ next.now) :
    Paced next where
  apart := by
    rw [hDispatched]
    exact hPaced.apart
  ahead d hMem unit hUnit := by
    rw [hDispatched] at hMem
    exact hPaced.ahead d hMem unit (hUnits unit hUnit)
  near unit hUnit hRepeats := by
    have hNear := hPaced.near unit (hUnits unit hUnit) hRepeats
    omega

/-- A unit is queued under an id that was never handed over. -/
theorem Paced.queues (hPaced : Paced t) (hIssued : Issued t) (hHanded : Handed t)
    {task : TimerTask Cb Owner} {tasks : List (TimerTask Cb Owner)}
    {unit : TimerUnit Cb Owner} (hTasks : t.tasks = task :: tasks)
    (hUnit : task.unit Chrono.exact t.now = some unit) :
    Paced { t with
      timerQueue := impl.push t.timerQueue unit
      tasks := tasks
      ran := t.ran ++ [task] } := by
  have hCases (other : TimerUnit Cb Owner)
      (hOther : other ∈ impl.items (impl.push t.timerQueue unit)) :
      other = unit ∨ other ∈ t.units := by
    rw [impl.items_push] at hOther
    exact Multiset.mem_cons.mp hOther
  refine ⟨hPaced.apart, fun d hMem other hOther hSame => ?_,
    fun other hOther hRepeats => ?_⟩
  · rcases hCases other hOther with rfl | hOld
    · obtain ⟨post, hPost, now, hMade⟩ := hHanded.made d hMem
      exact absurd (hSame ▸ postId_of_unit hMade)
        (hIssued.fresh hTasks (postId_of_unit hUnit) hPost)
    · exact hPaced.ahead d hMem other hOld hSame
  · rcases hCases other hOther with rfl | hOld
    · cases task with
      | postOnce cb owner timeoutMs timerId =>
          obtain rfl := Option.some.inj hUnit
          exact absurd rfl hRepeats
      | postRepeat cb owner timeoutMs timerId =>
          obtain rfl := Option.some.inj hUnit
          exact le_rfl
      | cancel timerId => cases hUnit
    · exact hPaced.near other hOld hRepeats

/-- The first unit is handed over, and may go back an interval later. -/
theorem Paced.hands (hPaced : Paced t) (hQueued : Queued t)
    {unit : TimerUnit Cb Owner} {rest : impl.Queue} {now : Int}
    (hPop : impl.pop t.timerQueue = some (unit, rest))
    (hDue : unit.timeStamp ≤ now) (hNow : now ≤ t.now)
    (hInterval : 0 ≤ unit.repeatInterval)
    (hDispatched : next.dispatched = t.dispatched ++ [{ unit := unit, now := now }])
    (hSameNow : next.now = t.now)
    (hUnits : ∀ other ∈ next.units, other ∈ impl.items rest ∨
      other = { unit with timeStamp := t.now + unit.repeatInterval }) :
    Paced next := by
  have hPopped := popped_mem_units hPop
  have hGone := hQueued.gone_of_pop hPop
  refine ⟨?_, fun d hMem other hOther hSame => ?_, fun other hOther hRepeats => ?_⟩
  · rw [hDispatched, List.pairwise_append]
    refine ⟨hPaced.apart, List.pairwise_singleton _ _, fun d hMem last hLast => ?_⟩
    obtain rfl := List.mem_singleton.mp hLast
    exact hPaced.ahead d hMem unit hPopped
  · rw [hDispatched] at hMem
    rcases hUnits other hOther with hOld | rfl
    · rcases List.mem_append.mp hMem with hMem | hMem
      · exact hPaced.ahead d hMem other (mem_units_of_pop hPop hOld) hSame
      · -- No other unit has the id of the one handed over.
        obtain rfl := List.mem_singleton.mp hMem
        exact absurd (Multiset.mem_map.mpr ⟨other, hOld, hSame⟩) hGone
    · rcases List.mem_append.mp hMem with hMem | hMem
      · have hBefore := hPaced.ahead d hMem unit hPopped hSame
        show _ ≤ t.now + unit.repeatInterval
        omega
      · obtain rfl := List.mem_singleton.mp hMem
        exact Int.add_le_add_right hNow _
  · rw [hSameNow]
    rcases hUnits other hOther with hOld | rfl
    · exact hPaced.near other (mem_units_of_pop hPop hOld) hRepeats
    · exact le_rfl

theorem Paced.change (hPaced : Paced t) (hSound : Sound t)
    (hChange : Change Chrono.exact PostAllowed t next) : Paced next := by
  cases hChange with
  | quiet hQuiet =>
      refine hPaced.fewer (fun unit hUnit => ?_) hQuiet.dispatched hQuiet.now
      rw [units, hQuiet.timerQueue] at hUnit
      exact hUnit
  | postsOnce | postsRepeat | asks | posts | cancels =>
      exact hPaced.fewer (fun _ hUnit => hUnit) rfl le_rfl
  | queues hTasks hUnit => exact hPaced.queues hSound.issued hSound.handed hTasks hUnit
  | drops hPop =>
      exact hPaced.fewer (fun _ hUnit => mem_units_of_pop hPop hUnit) rfl le_rfl
  | repeats hPop hDue hNow =>
      refine hPaced.hands hSound.queued hPop hDue hNow
        (hSound.ordered.intervals _ (popped_mem_units hPop)) rfl rfl ?_
      intro other hOther
      have hOther : other ∈ impl.items (impl.push _ _) := hOther
      rw [impl.items_push] at hOther
      exact (Multiset.mem_cons.mp hOther).symm
  | ends hPop hDue hNow =>
      exact hPaced.hands hSound.queued hPop hDue hNow
        (hSound.ordered.intervals _ (popped_mem_units hPop)) rfl rfl
        fun other hOther => .inl hOther

/-- When the timer with the id was handed over. -/
def handOvers (t : Timer impl) (timerId : Nat) : List Int :=
  (t.dispatched.filter fun d => d.unit.timerId = timerId).map (·.now)

/-- The interval of a timer is that of its post. -/
theorem Sound.interval_eq (hSound : Sound t) {cb : Cb} {owner : Owner}
    {timeoutMs : Nat} {unit : TimerUnit Cb Owner} (hMade : t.Made unit)
    (hRepeat : .postRepeat cb owner timeoutMs unit.timerId ∈ t.ran) :
    unit.repeatInterval = (timeoutMs : Int) * 1000000 := by
  obtain ⟨task, hTask, now, hUnit⟩ := hMade
  obtain rfl := hSound.issued.unique hTask hRepeat (postId_of_unit hUnit) rfl
  exact (congrArg TimerUnit.repeatInterval (Option.some.inj hUnit)).symm

/-- **The cadence of a repeated timer.**  In every run with fewer than `2 ^ 64 - 1`
posts, repeat timeouts above zero and times that do not overflow, whatever the wake-ups
and the clock do, hand-overs of a repeated timer lie its interval apart, so that a
window holds at most as many as the interval fits into it, and one more.  Until it is
cancelled, its next hand-over is due an interval after the last one at the earliest, and
an interval from now at the latest. -/
theorem repeat_timer_cadence {start : Int} {actions : List (TimerAction Cb Owner)}
    (hGuard : Guarded (step Chrono.exact) PostAllowed (initial impl start) actions)
    (hRun : run (step Chrono.exact) (initial impl start) actions = some t) {cb : Cb}
    {owner : Owner} {timeoutMs timerId : Nat}
    (hRepeat : .postRepeat cb owner timeoutMs timerId ∈ t.ran) :
    Apart (timeoutMs * 1000000) (t.handOvers timerId) ∧
    (∀ first last : Int, first ≤ last →
      (inWindow first last (t.handOvers timerId) : Int) * (timeoutMs * 1000000) ≤
        last - first + timeoutMs * 1000000) ∧
    (.cancel timerId ∉ t.ran → ∃ unit ∈ t.units, unit.timerId = timerId ∧
      (∀ handOver ∈ t.handOvers timerId,
        handOver + timeoutMs * 1000000 ≤ unit.timeStamp) ∧
      unit.timeStamp ≤ t.now + timeoutMs * 1000000) := by
  have hChange (s s' : Timer impl) (hInv : Sound s ∧ Paced s)
      (hChange : Change Chrono.exact PostAllowed s s') : Sound s' ∧ Paced s' :=
    ⟨hInv.1.change hChange, hInv.2.change hInv.1 hChange⟩
  obtain ⟨hSound, hPaced⟩ : Sound t ∧ Paced t :=
    run_changes hChange ⟨sound_initial impl start, paced_initial impl start⟩ hGuard hRun
  have hInterval (d : Dispatched Cb Owner) (hMem : d ∈ t.dispatched)
      (hId : d.unit.timerId = timerId) :
      d.unit.repeatInterval = (timeoutMs : Int) * 1000000 :=
    hSound.interval_eq (hSound.handed.made d hMem) (hId ▸ hRepeat)
  have hApart : Apart (timeoutMs * 1000000) (t.handOvers timerId) := by
    refine List.pairwise_map.mpr (List.pairwise_filter.mpr ?_)
    refine hPaced.apart.imp_of_mem ?_
    intro d later hMem hLater hPace hId hLaterId
    have hId : d.unit.timerId = timerId := of_decide_eq_true hId
    have hLaterId : later.unit.timerId = timerId := of_decide_eq_true hLaterId
    rw [← hInterval d hMem hId]
    exact (hPace (hLaterId.trans hId.symm)).trans (hSound.ordered.due later hLater).1
  refine ⟨hApart, fun first last hOrder => hApart.inWindow_mul_le (by omega), ?_⟩
  intro hAlive
  have hQueued := hSound.queued.repeats cb owner timeoutMs timerId hRepeat hAlive
  obtain ⟨unit, hUnit, rfl⟩ := Multiset.mem_map.mp hQueued
  have hMade := hSound.queued.made unit hUnit
  refine ⟨unit, hUnit, rfl, ?_, ?_⟩
  · intro handOver hMem
    obtain ⟨d, hFiltered, rfl⟩ := List.mem_map.mp hMem
    obtain ⟨hMem, hId⟩ := List.mem_filter.mp hFiltered
    have hId : d.unit.timerId = unit.timerId := of_decide_eq_true hId
    rw [← hInterval d hMem hId]
    exact hPaced.ahead d hMem unit hUnit hId.symm
  · rw [← hSound.interval_eq hMade hRepeat]
    exact hPaced.near unit hUnit ((hSound.issued.once_iff hMade).2 hRepeat)

/-- A timer of ten milliseconds is woken up after thirty-five, and then twice more: the
two hand-overs that were missed are not made up for. -/
theorem repeat_timer_cadence_late :
    let impl : TimerQueue Nat Unit := PriorityQueue.ofList TimerUnit.timeStamp
    let input : IoInput := { fuel := 4 }
    let actions : List (TimerAction Nat Unit) :=
      [.postRepeatTask 1 () 10, .post 0, .runTask input, .passes 35000000, .fire,
        .wake input, .passes 5000000, .wake input, .passes 5000000, .fire, .wake input]
    ∃ t, run (step Chrono.exact) (initial impl 0) actions = some t ∧
      t.handOvers 1 = [35000000, 45000000] ∧
      Apart 10000000 (t.handOvers 1) ∧
      ((inWindow 0 50000000 (t.handOvers 1) : Int) * 10000000 ≤ 60000000) ∧
      ∃ unit ∈ t.units, unit.timerId = 1 ∧ unit.timeStamp ≤ t.now + 10000000 := by
  intro impl input actions
  have hRuns : Guarded (step Chrono.exact) PostAllowed (initial impl 0) actions ∧
      (run (step Chrono.exact) (initial impl 0) actions).any (fun t =>
        t.handOvers 1 = [35000000, 45000000] ∧ .postRepeat 1 () 10 1 ∈ t.ran ∧
          .cancel 1 ∉ t.ran) = true := by
    decide +kernel
  obtain ⟨t, hRun, hReached⟩ := (Option.any_eq_true _ _).mp hRuns.2
  obtain ⟨hHandOvers, hRepeat, hAlive⟩ := of_decide_eq_true hReached
  obtain ⟨hApart, hWindow, hQueued⟩ := repeat_timer_cadence hRuns.1 hRun hRepeat
  obtain ⟨unit, hUnit, hId, -, hNear⟩ := hQueued hAlive
  exact ⟨t, hRun, hHandOvers, hApart, hWindow 0 50000000 (by decide), unit, hUnit, hId,
    hNear⟩

end Timer
end Timers
end KZEvent
