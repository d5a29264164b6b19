import KZEvent.Timers.TimerIds
import Mathlib.Data.Finset.Card

/-!
# The ids that were cancelled

An executed cancel notes its id down, and the note is taken away when a unit with
that id is due.  Nobody takes it away when there is no such unit.
-/

namespace KZEvent
namespace Timers

open Foundation

universe u

variable {Cb Owner : Type u} {impl : TimerQueue Cb Owner} {chrono : Chrono}

/-- The id a task cancels. -/
def TimerTask.cancelId : TimerTask Cb Owner → Option Nat
  | .cancel timerId => some timerId
  | .postOnce _ _ _ _ | .postRepeat _ _ _ _ => none

namespace Timer

variable {t next : Timer impl}

/-- Each cancelled id is the id of a unit in the queue. -/
def CancelSetExact (t : Timer impl) : Prop :=
  ∀ timerId ∈ t.deleteTimerIds, timerId ∈ t.queuedIds

/-- A cancel is executed only while a unit with its id is queued. -/
def CancelsQueued (t : Timer impl) : TimerAction Cb Owner → Prop
  | .runTask _ =>
      ∀ timerId ∈ t.tasks.head?.bind TimerTask.cancelId, timerId ∈ t.queuedIds
  | _ => True

instance (t : Timer impl) (action : TimerAction Cb Owner) :
    Decidable (t.CancelsQueued action) :=
  match action with
  | .runTask _ => inferInstanceAs (Decidable (∀ timerId ∈ _, _))
  | .postOnceTask _ _ _ | .postRepeatTask _ _ _ | .cancelTask _ | .post _
  | .passes _ | .fire | .wake _ => .isTrue trivial

/-- The cancelled ids are not more than the units. -/
theorem CancelSetExact.card_le (hExact : CancelSetExact t) :
    t.deleteTimerIds.card ≤ t.units.card := by
  have hSubset : t.deleteTimerIds ⊆ t.queuedIds.toFinset := fun timerId hDeleted =>
    Multiset.mem_toFinset.mpr (hExact timerId hDeleted)
  calc t.deleteTimerIds.card
      ≤ t.queuedIds.toFinset.card := Finset.card_le_card hSubset
    _ ≤ t.queuedIds.card := Multiset.toFinset_card_le _
    _ = t.units.card := Multiset.card_map _ _

theorem cancelSetExact_initial (impl : TimerQueue Cb Owner) (now : Int) :
    CancelSetExact (initial impl now) :=
  fun _ hDeleted => absurd hDeleted (Finset.notMem_empty _)

/-- A unit leaves the queue, and its id is not noted down any more. -/
theorem CancelSetExact.leaves (hExact : CancelSetExact t)
    {unit : TimerUnit Cb Owner} {rest : impl.Queue}
    (hPop : impl.pop t.timerQueue = some (unit, rest)) {timerId : Nat}
    (hDeleted : timerId ∈ t.deleteTimerIds) (hOther : timerId ≠ unit.timerId) :
    timerId ∈ (impl.items rest).map (·.timerId) := by
  have hMem := hExact timerId hDeleted
  rw [queuedIds_pop hPop, Multiset.mem_cons] at hMem
  exact hMem.resolve_left hOther

theorem CancelSetExact.change (hExact : CancelSetExact t)
    (hChange : Change chrono CancelsQueued t next) : CancelSetExact next := by
  cases hChange with
  | quiet hQuiet =>
      intro timerId hDeleted
      rw [hQuiet.deleteTimerIds] at hDeleted
      rw [queuedIds, units, hQuiet.timerQueue]
      exact hExact timerId hDeleted
  | postsOnce | postsRepeat | asks | posts => exact hExact
  | queues hTasks hUnit =>
      intro timerId hDeleted
      show timerId ∈ (impl.items (impl.push t.timerQueue _)).map _
      rw [queuedIds_push]
      exact Multiset.mem_cons_of_mem (hExact timerId hDeleted)
  | cancels hTasks hGuard =>
      intro timerId hDeleted
      rcases Finset.mem_insert.mp hDeleted with rfl | hDeleted
      · apply hGuard timerId
        rw [hTasks]
        rfl
      · exact hExact timerId hDeleted
  | drops hPop hMem =>
      intro timerId hDeleted
      obtain ⟨hOther, hDeleted⟩ := Finset.mem_erase.mp hDeleted
      exact hExact.leaves hPop hDeleted hOther
  | repeats hPop =>
      intro timerId hDeleted
      show timerId ∈ (impl.items (impl.push _ _)).map _
      rw [queuedIds_returns hPop]
      exact hExact timerId hDeleted
  | ends hPop hDue hNow hAlive =>
      intro timerId hDeleted
      apply hExact.leaves hPop hDeleted
      rintro rfl
      exact hAlive hDeleted

/-- A step keeps the set exact if and only if it does not execute a cancel of an id
that is not queued. -/
theorem cancelsQueued_iff {action : TimerAction Cb Owner} (hExact : CancelSetExact t)
    (hStep : step chrono t action = some next) :
    t.CancelsQueued action ↔ CancelSetExact next := by
  constructor
  · intro hGuard
    have hChanges := step_changes hGuard hStep
    clear hStep
    induction hChanges with
    | refl => exact hExact
    | tail _ hLast ih => exact ih.change hLast
  · intro hNext
    cases action with
    | runTask input =>
        intro timerId hCancel
        simp only [step] at hStep
        split at hStep
        · cases hStep
        · rename_i task tasks hTasks
          obtain rfl := Option.some.inj hStep
          rw [hTasks] at hCancel
          cases task with
          | postOnce | postRepeat => cases hCancel
          | cancel cancelled =>
              obtain rfl := Option.some.inj hCancel
              exact hNext cancelled (Finset.mem_insert_self _ _)
    | postOnceTask | postRepeatTask | cancelTask | post | passes | fire | wake =>
        trivial

/-- **When the cancel set stays exact.**  In every state of a run each cancelled id
is the id of a queued unit, and there are not more cancelled ids than units, if and
only if each cancel that is executed in the run finds a unit with its id in the
queue. -/
theorem cancel_set_exact_iff {start : Int} {actions : List (TimerAction Cb Owner)}
    (hRun : run (step chrono) (initial impl start) actions = some t) :
    (∀ earlier later reached, actions = earlier ++ later →
        run (step chrono) (initial impl start) earlier = some reached →
          CancelSetExact reached ∧
            reached.deleteTimerIds.card ≤ reached.units.card) ↔
      Guarded (step chrono) CancelsQueued (initial impl start) actions := by
  have hStep (s : Timer impl) (action : TimerAction Cb Owner) (s' : Timer impl)
      (hExact : CancelSetExact s) (hStep : step chrono s action = some s') :
      s.CancelsQueued action ↔ CancelSetExact s' := cancelsQueued_iff hExact hStep
  rw [guarded_iff_forall_states hStep (cancelSetExact_initial impl start) hRun]
  constructor
  · intro hBoth earlier later reached hSplit hReached
    exact (hBoth earlier later reached hSplit hReached).1
  · intro hExact earlier later reached hSplit hReached
    have hReached := hExact earlier later reached hSplit hReached
    exact ⟨hReached, hReached.card_le⟩

/-- A repeated task is cancelled twice before it is due again. -/
theorem cancel_set_exact_iff_twice :
    let impl : TimerQueue Nat Unit := PriorityQueue.ofList TimerUnit.timeStamp
    let actions : List (TimerAction Nat Unit) :=
      [.postRepeatTask 1 () 10, .post 0, .runTask {}, .cancelTask 1, .cancelTask 1,
        .post 0, .post 0, .runTask {}, .runTask {}, .passes 10000000, .fire,
        .wake { fuel := 2 }]
    ∃ t, run (step Chrono.exact) (initial impl 0) actions = some t ∧
      t.deleteTimerIds = ∅ ∧
      ∀ earlier later reached, actions = earlier ++ later →
        run (step Chrono.exact) (initial impl 0) earlier = some reached →
          CancelSetExact reached ∧
            reached.deleteTimerIds.card ≤ reached.units.card := by
  intro impl actions
  have hRuns : Guarded (step Chrono.exact) CancelsQueued (initial impl 0) actions ∧
      (run (step Chrono.exact) (initial impl 0) actions).any (fun t =>
        t.deleteTimerIds = ∅) = true := by
    decide +kernel
  obtain ⟨t, hRun, hEmpty⟩ := (Option.any_eq_true _ _).mp hRuns.2
  exact ⟨t, hRun, of_decide_eq_true hEmpty, (cancel_set_exact_iff hRun).mpr hRuns.1⟩

/-- A once task has fired when it is cancelled, and its id stays noted down. -/
theorem cancel_of_fired_stays :
    ¬ ∀ (impl : TimerQueue Unit Unit) (actions : List (TimerAction Unit Unit))
      (t : Timer impl), run (step Chrono.exact) (initial impl 0) actions = some t →
        ∀ timerId ∈ t.deleteTimerIds, ∃ unit ∈ t.units, unit.timerId = timerId := by
  intro hAlways
  let impl : TimerQueue Unit Unit := PriorityQueue.ofList TimerUnit.timeStamp
  let actions : List (TimerAction Unit Unit) :=
    [.postOnceTask () () 1, .post 0, .runTask {}, .passes 1000000, .fire,
      .wake { fuel := 2 }, .cancelTask 1, .post 0, .runTask {}]
  have hRuns : (run (step Chrono.exact) (initial impl 0) actions).any (fun t =>
      t.dispatched.map (·.unit.timerId) = [1] ∧ 1 ∈ t.deleteTimerIds ∧
        1 ∉ t.queuedIds) = true := by
    decide +kernel
  obtain ⟨t, hRun, hReached⟩ := (Option.any_eq_true _ _).mp hRuns
  obtain ⟨-, hDeleted, hGone⟩ := of_decide_eq_true hReached
  exact hGone (Multiset.mem_map.mpr (hAlways impl actions t hRun 1 hDeleted))

end Timer
end Timers
end KZEvent
