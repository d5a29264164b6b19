import KZEvent.Core.Lifecycle

/-!
# Whether stop wakes the heavy executor

`stop` sets `exe_state_` and notifies `heavy_wake_cv_` without holding
`heavy_queue_mtx_`.  A heavy executor that has found its predicate false and
has not blocked yet still holds that mutex, and misses both: it blocks, and
`stop` joins it for ever.

When the notification does not fall between the predicate and the block, the
heavy executor is not waiting afterwards, and it does not go to sleep again,
because the predicate is true in every state but `Running`.
-/

namespace KZEvent
namespace Core
namespace Loop

open Foundation

variable {Task : Type*} {l next : Loop Task}

/-- `stop` has issued its notification and joins the heavy thread, which is
blocked and was not notified. -/
def StopStranded (l : Loop Task) : Prop :=
  l.call .user = some (.stop .joinHeavy) ∧ l.heavy.pc = .blocked

instance (l : Loop Task) : Decidable l.StopStranded :=
  inferInstanceAs (Decidable (_ ∧ _))

/-- The notification of `stop` does not fall between the predicate of the heavy
executor and the block. -/
def NotifyHeard (l : Loop Task) : LoopAction Task → Prop
  | .advance .user =>
      l.call .user = some (.stop .notifyHeavy) → l.heavy.pc ≠ .window
  | _ => True

instance (l : Loop Task) (action : LoopAction Task) :
    Decidable (l.NotifyHeard action) :=
  match action with
  | .advance .user => inferInstanceAs (Decidable (_ → _))
  | .advance .io | .advance .heavy | .pushIo _ | .wakeIo | .pushHeavy _
  | .notifyHeavy | .spuriousWake | .io _ | .heavy | .begin _ _ => .isTrue trivial

/-- While `stop` joins the heavy thread, that thread does not wait. -/
structure StopHeard (l : Loop Task) : Prop where
  calls : CallsOk l
  heard : l.call .user = some (.stop .joinHeavy) → ¬ l.heavy.pc.Waits

theorem stopHeard_initial : StopHeard (initial : Loop Task) :=
  ⟨callsOk_initial, nofun⟩

/-- The user thread comes to join the heavy thread in `stop` only with the
notification. -/
theorem Stepped.joins {action : LoopAction Task} (hStep : Stepped l action next)
    (hJoins : next.call .user = some (.stop .joinHeavy)) :
    next.call .user = l.call .user ∨
      action = .advance .user ∧ l.call .user = some (.stop .notifyHeavy) ∧
        next.heavy = l.heavy.wakeHeavyUp := by
  cases hStep with
  | begin hFree hMay =>
      rename_i t call
      by_cases hUser : Thread.user = t
      · subst hUser
        cases call <;> simp [Loop.goto, LoopCall.first] at hJoins
      · exact .inl (Function.update_of_ne hUser _ _)
  | start hCall hStart =>
      rename_i t pc
      by_cases hUser : Thread.user = t
      · subst hUser
        cases hStart <;> simp at hJoins
      · exact .inl (hStart.call_eq hUser)
  | stop hCall hStop =>
      rename_i t pc
      by_cases hUser : Thread.user = t
      · subst hUser
        cases hStop with
        | notifies => exact .inr ⟨rfl, hCall, rfl⟩
        | _ => simp at hJoins
      · exact .inl (hStop.call_eq hUser)
  | _ => exact .inl rfl

theorem stopHeard_step {action : LoopAction Task} (hInv : StopHeard l)
    (hGuard : l.NotifyHeard action) (hStep : l.step action = some next) :
    StopHeard next := by
  have hStepped := stepped hStep
  refine ⟨hInv.calls.step hStepped, fun hJoins hWaits => ?_⟩
  rcases hStepped.joins hJoins with hSame | ⟨rfl, hCall, hHeavy⟩
  · -- `stop` was joining already, in a state other than `Running`.
    have hJoined : l.call .user = some (.stop .joinHeavy) := hSame ▸ hJoins
    have hExe : l.exeState ≠ .Running :=
      (hInv.calls _ _ hJoined).requested nofun
    rcases hStepped.waits hWaits with hBefore | hRunning
    · exact hInv.heard hJoined hBefore
    · exact hExe hRunning
  · -- The notification finds the thread blocked, or away from its wait.
    have hWindow : l.heavy.pc ≠ .window := hGuard hCall
    rw [hHeavy] at hWaits
    rcases hWaits with hPc | hPc
    · exact HeavySide.wakeHeavyUp_pc_ne hWindow nofun hPc
    · exact (HeavySide.wakeHeavyUp_spec l.heavy).1 hPc

/-- **stop wakes the heavy executor**, when its notification does not fall
between the predicate and the block: then no reachable state has `stop` joining
a heavy executor that is blocked with no notification pending. -/
theorem stop_wakes_heavy {actions : List (LoopAction Task)}
    (hGuarded : Guarded step NotifyHeard initial actions)
    (hRun : run step initial actions = some l) : ¬ l.StopStranded := by
  have hInv : StopHeard l :=
    run_invariant (fun _ _ _ hBefore hGuard hStep =>
      stopHeard_step hBefore hGuard hStep) stopHeard_initial hGuarded hRun
  rintro ⟨hJoins, hBlocked⟩
  exact hInv.heard hJoins (.inr hBlocked)

/-- The heavy executor is blocked when `stop` notifies it; the call returns. -/
theorem stop_wakes_heavy_blocked :
    let actions : List (LoopAction Nat) :=
      callSteps .user .start 5 ++ heavySteps 4 ++ callSteps .user .stop 3 ++
        ioSteps 1 ++ List.replicate 3 (.advance .user)
    (∃ l, run step initial actions = some l ∧
      l.call .user = some (.stop .joinHeavy) ∧ l.heavy.pc = .woken ∧
      ¬ l.StopStranded) ∧
    ∃ l, run step initial (actions ++ heavySteps 5 ++
        List.replicate 2 (.advance .user)) = some l ∧
      l.call .user = none ∧ l.exeState = .Stopped ∧ l.io.pc = .dead ∧
      l.heavy.pc = .dead := by
  intro actions
  constructor
  · obtain ⟨hGuarded, hOutcome⟩ :
        Guarded step NotifyHeard initial actions ∧
        (run step initial actions).map (fun l => (l.call .user, l.heavy.pc)) =
          some (some (.stop .joinHeavy), .woken) := by
      decide +kernel
    obtain ⟨l, hRun, hView⟩ := Option.map_eq_some_iff.mp hOutcome
    obtain ⟨hCall, hPc⟩ := Prod.mk.inj hView
    exact ⟨l, hRun, hCall, hPc, stop_wakes_heavy hGuarded hRun⟩
  · have hOutcome :
        (run step initial (actions ++ heavySteps 5 ++
          List.replicate 2 (.advance .user))).any
        (fun l => decide (l.call .user = none ∧ l.exeState = .Stopped ∧
          l.io.pc = .dead ∧ l.heavy.pc = .dead)) = true := by
      decide +kernel
    obtain ⟨l, hRun, hView⟩ := (Option.any_eq_true _ _).mp hOutcome
    exact ⟨l, hRun, of_decide_eq_true hView⟩

/-- The condition is exact: a notification between the predicate and the block
leaves `stop` joining a blocked thread. -/
theorem stopStranded_of_window (hCall : l.call .user = some (.stop .notifyHeavy))
    (hWindow : l.heavy.pc = .window) :
    ∃ final, run step l [.advance .user, .heavy] = some final ∧
      final.StopStranded := by
  have hLost : l.heavy.wakeHeavyUp = l.heavy := by
    simp [HeavySide.wakeHeavyUp, hWindow]
  refine ⟨(l.goto .user (.stop .joinHeavy)).withHeavyPc .blocked, ?_, ?_⟩
  · simp [run, step, hCall, stopStep, hLost, Loop.goto, HeavySide.step, hWindow,
      withHeavyPc]
  · exact ⟨by simp [withHeavyPc, Loop.goto], rfl⟩

/-- `stop` joins a heavy executor that sleeps through its notification. -/
theorem stop_misses_heavy :
    let actions : List (LoopAction Nat) :=
      callSteps .user .start 5 ++ heavySteps 3 ++ callSteps .user .stop 3 ++
        ioSteps 1 ++ List.replicate 3 (.advance .user) ++ heavySteps 1
    ∃ l, run step initial actions = some l ∧ l.StopStranded := by
  intro actions
  have hOutcome : (run step initial actions).any
      (fun l => decide l.StopStranded) = true := by
    decide +kernel
  obtain ⟨l, hRun, hView⟩ := (Option.any_eq_true _ _).mp hOutcome
  exact ⟨l, hRun, of_decide_eq_true hView⟩

end Loop
end Core
end KZEvent
