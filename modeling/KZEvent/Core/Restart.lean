import KZEvent.Core.StartReturns

/-!
# Restarting after a stop from inside an executor

A `stop` from a task or a callback returns where it would join its own thread,
and `start` is to finish what it left.  On the heavy thread that works: the io
executor was woken and joined, and the heavy executor itself is at work.  On the
io thread it works only when the heavy executor is not asleep, for nobody
notifies it: `start` then joins a thread that sleeps for ever.
-/

namespace KZEvent
namespace Core
namespace Loop

open Foundation

variable {Task : Type*} {l next : Loop Task} {t : Thread}
  {action : LoopAction Task}

/-- A `start` joins a thread that is blocked, and no step that was begun will
wake that thread. -/
def Stranded (l : Loop Task) : Prop :=
  (∃ t, l.call t = some (.start .joinHeavy) ∧ l.heavy.pc = .blocked ∧
    l.heavy.posters = 0) ∨
  ∃ t, l.call t = some (.start .joinIo) ∧ l.io.pc = .waiting ∧
    ¬ l.io.wakeFd.Ready ∧ l.io.posters = 0 ∧
    ∀ t' pc, l.call t' = some pc → ¬ pc.Waking

/-- A `start` that joins is not begun in the state `Running`, and the user
thread does not begin one while the heavy executor sleeps without a
notification on its way. -/
def RestartSafe (l : Loop Task) : LoopAction Task → Prop
  | .begin .user .start => l.exeState ≠ .Running ∧ l.heavy.WillWake
  | .begin .heavy .start => l.exeState ≠ .Running
  | _ => True

instance (l : Loop Task) (action : LoopAction Task) :
    Decidable (l.RestartSafe action) :=
  match action with
  | .begin .user .start => inferInstanceAs (Decidable (_ ∧ _))
  | .begin .heavy .start => inferInstanceAs (Decidable (_ ≠ _))
  | .begin .io .start | .begin .user .stop | .begin .io .stop
  | .begin .heavy .stop | .pushIo _ | .wakeIo | .pushHeavy _ | .notifyHeavy
  | .spuriousWake | .io _ | .heavy | .advance _ => .isTrue trivial

/-- What the guard keeps up. -/
structure RestartInv (l : Loop Task) : Prop where
  sound : l.Sound
  calls : CallsOk l
  woken : Woken l
  unfinished : Unfinished l
  spawned : Spawned l
  claiming : ∀ t pc, l.call t = some pc → pc.Claiming → t ≠ .io →
    l.exeState ≠ .Running ∧ (t = .user → l.heavy.WillWake)

theorem restartInv_initial : RestartInv (initial : Loop Task) where
  sound := sound_initial
  calls := callsOk_initial
  woken := woken_initial
  unfinished := unfinished_initial
  spawned := spawned_initial
  claiming _ _ hCall := by cases hCall

theorem RestartInv.completing (hInv : RestartInv l) : Completing l where
  sound := hInv.sound
  calls := hInv.calls
  woken := hInv.woken
  unfinished := hInv.unfinished
  spawned := hInv.spawned
  claiming pc hCall hClaiming :=
    ⟨(hInv.claiming .user pc hCall hClaiming nofun).1,
      (hInv.claiming .user pc hCall hClaiming nofun).2 rfl⟩

theorem restartInv_step (hInv : RestartInv l) (hGuard : l.RestartSafe action)
    (hStep : l.step action = some next) : RestartInv next := by
  have hStepped := stepped hStep
  have hCalls : CallsOk next := hInv.calls.step hStepped
  refine ⟨hInv.sound.step hStepped, hCalls,
    woken_step hInv.sound hInv.calls hInv.woken hStepped,
    unfinished_step hInv.calls hInv.unfinished hStepped,
    spawned_step hInv.calls hInv.spawned hStepped, ?_⟩
  intro t pc hCall hClaiming hNotIo
  by_cases hBegin : ∃ call, action = .begin t call
  · obtain ⟨call, rfl⟩ := hBegin
    cases hStepped with
    | begin hFree hMay =>
        obtain rfl : call.first = pc := by simpa [Loop.goto] using hCall
        cases call with
        | stop => exact hClaiming.elim
        | start =>
            cases t with
            | user => exact ⟨hGuard.1, fun _ => hGuard.2⟩
            | heavy => exact ⟨hGuard, by simp⟩
            | io => exact absurd rfl hNotIo
  · rw [not_exists] at hBegin
    obtain ⟨before, hBefore, hClaimed⟩ :=
      claiming_before hStepped hBegin hCall hClaiming
    obtain ⟨hExe, hWill⟩ := hInv.claiming t before hBefore hClaimed hNotIo
    refine ⟨fun hRunning => ?_, fun hUser => willWake_step hStepped hExe (hWill hUser)⟩
    rcases hStepped.running hInv.calls hRunning with hSame | hSpawn
    · exact hExe hSame
    · -- The user thread has claimed the state, and no other thread is left.
      have hIo : next.io.pc = .dead := (hCalls _ _ hSpawn).pastIo trivial
      have hHeavy : next.heavy.pc = .dead := (hCalls _ _ hSpawn).pastHeavy trivial
      obtain rfl : t = .user := (hCalls _ _ hCall).user (.inl hIo) (.inl hHeavy)
      rw [hSpawn] at hCall
      obtain rfl := Option.some.inj hCall
      exact hClaiming

theorem RestartInv.not_stranded (hInv : RestartInv l) : ¬ l.Stranded := by
  rintro (⟨t, hCall, hBlocked, hPosters⟩ |
    ⟨t, hCall, hWaiting, hReady, -, hNoStop⟩)
  · obtain rfl : t = .user := (hInv.calls _ _ hCall).permitted.eq_user
      (by simp [CallPc.Permitted]) (by simp [CallPc.Permitted])
    have hWill := (hInv.claiming _ _ hCall trivial (by decide)).2 rfl
    have hPosted : 0 < l.heavy.posters := hWill.2 hBlocked
    omega
  · have hNotIo : t ≠ .io :=
      (hInv.calls _ _ hCall).permitted.ne (by simp [CallPc.Permitted])
    have hExe := (hInv.claiming _ _ hCall trivial hNotIo).1
    rcases hInv.woken hExe hWaiting with hWoken | ⟨t', pc, hCall', hWaking⟩
    · exact hReady hWoken
    · exact hNoStop t' pc hCall' hWaking

/-- **A loop stopped from inside an executor can be restarted**, when `start` is
not begun while it is running, nor while the heavy executor sleeps without a
notification on its way: no reachable state has `start` joining a thread that
nothing will wake, and a `start` of the user thread can always be completed by
steps that finish what was begun, and starts both executors. -/
theorem restart_after_inner_stop {actions : List (LoopAction Task)}
    (hGuarded : Guarded step RestartSafe initial actions)
    (hRun : run step initial actions = some l) :
    ¬ l.Stranded ∧
      ∀ pc, l.call .user = some (.start pc) →
        ∃ more final, (∀ action ∈ more, Proceeds action) ∧
          run step l more = some final ∧ Restarted (l.found .user) final := by
  have hInv : RestartInv l :=
    run_invariant (fun _ _ _ hBefore hGuard hStep =>
      restartInv_step hBefore hGuard hStep) restartInv_initial hGuarded hRun
  exact ⟨hInv.not_stranded, fun pc hCall => start_completes hInv.completing hCall⟩

/-- A heavy task calls `stop`, and the user thread restarts the loop. -/
theorem restart_after_inner_stop_heavy :
    let actions : List (LoopAction Nat) :=
      callSteps .user .start 5 ++ [.pushHeavy 1, .notifyHeavy] ++
        heavySteps 5 ++ callSteps .heavy .stop 3 ++ ioSteps 1 ++
        List.replicate 2 (.advance .heavy) ++ callSteps .user .start 2
    ∃ l, run step initial actions = some l ∧ l.heavy.pc = .inTask ∧
      l.call .user = some (.start .joinHeavy) ∧ ¬ l.Stranded ∧
      ∃ more final, (∀ action ∈ more, Proceeds action) ∧
        run step l more = some final ∧ Restarted (l.found .user) final := by
  intro actions
  obtain ⟨hGuarded, hOutcome⟩ :
      Guarded step RestartSafe initial actions ∧
      (run step initial actions).map (fun l => (l.heavy.pc, l.call .user)) =
        some (.inTask, some (.start .joinHeavy)) := by
    decide +kernel
  obtain ⟨l, hRun, hView⟩ := Option.map_eq_some_iff.mp hOutcome
  obtain ⟨hPc, hCall⟩ := Prod.mk.inj hView
  obtain ⟨hStranded, hCompletes⟩ := restart_after_inner_stop hGuarded hRun
  exact ⟨l, hRun, hPc, hCall, hStranded, hCompletes _ hCall⟩

/-- The condition is exact: a `start` begun while the heavy executor sleeps
without a notification on its way joins it for ever. -/
theorem stranded_of_asleep (hFree : l.call .user = none)
    (hIo : l.io.pc = .finished) (hBlocked : l.heavy.pc = .blocked)
    (hPosters : l.heavy.posters = 0) :
    ∃ final, run step l (callSteps .user .start 4) = some final ∧
      final.Stranded := by
  refine ⟨{ l with
    exeState := .Stopped
    io := { l.io with pc := .dead }
    call := Function.update l.call .user (some (.start .joinHeavy))
    found := Function.update l.found .user l.exeState }, ?_, ?_⟩
  · simp [callSteps, run, step, hFree, MayCall, LoopCall.first, startStep, hIo,
      hBlocked, Loop.goto, withIoPc, withExeState, IoPc.Ended, List.replicate]
  · exact .inl ⟨.user, by simp, hBlocked, hPosters⟩

/-- An io task calls `stop` while the heavy executor sleeps; the next `start`
joins the heavy executor for ever. -/
theorem restart_joins_sleeping_heavy :
    let actions : List (LoopAction Nat) :=
      callSteps .user .start 5 ++ heavySteps 4 ++ [.pushIo 1, .wakeIo] ++
        ioSteps 7 ++ callSteps .io .stop 2 ++ ioSteps 4 ++
        callSteps .user .start 4
    ∃ l, run step initial actions = some l ∧ l.Stranded := by
  intro actions
  have hOutcome : (run step initial actions).any
      (fun l => decide (l.call .user = some (.start .joinHeavy) ∧
        l.heavy.pc = .blocked ∧ l.heavy.posters = 0)) = true := by
    decide +kernel
  obtain ⟨l, hRun, hView⟩ := (Option.any_eq_true _ _).mp hOutcome
  exact ⟨l, hRun, .inl ⟨.user, of_decide_eq_true hView⟩⟩

end Loop
end Core
end KZEvent
