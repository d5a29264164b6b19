import KZEvent.Core.StartReturns

/-!
# start in every lifecycle state

`start` joins leftover threads before it looks at the state.  In the state
`Running` that is harmless only on the io thread, which returns at once because
it would join itself: any other thread joins the running io executor and waits
until somebody else calls `stop`.  And `start` on the heavy thread, made after a
`stop` on the io thread, leaves the state `Stopped` while the heavy thread is
still there, so that the next `start` on that thread finds `Stopped` and returns
`false`.

A `start` in the state `Running` on the io thread, and in the state `Stopped` on
a user thread, does what it should, and the state `Running` then means that both
executors are in their loops and stay there until a further call.
-/

namespace KZEvent
namespace Core
namespace Loop

open Foundation

variable {Task : Type*} {l next : Loop Task} {t : Thread}
  {action : LoopAction Task}

/-! ## The state and the executors -/

/-- In the state `Running` the executors are alive, or about to be started. -/
def Alive (l : Loop Task) : Prop :=
  l.exeState = .Running →
    (¬ l.io.pc.Ended ∨ l.call .user = some (.start .spawnIo)) ∧
    (¬ l.heavy.pc.Ended ∨ l.call .user = some (.start .spawnIo) ∨
      l.call .user = some (.start .spawnHeavy))

theorem alive_initial : Alive (initial : Loop Task) := nofun

/-- While the user thread is about to start the executors, no other thread is in
a call. -/
theorem CallsOk.user_of_spawnIo (hCalls : CallsOk l) {pc : CallPc}
    (hSpawn : l.call .user = some (.start .spawnIo))
    (hCall : l.call t = some pc) : t = .user := by
  have hSpawning := hCalls _ _ hSpawn
  exact (hCalls _ _ hCall).user (.inl (hSpawning.pastIo trivial))
    (.inl (hSpawning.pastHeavy trivial))

theorem heavyAlive_wakeHeavyUp {s : HeavySide Task} (hAlive : ¬ s.pc.Ended) :
    ¬ s.wakeHeavyUp.pc.Ended := by
  rintro (hPc | hPc)
  · exact HeavySide.wakeHeavyUp_pc_ne (fun hDead => hAlive (.inl hDead)) nofun hPc
  · exact HeavySide.wakeHeavyUp_pc_ne (fun hDone => hAlive (.inr hDone)) nofun hPc

theorem alive_startStepped {pc : StartPc} (hCalls : CallsOk l) (hAlive : Alive l)
    (hCall : l.call t = some (.start pc)) (hStart : StartStepped l t pc next) :
    Alive next := by
  have hOk : CallOk l t (.start pc) := hCalls _ _ hCall
  intro hRunning
  -- A thread at another step is not about to start the io executor.
  have hIo (hBefore : l.exeState = .Running) (hPc : pc ≠ .spawnIo) :
      ¬ l.io.pc.Ended := by
    refine (hAlive hBefore).1.resolve_right fun hSpawn => hPc ?_
    obtain rfl := hCalls.user_of_spawnIo hSpawn hCall
    simpa using hCall.symm.trans hSpawn
  have hPast (hBefore : l.exeState = .Running) (hPc : pc ≠ .spawnIo)
      (hPastIo : (CallPc.start pc).PastIo) : False :=
    hIo hBefore hPc (.inl (hOk.pastIo hPastIo))
  cases hStart with
  | ioNotJoinable hDead => exact absurd (.inl hDead) (hIo hRunning nofun)
  | ioSelf hLeft hSelf | ioJoinable hLeft hOther =>
      refine ⟨.inl (hIo hRunning nofun), ?_⟩
      rcases (hAlive hRunning).2 with hHeavy | hSpawn | hSpawn
      · exact .inl hHeavy
      · obtain rfl := hCalls.user_of_spawnIo hSpawn hCall
        simp [hCall] at hSpawn
      · have hOther : Thread.user ≠ t := by
          rintro rfl
          simp [hCall] at hSpawn
        exact .inr (.inr (by simp [hOther, hSpawn]))
  | joinsIo hEnded => exact absurd hEnded (hIo hRunning nofun)
  | resetsIo | resetsHeavy => cases hRunning
  | heavyNotJoinable hDead | heavySelf hLeft hSelf | heavyJoinable hLeft hOther
  | joinsHeavy hEnded | refused hExe => exact (hPast hRunning nofun trivial).elim
  | claims hStopped =>
      have hUser : t = .user := hOk.user (.inl (hOk.pastIo trivial))
        (.inl (hOk.pastHeavy trivial))
      subst hUser
      exact ⟨.inr (goto_call_self _ _ _), .inr (.inl (goto_call_self _ _ _))⟩
  | spawnsIo hDead =>
      have hUser : t = .user := hOk.user (.inl hDead)
        (.inl (hOk.pastHeavy trivial))
      subst hUser
      refine ⟨.inl ?_, .inr (.inr (goto_call_self _ _ _))⟩
      rintro (hPc | hPc) <;> cases hPc
  | spawnsHeavy hDead =>
      refine ⟨.inl (hIo hRunning nofun), .inl ?_⟩
      rintro (hPc | hPc) <;> cases hPc

theorem alive_step (hCalls : CallsOk l) (hAlive : Alive l)
    (hStep : Stepped l action next) : Alive next := by
  cases hStep with
  | notifyHeavy hPosted =>
      exact fun hRunning => (hAlive hRunning).imp id
        (Or.imp heavyAlive_wakeHeavyUp id)
  | spuriousWake hBlocked =>
      refine fun hRunning => ⟨(hAlive hRunning).1, .inl ?_⟩
      rintro (hPc | hPc) <;> cases hPc
  | io hIo =>
      refine fun hRunning => ⟨.inl ?_, (hAlive hRunning).2⟩
      rintro (hPc | hPc)
      · exact hIo.pc.notDead hPc
      · exact hIo.pc.finished hPc hRunning
  | heavy hHeavy =>
      refine fun hRunning => ⟨(hAlive hRunning).1, .inl ?_⟩
      rintro (hPc | hPc)
      · exact hHeavy.pc.notDead hPc
      · exact hHeavy.pc.finished hPc hRunning
  | begin hFree hMay =>
      rename_i t call
      have hSame {pc : CallPc} (hUser : l.call .user = some pc) :
          (l.goto t call.first).call .user = some pc :=
        goto_call_of_call hFree hUser
      exact fun hRunning => (hAlive hRunning).imp (Or.imp id hSame)
        (Or.imp id (Or.imp hSame hSame))
  | start hCall hStart => exact alive_startStepped hCalls hAlive hCall hStart
  | stop hCall hStop =>
      -- `stop` leaves the state `Running` with its first step.
      intro hRunning
      have hOk := hCalls _ _ hCall
      cases hStop with
      | requests hExe | resets => cases hRunning
      | goesOn hExe => exact absurd hRunning hExe
      | _ => exact absurd hRunning (hOk.requested nofun)
  | _ => exact hAlive

/-- In the state `Stopped` the heavy executor is not asleep, unless `start` has
still to join it. -/
def Quiet (l : Loop Task) : Prop :=
  l.exeState = .Stopped →
    ¬ l.heavy.pc.Waits ∨ l.call .user = some (.start .testHeavy) ∨
      l.call .user = some (.start .joinHeavy)

theorem quiet_initial : Quiet (initial : Loop Task) := by
  refine fun _ => .inl ?_
  rintro (hPc | hPc) <;> cases hPc

theorem not_waits_of_eq {pc pc' : HeavyPc} (hPc : pc = pc')
    (hWaits : pc' ≠ .window ∧ pc' ≠ .blocked) : ¬ pc.Waits := by
  rintro (hWindow | hBlocked)
  · exact hWaits.1 (hPc.symm.trans hWindow)
  · exact hWaits.2 (hPc.symm.trans hBlocked)

theorem quiet_startStepped {pc : StartPc} (hCalls : CallsOk l) (hQuiet : Quiet l)
    (hCall : l.call t = some (.start pc)) (hStart : StartStepped l t pc next) :
    Quiet next := by
  have hOk : CallOk l t (.start pc) := hCalls _ _ hCall
  intro hStopped
  -- The thread at the heavy executor is the user thread itself.
  have hKept (hPc : pc ≠ .testHeavy ∧ pc ≠ .joinHeavy)
      (hBefore : l.exeState = .Stopped) :
      ¬ l.heavy.pc.Waits ∨ next.call .user = some (.start .testHeavy) ∨
        next.call .user = some (.start .joinHeavy) := by
    have hSame {pc' : StartPc} (hPc' : pc ≠ pc')
        (hUser : l.call .user = some (.start pc')) :
        next.call .user = some (.start pc') := by
      have hOther : Thread.user ≠ t := by
        rintro rfl
        exact hPc' (by simpa using hCall.symm.trans hUser)
      exact (hStart.call_eq hOther).trans hUser
    exact (hQuiet hBefore).imp id (Or.imp (hSame hPc.1) (hSame hPc.2))
  cases hStart with
  | resetsIo =>
      have hPermitted := hOk.permitted
      have hMay := hOk.may
      cases t with
      | user => exact .inr (.inl (goto_call_self _ _ _))
      | io => simp [CallPc.Permitted] at hPermitted
      | heavy => exact .inl (not_waits_of_eq hMay (by decide))
  | heavyNotJoinable hDead => exact .inl (not_waits_of_eq hDead (by decide))
  | heavySelf hAlive hSelf =>
      subst hSelf
      exact .inl (not_waits_of_eq hOk.may (by decide))
  | heavyJoinable hAlive hOther =>
      have hPermitted := hOk.permitted
      cases t with
      | user => exact .inr (.inr (goto_call_self _ _ _))
      | io => simp [CallPc.Permitted] at hPermitted
      | heavy => exact absurd rfl hOther
  | joinsHeavy hEnded =>
      exact .inl (not_waits_of_eq (show _ = HeavyPc.dead from rfl) (by decide))
  | resetsHeavy =>
      exact .inl (not_waits_of_eq (hOk.pastHeavy trivial) (by decide))
  | claims hExe => cases hStopped
  | spawnsHeavy hDead =>
      exact .inl (not_waits_of_eq (show _ = HeavyPc.test from rfl) (by decide))
  | _ => exact hKept (by simp) hStopped

theorem quiet_step (hCalls : CallsOk l) (hQuiet : Quiet l)
    (hStep : Stepped l action next) : Quiet next := by
  have hWaits := fun hAfter => hStep.waits hAfter
  -- Without a change of the state the heavy executor does not begin to wait.
  have hKept (hExe : next.exeState = l.exeState)
      (hCall : next.call .user = l.call .user) : Quiet next := by
    intro hStopped
    rw [hExe] at hStopped
    rw [hCall]
    refine (hQuiet hStopped).imp (fun hBefore hAfter => ?_) id
    rcases hWaits hAfter with hWaited | hRunning
    · exact hBefore hWaited
    · rw [hRunning] at hStopped
      cases hStopped
  cases hStep with
  | begin hFree hMay =>
      rename_i t call
      by_cases hUser : Thread.user = t
      · subst hUser
        intro hStopped
        refine .inl ((hQuiet hStopped).resolve_right ?_)
        simp [hFree]
      · exact hKept rfl (Function.update_of_ne hUser _ _)
  | start hCall hStart => exact quiet_startStepped hCalls hQuiet hCall hStart
  | stop hCall hStop =>
      rename_i t pc
      have hOk := hCalls _ _ hCall
      by_cases hUser : Thread.user = t
      · subst hUser
        intro hStopped
        have hBefore (hSame : l.exeState = .Stopped) : ¬ l.heavy.pc.Waits :=
          (hQuiet hSame).resolve_right (by simp [hCall])
        cases hStop with
        | requests hExe => cases hStopped
        | resets => exact .inl (not_waits_of_eq (hOk.pastHeavy trivial) ⟨nofun, nofun⟩)
        | joinsHeavy hEnded => exact .inl (not_waits_of_eq rfl ⟨nofun, nofun⟩)
        | notifies =>
            refine .inl fun hAfter => ?_
            rcases hWaits hAfter with hWaited | hRunning
            · exact hBefore hStopped hWaited
            · rw [show l.exeState = .Stopped from hStopped] at hRunning
              cases hRunning
        | _ => exact .inl (hBefore hStopped)
      · have hCallEq := hStop.call_eq hUser
        cases hStop with
        | requests hExe => exact fun hStopped => by cases hStopped
        | resets =>
            exact absurd (hOk.user (.inl (hOk.pastIo trivial))
              (.inl (hOk.pastHeavy trivial))).symm hUser
        | _ => exact hKept rfl hCallEq
  | _ => exact hKept rfl rfl

/-! ## The condition and the property -/

/-- No two calls of `start` and `stop` overlap. -/
def OneAtATime (l : Loop Task) : LoopAction Task → Prop
  | .begin _ _ => l.call .user = none ∧ l.call .io = none ∧ l.call .heavy = none
  | _ => True

/-- `start` is called in the state `Running` only on the io thread, and in the
state `Stopped` only on a user thread. -/
def StartSafe (l : Loop Task) : LoopAction Task → Prop
  | .begin t .start =>
      (l.exeState = .Running → t = .io) ∧ (l.exeState = .Stopped → t = .user)
  | _ => True

instance (l : Loop Task) (action : LoopAction Task) :
    Decidable (l.OneAtATime action) :=
  match action with
  | .begin _ _ => inferInstanceAs (Decidable (_ ∧ _))
  | .pushIo _ | .wakeIo | .pushHeavy _ | .notifyHeavy | .spuriousWake | .io _
  | .heavy | .advance _ => .isTrue trivial

instance (l : Loop Task) (action : LoopAction Task) :
    Decidable (l.StartSafe action) :=
  match action with
  | .begin _ .start => inferInstanceAs (Decidable (_ ∧ _))
  | .begin _ .stop | .pushIo _ | .wakeIo | .pushHeavy _ | .notifyHeavy
  | .spuriousWake | .io _ | .heavy | .advance _ => .isTrue trivial

/-- Both executors are alive and stay in their loops, whatever happens, until a
further call begins. -/
def Looping (l : Loop Task) : Prop :=
  ∀ more final, (∀ action ∈ more, ∀ t call, action ≠ .begin t call) →
    run step l more = some final →
    ¬ final.io.pc.Ended ∧ ¬ final.heavy.pc.Ended

/-- The results of the completed starts are right. -/
def ResultsRight (l : Loop Task) : Prop :=
  ∀ r ∈ l.starts, (r.found = .Running → r.result = false) ∧
    (r.found = .Stopped → r.result = true)

/-! ## The invariant -/

/-- What the condition keeps up: where a `start` that found `Running` or
`Stopped` can be. -/
structure StartInv (l : Loop Task) : Prop where
  sound : l.Sound
  calls : CallsOk l
  woken : Woken l
  unfinished : Unfinished l
  spawned : Spawned l
  alive : Alive l
  quiet : Quiet l
  foundRunning : ∀ t pc, l.call t = some (.start pc) → l.found t = .Running →
    t = .io ∧ pc = .testIo
  foundStopped : ∀ t pc, l.call t = some (.start pc) → l.found t = .Stopped →
    t = .user ∧ ((CallPc.start pc).Claiming →
      l.exeState = .Stopped ∧ l.heavy.WillWake)
  results : ResultsRight l

theorem startInv_initial : StartInv (initial : Loop Task) where
  sound := sound_initial
  calls := callsOk_initial
  woken := woken_initial
  unfinished := unfinished_initial
  spawned := spawned_initial
  alive := alive_initial
  quiet := quiet_initial
  foundRunning _ _ hCall := by cases hCall
  foundStopped _ _ hCall := by cases hCall
  results _ hMem := by cases hMem

/-- A `start` on the io thread returns at once. -/
theorem ioStart_returns (hCalls : CallsOk l)
    (hCall : l.call .io = some (.start .testIo)) :
    l.step (.advance .io) = some (l.startReturns .io false) := by
  have hAlive : l.io.pc ≠ .dead :=
    fun hDead => (hCalls _ _ hCall).ne_io (.inl hDead) rfl
  rw [step_start hCall, startStep, if_neg hAlive, if_pos rfl]

/-- The state `Stopped` is left only by the exchange of `start`. -/
theorem Stepped.stopped (hCalls : CallsOk l) (hStep : Stepped l action next)
    (hStopped : l.exeState = .Stopped) :
    next.exeState = .Stopped ∨ next.call .user = some (.start .spawnIo) := by
  cases hStep with
  | start hCall hStart =>
      have hOk := hCalls _ _ hCall
      cases hStart with
      | resetsIo | resetsHeavy => exact .inl rfl
      | claims hExe =>
          have hUser := hOk.user (.inl (hOk.pastIo trivial))
            (.inl (hOk.pastHeavy trivial))
          subst hUser
          exact .inr (goto_call_self _ _ _)
      | _ => exact .inl hStopped
  | stop hCall hStop =>
      cases hStop with
      | requests hExe =>
          rw [hStopped] at hExe
          cases hExe
      | resets => exact .inl rfl
      | _ => exact .inl hStopped
  | _ => exact .inl hStopped

/-- Inside a call the state it found stays on record. -/
theorem Stepped.found_of_call (hStep : Stepped l action next)
    (hBegin : ∀ call, action ≠ .begin t call) : next.found t = l.found t := by
  cases hStep with
  | begin hFree hMay =>
      rename_i t' call
      have hOther : t ≠ t' := by
        rintro rfl
        exact hBegin call rfl
      exact Function.update_of_ne hOther _ _
  | start hCall hStart => cases hStart <;> rfl
  | stop hCall hStop => cases hStop <;> rfl
  | _ => rfl

/-- The step before a step of `start` was a step of the same `start`. -/
theorem start_before {pc : StartPc} (hStep : Stepped l action next)
    (hBegin : ∀ call, action ≠ .begin t call)
    (hCall : next.call t = some (.start pc)) :
    ∃ before, l.call t = some (.start before) := by
  by_cases hAdvance : action = .advance t
  · subst hAdvance
    cases hStep with
    | start hBefore hStart => exact ⟨_, hBefore⟩
    | stop hBefore hStop => cases hStop <;> simp at hCall
  · exact ⟨pc, (hStep.call_eq hBegin hAdvance).symm.trans hCall⟩

/-- A `start` on the io thread has only one step. -/
theorem ioStart_stepped (hCalls : CallsOk l) {pc : StartPc}
    (hCall : l.call .io = some (.start .testIo))
    (hStart : StartStepped l .io .testIo next) :
    next.call .io ≠ some (.start pc) := by
  cases hStart with
  | ioNotJoinable hDead =>
      exact absurd rfl ((hCalls _ _ hCall).ne_io (.inl hDead))
  | ioSelf hAlive hSelf => simp
  | ioJoinable hAlive hOther => exact absurd rfl hOther

theorem foundRunning_step (hInv : StartInv l) (hGuard : l.StartSafe action)
    (hStep : Stepped l action next) {pc : StartPc}
    (hCall : next.call t = some (.start pc)) (hFound : next.found t = .Running) :
    t = .io ∧ pc = .testIo := by
  by_cases hBegin : ∃ call, action = .begin t call
  · obtain ⟨call, rfl⟩ := hBegin
    cases hStep with
    | begin hFree hMay =>
        cases call with
        | stop => simp [Loop.goto, LoopCall.first] at hCall
        | start =>
            have hRunning : l.exeState = .Running := by simpa using hFound
            have hPc : StartPc.testIo = pc := by
              simpa [Loop.goto, LoopCall.first] using hCall
            exact ⟨hGuard.1 hRunning, hPc.symm⟩
  · rw [not_exists] at hBegin
    obtain ⟨before, hBefore⟩ := start_before hStep hBegin hCall
    rw [hStep.found_of_call hBegin] at hFound
    obtain ⟨rfl, rfl⟩ := hInv.foundRunning t before hBefore hFound
    by_cases hAdvance : action = .advance .io
    · subst hAdvance
      cases hStep with
      | start hCall' hStart =>
          obtain rfl : _ = StartPc.testIo := by simpa using hCall'.symm.trans hBefore
          exact absurd hCall (ioStart_stepped hInv.calls hBefore hStart)
      | stop hCall' hStop =>
          rw [hBefore] at hCall'
          cases hCall'
    · have hSame := (hStep.call_eq hBegin hAdvance).symm.trans hCall
      rw [hBefore] at hSame
      exact ⟨rfl, by simpa using hSame.symm⟩

theorem foundStopped_step (hInv : StartInv l) (hGuard : l.StartSafe action)
    (hStep : Stepped l action next) {pc : StartPc}
    (hCall : next.call t = some (.start pc)) (hFound : next.found t = .Stopped) :
    t = .user ∧ ((CallPc.start pc).Claiming →
      next.exeState = .Stopped ∧ next.heavy.WillWake) := by
  by_cases hBegin : ∃ call, action = .begin t call
  · obtain ⟨call, rfl⟩ := hBegin
    cases hStep with
    | begin hFree hMay =>
        cases call with
        | stop => simp [Loop.goto, LoopCall.first] at hCall
        | start =>
            have hStopped : l.exeState = .Stopped := by simpa using hFound
            have hUser : t = .user := hGuard.2 hStopped
            subst hUser
            have hQuiet : ¬ l.heavy.pc.Waits :=
              (hInv.quiet hStopped).resolve_right (by simp [hFree])
            exact ⟨rfl, fun _ => ⟨hStopped, fun hWindow => hQuiet (.inl hWindow),
              fun hBlocked => absurd (.inr hBlocked) hQuiet⟩⟩
  · rw [not_exists] at hBegin
    obtain ⟨before, hBefore⟩ := start_before hStep hBegin hCall
    rw [hStep.found_of_call hBegin] at hFound
    obtain ⟨rfl, hClaimed⟩ := hInv.foundStopped t before hBefore hFound
    refine ⟨rfl, fun hClaiming => ?_⟩
    obtain ⟨claiming, hCall', hClaiming'⟩ :=
      claiming_before hStep hBegin hCall hClaiming
    obtain rfl := Option.some.inj (hBefore.symm.trans hCall')
    obtain ⟨hStopped, hWill⟩ := hClaimed hClaiming'
    have hNotRunning : l.exeState ≠ .Running := by
      rw [hStopped]
      decide
    refine ⟨(hStep.stopped hInv.calls hStopped).resolve_right fun hSpawn => ?_,
      willWake_step hStep hNotRunning hWill⟩
    rw [hSpawn] at hCall
    obtain rfl : StartPc.spawnIo = pc := by simpa using hCall
    exact hClaiming

/-- A `start` returns what is right for the state it found. -/
theorem results_step (hInv : StartInv l) (hStep : Stepped l action next) :
    ResultsRight next := by
  have hAppend {t : Thread} {pc : StartPc} {result : Bool}
      (hCall : l.call t = some (.start pc))
      (hRunning : l.found t = .Running → result = false)
      (hStopped : l.found t = .Stopped → result = true)
      (hStarts : next.starts = l.starts ++
        [{ thread := t, found := l.found t, result := result }]) :
      ResultsRight next := by
    intro r hMem
    rw [hStarts, List.mem_append, List.mem_singleton] at hMem
    rcases hMem with hMem | rfl
    · exact hInv.results r hMem
    · exact ⟨hRunning, hStopped⟩
  cases hStep with
  | start hCall hStart =>
      cases hStart with
      | ioSelf hAlive hSelf =>
          refine hAppend hCall (fun _ => rfl) (fun hFound => ?_) rfl
          obtain ⟨rfl, -⟩ := hInv.foundStopped _ _ hCall hFound
          cases hSelf
      | heavySelf hAlive hSelf =>
          refine hAppend hCall (fun _ => rfl) (fun hFound => ?_) rfl
          obtain ⟨rfl, -⟩ := hInv.foundStopped _ _ hCall hFound
          cases hSelf
      | refused hExe =>
          refine hAppend hCall (fun _ => rfl) (fun hFound => ?_) rfl
          obtain ⟨-, hClaimed⟩ := hInv.foundStopped _ _ hCall hFound
          exact absurd (hClaimed trivial).1 hExe
      | spawnsHeavy hDead =>
          refine hAppend hCall (fun hFound => ?_) (fun _ => rfl) rfl
          obtain ⟨-, hPc⟩ := hInv.foundRunning _ _ hCall hFound
          cases hPc
      | _ => exact hInv.results
  | stop hCall hStop => cases hStop <;> exact hInv.results
  | _ => exact hInv.results

theorem startInv_step (hInv : StartInv l) (hGuard : l.StartSafe action)
    (hStep : l.step action = some next) : StartInv next where
  sound := hInv.sound.step (stepped hStep)
  calls := hInv.calls.step (stepped hStep)
  woken := woken_step hInv.sound hInv.calls hInv.woken (stepped hStep)
  unfinished := unfinished_step hInv.calls hInv.unfinished (stepped hStep)
  spawned := spawned_step hInv.calls hInv.spawned (stepped hStep)
  alive := alive_step hInv.calls hInv.alive (stepped hStep)
  quiet := quiet_step hInv.calls hInv.quiet (stepped hStep)
  foundRunning _ _ hCall hFound :=
    foundRunning_step hInv hGuard (stepped hStep) hCall hFound
  foundStopped _ _ hCall hFound :=
    foundStopped_step hInv hGuard (stepped hStep) hCall hFound
  results := results_step hInv (stepped hStep)

/-! ## Between the calls -/

/-- In the state `Running` no executor step ends an executor, so that a `start`
that joins the io executor goes on waiting. -/
theorem running_kept (hJoins : ∀ t pc, l.call t = some pc → pc = .start .joinIo)
    (hRunning : l.exeState = .Running)
    (hAlive : ¬ l.io.pc.Ended ∧ ¬ l.heavy.pc.Ended) {final : Loop Task}
    {more : List (LoopAction Task)}
    (hMore : ∀ action ∈ more, ∀ t call, action ≠ .begin t call)
    (hRun : run step l more = some final) :
    final.call = l.call ∧ ¬ final.io.pc.Ended ∧ ¬ final.heavy.pc.Ended := by
  induction more generalizing l with
  | nil =>
      obtain rfl : l = final := by simpa using hRun
      exact ⟨rfl, hAlive⟩
  | cons action more ih =>
      obtain ⟨next, hStep, hRest⟩ := run_cons_eq_some_iff.mp hRun
      have hNoBegin := hMore action List.mem_cons_self
      have hNext : next.call = l.call ∧ next.exeState = .Running ∧
          ¬ next.io.pc.Ended ∧ ¬ next.heavy.pc.Ended := by
        cases stepped hStep with
        | notifyHeavy hPosted =>
            exact ⟨rfl, hRunning, hAlive.1, heavyAlive_wakeHeavyUp hAlive.2⟩
        | spuriousWake hBlocked =>
            refine ⟨rfl, hRunning, hAlive.1, ?_⟩
            rintro (hPc | hPc) <;> cases hPc
        | io hIo =>
            refine ⟨rfl, hRunning, ?_, hAlive.2⟩
            rintro (hPc | hPc)
            · exact hIo.pc.notDead hPc
            · exact hIo.pc.finished hPc hRunning
        | heavy hHeavy =>
            refine ⟨rfl, hRunning, hAlive.1, ?_⟩
            rintro (hPc | hPc)
            · exact hHeavy.pc.notDead hPc
            · exact hHeavy.pc.finished hPc hRunning
        | begin hNone hMay => exact absurd rfl (hNoBegin _ _)
        | start hCall hStart =>
            -- The join does not return.
            have hPc := hJoins _ _ hCall
            cases hStart with
            | joinsIo hEnded => exact absurd hEnded hAlive.1
            | _ => cases hPc
        | stop hCall hStop => cases hJoins _ _ hCall
        | _ => exact ⟨rfl, hRunning, hAlive⟩
      have hFinal := ih (fun t pc hCall => hJoins t pc (hNext.1 ▸ hCall)) hNext.2.1
        hNext.2.2 (fun a hMem => hMore a (List.mem_cons_of_mem _ hMem)) hRest
      exact ⟨hFinal.1.trans hNext.1, hFinal.2⟩

/-- In every other state the io executor is gone or can leave its loop. -/
theorem not_looping (hInv : StartInv l) (hFree : ∀ t, l.call t = none)
    (hExe : l.exeState ≠ .Running) : ¬ l.Looping := by
  intro hLooping
  have hAdvances (state : Loop Task)
      (hState : (state.Sound ∧ CallsOk state ∧ Woken state) ∧
        (∀ t, state.call t = none) ∧ state.exeState ≠ .Running)
      (hGoal : ¬ state.io.pc.Ended) :
      ∃ action next, (∀ t call, action ≠ .begin t call) ∧
        state.step action = some next ∧
        ((next.Sound ∧ CallsOk next ∧ Woken next) ∧
          (∀ t, next.call t = none) ∧ next.exeState ≠ .Running) ∧
        next.variant < state.variant := by
    obtain ⟨⟨hSound, hCalls, hWoken⟩, hNone, hNotRunning⟩ := hState
    obtain ⟨action, next, hProceeds, -, hStep, hLess⟩ :=
      io_advances hSound hCalls hWoken hNotRunning hGoal
        (fun pc hCall => by rw [hNone] at hCall; cases hCall)
    have hStepped := stepped hStep
    have hNext (t : Thread) : next.call t = none := by
      rw [← hNone t]
      apply hStepped.call_eq (hProceeds.not_begin t)
      rintro rfl
      simp [step, hNone] at hStep
    refine ⟨action, next, hProceeds.not_begin, hStep,
      ⟨⟨hSound.step hStepped, hCalls.step hStepped,
        woken_step hSound hCalls hWoken hStepped⟩, hNext, fun hRunning => ?_⟩,
      hLess⟩
    rcases hStepped.running hCalls hRunning with hSame | hSpawn
    · exact hNotRunning hSame
    · rw [hNext] at hSpawn
      cases hSpawn
  obtain ⟨more, final, hMore, hRun, -, hEnded⟩ :=
    exists_run_of_variant variant hAdvances
      ⟨⟨hInv.sound, hInv.calls, hInv.woken⟩, hFree, hExe⟩
  exact (hLooping more final hMore hRun).1 hEnded

theorem running_iff_looping (hInv : StartInv l) (hFree : ∀ t, l.call t = none) :
    l.exeState = .Running ↔ l.Looping := by
  constructor
  · intro hRunning
    obtain ⟨hIo, hHeavy⟩ := hInv.alive hRunning
    rw [hFree] at hIo hHeavy
    intro more final hMore hRun
    exact (running_kept (fun t pc hCall => by rw [hFree] at hCall; cases hCall)
      hRunning ⟨hIo.resolve_right nofun, hHeavy.resolve_right (by simp)⟩ hMore
      hRun).2
  · intro hLooping
    by_contra hExe
    exact not_looping hInv hFree hExe hLooping

/-- A `start` of the user thread that found `Stopped` can be completed. -/
theorem StartInv.completing (hInv : StartInv l) {pc : StartPc}
    (hCall : l.call .user = some (.start pc))
    (hFound : l.found .user = .Stopped) : Completing l where
  sound := hInv.sound
  calls := hInv.calls
  woken := hInv.woken
  unfinished := hInv.unfinished
  spawned := hInv.spawned
  claiming := by
    intro claiming hCall' hClaiming
    obtain rfl := Option.some.inj (hCall.symm.trans hCall')
    obtain ⟨hStopped, hWill⟩ :=
      (hInv.foundStopped _ _ hCall hFound).2 hClaiming
    refine ⟨?_, hWill⟩
    rw [hStopped]
    nofun

/-- **start is safe** when it is called in the state `Running` only on the io
thread and in the state `Stopped` only on a user thread.  A completed `start`
that found `Running` returned `false`, one that found `Stopped` returned `true`.
A `start` that found `Running` returns with its next step, changing nothing; one
that found `Stopped` can always be completed and starts both executors.  Between
calls the state is `Running` exactly when both executors are alive and stay in
their loops. -/
theorem start_safe {actions : List (LoopAction Task)}
    (hGuarded : Guarded step StartSafe initial actions)
    (hRun : run step initial actions = some l) :
    l.ResultsRight ∧
      (∀ t pc, l.call t = some (.start pc) → l.found t = .Running →
        l.step (.advance t) = some (l.startReturns t false)) ∧
      (∀ t pc, l.call t = some (.start pc) → l.found t = .Stopped →
        ∃ more final, (∀ action ∈ more, Proceeds action) ∧
          run step l more = some final ∧ Restarted .Stopped final) ∧
      ((∀ t, l.call t = none) → (l.exeState = .Running ↔ l.Looping)) := by
  have hInv : StartInv l :=
    run_invariant (fun _ _ _ hBefore hGuard hStep =>
      startInv_step hBefore hGuard hStep) startInv_initial hGuarded hRun
  refine ⟨hInv.results, ?_, ?_, running_iff_looping hInv⟩
  · intro t pc hCall hFound
    obtain ⟨rfl, rfl⟩ := hInv.foundRunning t pc hCall hFound
    exact ioStart_returns hInv.calls hCall
  · intro t pc hCall hFound
    obtain ⟨rfl, -⟩ := hInv.foundStopped t pc hCall hFound
    rw [← hFound]
    exact start_completes (hInv.completing hCall hFound) hCall

/-- The user thread starts the loop, and an io task calls `start`. -/
theorem start_safe_twice :
    let actions : List (LoopAction Nat) :=
      callSteps .user .start 5 ++ [.pushIo 1, .wakeIo] ++ ioSteps 7 ++
        callSteps .io .start 1
    ∃ l, run step initial actions = some l ∧
      l.starts = [⟨.user, .Stopped, true⟩, ⟨.io, .Running, false⟩] ∧
      l.exeState = .Running ∧ l.Looping := by
  intro actions
  obtain ⟨hGuarded, hOutcome⟩ :
      Guarded step StartSafe initial actions ∧
      (run step initial actions).any (fun l => decide
        ((l.starts = [⟨.user, .Stopped, true⟩, ⟨.io, .Running, false⟩] ∧
          l.exeState = .Running) ∧
          l.call .user = none ∧ l.call .io = none ∧ l.call .heavy = none)) =
        true := by
    decide +kernel
  obtain ⟨l, hRun, hView⟩ := (Option.any_eq_true _ _).mp hOutcome
  obtain ⟨⟨hStarts, hRunning⟩, hUser, hIo, hHeavy⟩ := of_decide_eq_true hView
  obtain ⟨-, -, -, hBetween⟩ := start_safe hGuarded hRun
  have hFree (t : Thread) : l.call t = none := by
    cases t with
    | user => exact hUser
    | io => exact hIo
    | heavy => exact hHeavy
  exact ⟨l, hRun, hStarts, hRunning, (hBetween hFree).mp hRunning⟩

/-- Calls made one at a time.  A `start` of the user thread in the state
`Running` waits until some other call ends the io executor; and a `start` of a
heavy task finds `Stopped` and returns `false`, because an earlier `start` of
the same task, after a `stop` of an io task, had set that state. -/
theorem start_waits_for_stop :
    (∃ (actions : List (LoopAction Nat)) (l : Loop Nat),
      Guarded step OneAtATime initial actions ∧
      run step initial actions = some l ∧ l.found .user = .Running ∧
      ∀ more final, (∀ action ∈ more, ∀ t call, action ≠ .begin t call) →
        run step l more = some final →
        final.call .user = some (.start .joinIo)) ∧
    ∃ (actions : List (LoopAction Nat)) (l : Loop Nat),
      Guarded step OneAtATime initial actions ∧
      run step initial actions = some l ∧
      { thread := .heavy, found := .Stopped, result := false } ∈ l.starts := by
  constructor
  · let actions : List (LoopAction Nat) :=
      callSteps .user .start 5 ++ callSteps .user .start 1
    obtain ⟨hGuarded, hOutcome⟩ :
        Guarded step OneAtATime initial actions ∧
        (run step initial actions).any (fun l => decide
          ((l.found .user = .Running ∧ l.exeState = .Running ∧
            ¬ l.io.pc.Ended ∧ ¬ l.heavy.pc.Ended) ∧
            l.call .user = some (.start .joinIo) ∧ l.call .io = none ∧
            l.call .heavy = none)) = true := by
      decide +kernel
    obtain ⟨l, hRun, hView⟩ := (Option.any_eq_true _ _).mp hOutcome
    obtain ⟨⟨hFound, hRunning, hAlive⟩, hUser, hIo, hHeavy⟩ :=
      of_decide_eq_true hView
    refine ⟨actions, l, hGuarded, hRun, hFound, fun more final hMore hFinal => ?_⟩
    have hJoins (t : Thread) (pc : CallPc) (hCall : l.call t = some pc) :
        pc = .start .joinIo := by
      cases t with
      | user => exact (Option.some.inj (hUser.symm.trans hCall)).symm
      | io => cases hIo.symm.trans hCall
      | heavy => cases hHeavy.symm.trans hCall
    rw [(running_kept hJoins hRunning hAlive hMore hFinal).1]
    exact hUser
  · let actions : List (LoopAction Nat) :=
      callSteps .user .start 5 ++ [.pushHeavy 1, .notifyHeavy] ++ heavySteps 5 ++
        [.pushIo 1, .wakeIo] ++ ioSteps 7 ++ callSteps .io .stop 2 ++
        ioSteps 4 ++ callSteps .heavy .start 4 ++ callSteps .heavy .start 2
    obtain ⟨hGuarded, hOutcome⟩ :
        Guarded step OneAtATime initial actions ∧
        (run step initial actions).any (fun l => decide
          ({ thread := .heavy, found := .Stopped, result := false } ∈
            l.starts)) = true := by
      decide +kernel
    obtain ⟨l, hRun, hView⟩ := (Option.any_eq_true _ _).mp hOutcome
    exact ⟨actions, l, hGuarded, hRun, of_decide_eq_true hView⟩

end Loop
end Core
end KZEvent
