import Mathlib.Data.List.Basic

/-!
# Runs of a partial step function

A system is given by a step function `State → Action → Option State`; `none`
means that the action cannot complete in that state.  A run is a list of
actions.  A guard is a condition on the state before a step and on the action
of that step, and a run is guarded when each of its steps meets the guard in
the state in which it is taken.

The rules below are the only inductions over runs that the rest of the
development needs: an invariant which every guarded step preserves holds at the
end of every guarded run; a relation to an abstract system which every step
preserves relates the two systems at the end of every run; an amount left which
every counted step decreases is, at the end of a run, less by the counted steps, and
one that every counted step increases is more by them; and a goal is reached by some
run when, short of it, some step always decreases a variant.
-/

namespace KZEvent
namespace Foundation

variable {State Action Spec : Type*}

/-- Perform a list of actions; `none` as soon as one of them cannot complete. -/
def run (step : State → Action → Option State) :
    State → List Action → Option State
  | state, [] => some state
  | state, action :: actions =>
      (step state action).bind fun next => run step next actions

/-- Every step of the run meets the guard in the state before it. -/
def Guarded (step : State → Action → Option State)
    (guard : State → Action → Prop) : State → List Action → Prop
  | _, [] => True
  | state, action :: actions =>
      guard state action ∧
        ∀ next, step state action = some next →
          Guarded step guard next actions

instance Guarded.instDecidable {step : State → Action → Option State}
    {guard : State → Action → Prop}
    [∀ state action, Decidable (guard state action)] :
    (state : State) → (actions : List Action) →
      Decidable (Guarded step guard state actions)
  | _, [] => inferInstanceAs (Decidable True)
  | state, action :: actions =>
      match hNext : step state action with
      | none =>
          -- The run ends here, so nothing is asked of the actions behind.
          decidable_of_iff (guard state action) (by simp [Guarded, hNext])
      | some next =>
          have : Decidable (Guarded step guard next actions) :=
            Guarded.instDecidable next actions
          decidable_of_iff
            (guard state action ∧ Guarded step guard next actions)
            (by simp [Guarded, hNext])

/-- How many steps of the run are counted, each in the state in which it is
taken. -/
def countSteps (step : State → Action → Option State)
    (counted : State → Action → Bool) : State → List Action → Nat
  | _, [] => 0
  | state, action :: actions =>
      (counted state action).toNat +
        (step state action).elim 0 fun next =>
          countSteps step counted next actions

@[simp]
theorem run_nil (step : State → Action → Option State) (state : State) :
    run step state [] = some state := rfl

theorem run_cons_eq_some_iff {step : State → Action → Option State}
    {state final : State} {action : Action} {actions : List Action} :
    run step state (action :: actions) = some final ↔
      ∃ next, step state action = some next ∧
        run step next actions = some final := by
  simp [run, Option.bind_eq_some_iff]

/-- A run may be stopped anywhere and gone on with. -/
theorem run_append_eq_some_iff {step : State → Action → Option State}
    {state final : State} {actions later : List Action} :
    run step state (actions ++ later) = some final ↔
      ∃ middle, run step state actions = some middle ∧
        run step middle later = some final := by
  induction actions generalizing state with
  | nil => simp
  | cons action actions ih =>
      rw [List.cons_append, run_cons_eq_some_iff]
      constructor
      · rintro ⟨next, hNext, hRest⟩
        obtain ⟨middle, hMiddle, hLater⟩ := ih.mp hRest
        exact ⟨middle, run_cons_eq_some_iff.mpr ⟨next, hNext, hMiddle⟩, hLater⟩
      · rintro ⟨middle, hMiddle, hLater⟩
        obtain ⟨next, hNext, hRest⟩ := run_cons_eq_some_iff.mp hMiddle
        exact ⟨next, hNext, ih.mpr ⟨middle, hRest, hLater⟩⟩

theorem Guarded.append {step : State → Action → Option State}
    {guard : State → Action → Prop} {state middle : State}
    {actions later : List Action} (hGuard : Guarded step guard state actions)
    (hRun : run step state actions = some middle)
    (hLater : Guarded step guard middle later) :
    Guarded step guard state (actions ++ later) := by
  induction actions generalizing state with
  | nil =>
      obtain rfl : state = middle := by simpa using hRun
      exact hLater
  | cons action actions ih =>
      refine ⟨hGuard.1, fun next hNext => ?_⟩
      obtain ⟨other, hOther, hRest⟩ := run_cons_eq_some_iff.mp hRun
      obtain rfl := Option.some.inj (hNext.symm.trans hOther)
      exact ih (hGuard.2 next hNext) hRest

/-- The first part of a guarded run is guarded. -/
theorem Guarded.left {step : State → Action → Option State}
    {guard : State → Action → Prop} {state : State}
    {actions later : List Action}
    (hGuard : Guarded step guard state (actions ++ later)) :
    Guarded step guard state actions := by
  induction actions generalizing state with
  | nil => trivial
  | cons action actions ih =>
      exact ⟨hGuard.1, fun next hNext => ih (hGuard.2 next hNext)⟩

/-- A guard that follows from another one. -/
theorem Guarded.imp {step : State → Action → Option State}
    {guard guard' : State → Action → Prop}
    (hImp : ∀ state action, guard state action → guard' state action)
    {state : State} {actions : List Action}
    (hGuard : Guarded step guard state actions) :
    Guarded step guard' state actions := by
  induction actions generalizing state with
  | nil => trivial
  | cons action actions ih =>
      exact ⟨hImp state action hGuard.1, fun next hNext => ih (hGuard.2 next hNext)⟩

/-- **Invariant rule.**  An invariant preserved by every guarded step holds at
the end of every guarded run. -/
theorem run_invariant {step : State → Action → Option State}
    {guard : State → Action → Prop} {Inv : State → Prop}
    (hStep : ∀ state action next, Inv state → guard state action →
      step state action = some next → Inv next)
    {state final : State} {actions : List Action}
    (hInit : Inv state) (hGuard : Guarded step guard state actions)
    (hRun : run step state actions = some final) : Inv final := by
  induction actions generalizing state with
  | nil =>
      obtain rfl : state = final := by simpa using hRun
      exact hInit
  | cons action actions ih =>
      obtain ⟨next, hNext, hRest⟩ := run_cons_eq_some_iff.mp hRun
      have hInvNext : Inv next := hStep state action next hInit hGuard.1 hNext
      exact ih hInvNext (hGuard.2 next hNext) hRest

/-- A guard that every step meets guards every run. -/
theorem guarded_of_forall {step : State → Action → Option State}
    {guard : State → Action → Prop} (hGuard : ∀ state action, guard state action)
    (state : State) (actions : List Action) :
    Guarded step guard state actions := by
  induction actions generalizing state with
  | nil => trivial
  | cons action actions ih =>
      exact ⟨hGuard state action, fun next _ => ih next⟩

/-- A guard that only looks at the actions guards the runs of actions that meet
it. -/
theorem guarded_of_forall_mem {step : State → Action → Option State}
    {allowed : Action → Prop} {actions : List Action}
    (hAllowed : ∀ action ∈ actions, allowed action) (state : State) :
    Guarded step (fun _ => allowed) state actions := by
  induction actions generalizing state with
  | nil => trivial
  | cons action actions ih =>
      obtain ⟨hFirst, hRest⟩ := List.forall_mem_cons.mp hAllowed
      exact ⟨hFirst, fun next _ => ih hRest next⟩

/-- The invariant rule where no guard is needed. -/
theorem run_keeps {step : State → Action → Option State} {Inv : State → Prop}
    (hStep : ∀ state action next, Inv state → step state action = some next →
      Inv next)
    {state final : State} {actions : List Action}
    (hInit : Inv state) (hRun : run step state actions = some final) :
    Inv final := by
  have hAny : Guarded step (fun _ _ => True) state actions :=
    guarded_of_forall (fun _ _ => trivial) state actions
  exact run_invariant (fun state action next hInv _ => hStep state action next hInv)
    hInit hAny hRun

theorem countSteps_cons {step : State → Action → Option State}
    {counted : State → Action → Bool} {state next : State} {action : Action}
    {actions : List Action} (hNext : step state action = some next) :
    countSteps step counted state (action :: actions) =
      (counted state action).toNat + countSteps step counted next actions := by
  rw [countSteps, hNext, Option.elim_some]

/-- **Counting rule.**  An amount that every counted step increases by one, and no
other step changes, is at the end of a run more by the counted steps. -/
theorem run_counts {step : State → Action → Option State}
    {counted : State → Action → Bool} {amount : State → Nat}
    (hStep : ∀ state action next, step state action = some next →
      amount next = amount state + (counted state action).toNat)
    {state final : State} {actions : List Action}
    (hRun : run step state actions = some final) :
    amount final = amount state + countSteps step counted state actions := by
  induction actions generalizing state with
  | nil =>
      obtain rfl : state = final := by simpa using hRun
      rfl
  | cons action actions ih =>
      obtain ⟨next, hNext, hRest⟩ := run_cons_eq_some_iff.mp hRun
      rw [countSteps_cons hNext, ih hRest, hStep state action next hNext]
      omega

/-- Where only the action decides what is counted, the run plays no part. -/
theorem countSteps_eq_countP {step : State → Action → Option State}
    {counted : Action → Bool} {state final : State} {actions : List Action}
    (hRun : run step state actions = some final) :
    countSteps step (fun _ => counted) state actions =
      actions.countP counted := by
  induction actions generalizing state with
  | nil => rfl
  | cons action actions ih =>
      obtain ⟨next, hNext, hRest⟩ := run_cons_eq_some_iff.mp hRun
      rw [countSteps_cons hNext, ih hRest, List.countP_cons, Nat.add_comm]
      cases counted action <;> rfl

/-- **Countdown rule.**  An amount left which every guarded step keeps, and every
counted one decreases, is at the end of a run less by the counted steps. -/
theorem run_countdown {step : State → Action → Option State}
    {guard : State → Action → Prop} {counted : State → Action → Bool}
    {Left : State → Nat → Prop}
    (hStep : ∀ state action next left, Left state left → guard state action →
      step state action = some next →
      Left next (left - (counted state action).toNat))
    {state final : State} {actions : List Action} {left : Nat}
    (hInit : Left state left) (hGuard : Guarded step guard state actions)
    (hRun : run step state actions = some final) :
    Left final (left - countSteps step counted state actions) := by
  induction actions generalizing state left with
  | nil =>
      obtain rfl : state = final := by simpa using hRun
      exact hInit
  | cons action actions ih =>
      obtain ⟨next, hNext, hRest⟩ := run_cons_eq_some_iff.mp hRun
      have hLeft := hStep state action next left hInit hGuard.1 hNext
      rw [countSteps_cons hNext, ← Nat.sub_sub]
      exact ih hLeft (hGuard.2 next hNext) hRest

/-- Two guards at once. -/
theorem Guarded.and {step : State → Action → Option State}
    {guard guard' : State → Action → Prop} {state : State}
    {actions : List Action} (hGuard : Guarded step guard state actions)
    (hGuard' : Guarded step guard' state actions) :
    Guarded step (fun state action => guard state action ∧ guard' state action)
      state actions := by
  induction actions generalizing state with
  | nil => trivial
  | cons action actions ih =>
      exact ⟨⟨hGuard.1, hGuard'.1⟩,
        fun next hNext => ih (hGuard.2 next hNext) (hGuard'.2 next hNext)⟩

/-- **Guards from states.**  When a step from a state with the invariant, under an
assumption on the steps, can lead to a good state only if it meets the guard, and
then keeps the invariant, a run through good states is guarded. -/
theorem guarded_of_forall_states {step : State → Action → Option State}
    {assumed guard : State → Action → Prop} {Inv Good : State → Prop}
    (hStep : ∀ state action next, Inv state → assumed state action →
      step state action = some next → Good next → guard state action ∧ Inv next)
    {state final : State} {actions : List Action} (hInit : Inv state)
    (hAssumed : Guarded step assumed state actions)
    (hRun : run step state actions = some final)
    (hStates : ∀ earlier later reached, actions = earlier ++ later →
      run step state earlier = some reached → Good reached) :
    Guarded step guard state actions := by
  induction actions generalizing state with
  | nil => trivial
  | cons action actions ih =>
      obtain ⟨next, hNext, hRest⟩ := run_cons_eq_some_iff.mp hRun
      have hGood : Good next := hStates [action] actions next rfl
        (run_cons_eq_some_iff.mpr ⟨next, hNext, rfl⟩)
      obtain ⟨hMeets, hInv⟩ :=
        hStep state action next hInit hAssumed.1 hNext hGood
      refine ⟨hMeets, fun other hOther => ?_⟩
      obtain rfl := Option.some.inj (hNext.symm.trans hOther)
      refine ih hInv (hAssumed.2 next hNext) hRest
        fun earlier later reached hSplit hReached => ?_
      exact hStates (action :: earlier) later reached (by rw [hSplit]; rfl)
        (run_cons_eq_some_iff.mpr ⟨next, hNext, hReached⟩)

/-- **Exact guards.**  When a step from a state with the invariant keeps it exactly
if it meets the guard, a run is guarded exactly if the invariant holds in each of
its states. -/
theorem guarded_iff_forall_states {step : State → Action → Option State}
    {guard : State → Action → Prop} {Inv : State → Prop}
    (hStep : ∀ state action next, Inv state → step state action = some next →
      (guard state action ↔ Inv next))
    {state final : State} {actions : List Action} (hInit : Inv state)
    (hRun : run step state actions = some final) :
    Guarded step guard state actions ↔
      ∀ earlier later reached, actions = earlier ++ later →
        run step state earlier = some reached → Inv reached := by
  constructor
  · intro hGuard earlier later reached hSplit hReached
    subst hSplit
    have hKeeps (state : State) (action : Action) (next : State)
        (hInv : Inv state) (hMeets : guard state action)
        (hNext : step state action = some next) : Inv next :=
      (hStep state action next hInv hNext).mp hMeets
    exact run_invariant hKeeps hInit hGuard.left hReached
  · intro hStates
    have hMeets (state : State) (action : Action) (next : State)
        (hInv : Inv state) (_ : True) (hNext : step state action = some next)
        (hGood : Inv next) : guard state action ∧ Inv next :=
      ⟨(hStep state action next hInv hNext).mpr hGood, hGood⟩
    exact guarded_of_forall_states hMeets hInit
      (guarded_of_forall (fun _ _ => trivial) state actions) hRun hStates

/-- **Projection rule.**  A step that does to a part of the state what another
step does, does so over whole runs. -/
theorem run_map {Part : Type*} {step : State → Action → Option State}
    {partStep : Part → Action → Option Part} (part : State → Part)
    (hStep : ∀ state action,
      (step state action).map part = partStep (part state) action)
    (state : State) (actions : List Action) :
    (run step state actions).map part = run partStep (part state) actions := by
  induction actions generalizing state with
  | nil => rfl
  | cons action actions ih =>
      simp only [run]
      rw [← hStep state action]
      cases step state action with
      | none => rfl
      | some next => exact ih next

/-- **Simulation rule.**  A relation to an abstract system preserved by every
step relates the final state of a run to the state the abstract system reaches
under the same actions. -/
theorem run_simulates {step : State → Action → Option State}
    (specStep : Spec → Action → Spec) {Related : State → Spec → Prop}
    (hStep : ∀ state spec action next, Related state spec →
      step state action = some next → Related next (specStep spec action))
    {state final : State} {spec : Spec} {actions : List Action}
    (hInit : Related state spec) (hRun : run step state actions = some final) :
    Related final (actions.foldl specStep spec) := by
  induction actions generalizing state spec with
  | nil =>
      obtain rfl : state = final := by simpa using hRun
      exact hInit
  | cons action actions ih =>
      obtain ⟨next, hNext, hRest⟩ := run_cons_eq_some_iff.mp hRun
      exact ih (hStep state spec action next hInit hNext) hRest

/-- **Variant rule.**  Where the goal does not hold yet, some allowed action
keeps the invariant and decreases the variant; so some run of allowed actions
reaches the goal. -/
theorem exists_run_of_variant {step : State → Action → Option State}
    {Allowed : Action → Prop} {Inv Goal : State → Prop} (variant : State → Nat)
    (hStep : ∀ state, Inv state → ¬ Goal state →
      ∃ action next, Allowed action ∧ step state action = some next ∧
        Inv next ∧ variant next < variant state)
    {state : State} (hInit : Inv state) :
    ∃ actions final, (∀ action ∈ actions, Allowed action) ∧
      run step state actions = some final ∧ Inv final ∧ Goal final := by
  induction hBound : variant state using Nat.strongRecOn
    generalizing state with
  | _ bound ih =>
      by_cases hGoal : Goal state
      · exact ⟨[], state, by simp, rfl, hInit, hGoal⟩
      · obtain ⟨action, next, hAllowed, hNext, hInv, hLess⟩ :=
          hStep state hInit hGoal
        obtain ⟨actions, final, hActions, hRun, hFinal⟩ :=
          ih (variant next) (hBound ▸ hLess) hInv rfl
        refine ⟨action :: actions, final, ?_, ?_, hFinal⟩
        · exact List.forall_mem_cons.mpr ⟨hAllowed, hActions⟩
        · exact run_cons_eq_some_iff.mpr ⟨next, hNext, hRun⟩

/-- **Measure rule.**  Where every step of a run decreases the measure, the run is at
most as long as the measure it starts with. -/
theorem run_length_le {step : State → Action → Option State}
    {guard : State → Action → Prop} {Inv : State → Prop} (measure : State → Nat)
    (hStep : ∀ state action next, Inv state → guard state action →
      step state action = some next → Inv next ∧ measure next < measure state)
    {state final : State} {actions : List Action} (hInit : Inv state)
    (hGuard : Guarded step guard state actions)
    (hRun : run step state actions = some final) :
    actions.length + measure final ≤ measure state := by
  induction actions generalizing state with
  | nil =>
      obtain rfl : state = final := by simpa using hRun
      exact Nat.le_of_eq (Nat.zero_add _)
  | cons action actions ih =>
      obtain ⟨next, hNext, hRest⟩ := run_cons_eq_some_iff.mp hRun
      obtain ⟨hInv, hLess⟩ := hStep state action next hInit hGuard.1 hNext
      have hLater := ih hInv (hGuard.2 next hNext) hRest
      rw [List.length_cons]
      omega

end Foundation
end KZEvent
