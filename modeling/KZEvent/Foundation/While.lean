import Mathlib.Data.Option.Basic

/-!
# Loops that may not end

The body of a loop goes on or leaves the loop.  The loop is executed with fuel,
and `none` means that the fuel ran out; a loop that ends does so with all fuel
from some amount on.
-/

namespace KZEvent
namespace Foundation

variable {State : Type*}

/-- One turn of a loop: go on in a state, or leave the loop in one. -/
inductive Turn (State : Type*)
  | again (next : State)
  | done (final : State)

/-- At most `fuel` turns. -/
def loop (body : State → Turn State) : Nat → State → Option State
  | 0, _ => none
  | fuel + 1, state =>
      match body state with
      | .again next => loop body fuel next
      | .done final => some final

/-- **Loop rule.**  The turns that go on preserve the invariant, and the last one
turns it into what holds behind the loop. -/
theorem loop_rule {body : State → Turn State} {Inv Post : State → Prop}
    (hAgain : ∀ state next, Inv state → body state = .again next → Inv next)
    (hDone : ∀ state final, Inv state → body state = .done final → Post final)
    {fuel : Nat} {state final : State} (hInv : Inv state)
    (hLoop : loop body fuel state = some final) : Post final := by
  induction fuel generalizing state with
  | zero => cases hLoop
  | succ fuel ih =>
      unfold loop at hLoop
      split at hLoop
      · rename_i next hBody
        exact ih (hAgain state next hInv hBody) hLoop
      · rename_i last hBody
        obtain rfl := Option.some.inj hLoop
        exact hDone state last hInv hBody

/-- **Termination rule.**  A loop whose turns decrease a variant needs one turn
more than the variant. -/
theorem loop_ends {body : State → Turn State} {Inv : State → Prop}
    (variant : State → Nat)
    (hAgain : ∀ state next, Inv state → body state = .again next →
      Inv next ∧ variant next < variant state)
    {fuel : Nat} {state : State} (hInv : Inv state) (hFuel : variant state < fuel) :
    ∃ final, loop body fuel state = some final := by
  induction fuel generalizing state with
  | zero => exact absurd hFuel (Nat.not_lt_zero _)
  | succ fuel ih =>
      unfold loop
      split
      · rename_i next hBody
        obtain ⟨hNext, hLess⟩ := hAgain state next hInv hBody
        exact ih hNext (by omega)
      · exact ⟨_, rfl⟩

/-- **Divergence rule.**  Turns that keep an invariant and all go on never end. -/
theorem loop_diverges {body : State → Turn State} {Inv : State → Prop}
    (hAgain : ∀ state, Inv state → ∃ next, body state = .again next ∧ Inv next)
    {state : State} (hInv : Inv state) (fuel : Nat) :
    loop body fuel state = none := by
  induction fuel generalizing state with
  | zero => rfl
  | succ fuel ih =>
      obtain ⟨next, hBody, hNext⟩ := hAgain state hInv
      unfold loop
      rw [hBody]
      exact ih hNext

/-- What a turn does to a part of the state. -/
def Turn.map {Part : Type*} (part : State → Part) : Turn State → Turn Part
  | .again next => .again (part next)
  | .done final => .done (part final)

/-- **Projection rule.**  A loop whose turns do to a part of the state what
another loop does, does so as a whole. -/
theorem loop_map {Part : Type*} {body : State → Turn State}
    {partBody : Part → Turn Part} (part : State → Part)
    (hBody : ∀ state, (body state).map part = partBody (part state))
    (fuel : Nat) (state : State) :
    (loop body fuel state).map part = loop partBody fuel (part state) := by
  induction fuel generalizing state with
  | zero => rfl
  | succ fuel ih =>
      unfold loop
      rw [← hBody state]
      cases body state with
      | again next => exact ih next
      | done final => rfl

end Foundation
end KZEvent
