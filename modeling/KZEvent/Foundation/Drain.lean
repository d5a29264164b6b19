import Mathlib.Data.List.Basic

/-!
# Loops that drain a source

A loop asks a source again and again, handles what it gets, and breaks on some
of the answers.  The answers are a list; once it is used up, the source has
nothing left.  Breaking is right on the answers that say so themselves, the
final ones, and premature on any other.

A loop never breaks prematurely exactly if no answer that disturbs it comes
before the first final one.
-/

namespace KZEvent
namespace Foundation

variable {α β : Type*}

/-- What a loop makes of one answer. -/
inductive DrainTurn (β : Type*)
  | goesOn (handled : Option β)
  | breaks

/-- A loop that has ended: what it handled, the answers it took and went on
after, the answer it broke on if the answers were not used up, and the answers
it left. -/
structure Drained (α β : Type*) where
  handled : List β
  taken : List α
  last : Option α
  unread : List α

def drain (turn : α → DrainTurn β) : List α → Drained α β
  | [] => { handled := [], taken := [], last := none, unread := [] }
  | answer :: answers =>
      match turn answer with
      | .goesOn handled =>
          let rest := drain turn answers
          { rest with
            handled := handled.toList ++ rest.handled
            taken := answer :: rest.taken }
      | .breaks =>
          { handled := [], taken := [], last := some answer, unread := answers }

namespace Drained

/-- If the loop broke, then on a final answer. -/
def EndsOn (final : α → Prop) (d : Drained α β) : Prop :=
  ∀ answer, d.last = some answer → final answer

end Drained

/-- Before the first final answer there is none that disturbs. -/
def Undisturbed (final disturbs : α → Prop) (answers : List α) : Prop :=
  ∀ earlier answer later, answers = earlier ++ answer :: later →
    (∀ other ∈ earlier, ¬ final other) → ¬ disturbs answer

theorem undisturbed_cons_iff {final disturbs : α → Prop} {answer : α}
    {answers : List α} (hFinal : ¬ final answer) :
    Undisturbed final disturbs (answer :: answers) ↔
      ¬ disturbs answer ∧ Undisturbed final disturbs answers := by
  constructor
  · intro hAll
    refine ⟨hAll [] answer answers rfl (by simp), ?_⟩
    intro earlier other later hSplit hEarlier
    refine hAll (answer :: earlier) other later (by rw [hSplit]; rfl) ?_
    exact List.forall_mem_cons.mpr ⟨hFinal, hEarlier⟩
  · rintro ⟨hFirst, hRest⟩ earlier other later hSplit hEarlier
    cases earlier with
    | nil =>
        obtain ⟨rfl, -⟩ := List.cons.inj hSplit
        exact hFirst
    | cons first earlier =>
        obtain ⟨-, rfl⟩ := List.cons.inj hSplit
        exact hRest earlier other later rfl (List.forall_mem_cons.mp hEarlier).2

/-- A final answer in front ends the matter. -/
theorem undisturbed_of_final {final disturbs : α → Prop} {answer : α}
    {answers : List α} (hFinal : final answer) (hCalm : ¬ disturbs answer) :
    Undisturbed final disturbs (answer :: answers) := by
  intro earlier other later hSplit hEarlier
  cases earlier with
  | nil =>
      obtain ⟨rfl, -⟩ := List.cons.inj hSplit
      exact hCalm
  | cons first earlier =>
      obtain ⟨rfl, -⟩ := List.cons.inj hSplit
      exact absurd hFinal (List.forall_mem_cons.mp hEarlier).1

/-- **When a loop drains its source.**  It breaks on final answers only, exactly
if none that disturbs comes before the first final one. -/
theorem endsOn_drain_iff {turn : α → DrainTurn β} {final disturbs : α → Prop}
    (hBreaks : ∀ answer, turn answer = .breaks ↔ final answer ∨ disturbs answer)
    (hCalm : ∀ answer, final answer → ¬ disturbs answer) (answers : List α) :
    (drain turn answers).EndsOn final ↔ Undisturbed final disturbs answers := by
  induction answers with
  | nil =>
      refine ⟨fun _ earlier answer later hSplit => ?_, fun _ answer hLast => ?_⟩
      · simp at hSplit
      · cases hLast
  | cons answer answers ih =>
      cases hTurn : turn answer with
      | goesOn handled =>
          have hGoesOn : ¬ (final answer ∨ disturbs answer) := by
            rw [← hBreaks, hTurn]
            simp
          obtain ⟨hNotFinal, hNotDisturbs⟩ := not_or.mp hGoesOn
          rw [undisturbed_cons_iff hNotFinal, and_iff_right hNotDisturbs, ← ih]
          simp only [Drained.EndsOn, drain, hTurn]
      | breaks =>
          simp only [Drained.EndsOn, drain, hTurn, Option.some.injEq,
            forall_eq']
          constructor
          · intro hFinal
            exact undisturbed_of_final hFinal (hCalm answer hFinal)
          · intro hUndisturbed
            have hFirst := hUndisturbed [] answer answers rfl (by simp)
            exact ((hBreaks answer).mp hTurn).resolve_right hFirst

end Foundation
end KZEvent
