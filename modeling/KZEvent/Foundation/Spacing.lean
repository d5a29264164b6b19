import Mathlib.Data.Int.Order.Basic
import Mathlib.Data.List.Chain
import Mathlib.Data.List.Pairwise

/-!
# Instants that lie apart, and instants that lie close

Of instants that lie a gap apart from each other, a window holds at most as many as
the gap fits into it, and one more.  Of instants that follow each other within a gap,
a window between the first and the last holds at least as many as the gap fits into
it, and one fewer.
-/

namespace KZEvent
namespace Foundation

/-- Each instant is a gap after every earlier one. -/
def Apart (gap : Int) (times : List Int) : Prop :=
  times.Pairwise fun earlier later => earlier + gap ≤ later

instance (gap : Int) (times : List Int) : Decidable (Apart gap times) :=
  inferInstanceAs (Decidable (times.Pairwise _))

theorem Apart.sublist {gap : Int} {times fewer : List Int} (hApart : Apart gap times)
    (hFewer : fewer.Sublist times) : Apart gap fewer :=
  List.Pairwise.sublist hFewer hApart

/-- Instants between `first` and `last`. -/
theorem Apart.length_mul_le {gap first last : Int} {times : List Int}
    (hApart : Apart gap times) (hOrder : first ≤ last + gap)
    (hWithin : ∀ time ∈ times, first ≤ time ∧ time ≤ last) :
    (times.length : Int) * gap ≤ last - first + gap := by
  induction times generalizing first with
  | nil =>
      rw [List.length_nil, Int.natCast_zero, Int.zero_mul]
      omega
  | cons time times ih =>
      obtain ⟨hHead, hTail⟩ := List.pairwise_cons.mp hApart
      obtain ⟨hTime, hWithin⟩ := List.forall_mem_cons.mp hWithin
      have hRest : (times.length : Int) * gap ≤ last - (time + gap) + gap :=
        ih hTail (by omega) fun later hLater =>
          ⟨hHead later hLater, (hWithin later hLater).2⟩
      rw [List.length_cons, Int.natCast_succ, Int.add_mul, Int.one_mul]
      omega

/-- How many of the instants are in a window. -/
def inWindow (first last : Int) (times : List Int) : Nat :=
  times.countP fun time => first ≤ time && time ≤ last

/-- **Few instants in a window.** -/
theorem Apart.inWindow_mul_le {gap first last : Int} {times : List Int}
    (hApart : Apart gap times) (hOrder : first ≤ last + gap) :
    (inWindow first last times : Int) * gap ≤ last - first + gap := by
  rw [inWindow, List.countP_eq_length_filter]
  refine (hApart.sublist List.filter_sublist).length_mul_le hOrder ?_
  intro time hMem
  obtain ⟨-, hBoth⟩ := List.mem_filter.mp hMem
  obtain ⟨hFirst, hLast⟩ := Bool.and_eq_true_iff.mp hBoth
  exact ⟨of_decide_eq_true hFirst, of_decide_eq_true hLast⟩

/-! ## Close -/

/-- Each instant follows the one before it within a gap. -/
def Close (gap : Int) (times : List Int) : Prop :=
  times.IsChain fun earlier later => later ≤ earlier + gap

instance (gap : Int) (times : List Int) : Decidable (Close gap times) :=
  inferInstanceAs (Decidable (times.IsChain _))

theorem inWindow_cons (first last time : Int) (times : List Int) :
    inWindow first last (time :: times) =
      inWindow first last times + (if first ≤ time ∧ time ≤ last then 1 else 0) := by
  simp [inWindow, List.countP_cons]

/-- A window that begins later holds fewer. -/
theorem inWindow_anti {first later : Int} (hOrder : first ≤ later) (last : Int)
    (times : List Int) : inWindow later last times ≤ inWindow first last times := by
  refine List.countP_mono_left fun time _ hBoth => ?_
  obtain ⟨hLater, hLast⟩ := Bool.and_eq_true_iff.mp hBoth
  have hLater := of_decide_eq_true hLater
  exact Bool.and_eq_true_iff.mpr ⟨decide_eq_true (hOrder.trans hLater), hLast⟩

/-- **Many instants in a window** that begins behind the first instant and ends
within a gap of the last one. -/
theorem Close.le_inWindow_mul {gap first last time : Int} {times : List Int}
    (hClose : Close gap (time :: times)) (hGap : 0 ≤ gap) (hFirst : time ≤ first)
    (hLast : ∀ final ∈ (time :: times).getLast?, last ≤ final + gap) :
    last - first ≤ ((inWindow (first + 1) last (time :: times) : Int) + 1) * gap := by
  induction times generalizing time first with
  | nil =>
      have hEnd := hLast time rfl
      have hCount := Int.mul_nonneg
        (Int.natCast_nonneg (inWindow (first + 1) last [time])) hGap
      rw [Int.add_mul, Int.one_mul]
      omega
  | cons later times ih =>
      obtain ⟨hNext, hRest⟩ := List.isChain_cons_cons.mp hClose
      have hEnd : ∀ final ∈ (later :: times).getLast?, last ≤ final + gap := by
        intro final hFinal
        refine hLast final ?_
        rw [List.getLast?_cons_cons]
        exact hFinal
      rw [inWindow_cons]
      generalize hOne : (if first + 1 ≤ time ∧ time ≤ last then 1 else 0) = one
      by_cases hEarly : later ≤ first
      · have hBound := ih hRest hEarly hEnd
        have hMore := Int.mul_nonneg (Int.natCast_nonneg one) hGap
        rw [Int.natCast_add, Int.add_right_comm, Int.add_mul _ (one : Int)]
        omega
      · by_cases hBehind : last < later
        · -- The window lies between two instants.
          have hCount := Int.mul_nonneg (Int.natCast_nonneg
            (inWindow (first + 1) last (later :: times) + one)) hGap
          rw [Int.add_mul, Int.one_mul]
          omega
        · -- `later` is in the window, and the rest of the window begins behind it.
          have hBound := ih hRest (le_refl later) hEnd
          have hFewer : inWindow (later + 1) last times ≤
              inWindow (first + 1) last times := inWindow_anti (by omega) last times
          rw [inWindow_cons] at hBound ⊢
          rw [if_neg (by omega), Nat.add_zero] at hBound
          rw [if_pos (by omega)]
          have hMore : ((inWindow (later + 1) last times : Int) + 1 + 1) * gap ≤
              ((inWindow (first + 1) last times + 1 + one : Nat) + 1) * gap := by
            refine Int.mul_le_mul_of_nonneg_right ?_ hGap
            omega
          rw [Int.add_mul _ 1, Int.one_mul] at hMore
          omega

end Foundation
end KZEvent
