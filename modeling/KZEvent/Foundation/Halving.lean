import Mathlib.Algebra.Group.Nat.Defs
import Mathlib.Data.Nat.Find

/-!
# Halving with delay

A size is halved again and again, but never below a floor, and each time only
after some ticks have passed without effect.  The number of halvings until the
floor is reached bounds the number of ticks, whatever was waited before.
-/

namespace KZEvent
namespace Foundation

theorem exists_halvings (floor size : Nat) :
    ∃ count, size / 2 ^ count ≤ floor := by
  refine ⟨size, ?_⟩
  rw [Nat.div_eq_of_lt Nat.lt_two_pow_self]
  exact Nat.zero_le _

/-- The least number of halvings that brings the size down to the floor. -/
def halvings (floor size : Nat) : Nat :=
  Nat.find (exists_halvings floor size)

variable {floor size patience : Nat}

theorem halvings_le {count : Nat} (hCount : size / 2 ^ count ≤ floor) :
    halvings floor size ≤ count :=
  Nat.find_min' _ hCount

theorem div_halvings_le (floor size : Nat) :
    size / 2 ^ halvings floor size ≤ floor :=
  Nat.find_spec (exists_halvings floor size)

theorem halvings_pos (hLarge : floor < size) : 0 < halvings floor size := by
  by_contra hNone
  have hSpec := div_halvings_le floor size
  rw [Nat.eq_zero_of_not_pos hNone, Nat.pow_zero, Nat.div_one] at hSpec
  exact absurd hSpec (Nat.not_le.mpr hLarge)

/-- A halving that is cut off at the floor is one step on the way. -/
theorem halvings_max_half (hLarge : floor < size) :
    halvings floor (max floor (size / 2)) + 1 ≤ halvings floor size := by
  obtain ⟨count, hCount⟩ := Nat.exists_eq_add_one_of_ne_zero
    (Nat.ne_of_gt (halvings_pos hLarge))
  have hSpec := div_halvings_le floor size
  rw [hCount] at hSpec ⊢
  refine Nat.succ_le_succ (halvings_le ?_)
  rcases Nat.le_total (size / 2) floor with hCut | hHalf
  · rw [max_eq_left hCut]
    exact Nat.div_le_self _ _
  · rw [max_eq_right hHalf, Nat.div_div_eq_div_mul, ← Nat.pow_add_one']
    exact hSpec

/-- A size and the ticks waited since the last halving. -/
structure DelayedHalving where
  size : Nat
  waited : Nat

namespace DelayedHalving

/-- One tick: wait, or halve when `patience` ticks were waited. -/
def tick (floor patience : Nat) (s : DelayedHalving) : DelayedHalving :=
  if s.size ≤ floor then { s with waited := 0 }
  else if s.waited < patience then { s with waited := s.waited + 1 }
  else { size := max floor (s.size / 2), waited := 0 }

/-- How many ticks the floor is away at most. -/
def ticksLeft (floor patience : Nat) (s : DelayedHalving) : Nat :=
  (patience + 1) * halvings floor s.size - s.waited

variable {s : DelayedHalving}

theorem tick_of_le (hSmall : s.size ≤ floor) :
    s.tick floor patience = { s with waited := 0 } :=
  if_pos hSmall

theorem tick_of_waits (hLarge : floor < s.size) (hWaits : s.waited < patience) :
    s.tick floor patience = { s with waited := s.waited + 1 } := by
  rw [tick, if_neg (Nat.not_le.mpr hLarge), if_pos hWaits]

theorem tick_of_patient (hLarge : floor < s.size)
    (hPatient : patience ≤ s.waited) :
    s.tick floor patience =
      { size := max floor (s.size / 2), waited := 0 } := by
  rw [tick, if_neg (Nat.not_le.mpr hLarge), if_neg (Nat.not_lt.mpr hPatient)]

theorem size_tick (floor patience : Nat) (s : DelayedHalving) :
    (s.tick floor patience).size = s.size ∨
      (s.tick floor patience).size = max floor (s.size / 2) := by
  unfold tick
  split_ifs
  · exact .inl rfl
  · exact .inl rfl
  · exact .inr rfl

theorem le_size_tick (hFloor : floor ≤ s.size) :
    floor ≤ (s.tick floor patience).size := by
  rcases size_tick floor patience s with hSame | hHalved
  · rw [hSame]
    exact hFloor
  · rw [hHalved]
    exact Nat.le_max_left _ _

theorem size_tick_le (hFloor : floor ≤ s.size) :
    (s.tick floor patience).size ≤ s.size := by
  rcases size_tick floor patience s with hSame | hHalved
  · exact Nat.le_of_eq hSame
  · rw [hHalved]
    exact Nat.max_le.mpr ⟨hFloor, Nat.div_le_self _ _⟩

theorem waited_tick_le (s : DelayedHalving) :
    (s.tick floor patience).waited ≤ patience := by
  unfold tick
  split_ifs with hSmall hWaits
  · exact Nat.zero_le _
  · exact hWaits
  · exact Nat.zero_le _

/-- Every tick brings the floor nearer. -/
theorem ticksLeft_tick (hWaited : s.waited ≤ patience) :
    (s.tick floor patience).ticksLeft floor patience ≤
      s.ticksLeft floor patience - 1 := by
  unfold tick
  split_ifs with hSmall hWaits
  · have hNone : halvings floor s.size = 0 :=
      Nat.le_zero.mp (halvings_le (by simpa using hSmall))
    simp [ticksLeft, hNone]
  · simp only [ticksLeft]
    omega
  · have hFewer := Nat.mul_le_mul_left (patience + 1)
      (halvings_max_half (Nat.not_le.mp hSmall))
    rw [Nat.mul_add_one] at hFewer
    simp only [ticksLeft]
    omega

theorem size_eq_of_ticksLeft (hFloor : floor ≤ s.size)
    (hWaited : s.waited ≤ patience) (hNone : s.ticksLeft floor patience = 0) :
    s.size = floor := by
  by_contra hAbove
  have hHalvings : 0 < halvings floor s.size := halvings_pos (by omega)
  have hTicks : patience + 1 ≤ (patience + 1) * halvings floor s.size :=
    Nat.le_mul_of_pos_right _ hHalvings
  simp only [ticksLeft] at hNone
  omega

end DelayedHalving

end Foundation
end KZEvent
