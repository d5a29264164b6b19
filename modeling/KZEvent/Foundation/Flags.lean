import Mathlib.Data.BitVec

/-!
# Flag sets

An enumeration over an unsigned integer whose values are single bits is used as
a set of flags.  This module has the membership test on such sets, how adding
and removing one flag changes it, and the translation of one flag set into
another by a table of corresponding flags.
-/

namespace KZEvent
namespace Foundation

variable {w : Nat}

/-- The test `(bits & flag) == flag`. -/
def hasFlag (bits flag : BitVec w) : Bool :=
  bits &&& flag == flag

theorem twoPow_ne_zero {index : Nat} (hIndex : index < w) :
    BitVec.twoPow w index ≠ 0#w := by
  intro hZero
  have hClear := congrArg (fun bits => bits.getLsbD index) hZero
  simp [hIndex] at hClear

/-- A single-bit flag is present exactly when its bit is set. -/
theorem hasFlag_twoPow (bits : BitVec w) {index : Nat} (hIndex : index < w) :
    hasFlag bits (BitVec.twoPow w index) = bits.getLsbD index := by
  have hNonzero : 0#w ≠ BitVec.twoPow w index := (twoPow_ne_zero hIndex).symm
  rw [hasFlag, BitVec.and_twoPow]
  cases hSet : bits.getLsbD index
  · simpa using hNonzero
  · simp

/-- For a single bit, being present is the same as not being absent. -/
theorem and_twoPow_bne_zero (bits : BitVec w) {index : Nat} (hIndex : index < w) :
    (bits &&& BitVec.twoPow w index != 0) = bits.getLsbD index := by
  have hNonzero : BitVec.twoPow w index ≠ 0#w := twoPow_ne_zero hIndex
  rw [BitVec.and_twoPow]
  cases hSet : bits.getLsbD index
  · simp
  · simpa using hNonzero

/-- Adding a flag makes it present. -/
theorem hasFlag_or_self (bits : BitVec w) {index : Nat} (hIndex : index < w) :
    hasFlag (bits ||| BitVec.twoPow w index) (BitVec.twoPow w index) = true := by
  rw [hasFlag_twoPow _ hIndex]
  simp [hIndex]

/-- Adding a flag leaves the others alone. -/
theorem hasFlag_or_of_ne (bits : BitVec w) {index other : Nat}
    (hOther : other < w) (hNe : other ≠ index) :
    hasFlag (bits ||| BitVec.twoPow w index) (BitVec.twoPow w other) =
      hasFlag bits (BitVec.twoPow w other) := by
  rw [hasFlag_twoPow _ hOther, hasFlag_twoPow _ hOther]
  simp [BitVec.getLsbD_twoPow, hNe.symm]

/-- Removing a flag leaves the others alone. -/
theorem hasFlag_andNot_of_ne (bits : BitVec w) {index other : Nat}
    (hOther : other < w) (hNe : other ≠ index) :
    hasFlag (bits &&& ~~~BitVec.twoPow w index) (BitVec.twoPow w other) =
      hasFlag bits (BitVec.twoPow w other) := by
  rw [hasFlag_twoPow _ hOther, hasFlag_twoPow _ hOther]
  simp [hNe, hOther]

/-- A flag that was taken away is not there. -/
theorem hasFlag_andNot_self (bits : BitVec w) {index : Nat} (hIndex : index < w) :
    hasFlag (bits &&& ~~~BitVec.twoPow w index) (BitVec.twoPow w index) = false := by
  rw [hasFlag_twoPow _ hIndex]
  simp [hIndex]

/-- A flag of an intersection is one of both sets. -/
theorem hasFlag_and (bits other : BitVec w) {index : Nat} (hIndex : index < w) :
    hasFlag (bits &&& other) (BitVec.twoPow w index) =
      (hasFlag bits (BitVec.twoPow w index) &&
        hasFlag other (BitVec.twoPow w index)) := by
  rw [hasFlag_twoPow _ hIndex, hasFlag_twoPow _ hIndex, hasFlag_twoPow _ hIndex,
    BitVec.getLsbD_and]

/-- A flag of a union is one of either set. -/
theorem hasFlag_or (bits other : BitVec w) {index : Nat} (hIndex : index < w) :
    hasFlag (bits ||| other) (BitVec.twoPow w index) =
      (hasFlag bits (BitVec.twoPow w index) ||
        hasFlag other (BitVec.twoPow w index)) := by
  rw [hasFlag_twoPow _ hIndex, hasFlag_twoPow _ hIndex, hasFlag_twoPow _ hIndex,
    BitVec.getLsbD_or]

/-- A set with a flag is not empty. -/
theorem ne_zero_of_hasFlag {bits : BitVec w} {index : Nat} (hIndex : index < w)
    (hFlag : hasFlag bits (BitVec.twoPow w index) = true) : bits ≠ 0#w := by
  rintro rfl
  rw [hasFlag_twoPow _ hIndex] at hFlag
  simp at hFlag

/-- Walk a translation table: each entry whose source flag is set contributes
its target flag. -/
def translate {v : Nat} (table : List (BitVec w × BitVec v)) (start : BitVec v)
    (bits : BitVec w) : BitVec v :=
  table.foldl
    (fun translated entry =>
      bif bits &&& entry.1 != 0 then translated ||| entry.2 else translated)
    start

/-- A bit of a translation comes from the start value or from an entry whose
source flag is set. -/
theorem getLsbD_translate {v : Nat} (table : List (BitVec w × BitVec v))
    (start : BitVec v) (bits : BitVec w) (index : Nat) :
    (translate table start bits).getLsbD index =
      (start.getLsbD index ||
        table.any fun entry => (bits &&& entry.1 != 0) && entry.2.getLsbD index) := by
  induction table generalizing start with
  | nil => simp [translate]
  | cons entry table ih =>
      have hCons : translate (entry :: table) start bits =
          translate table
            (bif bits &&& entry.1 != 0 then start ||| entry.2 else start) bits := rfl
      -- the first entry goes into the start value or does not count
      rw [hCons, ih, List.any_cons]
      cases bits &&& entry.1 != 0
      · rfl
      · simp only [cond_true, BitVec.getLsbD_or, Bool.true_and, Bool.or_assoc]

end Foundation
end KZEvent
