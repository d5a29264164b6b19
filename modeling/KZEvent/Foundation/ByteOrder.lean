import KZEvent.Foundation.Window
import Mathlib.Algebra.Group.Nat.Defs

/-!
# Integers in memory

A machine integer lies in memory as its bytes, the low byte first.  `load16`
and `load32` read one at an offset, `bytes16` and `bytes32` are what a store
writes.  `htons` exchanges the two bytes of a short, so that a store of its
result puts the high byte first.
-/

namespace KZEvent
namespace Foundation

/-- The number whose bytes these are, low byte first. -/
def leValue : List UInt8 → Nat
  | [] => 0
  | byte :: bytes => byte.toNat + 256 * leValue bytes

/-- The low `width` bytes of a number, low byte first. -/
def leBytes : Nat → Nat → List UInt8
  | 0, _ => []
  | width + 1, value => UInt8.ofNat value :: leBytes width (value / 256)

def load16 (memory : List UInt8) (offset : Nat) : UInt16 :=
  UInt16.ofNat (leValue (window memory offset (offset + 2)))

def load32 (memory : List UInt8) (offset : Nat) : UInt32 :=
  UInt32.ofNat (leValue (window memory offset (offset + 4)))

def bytes16 (value : UInt16) : List UInt8 := leBytes 2 value.toNat

def bytes32 (value : UInt32) : List UInt8 := leBytes 4 value.toNat

/-- `htons`, and `ntohs`, on a machine that stores the low byte first. -/
def htons (value : UInt16) : UInt16 :=
  UInt16.ofNat (value.toNat % 256 * 256 + value.toNat / 256)

@[simp]
theorem length_leBytes (width value : Nat) :
    (leBytes width value).length = width := by
  induction width generalizing value with
  | zero => rfl
  | succ width ih => rw [leBytes, List.length_cons, ih]

theorem leValue_leBytes {width value : Nat} (hFits : value < 256 ^ width) :
    leValue (leBytes width value) = value := by
  induction width generalizing value with
  | zero =>
      obtain rfl : value = 0 := by simpa using hFits
      rfl
  | succ width ih =>
      have hRest : value / 256 < 256 ^ width := by
        rw [pow_succ] at hFits
        exact Nat.div_lt_of_lt_mul (by rwa [Nat.mul_comm] at hFits)
      have hLow : (UInt8.ofNat value).toNat = value % 256 := by simp
      rw [leBytes, leValue, ih hRest, hLow]
      omega

@[simp]
theorem length_bytes16 (value : UInt16) : (bytes16 value).length = 2 :=
  length_leBytes 2 _

@[simp]
theorem length_bytes32 (value : UInt32) : (bytes32 value).length = 4 :=
  length_leBytes 4 _

theorem leValue_bytes16 (value : UInt16) :
    leValue (bytes16 value) = value.toNat :=
  leValue_leBytes value.toNat_lt

theorem leValue_bytes32 (value : UInt32) :
    leValue (bytes32 value) = value.toNat :=
  leValue_leBytes value.toNat_lt

/-- Exchanging the bytes twice gives the short back. -/
@[simp]
theorem htons_htons (value : UInt16) : htons (htons value) = value := by
  have hFits := value.toNat_lt
  have hSwapped : (htons value).toNat =
      value.toNat % 256 * 256 + value.toNat / 256 := by
    simp only [htons, UInt16.toNat_ofNat']
    omega
  have hBack : (value.toNat % 256 * 256 + value.toNat / 256) % 256 * 256 +
      (value.toNat % 256 * 256 + value.toNat / 256) / 256 = value.toNat := by
    omega
  rw [htons, hSwapped, hBack, UInt16.ofNat_toNat]

end Foundation
end KZEvent
