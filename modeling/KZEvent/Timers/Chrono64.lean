import KZEvent.Timers.Timer

/-!
# `std::chrono` in 64 bits

`milliseconds`, the durations and the time points of `steady_clock` all count in
a signed integer of 64 bits.  A count of milliseconds becomes one of nanoseconds
before it is added to a time point, and every one of these operations wraps
around.
-/

namespace KZEvent
namespace Timers

/-- What a signed integer of 64 bits holds after an operation with the exact
result `value`. -/
def int64 (value : Int) : Int :=
  (value + 9223372036854775808) % 18446744073709551616 - 9223372036854775808

/-- The operations as they are carried out.  The argument of `milliseconds` is an
`uint64_t`; its count is converted, and then scaled. -/
def Chrono.int64 : Chrono where
  milliseconds timeoutMs := Timers.int64 (Timers.int64 timeoutMs * 1000000)
  add time duration := Timers.int64 (time + duration)
  sub time other := Timers.int64 (time - other)

theorem int64_bounds (value : Int) :
    -9223372036854775808 ≤ int64 value ∧ int64 value < 9223372036854775808 := by
  unfold int64
  omega

theorem int64_of_fits {value : Int} (hLow : -9223372036854775808 ≤ value)
    (hHigh : value < 9223372036854775808) : int64 value = value := by
  unfold int64
  omega

/-- One bit too many, and the result is negative. -/
theorem int64_of_exceeds {value : Int} (hLow : 9223372036854775808 ≤ value)
    (hHigh : value < 18446744073709551616) :
    int64 value = value - 18446744073709551616 := by
  unfold int64
  omega

/-- The nanoseconds of a timeout: the exact number, modulo `2 ^ 64`. -/
theorem milliseconds_eq (timeoutMs : Nat) :
    Chrono.int64.milliseconds timeoutMs = int64 (timeoutMs * 1000000) := by
  show int64 (int64 timeoutMs * 1000000) = _
  unfold int64
  omega

theorem milliseconds_zero : Chrono.int64.milliseconds 0 = 0 := rfl

/-- A timeout of less than `2 ^ 62` nanoseconds is converted exactly. -/
theorem milliseconds_of_fits {timeoutMs : Nat}
    (hFits : timeoutMs * 1000000 < 4611686018427387904) :
    Chrono.int64.milliseconds timeoutMs = timeoutMs * 1000000 := by
  rw [milliseconds_eq]
  exact int64_of_fits (by omega) (by omega)

end Timers
end KZEvent
