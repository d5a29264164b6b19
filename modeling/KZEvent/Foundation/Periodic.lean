import Mathlib.Data.Option.Basic

/-!
# Periodic timers

A timer expires every `interval`, on time.  Its reader comes some time after the first
expiry it has not seen, and reads all of them at once.  If it always comes within
`latency`, the time between two readings is at most `interval + latency`, however many
expiries one reading covers.
-/

namespace KZEvent
namespace Foundation

/-- `next` is the next expiry, `unread` the first one that was not read.  `lastRead` is
a ghost record of the last reading. -/
structure PeriodicTimer where
  interval : Nat
  next : Nat
  unread : Option Nat
  lastRead : Nat
deriving DecidableEq

namespace PeriodicTimer

def start (value interval now : Nat) : PeriodicTimer where
  interval := interval
  next := now + value
  unread := none
  lastRead := now

def expire (t : PeriodicTimer) : PeriodicTimer :=
  { t with next := t.next + t.interval, unread := some (t.unread.getD t.next) }

def read (t : PeriodicTimer) (now : Nat) : PeriodicTimer :=
  { t with unread := none, lastRead := now }

/-- The reader is not later than `latency` at the instant `now`. -/
def Seen (t : PeriodicTimer) (latency now : Nat) : Prop :=
  ∀ since ∈ t.unread, now ≤ since + latency

instance (t : PeriodicTimer) (latency now : Nat) : Decidable (t.Seen latency now) :=
  inferInstanceAs (Decidable (∀ since ∈ t.unread, _))

/-- The first expiry after a reading comes within `interval`, and the last expiry has
passed. -/
structure Regular (t : PeriodicTimer) (now : Nat) : Prop where
  first_le : t.unread.getD t.next ≤ t.lastRead + t.interval
  passed : t.next ≤ now + t.interval
  lastRead_le : t.lastRead ≤ now

variable {t : PeriodicTimer} {now later latency : Nat}

theorem regular_start {value interval : Nat} (hValue : value ≤ interval) :
    (start value interval now).Regular now where
  first_le := Nat.add_le_add_left hValue now
  passed := Nat.add_le_add_left hValue now
  lastRead_le := Nat.le_refl now

theorem Regular.mono (hRegular : t.Regular now) (hLater : now ≤ later) :
    t.Regular later where
  first_le := hRegular.first_le
  passed := Nat.le_trans hRegular.passed (Nat.add_le_add_right hLater _)
  lastRead_le := Nat.le_trans hRegular.lastRead_le hLater

/-- The timer expires when it is due. -/
theorem Regular.expire (hRegular : t.Regular now) (hDue : now ≤ t.next) :
    t.expire.Regular t.next where
  first_le := hRegular.first_le
  passed := Nat.le_refl _
  lastRead_le := Nat.le_trans hRegular.lastRead_le hDue

theorem Regular.read (hRegular : t.Regular now) (hLater : now ≤ later) :
    (t.read later).Regular later where
  first_le := Nat.le_trans hRegular.passed (Nat.add_le_add_right hLater _)
  passed := Nat.le_trans hRegular.passed (Nat.add_le_add_right hLater _)
  lastRead_le := Nat.le_refl later

/-- **The time between two readings.**  Until the next expiry, and while the reader is
not late, no more than `interval + latency` has passed since the last reading. -/
theorem Regular.gap (hRegular : t.Regular now) (hDue : later ≤ t.next)
    (hSeen : t.Seen latency later) : later ≤ t.lastRead + t.interval + latency := by
  have hFirst := hRegular.first_le
  cases hUnread : t.unread with
  | none =>
      rw [hUnread, Option.getD_none] at hFirst
      omega
  | some since =>
      rw [hUnread, Option.getD_some] at hFirst
      have hLate : later ≤ since + latency := hSeen since hUnread
      omega

end PeriodicTimer
end Foundation
end KZEvent
