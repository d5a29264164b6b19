import KZEvent.Core.EventTable
import KZEvent.Net.StreamHandler

/-!
# One end of a connection in the kernel

Between a socket and its peer the kernel holds the bytes that are on the way and
those that have arrived; between a socket and the loop it holds the place of the
descriptor on the ready list of the epoll set.  The set is edge triggered: a
descriptor is put on the list when bytes arrive, when room for sending is made,
and when `epoll_ctl` finds something to report; `epoll_wait` takes it off, and
reports what is ready at that time.

A reader must not be left with input and without a report, nor a sender with room
and without one.  `Alert` is that condition, and each operation keeps it.
-/

namespace KZEvent
namespace Net

open KZEvent.Core Foundation EventType

/-- The interest in the epoll set, if any, contains `flag`. -/
def waitsFor (interest : Option EpollEvents) (flag : EpollEvents) : Bool :=
  interest.any fun events => hasFlag events flag

/-- What the kernel holds for one end: the bytes accepted from it and not yet
arrived at the peer, the bytes arrived and not yet read, whether it would report
room for sending, whether the descriptor is on the ready list, and what
`epoll_wait` reported last if the loop has not dispatched it. -/
structure SocketEnd where
  wire : List UInt8
  inbox : List UInt8
  writable : Bool
  ready : Bool
  reported : Option EpollEvents
deriving DecidableEq

namespace SocketEnd

def make (writable : Bool) : SocketEnd where
  wire := []
  inbox := []
  writable := writable
  ready := false
  reported := none

/-- The events that hold at this moment. -/
def readiness (e : SocketEnd) : EpollEvents :=
  (if e.inbox.isEmpty then 0 else EPOLLIN) |||
    (if e.writable then EPOLLOUT else 0)

/-- What there is to report to the given interest. -/
def poll (interest : Option EpollEvents) (e : SocketEnd) : EpollEvents :=
  e.readiness &&& interest.getD 0

/-- `epoll_ctl` with `EPOLL_CTL_ADD` or `EPOLL_CTL_MOD` looks at once whether
there is something to report. -/
def rearm (interest : Option EpollEvents) (e : SocketEnd) : SocketEnd :=
  { e with ready := e.ready || e.poll interest != 0 }

/-- The first `count` bytes on the way arrive at the peer. -/
def depart (count : Nat) (e : SocketEnd) : SocketEnd :=
  { e with wire := e.wire.drop count }

/-- Bytes arrive. -/
def arrive (interest : Option EpollEvents) (bytes : List UInt8) (e : SocketEnd) :
    SocketEnd :=
  { e with
    inbox := e.inbox ++ bytes
    ready := e.ready || waitsFor interest EPOLLIN }

/-- There is room for sending again. -/
def makeRoom (interest : Option EpollEvents) (e : SocketEnd) : SocketEnd :=
  { e with writable := true, ready := e.ready || waitsFor interest EPOLLOUT }

/-- `epoll_wait` takes the descriptor off the ready list. -/
def report (interest : Option EpollEvents) (e : SocketEnd) : SocketEnd :=
  { e with
    ready := false
    reported := if e.poll interest = 0 then none else some (e.poll interest) }

/-- The process sent bytes and read the first `count` of the inbox; `room` says
whether the kernel would have taken more. -/
def exchange (sent : List UInt8) (count : Nat) (room : Bool) (e : SocketEnd) :
    SocketEnd :=
  { e with
    wire := e.wire ++ sent
    inbox := e.inbox.drop count
    writable := e.writable && room }

/-- The loop is done with what was reported. -/
def dispatched (e : SocketEnd) : SocketEnd := { e with reported := none }

/-- The answers of an invocation are those of this end: the mask is what was
reported, the reads find the inbox, and a refused send leaves no room. -/
structure Serves (e : SocketEnd) (inv : Invocation) (pending : Nat)
    (room : Bool) : Prop where
  mask : e.reported.map localToKz = some inv.types
  reads : hasFlag inv.types kRead = true → readBytes inv.reads = e.inbox
  room : hasFlag inv.types kWrite = true →
    sendEnd pending inv.sends = .kTryAgain → room = false

instance (e : SocketEnd) (inv : Invocation) (pending : Nat) (room : Bool) :
    Decidable (e.Serves inv pending room) :=
  decidable_of_iff
    (e.reported.map localToKz = some inv.types ∧
      (hasFlag inv.types kRead = true → readBytes inv.reads = e.inbox) ∧
      (hasFlag inv.types kWrite = true →
        sendEnd pending inv.sends = .kTryAgain → room = false))
    ⟨fun h => ⟨h.1, h.2.1, h.2.2⟩, fun h => ⟨h.mask, h.reads, h.room⟩⟩

/-! ## What is reported -/

variable {interest : Option EpollEvents} {e : SocketEnd}

theorem hasFlag_readiness_EPOLLIN (e : SocketEnd) :
    hasFlag e.readiness EPOLLIN = !e.inbox.isEmpty := by
  rw [readiness, EPOLLIN, hasFlag_or _ _ (by decide)]
  cases e.inbox.isEmpty <;> cases e.writable <;> decide

theorem hasFlag_readiness_EPOLLOUT (e : SocketEnd) :
    hasFlag e.readiness EPOLLOUT = e.writable := by
  rw [readiness, EPOLLOUT, hasFlag_or _ _ (by decide)]
  cases e.inbox.isEmpty <;> cases e.writable <;> decide

theorem hasFlag_getD {flag : EpollEvents}
    (hWaits : waitsFor interest flag = true) :
    hasFlag (interest.getD 0) flag = true := by
  cases interest with
  | none => cases hWaits
  | some events => exact hWaits

theorem poll_EPOLLIN (hInbox : e.inbox ≠ [])
    (hWaits : waitsFor interest EPOLLIN = true) :
    hasFlag (e.poll interest) EPOLLIN = true := by
  have hReady : hasFlag e.readiness EPOLLIN = true := by
    rw [hasFlag_readiness_EPOLLIN]
    simpa using hInbox
  have hAsked := hasFlag_getD hWaits
  rw [EPOLLIN] at hReady hAsked ⊢
  rw [poll, hasFlag_and _ _ (by decide), hReady, hAsked]
  rfl

theorem poll_EPOLLOUT (hRoom : e.writable = true)
    (hWaits : waitsFor interest EPOLLOUT = true) :
    hasFlag (e.poll interest) EPOLLOUT = true := by
  have hReady : hasFlag e.readiness EPOLLOUT = true := by
    rw [hasFlag_readiness_EPOLLOUT]
    exact hRoom
  have hAsked := hasFlag_getD hWaits
  rw [EPOLLOUT] at hReady hAsked ⊢
  rw [poll, hasFlag_and _ _ (by decide), hReady, hAsked]
  rfl

/-- The loop has been told, or will be. -/
def Noticed (e : SocketEnd) (flag : EpollEvents) : Prop :=
  e.ready = true ∨ waitsFor e.reported flag = true

theorem noticed_report {flag : EpollEvents} {index : Nat}
    (hFlag : flag = BitVec.twoPow 32 index) (hIndex : index < 32)
    (hPoll : hasFlag (e.poll interest) flag = true) :
    (e.report interest).Noticed flag := by
  right
  have hSomething : e.poll interest ≠ 0 := by
    rw [hFlag] at hPoll
    exact ne_zero_of_hasFlag hIndex hPoll
  simp only [report, if_neg hSomething, waitsFor, Option.any_some]
  exact hPoll

theorem noticed_rearm {flag : EpollEvents} {index : Nat}
    (hFlag : flag = BitVec.twoPow 32 index) (hIndex : index < 32)
    (hPoll : hasFlag (e.poll interest) flag = true) :
    (e.rearm interest).Noticed flag := by
  left
  have hSomething : e.poll interest ≠ 0 := by
    rw [hFlag] at hPoll
    exact ne_zero_of_hasFlag hIndex hPoll
  show (e.ready || e.poll interest != 0) = true
  rw [bne_iff_ne.mpr hSomething, Bool.or_true]

/-! ## Nothing to do goes unnoticed -/

/-- Input is noticed by an end that waits for it, and room by an end that waits
for it and needs it, unless a task that arms the descriptor anew is on its way
(`arming`). -/
structure Alert (interest : Option EpollEvents) (busy arming : Prop)
    (e : SocketEnd) : Prop where
  reads : e.inbox ≠ [] → waitsFor interest EPOLLIN = true →
    e.Noticed EPOLLIN ∨ arming
  writes : busy → e.writable = true → waitsFor interest EPOLLOUT = true →
    e.Noticed EPOLLOUT ∨ arming

variable {busy busy' arming arming' : Prop}

theorem Alert.imp (hAlert : Alert interest busy arming e)
    (hBusy : busy' → busy ∨ arming') (hArming : arming → arming') :
    Alert interest busy' arming' e where
  reads := fun hInbox hWaits => (hAlert.reads hInbox hWaits).imp_right hArming
  writes := fun hBusy' hRoom hWaits => by
    rcases hBusy hBusy' with hBefore | hArmed
    · exact (hAlert.writes hBefore hRoom hWaits).imp_right hArming
    · exact .inr hArmed

/-- While a task that arms the descriptor is on its way nothing is missed. -/
theorem alert_of_arming (hArming : arming) : Alert interest busy arming e where
  reads := fun _ _ => .inr hArming
  writes := fun _ _ _ => .inr hArming

/-- Without an interest nothing is waited for. -/
theorem alert_of_none : Alert none busy arming e where
  reads := fun _ hWaits => by cases hWaits
  writes := fun _ _ hWaits => by cases hWaits

/-- `epoll_ctl` makes up for whatever was missed before. -/
theorem alert_rearm (interest : Option EpollEvents) (busy arming : Prop)
    (e : SocketEnd) : Alert interest busy arming (e.rearm interest) where
  reads := fun hInbox hWaits =>
    .inl (noticed_rearm rfl (by decide) (poll_EPOLLIN hInbox hWaits))
  writes := fun _ hRoom hWaits =>
    .inl (noticed_rearm rfl (by decide) (poll_EPOLLOUT hRoom hWaits))

/-- `epoll_wait` reports all there is. -/
theorem alert_report (interest : Option EpollEvents) (busy arming : Prop)
    (e : SocketEnd) : Alert interest busy arming (e.report interest) where
  reads := fun hInbox hWaits =>
    .inl (noticed_report rfl (by decide) (poll_EPOLLIN hInbox hWaits))
  writes := fun _ hRoom hWaits =>
    .inl (noticed_report rfl (by decide) (poll_EPOLLOUT hRoom hWaits))

theorem Alert.arrive (hAlert : Alert interest busy arming e)
    (bytes : List UInt8) :
    Alert interest busy arming (e.arrive interest bytes) where
  reads := fun _ hWaits => .inl (.inl (by simp [SocketEnd.arrive, hWaits]))
  writes := fun hBusy hRoom hWaits => by
    rcases hAlert.writes hBusy hRoom hWaits with (hReady | hReported) | hArmed
    · exact .inl (.inl (by simp [SocketEnd.arrive, hReady]))
    · exact .inl (.inr hReported)
    · exact .inr hArmed

theorem Alert.makeRoom (hAlert : Alert interest busy arming e) :
    Alert interest busy arming (e.makeRoom interest) where
  reads := fun hInbox hWaits => by
    rcases hAlert.reads hInbox hWaits with (hReady | hReported) | hArmed
    · exact .inl (.inl (by simp [SocketEnd.makeRoom, hReady]))
    · exact .inl (.inr hReported)
    · exact .inr hArmed
  writes := fun _ _ hWaits => .inl (.inl (by simp [SocketEnd.makeRoom, hWaits]))

/-- Reading and sending leave less to be noticed. -/
theorem Alert.exchange (hAlert : Alert interest busy arming e)
    (sent : List UInt8) (count : Nat) (room : Bool) :
    Alert interest busy arming (e.exchange sent count room) where
  reads := fun hInbox hWaits => by
    have hBefore : e.inbox ≠ [] := by
      intro hEmpty
      exact hInbox (by simp [SocketEnd.exchange, hEmpty])
    exact hAlert.reads hBefore hWaits
  writes := fun hBusy hRoom hWaits => by
    have hBefore : e.writable = true := by
      simp only [SocketEnd.exchange, Bool.and_eq_true] at hRoom
      exact hRoom.1
    exact hAlert.writes hBusy hBefore hWaits

/-- A handler that was told of input leaves none, and one that was told of room
leaves none or needs none. -/
theorem Alert.dispatched (hAlert : Alert interest busy arming e)
    {events : EpollEvents} {sent : List UInt8} {count : Nat} {room : Bool}
    (hReported : e.reported = some events)
    (hReads : hasFlag events EPOLLIN = true → e.inbox.drop count = [] ∨ arming')
    (hWrites : hasFlag events EPOLLOUT = true → busy' → room = false ∨ arming')
    (hBusy : hasFlag events EPOLLOUT = false → busy' → busy ∨ arming')
    (hArming : arming → arming') :
    Alert interest busy' arming' (e.exchange sent count room).dispatched where
  reads := fun hInbox hWaits => by
    have hBefore : e.inbox ≠ [] := by
      intro hEmpty
      exact hInbox (by simp [SocketEnd.exchange, SocketEnd.dispatched, hEmpty])
    rcases hAlert.reads hBefore hWaits with (hReady | hTold) | hArmed
    · exact .inl (.inl hReady)
    · rw [hReported] at hTold
      rcases hReads hTold with hNone | hArmed
      · exact absurd hNone hInbox
      · exact .inr hArmed
    · exact .inr (hArming hArmed)
  writes := fun hBusy' hRoom hWaits => by
    simp only [SocketEnd.dispatched, SocketEnd.exchange, Bool.and_eq_true] at hRoom
    cases hTold : hasFlag events EPOLLOUT with
    | true =>
        rcases hWrites hTold hBusy' with hFull | hArmed
        · rw [hFull] at hRoom
          cases hRoom.2
        · exact .inr hArmed
    | false =>
        rcases hBusy hTold hBusy' with hBefore | hArmed
        · rcases hAlert.writes hBefore hRoom.1 hWaits with
            (hReady | hReport) | hArmed
          · exact .inl (.inl hReady)
          · rw [hReported] at hReport
            exact absurd (hTold.symm.trans hReport) (by simp)
          · exact .inr (hArming hArmed)
        · exact .inr hArmed

/-- Nothing is noticed by an end that is off the list and has been served. -/
theorem not_noticed {flag : EpollEvents} (hReady : e.ready = false)
    (hReported : e.reported = none) : ¬ e.Noticed flag := by
  rintro (hTrue | hTold)
  · rw [hReady] at hTrue
    cases hTrue
  · rw [hReported] at hTold
    cases hTold

end SocketEnd
end Net
end KZEvent
