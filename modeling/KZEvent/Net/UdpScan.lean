import KZEvent.Foundation.Periodic
import KZEvent.Net.UdpExpiry

/-!
# When idle UDP sessions are gone

The constructor of `UdpServer` arms a periodic timer, and its event handler reads the
timer until it has no expiry left and scans the sessions.  The time between two scans
is a tenth of the timeout, within bounds; so a session that got no datagram is erased
not much later than its timeout, if the handler is called within some latency of an
expiry.
-/

namespace KZEvent
namespace Net

open Foundation

/-! ## The timer -/

/-- A `timespec`. -/
structure Timespec where
  tvSec : Int
  tvNsec : Int
deriving DecidableEq

namespace Timespec

def zero : Timespec := ⟨0, 0⟩

/-- What `make_timer_channel` and `reset_timer_fd` make of milliseconds. -/
def ofMs (ms : UInt64) : Timespec where
  tvSec := wrapInt64 (ms / 1000).toNat
  tvNsec := wrapInt64 (ms % 1000 * 1000000).toNat

def nanoseconds (time : Timespec) : Int := time.tvSec * 1000000000 + time.tvNsec

/-- The kernel takes it. -/
def Valid (time : Timespec) : Prop :=
  0 ≤ time.tvSec ∧ 0 ≤ time.tvNsec ∧ time.tvNsec < 1000000000

/-- Nothing is lost, and the kernel takes it, for every number of milliseconds. -/
theorem ofMs_exact (ms : UInt64) :
    (ofMs ms).Valid ∧ (ofMs ms).nanoseconds = ms.toNat * 1000000 := by
  have hMs := ms.toNat_lt
  have hThousand : UInt64.toNat 1000 = 1000 := rfl
  have hMillion : UInt64.toNat 1000000 = 1000000 := rfl
  have hLess := Nat.mod_lt ms.toNat (show 0 < 1000 by decide)
  have hDivMod := Nat.div_add_mod ms.toNat 1000
  have hSec : (ms / 1000).toNat = ms.toNat / 1000 := UInt64.toNat_div ms 1000
  have hNsec : (ms % 1000 * 1000000).toNat = ms.toNat % 1000 * 1000000 := by
    rw [UInt64.toNat_mul, UInt64.toNat_mod, hThousand, hMillion]
    exact Nat.mod_eq_of_lt (by omega)
  have hTvSec : (ofMs ms).tvSec = (ms.toNat / 1000 : Nat) := by
    simp only [ofMs, hSec]
    exact wrapInt64_of_lt (Int.natCast_nonneg _) (by omega)
  have hTvNsec : (ofMs ms).tvNsec = (ms.toNat % 1000 * 1000000 : Nat) := by
    simp only [ofMs, hNsec]
    exact wrapInt64_of_lt (Int.natCast_nonneg _) (by omega)
  refine ⟨⟨by omega, by omega, by omega⟩, ?_⟩
  rw [nanoseconds, hTvSec, hTvNsec]
  omega

end Timespec

/-- An `itimerspec`. -/
structure TimerSettings where
  itValue : Timespec
  itInterval : Timespec

/-- `make_timer_channel`, by what it writes to the timer; a timer with no timeout is
not armed. -/
def makeTimerChannel (timeoutMs repeatMs : UInt64) : Option TimerSettings :=
  if timeoutMs = 0 then none
  else
    some
      { itValue := .ofMs timeoutMs
        itInterval := if repeatMs ≠ 0 then .ofMs repeatMs else .zero }

/-- `timerfd_settime` at the instant `now`. -/
def TimerSettings.timer (settings : TimerSettings) (now : Nat) : PeriodicTimer :=
  .start settings.itValue.nanoseconds.toNat settings.itInterval.nanoseconds.toNat now

namespace UdpServer

def kMinScanIntervalMs : UInt64 := 100
def kMaxScanIntervalMs : UInt64 := 10000
def kScanFrequencyDivisor : UInt64 := 10

/-- `scan_time`. -/
def scanTime (sessionTimeoutMs : UInt64) : UInt64 :=
  let scan := sessionTimeoutMs / kScanFrequencyDivisor
  if scan < kMinScanIntervalMs then kMinScanIntervalMs
  else if scan > kMaxScanIntervalMs then kMaxScanIntervalMs
  else scan

/-- The time between two scans is within the bounds, and a tenth of the timeout at
most where that is not less than the lower one. -/
theorem scanTime_spec (timeout : UInt64) :
    100 ≤ (scanTime timeout).toNat ∧ (scanTime timeout).toNat ≤ 10000 ∧
      (1000 ≤ timeout.toNat → (scanTime timeout).toNat * 10 ≤ timeout.toNat) := by
  have hTenth : (timeout / kScanFrequencyDivisor).toNat = timeout.toNat / 10 :=
    UInt64.toNat_div timeout 10
  have hMin : kMinScanIntervalMs.toNat = 100 := rfl
  have hMax : kMaxScanIntervalMs.toNat = 10000 := rfl
  simp only [scanTime]
  split_ifs with hShort hLong
  · rw [UInt64.lt_iff_toNat_lt, hTenth, hMin] at hShort
    exact ⟨by omega, by omega, by omega⟩
  · rw [gt_iff_lt, UInt64.lt_iff_toNat_lt, hTenth, hMax] at hLong
    exact ⟨by omega, by omega, by omega⟩
  · rw [UInt64.lt_iff_toNat_lt, hTenth, hMin] at hShort
    rw [gt_iff_lt, UInt64.lt_iff_toNat_lt, hTenth, hMax] at hLong
    exact ⟨by omega, by omega, by omega⟩

end UdpServer

/-! ## A server with its timer -/

structure ScannedServer where
  server : UdpServer
  timer : PeriodicTimer

inductive ScannedAction
  | act (action : UdpAction)
  | expire
  | scanTask (now : Nat)

/-- The instant of a datagram. -/
def UdpAction.time? : UdpAction → Option Nat
  | receive _ _ now => some now
  | _ => none

/-- The scan is what the timer is for. -/
def UdpAction.isScan : UdpAction → Bool
  | scan _ => true
  | _ => false

namespace ScannedServer

/-- `make_udp_server` at the instant zero. -/
def make (family : UInt16) (sessionTimeoutMs : UInt64) : Option ScannedServer :=
  (UdpServer.make family sessionTimeoutMs).bind fun server =>
    let scanTime := UdpServer.scanTime sessionTimeoutMs
    (makeTimerChannel scanTime scanTime).map fun settings =>
      { server := server, timer := settings.timer 0 }

/-- One step.  The timer expires on time, and its event calls the scan task. -/
def step (std : StdHash) (bucketOf : List UdpEvent → UInt64 → Nat)
    (s : ScannedServer) : ScannedAction → Option ScannedServer
  | .act action =>
      if action.isScan = false ∧ ∀ now ∈ action.time?, now ≤ s.timer.next then
        (s.server.step std bucketOf action).map fun server =>
          { s with server := server }
      else none
  | .expire =>
      if s.server.clock ≤ s.timer.next then
        some
          { server := { s.server with clock := s.timer.next }
            timer := s.timer.expire }
      else none
  | .scanTask now =>
      if s.timer.unread.isSome ∧ now ≤ s.timer.next then
        (s.server.step std bucketOf (.scan now)).map fun server =>
          { server := server, timer := s.timer.read now }
      else none

/-- Nothing happens later than `latency` after an expiry that the scan task has not
seen. -/
def Punctual (latency : Nat) (s : ScannedServer) : ScannedAction → Prop
  | .act action => ∀ now ∈ action.time?, s.timer.Seen latency now
  | .expire => s.timer.Seen latency s.timer.next
  | .scanTask now => s.timer.Seen latency now

instance (latency : Nat) (s : ScannedServer) : (action : ScannedAction) →
    Decidable (s.Punctual latency action)
  | .act action => inferInstanceAs (Decidable (∀ now ∈ action.time?, _))
  | .expire => inferInstanceAs (Decidable (s.timer.Seen latency _))
  | .scanTask _ => inferInstanceAs (Decidable (s.timer.Seen latency _))

/-! ## The invariant -/

/-- A session has had a datagram at the instant of its time stamp. -/
def Used (history : List UdpEvent) (entry : InetAddr × UdpSession) : Prop :=
  ∃ source data, UdpEvent.received source data entry.2.timeStamp ∈ history ∧
    entry.1.eq source = true

theorem Used.mono {history : List UdpEvent} {entry : InetAddr × UdpSession}
    (hUsed : Used history entry) (event : UdpEvent) :
    Used (history ++ [event]) entry := by
  obtain ⟨source, data, hMem, hEq⟩ := hUsed
  exact ⟨source, data, List.mem_append_left _ hMem, hEq⟩

/-- After the last scan no session was older than `timeout`. -/
structure Scanned (timeout : UInt64) (latency : Nat) (s : ScannedServer) : Prop where
  table : s.server.TableOk
  timeout_eq : s.server.sessionTimeoutMs = timeout
  interval_eq : s.timer.interval = (UdpServer.scanTime timeout).toNat * 1000000
  regular : s.timer.Regular s.server.clock
  used : ∀ entry ∈ s.server.sessions, Used s.server.history entry
  young : ∀ entry ∈ s.server.sessions,
    s.timer.lastRead ≤ entry.2.timeStamp + timeout.toNat * 1000000
  clock_le : s.server.clock ≤ s.timer.lastRead + s.timer.interval + latency

theorem scanned_make {family : UInt16} {timeout : UInt64} {made : ScannedServer}
    (latency : Nat) (hMake : make family timeout = some made) :
    made.Scanned timeout latency := by
  obtain ⟨server, hServer, hRest⟩ := Option.bind_eq_some_iff.mp hMake
  obtain ⟨settings, hSettings, rfl⟩ := Option.map_eq_some_iff.mp hRest
  have hTable := UdpServer.tableOk_make hServer
  obtain ⟨-, rfl⟩ := UdpServer.make_eq_some hServer
  obtain ⟨-, hSome⟩ := Option.ite_none_left_eq_some.mp hSettings
  obtain rfl := Option.some.inj hSome
  have hPositive := (UdpServer.scanTime_spec timeout).1
  have hNonzero : UdpServer.scanTime timeout ≠ 0 := by
    intro hZero
    rw [hZero] at hPositive
    exact absurd hPositive (by decide)
  have hExact := (Timespec.ofMs_exact (UdpServer.scanTime timeout)).2
  have hNanoseconds : (Timespec.ofMs (UdpServer.scanTime timeout)).nanoseconds.toNat =
      (UdpServer.scanTime timeout).toNat * 1000000 := by
    rw [hExact]
    omega
  have hInterval : (if UdpServer.scanTime timeout ≠ 0 then
      Timespec.ofMs (UdpServer.scanTime timeout) else .zero) =
        Timespec.ofMs (UdpServer.scanTime timeout) := if_pos hNonzero
  simp only [TimerSettings.timer, hInterval, hNanoseconds]
  exact
    { table := hTable
      timeout_eq := rfl
      interval_eq := rfl
      regular := PeriodicTimer.regular_start (Nat.le_refl _)
      used := List.forall_mem_nil _
      young := List.forall_mem_nil _
      clock_le := Nat.zero_le _ }

variable {std : StdHash} {bucketOf : List UdpEvent → UInt64 → Nat}
  {s next : ScannedServer} {timeout : UInt64} {latency : Nat}

/-- The sessions after a datagram, each used and none older than before. -/
theorem Scanned.receive (hScanned : s.Scanned timeout latency) {sender : Sockaddr}
    {source : InetAddr} {data : List UInt8} {now : Nat} {server : UdpServer}
    (hSource : InetAddr.makeFromSockaddr (some sender) = some source)
    (hClock : s.server.clock ≤ now)
    (hRead : UdpServer.Read { s.server with clock := now } sender source data now
      server) :
    ∀ entry ∈ server.sessions,
      Used (s.server.history ++ [.received source data now]) entry ∧
        s.timer.lastRead ≤ entry.2.timeStamp + timeout.toNat * 1000000 := by
  have hOld (entry : InetAddr × UdpSession) (hMem : entry ∈ s.server.sessions) :
      Used (s.server.history ++ [.received source data now]) entry ∧
        s.timer.lastRead ≤ entry.2.timeStamp + timeout.toNat * 1000000 :=
    ⟨(hScanned.used entry hMem).mono _, hScanned.young entry hMem⟩
  have hNow : s.timer.lastRead ≤ now + timeout.toNat * 1000000 :=
    Nat.le_trans (Nat.le_trans hScanned.regular.lastRead_le hClock)
      (Nat.le_add_right _ _)
  have hLast : UdpEvent.received source data now ∈
      s.server.history ++ [.received source data now] :=
    List.mem_append_right _ List.mem_cons_self
  cases hRead with
  | ignored => exact hOld
  | opened =>
      intro entry hMem
      rcases List.mem_append.mp hMem with hBefore | hNew
      · exact hOld entry hBefore
      · obtain rfl := List.mem_singleton.mp hNew
        obtain ⟨i, hIdent⟩ := (InetAddr.decoded hSource).ident
        exact ⟨⟨source, data, hLast, InetAddr.eq_self_of_ident hIdent⟩, hNow⟩
  | @continued key session hFound =>
      intro entry hMem
      obtain ⟨old, hBefore, rfl⟩ := List.mem_map.mp hMem
      by_cases hId : old.2.id = session.id
      · -- The session of the source, with its new time stamp.
        obtain ⟨hIn, hEq⟩ := HashTable.mem_of_lookup hFound
        obtain rfl := SessionsOk.eq_of_id hScanned.table hBefore hIn hId
        rw [UdpSession.stamp, if_pos rfl]
        exact ⟨⟨source, data, hLast, hEq⟩, hNow⟩
      · rw [UdpSession.stamp, if_neg hId]
        exact hOld old hBefore

/-- What a scan leaves is not older than the timeout. -/
theorem Scanned.scan (hScanned : s.Scanned timeout latency)
    (hTimeout : timeout.toNat * 1000000 < 9223372036854775808) (now : Nat) :
    ∀ entry ∈ (UdpServer.scan { s.server with clock := now } now).sessions,
      entry ∈ s.server.sessions ∧
        now ≤ entry.2.timeStamp + timeout.toNat * 1000000 := by
  intro entry hMem
  obtain ⟨hIn, hKept⟩ := List.mem_filter.mp hMem
  refine ⟨hIn, ?_⟩
  have hNotExpired : ¬ toNanoseconds (milliseconds s.server.sessionTimeoutMs) <
      (now : Int) - entry.2.timeStamp := by
    simpa [UdpServer.expired] using hKept
  rw [hScanned.timeout_eq, toNanoseconds_milliseconds hTimeout] at hNotExpired
  omega

theorem Scanned.step {action : ScannedAction}
    (hTimeout : timeout.toNat * 1000000 < 9223372036854775808)
    (hScanned : s.Scanned timeout latency) (hPunctual : s.Punctual latency action)
    (hStep : s.step std bucketOf action = some next) :
    next.Scanned timeout latency := by
  cases action with
  | act action =>
      obtain ⟨⟨hNotScan, hDue⟩, hNext⟩ := Option.ite_none_right_eq_some.mp hStep
      obtain ⟨server, hServer, rfl⟩ := Option.map_eq_some_iff.mp hNext
      have hStepped := UdpServer.stepped hServer
      have hTable := hScanned.table.step hStepped
      cases hStepped with
      | @receive sender source data now server hSource hFamily hClock hRead =>
          have hSessions := hScanned.receive hSource hClock hRead
          have hHistory : (server.record (.received source data now)).history =
              s.server.history ++ [.received source data now] := by
            rw [UdpServer.record, hRead.history_eq]
          have hKept : server.sessionTimeoutMs = s.server.sessionTimeoutMs ∧
              server.clock = now := by
            cases hRead <;> exact ⟨rfl, rfl⟩
          have hNow : (server.record (.received source data now)).clock = now :=
            hKept.2
          exact
            { table := hTable
              timeout_eq := hKept.1.trans hScanned.timeout_eq
              interval_eq := hScanned.interval_eq
              regular := by
                rw [hNow]
                exact hScanned.regular.mono hClock
              used := by
                rw [hHistory]
                exact fun entry hMem => (hSessions entry hMem).1
              young := fun entry hMem => (hSessions entry hMem).2
              clock_le := by
                rw [hNow]
                exact hScanned.regular.gap (hDue now rfl) (hPunctual now rfl) }
      | scan hClock => cases hNotScan
      | setNewSessionCb => exact { hScanned with }
      | setReadCb => exact { hScanned with }
      | postHeavyTask => exact { hScanned with }
      | swapHeavy => exact { hScanned with }
      | executeHeavy => exact { hScanned with }
      | clearHeavy => exact { hScanned with }
  | expire =>
      obtain ⟨hDue, hNext⟩ := Option.ite_none_right_eq_some.mp hStep
      obtain rfl := Option.some.inj hNext
      exact
        { hScanned with
          regular := hScanned.regular.expire hDue
          clock_le := hScanned.regular.gap (Nat.le_refl _) hPunctual }
  | scanTask now =>
      obtain ⟨⟨-, hDue⟩, hNext⟩ := Option.ite_none_right_eq_some.mp hStep
      obtain ⟨server, hServer, rfl⟩ := Option.map_eq_some_iff.mp hNext
      have hStepped := UdpServer.stepped hServer
      have hTable := hScanned.table.step hStepped
      cases hStepped with
      | scan hClock =>
          have hSessions := hScanned.scan hTimeout now
          exact
            { table := hTable
              timeout_eq := hScanned.timeout_eq
              interval_eq := hScanned.interval_eq
              regular := hScanned.regular.read hClock
              used := fun entry hMem =>
                (hScanned.used entry (hSessions entry hMem).1).mono _
              young := fun entry hMem => (hSessions entry hMem).2
              clock_le := Nat.le_trans (Nat.le_add_right _ _)
                (Nat.le_add_right _ _) }

/-- **Idle sessions are erased in time.**  If the timeout in nanoseconds is less than
`2 ^ 63`, and the scan task is called within `latency` of each expiry it has not seen,
then at every instant of every run each session in the table has had a datagram from
its source within the timeout, the time between two scans, and the latency.  The time
between two scans is from 100 to 10000 milliseconds, and a tenth of the timeout at most
for timeouts from a second on. -/
theorem idle_session_erased_in_time {family : UInt16} {timeout : UInt64}
    {made s : ScannedServer} {actions : List ScannedAction} {latency : Nat}
    (hMake : make family timeout = some made)
    (hTimeout : timeout.toNat * 1000000 < 9223372036854775808)
    (hPunctual : Guarded (ScannedServer.step std bucketOf) (Punctual latency) made
      actions)
    (hRun : run (ScannedServer.step std bucketOf) made actions = some s) :
    (∀ entry ∈ s.server.sessions, ∃ source data time,
      UdpEvent.received source data time ∈ s.server.history ∧
      entry.1.eq source = true ∧
      s.server.clock ≤ time +
        (timeout.toNat + (UdpServer.scanTime timeout).toNat) * 1000000 + latency) ∧
    100 ≤ (UdpServer.scanTime timeout).toNat ∧
    (UdpServer.scanTime timeout).toNat ≤ 10000 ∧
    (1000 ≤ timeout.toNat →
      (UdpServer.scanTime timeout).toNat * 10 ≤ timeout.toNat) := by
  have hScanned : s.Scanned timeout latency :=
    run_invariant (fun _ _ _ hBefore hGuard hStep =>
      hBefore.step hTimeout hGuard hStep) (scanned_make latency hMake) hPunctual hRun
  refine ⟨fun entry hMem => ?_, UdpServer.scanTime_spec timeout⟩
  obtain ⟨source, data, hReceived, hEq⟩ := hScanned.used entry hMem
  refine ⟨source, data, entry.2.timeStamp, hReceived, hEq, ?_⟩
  have hYoung := hScanned.young entry hMem
  have hClock := hScanned.clock_le
  rw [hScanned.interval_eq] at hClock
  omega

/-- With a timeout of one second the timer expires every 100 milliseconds.  The session
of the first sender is still there at the scan after a second, and gone at the next
one, while that of the second sender stays. -/
theorem idle_session_erased_in_time_second :
    let std : StdHash := ⟨UInt16.toUInt64, UInt32.toUInt64, fun _ => 0⟩
    let step := ScannedServer.step std fun _ _ => 0
    let tick (count : Nat) : List ScannedAction :=
      [.expire, .scanTask (count * 100000000 + 5)]
    let actions : List ScannedAction :=
      [.act (.setReadCb true),
        .act (.receive (UdpServer.loopback 1) [1] 6),
        .act (.receive (UdpServer.loopback 2) [2] 7)] ++
      (tick 1 ++ tick 2 ++ tick 3 ++ tick 4 ++ tick 5 ++ tick 6 ++ tick 7 ++ tick 8 ++
        tick 9 ++ tick 10) ++
      [.act (.receive (UdpServer.loopback 2) [3] 1000000006)] ++ tick 11
    ∃ made s, make AF_INET 1000 = some made ∧ run step made actions = some s ∧
      s.server.sessions.map (fun entry => entry.2.id) = [1] ∧
      s.server.clock = 1100000005 ∧
      ∀ entry ∈ s.server.sessions, ∃ source data time,
        UdpEvent.received source data time ∈ s.server.history ∧
        entry.1.eq source = true ∧
        s.server.clock ≤ time + (1000 + 100) * 1000000 + 5 := by
  intro std step tick actions
  have hOutcome : (make AF_INET 1000).any (fun made =>
      decide (Guarded step (Punctual 5) made actions) &&
      (run step made actions).any fun s => decide
        (s.server.sessions.map (fun entry => entry.2.id) = [1] ∧
          s.server.clock = 1100000005)) = true := by
    decide +kernel
  obtain ⟨made, hMake, hRest⟩ := (Option.any_eq_true _ _).mp hOutcome
  obtain ⟨hPunctual, hRest⟩ := Bool.and_eq_true_iff.mp hRest
  obtain ⟨s, hRun, hView⟩ := (Option.any_eq_true _ _).mp hRest
  obtain ⟨hSessions, hClock⟩ := of_decide_eq_true hView
  have hInTime := idle_session_erased_in_time hMake (by decide)
    (of_decide_eq_true hPunctual) hRun
  exact ⟨made, s, hMake, hRun, hSessions, hClock, hInTime.1⟩

end ScannedServer
end Net
end KZEvent
