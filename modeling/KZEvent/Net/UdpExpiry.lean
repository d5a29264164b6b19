import KZEvent.Net.UdpSessions

/-!
# Expiry of UDP sessions

The scan compares the age of a time stamp with the timeout.  It erases only
sessions whose source has been silent for the whole timeout if the time stamps
are those of the last datagrams and the timeout can be counted in nanoseconds.
The first fails when a datagram of a session comes while `read_cb_` is not set,
the second from some timeout on.
-/

namespace KZEvent
namespace Net

open Foundation

theorem wrapInt64_of_lt {value : Int} (hNonneg : 0 ≤ value)
    (hLess : value < 9223372036854775808) : wrapInt64 value = value := by
  unfold wrapInt64
  exact Int.bmod_eq_of_le (by omega) (by omega)

/-- A timeout that can be counted in nanoseconds is converted as it is. -/
theorem toNanoseconds_milliseconds {timeout : UInt64}
    (hTimeout : timeout.toNat * 1000000 < 9223372036854775808) :
    toNanoseconds (milliseconds timeout) = timeout.toNat * 1000000 := by
  have hMs : milliseconds timeout = timeout.toNat :=
    wrapInt64_of_lt (by omega) (by omega)
  rw [toNanoseconds, hMs]
  exact wrapInt64_of_lt (by omega) (by omega)

/-- No datagram from an equal source is younger than the time stamp. -/
def Fresh (history : List UdpEvent) (entry : InetAddr × UdpSession) : Prop :=
  ∀ source data time, UdpEvent.received source data time ∈ history →
    entry.1.eq source = true → time ≤ entry.2.timeStamp

theorem Fresh.received {history : List UdpEvent}
    {entry : InetAddr × UdpSession} (hFresh : Fresh history entry)
    {source : InetAddr} {data : List UInt8} {now : Nat}
    (hStamp : entry.1.eq source = true → now ≤ entry.2.timeStamp) :
    Fresh (history ++ [.received source data now]) entry := by
  intro source' data' time hMem hEq
  rcases List.mem_append.mp hMem with hOld | hNew
  · exact hFresh source' data' time hOld hEq
  · obtain ⟨rfl, rfl, rfl⟩ :=
      UdpEvent.received.inj (List.mem_singleton.mp hNew)
    exact hStamp hEq

theorem Fresh.erased {history : List UdpEvent} {entry : InetAddr × UdpSession}
    (hFresh : Fresh history entry) (gone : List Nat) :
    Fresh (history ++ [.erased gone]) entry := by
  intro source data time hMem hEq
  rcases List.mem_append.mp hMem with hOld | hNew
  · exact hFresh source data time hOld hEq
  · cases List.mem_singleton.mp hNew

namespace UdpServer

variable {std : StdHash} {bucketOf : List UdpEvent → UInt64 → Nat}
  {s next : UdpServer}

/-- A datagram for a session there is comes while `read_cb_` is set. -/
def Answered (s : UdpServer) : UdpAction → Prop
  | .receive sender _ _ =>
      s.readCb = true ∨
        ((InetAddr.makeFromSockaddr (some sender)).bind s.lookup).isNone = true
  | _ => True

instance (s : UdpServer) : (action : UdpAction) → Decidable (s.Answered action)
  | .receive _ _ _ => inferInstanceAs (Decidable (_ ∨ _))
  | .setNewSessionCb _ => .isTrue trivial
  | .setReadCb _ => .isTrue trivial
  | .scan _ => .isTrue trivial
  | .postHeavyTask => .isTrue trivial
  | .swapHeavy => .isTrue trivial
  | .executeHeavy => .isTrue trivial
  | .clearHeavy => .isTrue trivial

/-- From `s` to `next` only such sessions were erased whose source had been
silent for the whole timeout. -/
def ErasesIdleOnly (s next : UdpServer) (now : Nat) : Prop :=
  ∀ entry ∈ s.sessions, entry ∉ next.sessions → ∀ source data time,
    UdpEvent.received source data time ∈ s.history →
    entry.1.eq source = true →
    time + s.sessionTimeoutMs.toNat * 1000000 < now

/-- Some session has had a datagram within the timeout before `now`. -/
def hasRecent (s : UdpServer) (now : Nat) : Bool :=
  s.sessions.any fun entry => s.history.any fun event =>
    match event with
    | .received source _ time =>
        entry.1.eq source &&
          now ≤ time + s.sessionTimeoutMs.toNat * 1000000
    | .erased _ => false

/-- Then it is wrong to erase everything. -/
theorem not_erasesIdleOnly {now : Nat} (hShort : s.hasRecent now = true)
    (hEmpty : next.sessions = []) : ¬ s.ErasesIdleOnly next now := by
  intro hIdle
  obtain ⟨entry, hMem, hAny⟩ := List.any_eq_true.mp hShort
  obtain ⟨event, hEvent, hRecent⟩ := List.any_eq_true.mp hAny
  cases event with
  | received source data time =>
      obtain ⟨hEq, hTime⟩ := Bool.and_eq_true_iff.mp hRecent
      have hLate := of_decide_eq_true hTime
      have hSilent := hIdle entry hMem (by simp [hEmpty]) source data time hEvent
        hEq
      omega
  | erased gone => cases hRecent

/-! ## The invariant -/

/-- The time stamps are up to date. -/
structure Stamped (timeout : UInt64) (s : UdpServer) : Prop where
  table : s.TableOk
  timeout_eq : s.sessionTimeoutMs = timeout
  clock : ∀ source data time, UdpEvent.received source data time ∈ s.history →
    time ≤ s.clock
  fresh : ∀ entry ∈ s.sessions, Fresh s.history entry

theorem stamped_make {family : UInt16} {timeout : UInt64} {made : UdpServer}
    (hMake : make family timeout = some made) : made.Stamped timeout := by
  have hTable : made.TableOk := tableOk_make hMake
  obtain ⟨-, rfl⟩ := make_eq_some hMake
  exact
    { table := hTable
      timeout_eq := rfl
      clock := fun _ _ _ hMem => by cases hMem
      fresh := fun _ hMem => by cases hMem }

/-- The time stamps are up to date after a datagram that was answered. -/
theorem Stamped.fresh_read {timeout : UInt64} (hStamped : s.Stamped timeout)
    {sender : Sockaddr} {source : InetAddr} {data : List UInt8} {now : Nat}
    (hClock : s.clock ≤ now)
    (hAnswered : s.readCb = true ∨ s.lookup source = none)
    (hRead : Read s sender source data now next) :
    ∀ entry ∈ next.sessions,
      Fresh (s.history ++ [.received source data now]) entry := by
  have hTimes (other : InetAddr) (bytes : List UInt8) (time : Nat)
      (hMem : UdpEvent.received other bytes time ∈ s.history) : time ≤ now :=
    Nat.le_trans (hStamped.clock other bytes time hMem) hClock
  have hOther (hNone : s.lookup source = none) (entry : InetAddr × UdpSession)
      (hMem : entry ∈ s.sessions) :
      Fresh (s.history ++ [.received source data now]) entry := by
    refine (hStamped.fresh entry hMem).received fun hEq => ?_
    rw [HashTable.lookup_eq_none_iff.mp hNone entry hMem] at hEq
    cases hEq
  cases hRead with
  | ignored hReadCb =>
      exact hOther (hAnswered.resolve_left (by simp [hReadCb]))
  | opened hNone =>
      intro entry hMem
      rcases List.mem_append.mp hMem with hOld | hNew
      · exact hOther hNone entry hOld
      · obtain rfl := List.mem_singleton.mp hNew
        have hFresh : Fresh s.history
            (source, UdpSession.mk s.received source now) :=
          fun other bytes time hTime _ => hTimes other bytes time hTime
        exact hFresh.received fun _ => Nat.le_refl now
  | @continued key session hFound =>
      intro entry hMem
      obtain ⟨old, hOld, rfl⟩ := List.mem_map.mp hMem
      by_cases hId : old.2.id = session.id
      · -- The session of the source, with its new time stamp.
        have hStamp : (old.2.stamp session.id now).timeStamp = now := by
          rw [UdpSession.stamp, if_pos hId]
        have hFresh : Fresh s.history (old.1, old.2.stamp session.id now) :=
          fun other bytes time hTime _ =>
            hStamp.symm ▸ hTimes other bytes time hTime
        exact hFresh.received fun _ => Nat.le_of_eq hStamp.symm
      · have hSame : old.2.stamp session.id now = old.2 := if_neg hId
        rw [hSame]
        refine (hStamped.fresh old hOld).received fun hEq => ?_
        have hIt := SessionsOk.eq_of_lookup hStamped.table hFound hOld hEq
        exact absurd (congrArg (fun entry => entry.2.id) hIt) hId

theorem Stamped.step {timeout : UInt64} {action : UdpAction}
    (hStamped : s.Stamped timeout) (hAnswered : s.Answered action)
    (hStep : Stepped s action next) : next.Stamped timeout := by
  have hTable := hStamped.table.step hStep
  cases hStep with
  | @receive sender source data now next hSource hFamily hClock hRead =>
      have hKept : next.sessionTimeoutMs = s.sessionTimeoutMs ∧
          next.clock = now ∧ next.history = s.history := by
        cases hRead <;> exact ⟨rfl, rfl, rfl⟩
      obtain ⟨hTimeout, hNow, hHistory⟩ := hKept
      have hFound : s.readCb = true ∨ s.lookup source = none := by
        have hEither := hAnswered
        simp only [Answered, hSource, Option.bind_some,
          Option.isNone_iff_eq_none] at hEither
        exact hEither
      have hClocked : ({ s with clock := now } : UdpServer).Stamped timeout :=
        { hStamped with
          clock := fun other bytes time hMem =>
            Nat.le_trans (hStamped.clock other bytes time hMem) hClock }
      have hFresh := hClocked.fresh_read (Nat.le_refl now) hFound hRead
      exact
        { table := hTable
          timeout_eq := hTimeout.trans hStamped.timeout_eq
          clock := by
            intro other bytes time hMem
            simp only [record, hHistory] at hMem ⊢
            rw [hNow]
            rcases List.mem_append.mp hMem with hOld | hNew
            · exact Nat.le_trans (hStamped.clock other bytes time hOld) hClock
            · obtain ⟨-, -, rfl⟩ :=
                UdpEvent.received.inj (List.mem_singleton.mp hNew)
              exact Nat.le_refl _
          fresh := by
            simp only [record, hHistory]
            exact hFresh }
  | @scan now hClock =>
      exact
        { table := hTable
          timeout_eq := hStamped.timeout_eq
          clock := by
            intro other bytes time hMem
            rcases List.mem_append.mp hMem with hOld | hNew
            · exact Nat.le_trans (hStamped.clock other bytes time hOld) hClock
            · cases List.mem_singleton.mp hNew
          fresh := fun entry hMem =>
            (hStamped.fresh entry (List.mem_of_mem_filter hMem)).erased _ }
  | setNewSessionCb => exact { hStamped with }
  | setReadCb => exact { hStamped with }
  | postHeavyTask => exact { hStamped with }
  | swapHeavy => exact { hStamped with }
  | executeHeavy => exact { hStamped with }
  | clearHeavy => exact { hStamped with }

/-- **Live sessions are kept.**  If the timeout in nanoseconds is less than
`2 ^ 63` and every datagram of a session comes while `read_cb_` is set, a scan
erases a session only if its source has been silent for the whole timeout. -/
theorem live_session_kept {family : UInt16} {timeout : UInt64}
    {made s next : UdpServer} {actions : List UdpAction} {now : Nat}
    (hMake : make family timeout = some made)
    (hTimeout : timeout.toNat * 1000000 < 9223372036854775808)
    (hAnswered : Guarded (UdpServer.step std bucketOf) Answered made actions)
    (hRun : run (UdpServer.step std bucketOf) made actions = some s)
    (hScan : s.step std bucketOf (.scan now) = some next) :
    s.sessionTimeoutMs = timeout ∧ s.ErasesIdleOnly next now := by
  have hStamped : s.Stamped timeout :=
    run_invariant (fun _ _ _ hBefore hGuard hStep =>
      hBefore.step hGuard (stepped hStep)) (stamped_make hMake) hAnswered hRun
  refine ⟨hStamped.timeout_eq, ?_⟩
  intro entry hMem hGone source data time hReceived hEq
  have hTime := hStamped.fresh entry hMem source data time hReceived hEq
  cases stepped hScan with
  | scan hClock =>
      have hExpired : s.expired entry.2 now = true := by
        by_contra hKept
        have hStays : (!s.expired entry.2 now) = true := by
          rw [Bool.eq_false_iff.mpr hKept]
          rfl
        exact hGone (List.mem_filter.mpr ⟨hMem, hStays⟩)
      rw [expired, hStamped.timeout_eq, toNanoseconds_milliseconds hTimeout,
        decide_eq_true_iff] at hExpired
      rw [hStamped.timeout_eq]
      omega

/-- The session of the first sender times out, and that of the second one is
kept by a datagram. -/
theorem live_session_kept_refreshed :
    let std : StdHash := ⟨UInt16.toUInt64, UInt32.toUInt64, fun _ => 0⟩
    let actions : List UdpAction :=
      [.setReadCb true, .receive (loopback 1) [1] 0, .receive (loopback 2) [2] 0,
        .receive (loopback 2) [3] 900000]
    ∃ made s next, make AF_INET 1 = some made ∧
      run (UdpServer.step std fun _ _ => 0) made actions = some s ∧
      s.step std (fun _ _ => 0) (.scan 1000001) = some next ∧
      s.sessions.map (fun entry => entry.2.id) = [0, 1] ∧
      next.sessions.map (fun entry => entry.2.id) = [1] ∧
      s.ErasesIdleOnly next 1000001 := by
  intro std actions
  have hOutcome : (make AF_INET 1).any (fun made =>
      decide (Guarded (UdpServer.step std fun _ _ => 0) Answered made actions) &&
      (run (UdpServer.step std fun _ _ => 0) made actions).any fun s =>
        (s.step std (fun _ _ => 0) (.scan 1000001)).any fun next => decide
          (s.sessions.map (fun entry => entry.2.id) = [0, 1] ∧
            next.sessions.map (fun entry => entry.2.id) = [1])) = true := by
    decide +kernel
  obtain ⟨made, hMake, hMade⟩ := (Option.any_eq_true _ _).mp hOutcome
  obtain ⟨hAnswered, hAny⟩ := Bool.and_eq_true_iff.mp hMade
  obtain ⟨s, hRun, hRest⟩ := (Option.any_eq_true _ _).mp hAny
  obtain ⟨next, hScan, hView⟩ := (Option.any_eq_true _ _).mp hRest
  obtain ⟨hBefore, hAfter⟩ := of_decide_eq_true hView
  have hKept := live_session_kept hMake (by decide)
    (of_decide_eq_true hAnswered) hRun hScan
  exact ⟨made, s, next, hMake, hRun, hScan, hBefore, hAfter, hKept.2⟩

/-- With `new_session_cb_` alone a datagram does not keep its session; and with a
timeout of `9223372036855` milliseconds a session is erased at the first scan. -/
theorem live_session_erased :
    let std : StdHash := ⟨UInt16.toUInt64, UInt32.toUInt64, fun _ => 0⟩
    let Fails (timeout : UInt64) (actions : List UdpAction) (now : Nat) : Prop :=
      ∃ made s next, make AF_INET timeout = some made ∧
        run (UdpServer.step std fun _ _ => 0) made actions = some s ∧
        s.step std (fun _ _ => 0) (.scan now) = some next ∧
        s.newSessionCb = true ∧ ¬ s.ErasesIdleOnly next now
    Fails 1 [.setNewSessionCb true, .receive (loopback 1) [1] 0,
      .receive (loopback 1) [2] 900000] 1000001 ∧
    Fails 9223372036855 [.setNewSessionCb true, .setReadCb true,
      .receive (loopback 1) [1] 0] 100000000 := by
  intro std Fails
  have hFails (timeout : UInt64) (actions : List UdpAction) (now : Nat)
      (hOutcome : (make AF_INET timeout).any (fun made =>
        (run (UdpServer.step std fun _ _ => 0) made actions).any fun s =>
          (s.step std (fun _ _ => 0) (.scan now)).any fun next =>
            s.newSessionCb && s.hasRecent now && next.sessions.isEmpty) =
              true) : Fails timeout actions now := by
    obtain ⟨made, hMake, hMade⟩ := (Option.any_eq_true _ _).mp hOutcome
    obtain ⟨s, hRun, hRest⟩ := (Option.any_eq_true _ _).mp hMade
    obtain ⟨next, hScan, hView⟩ := (Option.any_eq_true _ _).mp hRest
    obtain ⟨hBoth, hEmpty⟩ := Bool.and_eq_true_iff.mp hView
    obtain ⟨hSet, hShort⟩ := Bool.and_eq_true_iff.mp hBoth
    exact ⟨made, s, next, hMake, hRun, hScan, hSet,
      not_erasesIdleOnly hShort (List.isEmpty_iff.mp hEmpty)⟩
  exact ⟨hFails _ _ _ (by decide +kernel), hFails _ _ _ (by decide +kernel)⟩

end UdpServer
end Net
end KZEvent
