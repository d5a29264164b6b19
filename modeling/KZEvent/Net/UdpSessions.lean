import KZEvent.Net.UdpServer
import Mathlib.Data.List.Nodup

/-!
# The session table of a UDP server

Whichever callbacks are set, `sessions_` holds at most one session for each key,
under its own source, and no two sessions have one number.  A datagram adds a
session at most, and then under a key that was not there; a scan only takes
sessions away.
-/

namespace KZEvent
namespace Net

open Foundation

/-- What `sessions_` is like after `received` datagrams. -/
structure SessionsOk (sessions : List (InetAddr × UdpSession)) (received : Nat) :
    Prop where
  distinct : HashTable.Distinct InetAddr.eq sessions
  source_eq : ∀ entry ∈ sessions, entry.2.source = entry.1
  ids : (sessions.map fun entry => entry.2.id).Nodup
  id_lt : ∀ entry ∈ sessions, entry.2.id < received

namespace SessionsOk

variable {sessions : List (InetAddr × UdpSession)} {received : Nat}

theorem nil : SessionsOk [] 0 where
  distinct := List.Pairwise.nil
  source_eq := fun _ hMem => by cases hMem
  ids := List.nodup_nil
  id_lt := fun _ hMem => by cases hMem

theorem grow (hOk : SessionsOk sessions received) :
    SessionsOk sessions (received + 1) where
  distinct := hOk.distinct
  source_eq := hOk.source_eq
  ids := hOk.ids
  id_lt := fun entry hMem => Nat.lt_succ_of_lt (hOk.id_lt entry hMem)

theorem opened (hOk : SessionsOk sessions received) {source : InetAddr}
    (hNone : HashTable.lookup InetAddr.eq sessions source = none) (now : Nat) :
    SessionsOk (sessions ++ [(source, UdpSession.mk received source now)])
      (received + 1) where
  distinct := hOk.distinct.append hNone _
  source_eq := by
    intro entry hMem
    rcases List.mem_append.mp hMem with hOld | hNew
    · exact hOk.source_eq entry hOld
    · obtain rfl := List.mem_singleton.mp hNew
      rfl
  ids := by
    rw [List.map_append, List.map_singleton]
    refine List.nodup_append.mpr ⟨hOk.ids, List.nodup_singleton _, ?_⟩
    rintro id hOld _ hNew rfl
    obtain ⟨entry, hMem, rfl⟩ := List.mem_map.mp hOld
    have hLess := hOk.id_lt entry hMem
    rw [List.mem_singleton.mp hNew] at hLess
    exact Nat.lt_irrefl _ hLess
  id_lt := by
    intro entry hMem
    rcases List.mem_append.mp hMem with hOld | hNew
    · exact Nat.lt_succ_of_lt (hOk.id_lt entry hOld)
    · obtain rfl := List.mem_singleton.mp hNew
      exact Nat.lt_succ_self received

theorem stamped (hOk : SessionsOk sessions received) (id now : Nat) :
    SessionsOk (sessions.map fun entry => (entry.1, entry.2.stamp id now))
      received where
  distinct := hOk.distinct.map (UdpSession.stamp id now)
  source_eq := by
    intro entry hMem
    obtain ⟨old, hOld, rfl⟩ := List.mem_map.mp hMem
    rw [UdpSession.stamp_source]
    exact hOk.source_eq old hOld
  ids := by
    simpa only [List.map_map, Function.comp_def, UdpSession.stamp_id] using
      hOk.ids
  id_lt := by
    intro entry hMem
    obtain ⟨old, hOld, rfl⟩ := List.mem_map.mp hMem
    rw [UdpSession.stamp_id]
    exact hOk.id_lt old hOld

theorem filter (hOk : SessionsOk sessions received)
    (keep : InetAddr × UdpSession → Bool) :
    SessionsOk (sessions.filter keep) received where
  distinct := hOk.distinct.filter keep
  source_eq := fun entry hMem =>
    hOk.source_eq entry (List.mem_of_mem_filter hMem)
  ids := hOk.ids.sublist (List.filter_sublist.map _)
  id_lt := fun entry hMem => hOk.id_lt entry (List.mem_of_mem_filter hMem)

/-- A session is known by its number. -/
theorem eq_of_id (hOk : SessionsOk sessions received)
    {left right : InetAddr × UdpSession} (hLeft : left ∈ sessions)
    (hRight : right ∈ sessions) (hId : left.2.id = right.2.id) : left = right :=
  List.inj_on_of_nodup_map hOk.ids hLeft hRight hId

/-- A session is known by its key. -/
theorem eq_of_lookup (hOk : SessionsOk sessions received) {source : InetAddr}
    {entry found : InetAddr × UdpSession}
    (hFound : HashTable.lookup InetAddr.eq sessions source = some found)
    (hMem : entry ∈ sessions) (hEq : entry.1.eq source = true) :
    entry = found := by
  have hEntry : HashTable.lookup InetAddr.eq sessions source = some entry :=
    (HashTable.lookup_eq_some_iff InetAddr.keyEquiv hOk.distinct).mpr
      ⟨hMem, hEq⟩
  exact Option.some.inj (hEntry.symm.trans hFound)

end SessionsOk

namespace UdpServer

variable {s next : UdpServer}

theorem received_record (s : UdpServer) (source : InetAddr) (data : List UInt8)
    (time : Nat) :
    (s.record (.received source data time)).received = s.received + 1 := by
  simp [received, record, UdpEvent.isReceived]

theorem received_record_erased (s : UdpServer) (gone : List Nat) :
    (s.record (.erased gone)).received = s.received := by
  simp [received, record, UdpEvent.isReceived]

/-- The state of the session table. -/
def TableOk (s : UdpServer) : Prop := SessionsOk s.sessions s.received

theorem tableOk_make {family : UInt16} {timeout : UInt64} {made : UdpServer}
    (hMake : make family timeout = some made) : made.TableOk := by
  obtain ⟨-, rfl⟩ := make_eq_some hMake
  exact SessionsOk.nil

theorem Read.history_eq {sender : Sockaddr} {source : InetAddr}
    {data : List UInt8} {now : Nat}
    (hRead : Read s sender source data now next) : next.history = s.history := by
  cases hRead <;> rfl

theorem Read.tableOk {sender : Sockaddr} {source : InetAddr}
    {data : List UInt8} {now : Nat} (hRead : Read s sender source data now next)
    (hOk : s.TableOk) : SessionsOk next.sessions (s.received + 1) := by
  cases hRead with
  | ignored => exact hOk.grow
  | opened hNone => exact SessionsOk.opened hOk hNone now
  | continued => exact (SessionsOk.stamped hOk _ now).grow

theorem TableOk.step {action : UdpAction} (hOk : s.TableOk)
    (hStep : Stepped s action next) : next.TableOk := by
  cases hStep with
  | receive hSource hFamily hClock hRead =>
      rw [TableOk, received_record, received, hRead.history_eq]
      exact hRead.tableOk hOk
  | scan hClock =>
      rw [TableOk, received_record_erased]
      exact SessionsOk.filter hOk _
  | setNewSessionCb => exact hOk
  | setReadCb => exact hOk
  | postHeavyTask => exact hOk
  | swapHeavy => exact hOk
  | executeHeavy => exact hOk
  | clearHeavy => exact hOk

/-! ## The calls posted -/

/-- The calls handed to the heavy thread. -/
def calls (s : UdpServer) : List UdpCall := s.heavy.pushed.filterMap (·.call?)

theorem calls_post (s : UdpServer) (made : UdpCall) :
    (s.post (.call made)).calls = s.calls ++ [made] := by
  simp [calls, post, DoubleBuffer.push, HeavyTask.call?]

/-- What holds of the calls after one more. -/
theorem forall_calls_post {made : UdpCall} {P : UdpCall → Prop} :
    (∀ call ∈ (s.post (.call made)).calls, P call) ↔
      (∀ call ∈ s.calls, P call) ∧ P made := by
  rw [calls_post, List.forall_mem_append, List.forall_mem_singleton]

theorem calls_post_user (s : UdpServer) : (s.post .user).calls = s.calls := by
  simp [calls, post, DoubleBuffer.push, HeavyTask.call?]

/-- A sender on the loopback address. -/
def loopback (port : UInt8) : Sockaddr where
  bytes := bytes16 AF_INET ++ [0, port, 127, 0, 0, 1] ++ List.replicate 8 0
  len := 16
  len_le := by simp [length_bytes16]

end UdpServer
end Net
end KZEvent
