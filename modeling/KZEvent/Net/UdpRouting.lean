import KZEvent.Foundation.Incarnation
import KZEvent.Net.UdpSessions

/-!
# Routing of datagrams to sessions

With both callbacks set, what the heavy thread is given to do is what becomes of
the datagrams in the order of their arrival: `new_session_cb_` for one that opens
a session, `read_cb_` with that session for the later ones until the session is
erased.  The invariant says so of the calls posted and of the sessions live; the
two ends of the heavy queue keep the order.
-/

namespace KZEvent
namespace Net

open Foundation

/-- What a datagram or a scan is to the sessions. -/
def UdpEvent.sessionEvent : UdpEvent → SessionEvent InetAddr (List UInt8)
  | received source data _ => .arrival source data
  | erased gone => .close gone

/-- What the user sees of a call. -/
def UdpCall.delivery (made : UdpCall) : Delivery (List UInt8) :=
  match made.callback with
  | .newSession => .first made.session.id made.data
  | .read => .later made.session.id made.data

/-- A callback that is set stays so. -/
def UdpAction.KeepsCallbacks : UdpAction → Prop
  | setNewSessionCb set => set = true
  | setReadCb set => set = true
  | _ => True

/-- A step the heavy thread takes by itself. -/
def UdpAction.ByHeavyThread : UdpAction → Prop
  | swapHeavy => True
  | executeHeavy => True
  | clearHeavy => True
  | _ => False

/-- The session was opened by a datagram from an equal source, and no scan has
erased it. -/
def Live (history : List UdpEvent) (source : InetAddr) (session : Nat) : Prop :=
  Holds InetAddr.eq (history.map UdpEvent.sessionEvent) source session

theorem UdpCall.delivery_eq_first_iff {made : UdpCall} {session : Nat}
    {data : List UInt8} :
    made.delivery = .first session data ↔
      made.callback = .newSession ∧ made.session.id = session ∧
        made.data = data := by
  unfold delivery
  cases made.callback <;> simp

theorem UdpCall.delivery_eq_later_iff {made : UdpCall} {session : Nat}
    {data : List UInt8} :
    made.delivery = .later session data ↔
      made.callback = .read ∧ made.session.id = session ∧ made.data = data := by
  unfold delivery
  cases made.callback <;> simp

/-! ## The live sessions -/

/-- The table holds the sessions that are live in the registry. -/
def LiveIn (r : Registry InetAddr) (sessions : List (InetAddr × UdpSession)) :
    Prop :=
  ∀ source, (HashTable.lookup InetAddr.eq sessions source).map
    (fun entry => entry.2.id) = r.live source

namespace LiveIn

variable {r : Registry InetAddr} {sessions : List (InetAddr × UdpSession)}
  {source : InetAddr}

theorem empty : LiveIn .empty [] := fun _ => rfl

theorem live_eq_none (hLive : LiveIn r sessions)
    (hNone : HashTable.lookup InetAddr.eq sessions source = none) :
    r.live source = none := by
  rw [← hLive source, hNone]
  rfl

theorem live_eq_some (hLive : LiveIn r sessions) {entry : InetAddr × UdpSession}
    (hFound : HashTable.lookup InetAddr.eq sessions source = some entry) :
    r.live source = some entry.2.id := by
  rw [← hLive source, hFound]
  rfl

/-- A source without a session gets one. -/
theorem opened (hLive : LiveIn r sessions)
    (hNone : HashTable.lookup InetAddr.eq sessions source = none)
    (data : List UInt8) (now : Nat) :
    LiveIn (r.apply InetAddr.eq (.arrival source data))
      (sessions ++ [(source, ⟨r.arrivals, source, now⟩)]) := by
  intro other
  have hOpened : r.sessionOf source = r.arrivals := by
    rw [Registry.sessionOf, hLive.live_eq_none hNone, Option.getD_none]
  rw [HashTable.lookup_append]
  simp only [Registry.apply, hOpened]
  by_cases hEq : source.eq other = true
  · have hOther : HashTable.lookup InetAddr.eq sessions other = none := by
      rw [← hNone]
      exact (HashTable.lookup_congr InetAddr.keyEquiv hEq).symm
    rw [if_pos hEq, if_pos hEq, hOther]
    rfl
  · rw [if_neg hEq, if_neg hEq, Option.or_none]
    exact hLive other

/-- A source with a session keeps it. -/
theorem stamped (hLive : LiveIn r sessions) {entry : InetAddr × UdpSession}
    (hFound : HashTable.lookup InetAddr.eq sessions source = some entry)
    (data : List UInt8) (id now : Nat) :
    LiveIn (r.apply InetAddr.eq (.arrival source data))
      (sessions.map fun entry => (entry.1, entry.2.stamp id now)) := by
  intro other
  have hKept : r.sessionOf source = entry.2.id := by
    rw [Registry.sessionOf, hLive.live_eq_some hFound, Option.getD_some]
  have hSame : (HashTable.lookup InetAddr.eq
      (sessions.map fun entry => (entry.1, entry.2.stamp id now)) other).map
        (fun entry => entry.2.id) = r.live other := by
    rw [HashTable.lookup_map InetAddr.eq sessions (UdpSession.stamp id now),
      Option.map_map, ← hLive other]
    simp only [Function.comp_def, UdpSession.stamp_id]
  rw [hSame]
  simp only [Registry.apply, hKept]
  split
  · rename_i hEq
    rw [← hLive other, ← HashTable.lookup_congr InetAddr.keyEquiv hEq, hFound]
    rfl
  · rfl

/-- What a scan keeps is what it does not close. -/
theorem scanned (hLive : LiveIn r sessions) {received : Nat}
    (hOk : SessionsOk sessions received)
    (expired : InetAddr × UdpSession → Bool) :
    LiveIn
      (r.apply InetAddr.eq (SessionEvent.close
        ((sessions.filter expired).map fun entry => entry.2.id) :
          SessionEvent InetAddr (List UInt8)))
      (sessions.filter fun entry => !expired entry) := by
  intro other
  rw [HashTable.lookup_filter InetAddr.keyEquiv hOk.distinct]
  simp only [Registry.apply, ← hLive other]
  cases hFound : HashTable.lookup InetAddr.eq sessions other with
  | none => rfl
  | some entry =>
      have hMem := (HashTable.mem_of_lookup hFound).1
      have hGone : entry.2.id ∈
          (sessions.filter expired).map (fun entry => entry.2.id) ↔
            expired entry = true := by
        constructor
        · intro hId
          obtain ⟨closed, hClosed, hSame⟩ := List.mem_map.mp hId
          obtain ⟨hClosedMem, hExpired⟩ := List.mem_filter.mp hClosed
          rwa [← hOk.eq_of_id hClosedMem hMem hSame]
        · intro hExpired
          exact List.mem_map_of_mem (List.mem_filter.mpr ⟨hMem, hExpired⟩)
      simp only [Option.filter_some, Option.map_some, hGone]
      cases expired entry <;> rfl

end LiveIn

namespace UdpServer

/-- Both callbacks are set. -/
def withCallbacks (s : UdpServer) : UdpServer :=
  { s with newSessionCb := true, readCb := true }

def CallbacksSet (s : UdpServer) : Prop :=
  s.newSessionCb = true ∧ s.readCb = true

/-- The calls the heavy thread has made. -/
def callsMade (s : UdpServer) : List UdpCall :=
  s.heavy.executed.filterMap (·.call?)

def events (s : UdpServer) : List (SessionEvent InetAddr (List UInt8)) :=
  s.history.map UdpEvent.sessionEvent

/-- What became of the datagrams and the scans. -/
def registry (s : UdpServer) : Registry InetAddr :=
  .after InetAddr.eq s.events

variable {std : StdHash} {bucketOf : List UdpEvent → UInt64 → Nat}
  {s next : UdpServer}

theorem events_record (s : UdpServer) (event : UdpEvent) :
    (s.record event).events = s.events ++ [event.sessionEvent] := by
  simp only [events, record, List.map_append, List.map_singleton]

theorem registry_record (s : UdpServer) (event : UdpEvent) :
    (s.record event).registry =
      s.registry.apply InetAddr.eq event.sessionEvent := by
  rw [registry, events_record, Registry.after_concat]
  rfl

theorem arrivals_registry (s : UdpServer) : s.registry.arrivals = s.received := by
  rw [registry, events, received]
  induction s.history using List.reverseRecOn with
  | nil => rfl
  | append_singleton history event ih =>
      rw [List.map_append, List.map_singleton, Registry.after_concat,
        List.countP_append, ← ih]
      cases event <;> rfl

/-! ## The invariant -/

/-- The table holds the live sessions, and the calls posted are the deliveries. -/
structure Routed (s : UdpServer) : Prop where
  table : s.TableOk
  callbacks : s.CallbacksSet
  exact : s.heavy.Exact
  live : LiveIn s.registry s.sessions
  calls : s.calls.map UdpCall.delivery = deliveries InetAddr.eq s.events

theorem routed_make {family : UInt16} {timeout : UInt64} {made : UdpServer}
    (hMake : make family timeout = some made) : made.withCallbacks.Routed := by
  have hTable : made.TableOk := tableOk_make hMake
  obtain ⟨-, rfl⟩ := make_eq_some hMake
  exact
    { table := hTable
      callbacks := ⟨rfl, rfl⟩
      exact := rfl
      live := LiveIn.empty
      calls := rfl }

/-- The call a datagram causes is what becomes of it. -/
theorem Routed.calls_read (hRouted : s.Routed) {sender : Sockaddr}
    {source : InetAddr} {data : List UInt8} {now : Nat}
    (hRead : Read s sender source data now next) :
    next.calls.map UdpCall.delivery = s.calls.map UdpCall.delivery ++
      [s.registry.deliver source data] := by
  cases hRead with
  | ignored hReadCb =>
      rw [hRouted.callbacks.2] at hReadCb
      cases hReadCb
  | @opened callback hNone hCallback =>
      obtain ⟨-, rfl⟩ := hCallback.resolve_right
        (by simp [hRouted.callbacks.1])
      rw [calls_post, List.map_append, List.map_singleton, Registry.deliver,
        hRouted.live.live_eq_none hNone]
      simp only [UdpCall.delivery, arrivals_registry]
      rfl
  | continued hFound =>
      rw [calls_post, List.map_append, List.map_singleton, Registry.deliver,
        hRouted.live.live_eq_some hFound]
      rfl

theorem Routed.live_read (hRouted : s.Routed) {sender : Sockaddr}
    {source : InetAddr} {data : List UInt8} {now : Nat}
    (hRead : Read s sender source data now next) :
    LiveIn (s.registry.apply InetAddr.eq (.arrival source data))
      next.sessions := by
  cases hRead with
  | ignored hReadCb =>
      rw [hRouted.callbacks.2] at hReadCb
      cases hReadCb
  | opened hNone =>
      have hOpened := hRouted.live.opened hNone data now
      rwa [arrivals_registry] at hOpened
  | continued hFound => exact hRouted.live.stamped hFound data _ now

theorem Read.keeps {sender : Sockaddr} {source : InetAddr} {data : List UInt8}
    {now : Nat} (hRead : Read s sender source data now next) :
    (s.CallbacksSet → next.CallbacksSet) ∧
      (s.heavy.Exact → next.heavy.Exact) := by
  cases hRead with
  | ignored => exact ⟨id, id⟩
  | opened => exact ⟨id, fun hExact => hExact.push _⟩
  | continued => exact ⟨id, fun hExact => hExact.push _⟩

/-- The heavy queue moves on, and nothing else changes. -/
theorem Routed.moved (hRouted : s.Routed) {heavy : DoubleBuffer HeavyTask}
    (hExact : heavy.Exact) (hPushed : heavy.pushed = s.heavy.pushed) :
    ({ s with heavy := heavy } : UdpServer).Routed where
  table := hRouted.table
  callbacks := hRouted.callbacks
  exact := hExact
  live := hRouted.live
  calls := by
    have hCalls := hRouted.calls
    rw [UdpServer.calls, ← hPushed] at hCalls
    exact hCalls

theorem Routed.step {action : UdpAction} (hRouted : s.Routed)
    (hKeeps : action.KeepsCallbacks) (hStep : Stepped s action next) :
    next.Routed := by
  have hTable := hRouted.table.step hStep
  cases hStep with
  | setNewSessionCb set =>
      obtain rfl : set = true := hKeeps
      exact { hRouted with callbacks := ⟨rfl, hRouted.callbacks.2⟩ }
  | setReadCb set =>
      obtain rfl : set = true := hKeeps
      exact { hRouted with callbacks := ⟨hRouted.callbacks.1, rfl⟩ }
  | @receive sender source data now next hSource hFamily hClock hRead =>
      have hClocked : ({ s with clock := now } : UdpServer).Routed :=
        { hRouted with }
      have hEvents : next.events = s.events := by
        rw [events, hRead.history_eq]
        rfl
      have hLive := hClocked.live_read hRead
      have hCalls := hClocked.calls_read hRead
      exact
        { table := hTable
          callbacks := hRead.keeps.1 hRouted.callbacks
          exact := hRead.keeps.2 hRouted.exact
          live := by
            rw [registry_record, registry, hEvents]
            exact hLive
          calls := by
            rw [events_record, hEvents, UdpEvent.sessionEvent, deliveries_concat,
              ← hRouted.calls]
            exact hCalls }
  | scan hClock =>
      exact
        { table := hTable
          callbacks := hRouted.callbacks
          exact := hRouted.exact
          live := by
            rw [registry_record]
            exact hRouted.live.scanned hRouted.table _
          calls := by
            rw [events_record, UdpEvent.sessionEvent, deliveries_concat]
            exact hRouted.calls.trans (List.append_nil _).symm }
  | postHeavyTask =>
      exact
        { hRouted with
          exact := hRouted.exact.push _
          calls := by
            rw [calls_post_user]
            exact hRouted.calls }
  | swapHeavy hIdle => exact hRouted.moved (hRouted.exact.swap hIdle) rfl
  | executeHeavy hNext =>
      exact hRouted.moved (hRouted.exact.execute hNext)
        (DoubleBuffer.execute_pushed hNext)
  | clearHeavy hEnd => exact hRouted.moved (hRouted.exact.clear hEnd) rfl

/-! ## The heavy thread -/

theorem callable_of_set (hSet : s.CallbacksSet) (task : HeavyTask) :
    s.callable task = true := by
  cases task with
  | call made =>
      simp only [callable]
      cases made.callback with
      | newSession => exact hSet.1
      | read => exact hSet.2
  | user => rfl

/-- With work to do the heavy thread has a step that leaves less. -/
theorem heavy_advances (hSet : s.CallbacksSet)
    (hWork : ¬ (s.heavy.Idle ∧ s.heavy.buffer = [])) :
    ∃ action next, action.ByHeavyThread ∧
      s.step std bucketOf action = some next ∧
      next.heavy.pushed = s.heavy.pushed ∧ next.heavy.cost < s.heavy.cost := by
  by_cases hIdle : s.heavy.Idle
  · have hBuffer : s.heavy.buffer ≠ [] := fun hEmpty => hWork ⟨hIdle, hEmpty⟩
    refine ⟨.swapHeavy, { s with heavy := s.heavy.swap }, trivial, ?_, rfl,
      DoubleBuffer.cost_swap_lt hIdle hBuffer⟩
    exact if_pos ⟨List.isEmpty_iff.mpr hIdle.1, hIdle.2⟩
  · cases hNext : s.heavy.execute with
    | none =>
        refine ⟨.clearHeavy, { s with heavy := s.heavy.clear }, trivial, ?_, rfl,
          DoubleBuffer.cost_clear_lt hIdle⟩
        exact if_pos (Option.isNone_iff_eq_none.mpr hNext)
    | some heavy =>
        refine ⟨.executeHeavy, { s with heavy := heavy }, trivial, ?_,
          DoubleBuffer.execute_pushed hNext, DoubleBuffer.cost_execute_lt hNext⟩
        obtain ⟨task, hTask, -⟩ := Option.map_eq_some_iff.mp hNext
        simp only [UdpServer.step, hTask, callable_of_set hSet, if_true, hNext,
          Option.map_some]

/-- The heavy thread can make every call that was posted. -/
theorem Routed.heavy_drains (hRouted : s.Routed) :
    ∃ more final, (∀ action ∈ more, UdpAction.ByHeavyThread action) ∧
      run (UdpServer.step std bucketOf) s more = some final ∧
      final.callsMade = s.calls := by
  let Inv (state : UdpServer) : Prop :=
    state.Routed ∧ state.heavy.pushed = s.heavy.pushed
  have hAdvances (state : UdpServer) (hInv : Inv state)
      (hWork : ¬ (state.heavy.Idle ∧ state.heavy.buffer = [])) :
      ∃ action next, UdpAction.ByHeavyThread action ∧
        UdpServer.step std bucketOf state action = some next ∧ Inv next ∧
        next.heavy.cost < state.heavy.cost := by
    obtain ⟨hState, hPushed⟩ := hInv
    obtain ⟨action, next, hHeavy, hStep, hSame, hLess⟩ :=
      heavy_advances hState.callbacks hWork
    have hKeeps : action.KeepsCallbacks := by
      cases action <;> first | exact trivial | exact hHeavy.elim
    exact ⟨action, next, hHeavy, hStep,
      ⟨hState.step hKeeps (stepped hStep), hSame.trans hPushed⟩, hLess⟩
  obtain ⟨more, final, hMore, hRun, ⟨hFinal, hPushed⟩, hIdle, hBuffer⟩ :=
    exists_run_of_variant (fun state : UdpServer => state.heavy.cost) hAdvances
      (show Inv s from ⟨hRouted, rfl⟩)
  refine ⟨more, final, hMore, hRun, ?_⟩
  rw [callsMade, hFinal.exact.executed_eq hIdle hBuffer, hPushed]
  rfl

/-! ## The calls of a run -/

/-- What the call for a datagram is. -/
theorem Routed.call_of_received (hRouted : s.Routed)
    {earlier later : List UdpEvent} {source : InetAddr} {data : List UInt8}
    {time : Nat}
    (hHistory : s.history = earlier ++ .received source data time :: later) :
    ∃ before made after, s.calls = before ++ made :: after ∧
      before.length = earlier.countP UdpEvent.isReceived ∧ made.data = data ∧
      ((made.callback = .newSession ∧ made.session.id = before.length ∧
          ∀ session, ¬ Live earlier source session) ∨
        (made.callback = .read ∧ Live earlier source made.session.id)) := by
  have hEvents : s.events = earlier.map UdpEvent.sessionEvent ++
      .arrival source data :: later.map UdpEvent.sessionEvent := by
    rw [events, hHistory, List.map_append, List.map_cons]
    rfl
  obtain ⟨front, delivery, rest, hSplit, hFront, hDelivery⟩ :=
    delivery_of_arrival InetAddr.keyEquiv (earlier.map UdpEvent.sessionEvent)
      (later.map UdpEvent.sessionEvent) source data
  have hLength : front.length = earlier.countP UdpEvent.isReceived := by
    rw [hFront, length_deliveries]
    exact arrivals_registry { s with history := earlier }
  have hCalls := hRouted.calls
  rw [hEvents, hSplit] at hCalls
  obtain ⟨before, rest', hBefore, hBeforeMap, hRest⟩ :=
    List.map_eq_append_iff.mp hCalls
  obtain ⟨made, after, rfl, hMade, -⟩ := List.map_eq_cons_iff.mp hRest
  have hSame : before.length = front.length := by
    rw [← hBeforeMap, List.length_map]
  refine ⟨before, made, after, hBefore, hSame.trans hLength, ?_⟩
  rcases hDelivery with ⟨hFirst, hNone⟩ | ⟨session, hLater, hHolds⟩
  · obtain ⟨hCallback, hId, hData⟩ :=
      UdpCall.delivery_eq_first_iff.mp (hMade.trans hFirst)
    exact ⟨hData, .inl ⟨hCallback, hId.trans hSame.symm, hNone⟩⟩
  · obtain ⟨hCallback, rfl, hData⟩ :=
      UdpCall.delivery_eq_later_iff.mp (hMade.trans hLater)
    exact ⟨hData, .inr ⟨hCallback, hHolds⟩⟩

/-- The sessions of the table are the live ones. -/
theorem Routed.lookup_iff_live (hRouted : s.Routed) (source : InetAddr)
    (session : Nat) :
    (∃ entry, s.lookup source = some entry ∧ entry.2.id = session) ↔
      Live s.history source session := by
  have hLookup : (s.lookup source).map (fun entry => entry.2.id) =
      s.registry.live source := hRouted.live source
  rw [Live, ← live_iff_holds InetAddr.keyEquiv]
  show _ ↔ s.registry.live source = some session
  rw [← hLookup, Option.map_eq_some_iff]

/-- **Routing of datagrams.**  With both callbacks set throughout, whatever is
received and however scans and the heavy thread come in between: `sessions_`
holds at most one session for each key, under its own source, and its sessions
are the live ones.  There are as many calls as datagrams, and the call for a
datagram is at its place in the order of arrival: `new_session_cb_` with a new
session if none was live for its source, and otherwise `read_cb_` with the one
that was.  The heavy thread has made the calls up to some place in this order,
has the others before it, and can make them all. -/
theorem udp_datagrams_routed {family : UInt16} {timeout : UInt64}
    {made s : UdpServer} {actions : List UdpAction}
    (hMake : make family timeout = some made)
    (hKeeps : Guarded (UdpServer.step std bucketOf)
      (fun _ action => action.KeepsCallbacks) made.withCallbacks actions)
    (hRun : run (UdpServer.step std bucketOf) made.withCallbacks actions =
      some s) :
    (HashTable.Distinct InetAddr.eq s.sessions ∧
      (∀ entry ∈ s.sessions, entry.2.source = entry.1) ∧
      ∀ source session,
        (∃ entry, s.lookup source = some entry ∧ entry.2.id = session) ↔
          Live s.history source session) ∧
    s.calls.length = s.received ∧
    (∀ earlier source data time later,
      s.history = earlier ++ .received source data time :: later →
      ∃ before made after, s.calls = before ++ made :: after ∧
        before.length = earlier.countP UdpEvent.isReceived ∧ made.data = data ∧
        ((made.callback = .newSession ∧ made.session.id = before.length ∧
            ∀ session, ¬ Live earlier source session) ∨
          (made.callback = .read ∧ Live earlier source made.session.id))) ∧
    (s.callsMade ++ (s.heavy.rest ++ s.heavy.buffer).filterMap (·.call?) =
      s.calls) ∧
    ∃ more final, (∀ action ∈ more, UdpAction.ByHeavyThread action) ∧
      run (UdpServer.step std bucketOf) s more = some final ∧
      final.callsMade = s.calls := by
  have hRouted : s.Routed :=
    run_invariant (fun _ _ _ hBefore hGuard hStep =>
      hBefore.step hGuard (stepped hStep)) (routed_make hMake) hKeeps hRun
  refine ⟨⟨hRouted.table.distinct, hRouted.table.source_eq,
    hRouted.lookup_iff_live⟩, ?_, ?_, ?_, hRouted.heavy_drains⟩
  · have hLength := congrArg List.length hRouted.calls
    rw [List.length_map, length_deliveries] at hLength
    exact hLength.trans (arrivals_registry s)
  · intro earlier source data time later hHistory
    exact hRouted.call_of_received hHistory
  · rw [callsMade, ← List.filterMap_append, ← List.append_assoc, hRouted.exact]
    rfl

/-- Two senders; the session of the first one times out and is opened again,
while the heavy thread has made one of the calls. -/
theorem udp_datagrams_routed_reopened :
    let std : StdHash := ⟨UInt16.toUInt64, UInt32.toUInt64, fun _ => 0⟩
    let actions : List UdpAction :=
      [.receive (loopback 1) [1] 0, .receive (loopback 2) [2] 900000, .swapHeavy,
        .executeHeavy, .postHeavyTask, .scan 1000001,
        .receive (loopback 1) [3] 1000002, .receive (loopback 2) [4] 1000003]
    ∃ made s, make AF_INET 1 = some made ∧
      run (UdpServer.step std fun _ hash => hash.toNat % 7) made.withCallbacks
        actions = some s ∧
      s.calls.map UdpCall.delivery =
        [.first 0 [1], .first 1 [2], .first 2 [3], .later 1 [4]] ∧
      s.callsMade.map UdpCall.delivery = [.first 0 [1]] ∧
      s.calls.length = s.received := by
  intro std actions
  have hOutcome : ((make AF_INET 1).bind fun made =>
      run (UdpServer.step std fun _ hash => hash.toNat % 7) made.withCallbacks
        actions).any (fun s => decide
          (s.calls.map UdpCall.delivery =
            [.first 0 [1], .first 1 [2], .first 2 [3], .later 1 [4]] ∧
          s.callsMade.map UdpCall.delivery = [.first 0 [1]])) = true := by
    decide +kernel
  obtain ⟨s, hSome, hView⟩ := (Option.any_eq_true _ _).mp hOutcome
  obtain ⟨made, hMake, hRun⟩ := Option.bind_eq_some_iff.mp hSome
  obtain ⟨hCalls, hMade⟩ := of_decide_eq_true hView
  have hKeeps : Guarded (UdpServer.step std fun _ hash => hash.toNat % 7)
      (fun _ action => action.KeepsCallbacks) made.withCallbacks actions := by
    simp [actions, Guarded, UdpAction.KeepsCallbacks]
  have hRouted := udp_datagrams_routed hMake hKeeps hRun
  exact ⟨made, s, hMake, hRun, hCalls, hMade, hRouted.2.1⟩

end UdpServer
end Net
end KZEvent
