import KZEvent.Net.EffortSpent

/-!
# A connection comes to rest

Where nobody posts anything more, a connection can go on until it is quiet, and it
cannot go on for ever: each step leaves less to do, and where something is left to do
there is a step.  So what was posted is delivered, whatever the kernel and the two loops
do next, and in a number of steps that is known beforehand.
-/

namespace KZEvent
namespace Net

open KZEvent.Core Foundation EventType SocketEnd

/-! ## Answers to a dispatch -/

/-- The answers of a kernel that hands over all input and takes all output. -/
def SocketEnd.answers (e : SocketEnd) (events : EpollEvents) (pending : Nat) :
    Invocation where
  types := localToKz events
  reads := if e.inbox = [] then [] else [.read e.inbox]
  sends := [.sent pending]
  soError := 0

section Answers

variable {e : SocketEnd} {events : EpollEvents} {pending : Nat}

theorem SocketEnd.read_answers :
    Net.readBytes (e.answers events pending).reads = e.inbox ∧
      Net.readEnd (e.answers events pending).reads = .kTryAgain := by
  by_cases hEmpty : e.inbox = []
  · simp [answers, hEmpty, Net.readBytes, Net.readEnd]
  · have hLength : ¬ e.inbox.length = 0 := by simpa using hEmpty
    simp [answers, hEmpty, hLength, Net.readBytes, Net.readEnd, ReadvRet.status,
      ReadvRet.bytes]

theorem SocketEnd.send_answers :
    Net.sendEnd pending (e.answers events pending).sends = .kSuccess := by
  simp [answers, Net.sendEnd, SendRet.status, SendRet.count]

theorem SocketEnd.serves_answers (hReported : e.reported = some events) :
    e.Serves (e.answers events pending) pending true where
  mask := by rw [hReported]; rfl
  reads := fun _ => read_answers.1
  room := fun _ hAgain => by
    rw [send_answers] at hAgain
    cases hAgain

theorem SocketEnd.clean_answers : (e.answers events pending).Clean pending where
  readEnd := by
    unfold Invocation.readEnd
    split
    · exact read_answers.2
    · rfl
  sendEnd := by
    unfold Invocation.sendEnd
    split
    · exact .inl send_answers
    · exact .inr rfl
  soError := rfl

end Answers

/-! ## There is a next step -/

namespace StreamSession

variable {split : List UInt8 → Int} {e : SocketEnd}

theorem keepsRoom_true (s : StreamSession Unit) (action : SessionAction) :
    s.KeepsRoom split e true action :=
  fun hFull => by cases hFull

/-- A session with an effect, a task or a report can go on. -/
theorem exists_step (hBounded : BoundedSplit (stateless split)) {base : List UInt8}
    {s : StreamSession Unit} (hInv : s.SendInv base) (hTended : s.Tended e)
    (hBusy : s.pending ≠ [] ∨ s.ioQueue ≠ [] ∨ e.reported ≠ none) :
    ∃ action next, action.unasked = true ∧ s.SendsFlow action ∧
      s.Served e true action ∧ step (stateless split) s action = some next := by
  cases hPending : s.pending with
  | cons effect effects =>
      exact ⟨.perform, _, rfl, trivial, rfl, by rw [step, hPending]⟩
  | nil =>
      cases hQueue : s.ioQueue with
      | cons task tasks =>
          refine ⟨.execTask {} (.sent 0), _, rfl, ⟨rfl, .inl rfl⟩, ?_, by
            rw [step, hPending, hQueue]⟩
          exact fun hAgain => by cases hAgain
      | nil =>
          have hReported : e.reported ≠ none := by
            simpa [hPending, hQueue] using hBusy
          obtain ⟨events, hEvents⟩ := Option.ne_none_iff_exists'.mp hReported
          obtain ⟨callback, hInstalled⟩ :=
            Option.ne_none_iff_exists'.mp (hTended.reported hReported)
          obtain ⟨fuel, result, hReturns⟩ := streamHandler_returns verdict hBounded
            (e.answers events s.conn.sendBuf.live.length) s.split s.conn
          refine ⟨.dispatch fuel (e.answers events s.conn.sendBuf.live.length),
            s.leave result.1 result.2, rfl, clean_answers, serves_answers hEvents, ?_⟩
          rw [step, hPending, hInstalled]
          simp only [handler, hInv.serverAlive, if_true, hReturns, Option.map_some]

end StreamSession

namespace StreamClient

variable {split : List UInt8 → Int} {e : SocketEnd}

theorem keepsRoom_true (c : StreamClient Unit) (action : ClientAction) :
    c.KeepsRoom split e true action :=
  fun hFull => by cases hFull

/-- A client with an effect, a task or a report can go on. -/
theorem exists_step (hBounded : BoundedSplit (stateless split))
    {c : StreamClient Unit} (hTended : c.Tended e)
    (hBusy : c.pending ≠ [] ∨ c.ioQueue ≠ [] ∨ e.reported ≠ none) :
    ∃ action next, action.unasked = true ∧ c.SendsFlow action ∧
      c.Served e true action ∧ step (stateless split) c action = some next := by
  cases hPending : c.pending with
  | cons effect effects =>
      exact ⟨.perform, _, rfl, trivial, rfl, by rw [step, hPending]⟩
  | nil =>
      cases hQueue : c.ioQueue with
      | cons task tasks =>
          refine ⟨.execTask {} (.sent 0), _, rfl, ⟨rfl, .inl rfl⟩, ?_, by
            rw [step, hPending, hQueue]⟩
          exact fun hAgain => by cases hAgain
      | nil =>
          have hReported : e.reported ≠ none := by
            simpa [hPending, hQueue] using hBusy
          obtain ⟨events, hEvents⟩ := Option.ne_none_iff_exists'.mp hReported
          obtain ⟨callback, hInstalled⟩ :=
            Option.ne_none_iff_exists'.mp (hTended.reported hReported)
          let inv := e.answers events c.conn.sendBuf.live.length
          have hServed (fuel : Nat) : c.Served e true (.dispatch fuel inv) :=
            serves_answers hEvents
          cases callback with
          | socketCb attempt =>
              refine ⟨.dispatch 0 inv, _, rfl, ?_, hServed 0, by
                rw [step, hPending, hInstalled]⟩
              rw [SendsFlow, if_neg (by simp [hInstalled])]
              rfl
          | handler =>
              obtain ⟨fuel, result, hReturns⟩ := streamHandler_returns
                StreamClientSocket.verdict hBounded inv c.split c.conn
              refine ⟨.dispatch fuel inv, c.leave result.1 result.2, rfl, ?_,
                hServed fuel, ?_⟩
              · rw [SendsFlow, if_pos hInstalled]
                exact clean_answers
              · rw [step, hPending, hInstalled]
                simp only [StreamClientSocket.handler, hReturns, Option.map_some]

end StreamClient

namespace Connection

variable {split : List UInt8 → Int} {s : Connection}

/-- No step is left that nobody has to call for. -/
def Stuck (split : List UInt8 → Int) (s : Connection) : Prop :=
  ∀ action, s.Unasked split action → step split s action = none

theorem Stuck.refuses (hStuck : s.Stuck split) (action : ConnectionAction)
    {next : Connection} (hUnasked : s.Unasked split action)
    (hStep : step split s action = some next) : False := by
  rw [hStuck action hUnasked] at hStep
  cases hStep

/-- There is a session: the attempt goes on until the kernel accepts it. -/
theorem Stuck.accepted (hStuck : s.Stuck split) (hTended : Tended s)
    (hBegun : s.client.connected ≠ .kDisconnected) : s.accepted = true := by
  by_contra hNot
  have hNotAccepted : s.accepted = false := Bool.eq_false_iff.mpr hNot
  by_cases hEstablished : s.established = true
  · exact hStuck.refuses .accept trivial
      (if_pos ⟨hEstablished, hNotAccepted⟩)
  · have hNotEstablished : s.established = false := Bool.eq_false_iff.mpr hEstablished
    have hConnecting : s.client.connected = .kConnecting := by
      cases hState : s.client.connected with
      | kDisconnected => exact absurd hState hBegun
      | kConnecting => rfl
      | kConnected => exact absurd hState (hTended.unconnected hNotEstablished)
    exact hStuck.refuses .establish trivial
      (if_pos ⟨hNotEstablished, hConnecting⟩)

theorem Stuck.client (hStuck : s.Stuck split) (hBounded : BoundedSplit (stateless split))
    (hTended : Tended s) :
    s.client.pending = [] ∧ s.client.ioQueue = [] ∧ s.clientEnd.reported = none := by
  by_contra hBusy
  obtain ⟨action, next, hUnasked, hFlow, hServed, hStep⟩ :=
    StreamClient.exists_step hBounded hTended.client (by tauto)
  have hNext : step split s (.client action true) =
      some (s.clientStepped action true next) := by
    rw [step, if_pos ⟨hFlow, hServed⟩, hStep, Option.map_some]
  exact hStuck.refuses (.client action true)
    ⟨hUnasked, StreamClient.keepsRoom_true s.client action⟩ hNext

theorem Stuck.session (hStuck : s.Stuck split) (hBounded : BoundedSplit (stateless split))
    (hOrderly : Orderly split s) (hAccepted : s.accepted = true) :
    s.session.pending = [] ∧ s.session.ioQueue = [] ∧ s.sessionEnd.reported = none := by
  by_contra hBusy
  obtain ⟨action, next, hUnasked, hFlow, hServed, hStep⟩ :=
    StreamSession.exists_step hBounded hOrderly.coherent.session
      hOrderly.tended.session (by tauto)
  have hNext : step split s (.session action true) =
      some (s.sessionStepped action true next) := by
    rw [step, if_pos ⟨hAccepted, hFlow, hServed⟩, hStep, Option.map_some]
  exact hStuck.refuses (.session action true)
    ⟨hUnasked, StreamSession.keepsRoom_true s.session action⟩ hNext

theorem Stuck.clientEnd (hStuck : s.Stuck split) (hIdle : s.client.pending = [])
    (hNone : s.clientEnd.reported = none) (hEstablished : s.established = true) :
    s.clientEnd.Quiet where
  wire := by
    by_contra hWire
    exact hStuck.refuses (.carryToSession s.clientEnd.wire.length) trivial
      (if_pos ⟨List.length_pos_iff.mpr hWire, Nat.le_refl _⟩)
  writable := by
    by_contra hNot
    exact hStuck.refuses .clientRoom trivial
      (if_pos ⟨hEstablished, Bool.eq_false_iff.mpr hNot⟩)
  ready := by
    by_contra hNot
    exact hStuck.refuses .clientWait trivial
      (if_pos ⟨hIdle, (Bool.not_eq_false _).mp hNot, hNone⟩)
  reported := hNone

theorem Stuck.sessionEnd (hStuck : s.Stuck split) (hIdle : s.session.pending = [])
    (hNone : s.sessionEnd.reported = none) : s.sessionEnd.Quiet where
  wire := by
    by_contra hWire
    exact hStuck.refuses (.carryToClient s.sessionEnd.wire.length) trivial
      (if_pos ⟨List.length_pos_iff.mpr hWire, Nat.le_refl _⟩)
  writable := by
    by_contra hNot
    exact hStuck.refuses .sessionRoom trivial
      (if_pos (Bool.eq_false_iff.mpr hNot))
  ready := by
    by_contra hNot
    exact hStuck.refuses .sessionWait trivial
      (if_pos ⟨hIdle, (Bool.not_eq_false _).mp hNot, hNone⟩)
  reported := hNone

/-- A connection that cannot go on is quiet. -/
theorem Stuck.quiet (hStuck : s.Stuck split) (hBounded : BoundedSplit (stateless split))
    (hOrderly : Orderly split s) (hBegun : s.client.connected ≠ .kDisconnected) :
    s.Quiet := by
  have hAccepted := hStuck.accepted hOrderly.tended hBegun
  obtain ⟨hClientIdle, hClientTasks, hClientNone⟩ :=
    hStuck.client hBounded hOrderly.tended
  obtain ⟨hSessionIdle, hSessionTasks, hSessionNone⟩ :=
    hStuck.session hBounded hOrderly hAccepted
  exact
    { clientIdle := hClientIdle
      clientTasks := hClientTasks
      clientEnd := hStuck.clientEnd hClientIdle hClientNone
        (hOrderly.watchful.accepted hAccepted)
      clientHeavy := by
        by_contra hNot
        obtain ⟨action, queue, hConsume⟩ := DoubleBuffer.exists_consume hNot
        have hNext : step split s (.clientHeavy action) =
            some { s with clientHeavy := queue } := by
          rw [step, hConsume, Option.map_some]
        exact hStuck.refuses (.clientHeavy action) trivial hNext
      sessionIdle := hSessionIdle
      sessionTasks := hSessionTasks
      sessionEnd := hStuck.sessionEnd hSessionIdle hSessionNone
      sessionHeavy := by
        by_contra hNot
        obtain ⟨action, queue, hConsume⟩ := DoubleBuffer.exists_consume hNot
        have hNext : step split s (.sessionHeavy action) =
            some { s with sessionHeavy := queue } := by
          rw [step, hConsume, Option.map_some]
        exact hStuck.refuses (.sessionHeavy action) trivial hNext }

/-- A quiet connection cannot go on. -/
theorem Quiet.stuck (hQuiet : s.Quiet) (hWatchful : Watchful s) : s.Stuck split := by
  intro action hUnasked
  by_contra hSome
  obtain ⟨next, hStep⟩ := Option.ne_none_iff_exists'.mp hSome
  cases stepped hStep with
  | client hFlow hServed hClient =>
      cases StreamClient.stepped hClient with
      | call call => cases hUnasked.1
      | execTask hIdle hQueue =>
          rw [hQuiet.clientTasks] at hQueue
          cases hQueue
      | socketCb hIdle hInstalled =>
          obtain ⟨events, hReported, -⟩ := SocketEnd.Serves.events hServed
          rw [hQuiet.clientEnd.reported] at hReported
          cases hReported
      | handler hIdle hInstalled hReturns =>
          obtain ⟨events, hReported, -⟩ := SocketEnd.Serves.events hServed
          rw [hQuiet.clientEnd.reported] at hReported
          cases hReported
      | perform hPending =>
          rw [hQuiet.clientIdle] at hPending
          cases hPending
      | timerExpires hIdle hInstalled => cases hUnasked.1
  | session hAccepted hFlow hServed hSession =>
      cases StreamSession.stepped hSession with
      | call call => cases hUnasked.1
      | execTask hIdle hQueue =>
          rw [hQuiet.sessionTasks] at hQueue
          cases hQueue
      | dispatch hIdle hInstalled hReturns =>
          obtain ⟨events, hReported, -⟩ := SocketEnd.Serves.events hServed
          rw [hQuiet.sessionEnd.reported] at hReported
          cases hReported
      | perform hPending =>
          rw [hQuiet.sessionIdle] at hPending
          cases hPending
      | destroyServer hIdle => cases hUnasked.1
  | establish hNot hConnecting =>
      rw [hQuiet.connected hWatchful] at hConnecting
      cases hConnecting
  | accept hEstablished hNot =>
      have hTasks := hQuiet.sessionTasks
      rw [hWatchful.untouched hNot] at hTasks
      cases hTasks
  | carryToSession hSome hCount =>
      rw [hQuiet.clientEnd.wire, List.length_nil] at hCount
      omega
  | carryToClient hSome hCount =>
      rw [hQuiet.sessionEnd.wire, List.length_nil] at hCount
      omega
  | clientRoom hEstablished hFull =>
      rw [hQuiet.clientEnd.writable] at hFull
      cases hFull
  | sessionRoom hFull =>
      rw [hQuiet.sessionEnd.writable] at hFull
      cases hFull
  | clientWait hIdle hReady hNone =>
      rw [hQuiet.clientEnd.ready] at hReady
      cases hReady
  | sessionWait hIdle hReady hNone =>
      rw [hQuiet.sessionEnd.ready] at hReady
      cases hReady
  | clientHeavy hConsume =>
      rw [hQuiet.clientHeavy.consume_eq_none] at hConsume
      cases hConsume
  | sessionHeavy hConsume =>
      rw [hQuiet.sessionHeavy.consume_eq_none] at hConsume
      cases hConsume

/-! ## Nothing more is posted -/

theorem Unasked.payload {action : ConnectionAction} (hUnasked : s.Unasked split action) :
    clientPosts [action] = [] ∧ sessionPosts [action] = [] := by
  cases action with
  | client action room =>
      cases action with
      | call call => cases hUnasked.1
      | _ => exact ⟨rfl, rfl⟩
  | session action room =>
      cases action with
      | call call => cases hUnasked.1
      | _ => exact ⟨rfl, rfl⟩
  | _ => exact ⟨rfl, rfl⟩

/-- The client that has called `connect` goes on connecting or is connected. -/
theorem begun_of_run {t : Connection} {more : List ConnectionAction}
    (hBegun : s.client.connected ≠ .kDisconnected)
    (hRun : run (step split) s more = some t) :
    t.client.connected ≠ .kDisconnected := by
  have hKeeps (state : Connection) (action : ConnectionAction) (next : Connection)
      (hState : state.client.connected ≠ .kDisconnected)
      (hStep : step split state action = some next) :
      next.client.connected ≠ .kDisconnected := by
    cases stepped hStep with
    | client hFlow hServed hClient =>
        exact StreamClient.connected_ne_step hFlow hClient hState
    | _ => exact hState
  exact run_keeps hKeeps hBegun hRun

end Connection

end Net
end KZEvent
