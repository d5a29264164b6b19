import KZEvent.Foundation.DoubleBuffer
import KZEvent.Net.SocketEnd
import KZEvent.Net.TrafficGrowth

/-!
# A connection between a client and a session

A client and the session a server made of its connection, with the kernel between
them and the heavy thread behind each.  The parts are those of the other modules:
`StreamClient.step` and `StreamSession.step` for what the library does, `SocketEnd`
for what the kernel does, `DoubleBuffer` for the queue of fragments `on_fragment`
posts to the heavy thread.  They move in any order.

What an endpoint adds to its traffic in a step is what leaves it: the bytes accepted
go on the way, the bytes read leave the inbox, and the fragments go to the heavy
queue.  Bytes that arrive while a handler reads are taken to have arrived before it:
either it read them, or the descriptor is put on the ready list again.

No call to the kernel fails here and neither side ends the connection: the steps are
those that `SendsFlow` allows.
-/

namespace KZEvent
namespace Net

open KZEvent.Core Foundation EventType

/-! ## What the kernel answers an endpoint -/

namespace StreamClient

/-- The answers in a step are those of the end `e`, which has `room` after it. -/
def Served (c : StreamClient Unit) (e : SocketEnd) (room : Bool) :
    ClientAction → Prop
  | .dispatch _ inv => e.Serves inv c.conn.sendBuf.live.length room
  | .execTask _ ret => ret.status = .kTryAgain → room = false
  | .call _ | .perform | .timerExpires => room = true

instance (c : StreamClient Unit) (e : SocketEnd) (room : Bool)
    (action : ClientAction) : Decidable (c.Served e room action) :=
  match action with
  | .dispatch _ _ => inferInstanceAs (Decidable (SocketEnd.Serves ..))
  | .execTask _ _ => inferInstanceAs (Decidable (_ → _))
  | .call _ | .perform | .timerExpires => inferInstanceAs (Decidable (_ = _))

/-- The next task arms the stream socket. -/
def armsNext (c : StreamClient Unit) : Bool :=
  match c.ioQueue with
  | .stream task :: _ => task.arms
  | _ => false

/-- The end `e` after a step to `next`. -/
def endAfter (c : StreamClient Unit) (e : SocketEnd) (room : Bool)
    (next : StreamClient Unit) : ClientAction → SocketEnd
  | .dispatch _ _ =>
      (e.exchange (c.traffic.sentSince next.traffic)
        (c.traffic.readSince next.traffic) room).dispatched
  | .execTask _ _ =>
      let e := e.exchange (c.traffic.sentSince next.traffic)
        (c.traffic.readSince next.traffic) room
      if c.armsNext then e.rearm next.streamSlot.interest else e
  | .call _ | .perform | .timerExpires =>
      e.exchange (c.traffic.sentSince next.traffic)
        (c.traffic.readSince next.traffic) room

end StreamClient

namespace StreamSession

/-- The answers in a step are those of the end `e`, which has `room` after it. -/
def Served (s : StreamSession Unit) (e : SocketEnd) (room : Bool) :
    SessionAction → Prop
  | .dispatch _ inv => e.Serves inv s.conn.sendBuf.live.length room
  | .execTask _ ret => ret.status = .kTryAgain → room = false
  | .call _ | .perform | .destroyServer => room = true

instance (s : StreamSession Unit) (e : SocketEnd) (room : Bool)
    (action : SessionAction) : Decidable (s.Served e room action) :=
  match action with
  | .dispatch _ _ => inferInstanceAs (Decidable (SocketEnd.Serves ..))
  | .execTask _ _ => inferInstanceAs (Decidable (_ → _))
  | .call _ | .perform | .destroyServer => inferInstanceAs (Decidable (_ = _))

/-- The next task arms the session's socket. -/
def armsNext (s : StreamSession Unit) : Bool :=
  match s.ioQueue with
  | .fd task :: _ => task.arms
  | _ => false

/-- The end `e` after a step to `next`. -/
def endAfter (s : StreamSession Unit) (e : SocketEnd) (room : Bool)
    (next : StreamSession Unit) : SessionAction → SocketEnd
  | .dispatch _ _ =>
      (e.exchange (s.traffic.sentSince next.traffic)
        (s.traffic.readSince next.traffic) room).dispatched
  | .execTask _ _ =>
      let e := e.exchange (s.traffic.sentSince next.traffic)
        (s.traffic.readSince next.traffic) room
      if s.armsNext then e.rearm next.slot.interest else e
  | .call _ | .perform | .destroyServer =>
      e.exchange (s.traffic.sentSince next.traffic)
        (s.traffic.readSince next.traffic) room

end StreamSession

/-! ## The system -/

/-- `established` says that the handshake is complete, `accepted` that `accept4`
has returned and the session exists. -/
structure Connection where
  client : StreamClient Unit
  session : StreamSession Unit
  clientEnd : SocketEnd
  sessionEnd : SocketEnd
  clientHeavy : DoubleBuffer (List UInt8)
  sessionHeavy : DoubleBuffer (List UInt8)
  established : Bool
  accepted : Bool

/-- A step of an endpoint, with the room the kernel has after it; of the network; of
an io thread in `epoll_wait`; or of a heavy thread. -/
inductive ConnectionAction
  | client (action : ClientAction) (room : Bool)
  | session (action : SessionAction) (room : Bool)
  | establish
  | accept
  | carryToSession (count : Nat)
  | carryToClient (count : Nat)
  | clientRoom
  | sessionRoom
  | clientWait
  | sessionWait
  | clientHeavy (action : DoubleBuffer.ConsumerStep)
  | sessionHeavy (action : DoubleBuffer.ConsumerStep)

namespace Connection

/-- Before the client calls `connect`. -/
def start : Connection where
  client := .make ()
  session := .accepted ()
  clientEnd := .make false
  sessionEnd := .make true
  clientHeavy := .empty
  sessionHeavy := .empty
  established := false
  accepted := false

/-- The connection after a step of the client. -/
def clientStepped (s : Connection) (action : ClientAction) (room : Bool)
    (next : StreamClient Unit) : Connection :=
  { s with
    client := next
    clientEnd := s.client.endAfter s.clientEnd room next action
    clientHeavy :=
      s.clientHeavy.pushAll (s.client.traffic.cutSince next.traffic) }

/-- The connection after a step of the session. -/
def sessionStepped (s : Connection) (action : SessionAction) (room : Bool)
    (next : StreamSession Unit) : Connection :=
  { s with
    session := next
    sessionEnd := s.session.endAfter s.sessionEnd room next action
    sessionHeavy :=
      s.sessionHeavy.pushAll (s.session.traffic.cutSince next.traffic) }

/-- One step.  `SendsFlow` leaves out calls to the kernel that fail (`EAGAIN` and partial
sends do not), an attempt to connect that completes at once or too late, and whatever
stops, starts again or destroys an endpoint or the server. -/
def step (split : List UInt8 → Int) (s : Connection) :
    ConnectionAction → Option Connection
  | .client action room =>
      if s.client.SendsFlow action ∧ s.client.Served s.clientEnd room action then
        (StreamClient.step (stateless split) s.client action).map
          (s.clientStepped action room)
      else none
  | .session action room =>
      if s.accepted = true ∧ s.session.SendsFlow action ∧
          s.session.Served s.sessionEnd room action then
        (StreamSession.step (stateless split) s.session action).map
          (s.sessionStepped action room)
      else none
  | .establish =>
      if s.established = false ∧ s.client.connected = .kConnecting then
        some { s with
          established := true
          clientEnd := s.clientEnd.makeRoom s.client.streamSlot.interest }
      else none
  | .accept =>
      if s.established = true ∧ s.accepted = false then
        some { s with accepted := true }
      else none
  | .carryToSession count =>
      if 0 < count ∧ count ≤ s.clientEnd.wire.length then
        some { s with
          clientEnd := s.clientEnd.depart count
          sessionEnd := s.sessionEnd.arrive s.session.slot.interest
            (s.clientEnd.wire.take count) }
      else none
  | .carryToClient count =>
      if 0 < count ∧ count ≤ s.sessionEnd.wire.length then
        some { s with
          sessionEnd := s.sessionEnd.depart count
          clientEnd := s.clientEnd.arrive s.client.streamSlot.interest
            (s.sessionEnd.wire.take count) }
      else none
  | .clientRoom =>
      if s.established = true ∧ s.clientEnd.writable = false then
        some { s with
          clientEnd := s.clientEnd.makeRoom s.client.streamSlot.interest }
      else none
  | .sessionRoom =>
      if s.sessionEnd.writable = false then
        some { s with
          sessionEnd := s.sessionEnd.makeRoom s.session.slot.interest }
      else none
  | .clientWait =>
      if s.client.pending = [] ∧ s.clientEnd.ready = true ∧
          s.clientEnd.reported = none then
        some { s with
          clientEnd := s.clientEnd.report s.client.streamSlot.interest }
      else none
  | .sessionWait =>
      if s.session.pending = [] ∧ s.sessionEnd.ready = true ∧
          s.sessionEnd.reported = none then
        some { s with
          sessionEnd := s.sessionEnd.report s.session.slot.interest }
      else none
  | .clientHeavy action =>
      (s.clientHeavy.consume action).map fun queue =>
        { s with clientHeavy := queue }
  | .sessionHeavy action =>
      (s.sessionHeavy.consume action).map fun queue =>
        { s with sessionHeavy := queue }

/-- The payloads the client was asked to send, in order. -/
def clientPosts (actions : List ConnectionAction) : List (List UInt8) :=
  actions.filterMap fun
    | .client action _ => action.payload?
    | _ => none

/-- The payloads the session was asked to send, in order. -/
def sessionPosts (actions : List ConnectionAction) : List (List UInt8) :=
  actions.filterMap fun
    | .session action _ => action.payload?
    | _ => none

/-! ## Inversion of a step -/

/-- The ways a step can be taken, with their preconditions. -/
inductive Stepped (split : List UInt8 → Int) (s : Connection) :
    ConnectionAction → Connection → Prop
  | client {action : ClientAction} {room : Bool} {next : StreamClient Unit}
      (hFlow : s.client.SendsFlow action)
      (hServed : s.client.Served s.clientEnd room action)
      (hStep : StreamClient.step (stateless split) s.client action = some next) :
      Stepped split s (.client action room) (s.clientStepped action room next)
  | session {action : SessionAction} {room : Bool} {next : StreamSession Unit}
      (hAccepted : s.accepted = true) (hFlow : s.session.SendsFlow action)
      (hServed : s.session.Served s.sessionEnd room action)
      (hStep : StreamSession.step (stateless split) s.session action = some next) :
      Stepped split s (.session action room) (s.sessionStepped action room next)
  | establish (hNot : s.established = false)
      (hConnecting : s.client.connected = .kConnecting) :
      Stepped split s .establish
        { s with
          established := true
          clientEnd := s.clientEnd.makeRoom s.client.streamSlot.interest }
  | accept (hEstablished : s.established = true) (hNot : s.accepted = false) :
      Stepped split s .accept { s with accepted := true }
  | carryToSession {count : Nat} (hSome : 0 < count)
      (hCount : count ≤ s.clientEnd.wire.length) :
      Stepped split s (.carryToSession count)
        { s with
          clientEnd := s.clientEnd.depart count
          sessionEnd := s.sessionEnd.arrive s.session.slot.interest
            (s.clientEnd.wire.take count) }
  | carryToClient {count : Nat} (hSome : 0 < count)
      (hCount : count ≤ s.sessionEnd.wire.length) :
      Stepped split s (.carryToClient count)
        { s with
          sessionEnd := s.sessionEnd.depart count
          clientEnd := s.clientEnd.arrive s.client.streamSlot.interest
            (s.sessionEnd.wire.take count) }
  | clientRoom (hEstablished : s.established = true)
      (hFull : s.clientEnd.writable = false) :
      Stepped split s .clientRoom
        { s with
          clientEnd := s.clientEnd.makeRoom s.client.streamSlot.interest }
  | sessionRoom (hFull : s.sessionEnd.writable = false) :
      Stepped split s .sessionRoom
        { s with
          sessionEnd := s.sessionEnd.makeRoom s.session.slot.interest }
  | clientWait (hIdle : s.client.pending = []) (hReady : s.clientEnd.ready = true)
      (hNone : s.clientEnd.reported = none) :
      Stepped split s .clientWait
        { s with
          clientEnd := s.clientEnd.report s.client.streamSlot.interest }
  | sessionWait (hIdle : s.session.pending = [])
      (hReady : s.sessionEnd.ready = true) (hNone : s.sessionEnd.reported = none) :
      Stepped split s .sessionWait
        { s with
          sessionEnd := s.sessionEnd.report s.session.slot.interest }
  | clientHeavy {action : DoubleBuffer.ConsumerStep}
      {queue : DoubleBuffer (List UInt8)}
      (hConsume : s.clientHeavy.consume action = some queue) :
      Stepped split s (.clientHeavy action) { s with clientHeavy := queue }
  | sessionHeavy {action : DoubleBuffer.ConsumerStep}
      {queue : DoubleBuffer (List UInt8)}
      (hConsume : s.sessionHeavy.consume action = some queue) :
      Stepped split s (.sessionHeavy action) { s with sessionHeavy := queue }

theorem stepped {split : List UInt8 → Int} {s next : Connection}
    {action : ConnectionAction} (hStep : step split s action = some next) :
    Stepped split s action next := by
  cases action with
  | client action room =>
      simp only [step, Option.ite_none_right_eq_some] at hStep
      obtain ⟨⟨hFlow, hServed⟩, hNext⟩ := hStep
      obtain ⟨client, hClient, rfl⟩ := Option.map_eq_some_iff.mp hNext
      exact .client hFlow hServed hClient
  | session action room =>
      simp only [step, Option.ite_none_right_eq_some] at hStep
      obtain ⟨⟨hAccepted, hFlow, hServed⟩, hNext⟩ := hStep
      obtain ⟨session, hSession, rfl⟩ := Option.map_eq_some_iff.mp hNext
      exact .session hAccepted hFlow hServed hSession
  | establish =>
      simp only [step, Option.ite_none_right_eq_some, Option.some.injEq] at hStep
      obtain ⟨⟨hNot, hConnecting⟩, rfl⟩ := hStep
      exact .establish hNot hConnecting
  | accept =>
      simp only [step, Option.ite_none_right_eq_some, Option.some.injEq] at hStep
      obtain ⟨⟨hEstablished, hNot⟩, rfl⟩ := hStep
      exact .accept hEstablished hNot
  | carryToSession count =>
      simp only [step, Option.ite_none_right_eq_some, Option.some.injEq] at hStep
      obtain ⟨⟨hSome, hCount⟩, rfl⟩ := hStep
      exact .carryToSession hSome hCount
  | carryToClient count =>
      simp only [step, Option.ite_none_right_eq_some, Option.some.injEq] at hStep
      obtain ⟨⟨hSome, hCount⟩, rfl⟩ := hStep
      exact .carryToClient hSome hCount
  | clientRoom =>
      simp only [step, Option.ite_none_right_eq_some, Option.some.injEq] at hStep
      obtain ⟨⟨hEstablished, hFull⟩, rfl⟩ := hStep
      exact .clientRoom hEstablished hFull
  | sessionRoom =>
      simp only [step, Option.ite_none_right_eq_some, Option.some.injEq] at hStep
      obtain ⟨hFull, rfl⟩ := hStep
      exact .sessionRoom hFull
  | clientWait =>
      simp only [step, Option.ite_none_right_eq_some, Option.some.injEq] at hStep
      obtain ⟨⟨hIdle, hReady, hNone⟩, rfl⟩ := hStep
      exact .clientWait hIdle hReady hNone
  | sessionWait =>
      simp only [step, Option.ite_none_right_eq_some, Option.some.injEq] at hStep
      obtain ⟨⟨hIdle, hReady, hNone⟩, rfl⟩ := hStep
      exact .sessionWait hIdle hReady hNone
  | clientHeavy action =>
      obtain ⟨queue, hConsume, rfl⟩ := Option.map_eq_some_iff.mp hStep
      exact .clientHeavy hConsume
  | sessionHeavy action =>
      obtain ⟨queue, hConsume, rfl⟩ := Option.map_eq_some_iff.mp hStep
      exact .sessionHeavy hConsume

/-! ## Nothing is lost between the two ends -/

section Bytes

variable {split : List UInt8 → Int} {e : SocketEnd} {room : Bool}

theorem wire_clientEndAfter {c next : StreamClient Unit} {action : ClientAction}
    (hStep : StreamClient.step (stateless split) c action = some next)
    (sent : List UInt8) (hSent : sent ++ e.wire = c.traffic.accepted) :
    sent ++ (c.endAfter e room next action).wire = next.traffic.accepted := by
  have hWire : (c.endAfter e room next action).wire =
      e.wire ++ c.traffic.sentSince next.traffic := by
    cases action with
    | execTask faults ret =>
        simp only [StreamClient.endAfter]
        split <;> rfl
    | call call => rfl
    | dispatch fuel inv => rfl
    | perform => rfl
    | timerExpires => rfl
  rw [hWire, ← List.append_assoc, hSent]
  exact (StreamClient.grows_step hStep).sentSince_eq

theorem inbox_clientEndAfter {c next : StreamClient Unit} {action : ClientAction}
    (hServed : c.Served e room action)
    (hStep : StreamClient.step (stateless split) c action = some next) :
    c.readBy action ++ (c.endAfter e room next action).inbox = e.inbox := by
  have hInbox : (c.endAfter e room next action).inbox =
      e.inbox.drop (c.readBy action).length := by
    rw [← (StreamClient.grows_step hStep).readSince_eq]
    cases action with
    | execTask faults ret =>
        simp only [StreamClient.endAfter]
        split <;> rfl
    | call call => rfl
    | dispatch fuel inv => rfl
    | perform => rfl
    | timerExpires => rfl
  rw [hInbox]
  cases action with
  | dispatch fuel inv =>
      simp only [StreamClient.readBy, Invocation.readBytes]
      split_ifs with hHandler hRead
      · rw [hServed.reads hRead, List.drop_length, List.append_nil]
      · rfl
      · rfl
  | call call => rfl
  | execTask faults ret => rfl
  | perform => rfl
  | timerExpires => rfl

theorem wire_sessionEndAfter {s next : StreamSession Unit} {action : SessionAction}
    (hStep : StreamSession.step (stateless split) s action = some next)
    (sent : List UInt8) (hSent : sent ++ e.wire = s.traffic.accepted) :
    sent ++ (s.endAfter e room next action).wire = next.traffic.accepted := by
  have hWire : (s.endAfter e room next action).wire =
      e.wire ++ s.traffic.sentSince next.traffic := by
    cases action with
    | execTask faults ret =>
        simp only [StreamSession.endAfter]
        split <;> rfl
    | call call => rfl
    | dispatch fuel inv => rfl
    | perform => rfl
    | destroyServer => rfl
  rw [hWire, ← List.append_assoc, hSent]
  exact (StreamSession.grows_step hStep).sentSince_eq

theorem inbox_sessionEndAfter {s next : StreamSession Unit}
    {action : SessionAction} (hServed : s.Served e room action)
    (hStep : StreamSession.step (stateless split) s action = some next) :
    s.readBy action ++ (s.endAfter e room next action).inbox = e.inbox := by
  have hInbox : (s.endAfter e room next action).inbox =
      e.inbox.drop (s.readBy action).length := by
    rw [← (StreamSession.grows_step hStep).readSince_eq]
    cases action with
    | execTask faults ret =>
        simp only [StreamSession.endAfter]
        split <;> rfl
    | call call => rfl
    | dispatch fuel inv => rfl
    | perform => rfl
    | destroyServer => rfl
  rw [hInbox]
  cases action with
  | dispatch fuel inv =>
      simp only [StreamSession.readBy, Invocation.readBytes]
      split_ifs with hAlive hRead
      · rw [hServed.reads hRead, List.drop_length, List.append_nil]
      · rfl
      · rfl
  | call call => rfl
  | execTask faults ret => rfl
  | perform => rfl
  | destroyServer => rfl

end Bytes

end Connection
end Net
end KZEvent
