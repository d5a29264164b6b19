import KZEvent.Net.Connection
import KZEvent.Net.ReceiveFraming

/-!
# Delivery in order

What the heavy thread of one end has executed is, through five queues, the first part
of what the other end was asked to send: the io queue of send tasks, the send buffer,
the bytes on the way, the inbox, the receive buffer, and the queue of the heavy
thread.  Each of them keeps the order and loses nothing, so that the contents of the
later ones continued by those of the earlier ones make up what was posted.
-/

namespace KZEvent
namespace Net

open KZEvent.Core Foundation EventType

/-- The fragments handed over are those pushed on the queue of the heavy thread. -/
structure Handed (traffic : Traffic) (queue : DoubleBuffer (List UInt8)) :
    Prop where
  exact : queue.Exact
  pushed : queue.pushed = traffic.fragments

theorem Handed.grows {before after : Traffic} {bytes : List UInt8}
    {queue : DoubleBuffer (List UInt8)} (hHanded : Handed before queue)
    (hGrows : before.Grows after bytes) :
    Handed after (queue.pushAll (before.cutSince after)) := by
  obtain ⟨hExact, hPushed⟩ := hHanded.exact.pushAll (before.cutSince after)
  refine { exact := hExact, pushed := ?_ }
  rw [hPushed, hHanded.pushed]
  exact hGrows.cutSince_eq

theorem Handed.consume {traffic : Traffic}
    {queue next : DoubleBuffer (List UInt8)} {action : DoubleBuffer.ConsumerStep}
    (hHanded : Handed traffic queue) (hNext : queue.consume action = some next) :
    Handed traffic next := by
  obtain ⟨hExact, hPushed⟩ := hHanded.exact.consume hNext
  exact { exact := hExact, pushed := hPushed.trans hHanded.pushed }

theorem StreamClient.SendsFlow.clean {c : StreamClient Unit}
    {action : ClientAction} (hFlow : c.SendsFlow action) :
    c.CleanEvents action := by
  cases action with
  | dispatch fuel inv =>
      intro hHandler
      simpa only [StreamClient.SendsFlow, if_pos hHandler] using hFlow
  | call call => trivial
  | execTask faults ret => trivial
  | perform => trivial
  | timerExpires => trivial

theorem StreamSession.SendsFlow.clean {s : StreamSession Unit}
    {action : SessionAction} (hFlow : s.SendsFlow action) :
    s.CleanEvents action := by
  cases action with
  | dispatch fuel inv => exact fun _ => hFlow
  | call call => trivial
  | execTask faults ret => trivial
  | perform => trivial
  | destroyServer => trivial

namespace Connection

variable {split : List UInt8 → Int}

/-- Both ends send what they are given and frame what they get, and between them
nothing is lost. -/
structure Coherent (split : List UInt8 → Int) (s : Connection) : Prop where
  client : s.client.SendInv []
  session : s.session.SendInv []
  clientFramed : s.client.view.Framed split
  sessionFramed : s.session.view.Framed split
  toSession : s.session.traffic.received ++ s.sessionEnd.inbox ++
    s.clientEnd.wire = s.client.traffic.accepted
  toClient : s.client.traffic.received ++ s.clientEnd.inbox ++
    s.sessionEnd.wire = s.session.traffic.accepted
  clientHanded : Handed s.client.traffic s.clientHeavy
  sessionHanded : Handed s.session.traffic s.sessionHeavy

theorem coherent_start (hBounded : BoundedSplit (stateless split)) :
    Coherent split start where
  client :=
    { silent := rfl
      conserves := by simp [Traffic.Conserves, start, StreamClient.make, Traffic.none]
      registered := rfl
      waits := fun hConnected => by cases hConnected
      notStarted := fun _ => rfl }
  session := StreamSession.sendInv_accepted ()
  clientFramed := by
    simpa [StreamClient.view, receiveView, start, StreamClient.make, Traffic.none,
      fragmentsOf] using ReceiveView.framed_start hBounded
  sessionFramed := by
    simpa [StreamSession.view, receiveView, start, StreamSession.accepted,
      StreamSession.start, StreamSession.post, Traffic.none, fragmentsOf]
      using ReceiveView.framed_start hBounded
  toSession := rfl
  toClient := rfl
  clientHanded := { exact := DoubleBuffer.exact_empty, pushed := rfl }
  sessionHanded := { exact := DoubleBuffer.exact_empty, pushed := rfl }

/-- Bytes read leave the inbox, and what follows them stays. -/
theorem received_append {before after : Traffic} {bytes inbox inbox' wire : List UInt8}
    (hGrows : before.Grows after bytes) (hInbox : bytes ++ inbox' = inbox) :
    after.received ++ inbox' ++ wire = before.received ++ inbox ++ wire := by
  rw [hGrows.received, List.append_assoc before.received, hInbox]

/-- Bytes that arrive pass from the wire to the inbox. -/
theorem arrived_append (received inbox wire : List UInt8) (count : Nat) :
    received ++ (inbox ++ wire.take count) ++ wire.drop count =
      received ++ inbox ++ wire := by
  rw [← List.append_assoc received, List.append_assoc (received ++ inbox),
    List.take_append_drop]

theorem coherent_step (hBounded : BoundedSplit (stateless split))
    (hStable : PrefixStable split) (s : Connection) (action : ConnectionAction)
    (next : Connection) (hInv : Coherent split s)
    (hStep : step split s action = some next) : Coherent split next := by
  cases stepped hStep with
  | client hFlow hServed hClient =>
      have hGrows := StreamClient.grows_step hClient
      exact
        { hInv with
          client := StreamClient.sendInv_step _ _ _ hInv.client hFlow hClient
          clientFramed := StreamClient.framed_step hBounded hStable _ _ _
            hInv.clientFramed hFlow.clean hClient
          toSession := wire_clientEndAfter hClient _ hInv.toSession
          toClient := (received_append hGrows
            (inbox_clientEndAfter hServed hClient)).trans hInv.toClient
          clientHanded := hInv.clientHanded.grows hGrows }
  | session hAccepted hFlow hServed hSession =>
      have hGrows := StreamSession.grows_step hSession
      exact
        { hInv with
          session := StreamSession.sendInv_step _ _ _ hInv.session hFlow hSession
          sessionFramed := StreamSession.framed_step hBounded hStable _ _ _
            hInv.sessionFramed hFlow.clean hSession
          toClient := wire_sessionEndAfter hSession _ hInv.toClient
          toSession := (received_append hGrows
            (inbox_sessionEndAfter hServed hSession)).trans hInv.toSession
          sessionHanded := hInv.sessionHanded.grows hGrows }
  | establish hNot hConnecting => exact { hInv with }
  | accept hEstablished hNot => exact { hInv with }
  | carryToSession hSome hCount =>
      exact
        { hInv with
          toSession := (arrived_append _ _ _ _).trans hInv.toSession }
  | carryToClient hSome hCount =>
      exact
        { hInv with
          toClient := (arrived_append _ _ _ _).trans hInv.toClient }
  | clientRoom hEstablished hFull => exact { hInv with }
  | sessionRoom hFull => exact { hInv with }
  | clientWait hIdle hReady hNone => exact { hInv with }
  | sessionWait hIdle hReady hNone => exact { hInv with }
  | clientHeavy hConsume =>
      exact { hInv with clientHanded := hInv.clientHanded.consume hConsume }
  | sessionHeavy hConsume =>
      exact { hInv with sessionHanded := hInv.sessionHanded.consume hConsume }

theorem coherent_of_run (hBounded : BoundedSplit (stateless split))
    (hStable : PrefixStable split) {actions : List ConnectionAction}
    {s : Connection} (hRun : run (step split) start actions = some s) :
    Coherent split s :=
  run_keeps (coherent_step hBounded hStable) (coherent_start hBounded) hRun

/-! ## What was posted -/

/-- The payloads both endpoints know of are `posts`. -/
def Posts (s : Connection) (posts : List (List UInt8) × List (List UInt8)) :
    Prop :=
  s.client.posted = posts.1 ∧ s.session.posted = posts.2

/-- What an action posts. -/
def addPosts (posts : List (List UInt8) × List (List UInt8)) :
    ConnectionAction → List (List UInt8) × List (List UInt8)
  | .client action _ => (posts.1 ++ action.payload?.toList, posts.2)
  | .session action _ => (posts.1, posts.2 ++ action.payload?.toList)
  | _ => posts

theorem posts_step (s : Connection) (posts : List (List UInt8) × List (List UInt8))
    (action : ConnectionAction) (next : Connection) (hPosts : s.Posts posts)
    (hStep : step split s action = some next) :
    next.Posts (addPosts posts action) := by
  obtain ⟨hClient, hSession⟩ := hPosts
  cases stepped hStep with
  | client hFlow hServed hNext =>
      refine ⟨?_, hSession⟩
      show _ = posts.1 ++ _
      rw [← hClient]
      exact StreamClient.posted_step hNext
  | session hAccepted hFlow hServed hNext =>
      refine ⟨hClient, ?_⟩
      show _ = posts.2 ++ _
      rw [← hSession]
      exact StreamSession.posted_step hNext
  | establish hNot hConnecting => exact ⟨hClient, hSession⟩
  | accept hEstablished hNot => exact ⟨hClient, hSession⟩
  | carryToSession hSome hCount => exact ⟨hClient, hSession⟩
  | carryToClient hSome hCount => exact ⟨hClient, hSession⟩
  | clientRoom hEstablished hFull => exact ⟨hClient, hSession⟩
  | sessionRoom hFull => exact ⟨hClient, hSession⟩
  | clientWait hIdle hReady hNone => exact ⟨hClient, hSession⟩
  | sessionWait hIdle hReady hNone => exact ⟨hClient, hSession⟩
  | clientHeavy hConsume => exact ⟨hClient, hSession⟩
  | sessionHeavy hConsume => exact ⟨hClient, hSession⟩

theorem foldl_addPosts (actions : List ConnectionAction)
    (posts : List (List UInt8) × List (List UInt8)) :
    actions.foldl addPosts posts =
      (posts.1 ++ clientPosts actions, posts.2 ++ sessionPosts actions) := by
  induction actions generalizing posts with
  | nil => simp [clientPosts, sessionPosts]
  | cons action actions ih =>
      rw [List.foldl_cons, ih]
      cases action with
      | client action room =>
          simp only [addPosts, clientPosts, sessionPosts, List.filterMap_cons]
          cases action.payload? <;> simp
      | session action room =>
          simp only [addPosts, clientPosts, sessionPosts, List.filterMap_cons]
          cases action.payload? <;> simp
      | establish => rfl
      | accept => rfl
      | carryToSession count => rfl
      | carryToClient count => rfl
      | clientRoom => rfl
      | sessionRoom => rfl
      | clientWait => rfl
      | sessionWait => rfl
      | clientHeavy action => rfl
      | sessionHeavy action => rfl

/-- What the endpoints know of is what the calls of the run posted. -/
theorem posts_of_run {actions : List ConnectionAction} {s : Connection}
    (hRun : run (step split) start actions = some s) :
    s.client.posted = clientPosts actions ∧
      s.session.posted = sessionPosts actions := by
  have hStart : start.Posts ([], []) := ⟨rfl, rfl⟩
  have hEnd := run_simulates addPosts posts_step hStart hRun
  rw [foldl_addPosts] at hEnd
  exact hEnd

/-! ## The law -/

/-- One direction: `posted` is sent by one end, and `traffic`, `view` and `queue`
belong to the other. -/
theorem executed_prefix (hBounded : BoundedSplit (stateless split))
    (hStable : PrefixStable split) {sender receiver : Traffic}
    {pending : List Effect} {conn peer : StreamConn}
    {queued posted frames : List (List UInt8)} {inbox wire rest : List UInt8}
    {queue : DoubleBuffer (List UInt8)}
    (hConserves : sender.Conserves [] conn)
    (hBytes : receiver.received ++ inbox ++ wire = sender.accepted)
    (hFramed : (receiveView receiver pending peer).Framed split)
    (hHanded : Handed receiver queue)
    (hPosted : sender.payloads ++ queued = posted)
    (hFrames : Cut (stateless split) () posted.flatten frames rest ()) :
    queue.executed <+: frames := by
  have hReceived : receiver.received <+: posted.flatten := by
    have hAccepted : sender.accepted <+: sender.payloads.flatten := by
      have hAll : sender.accepted ++ conn.sendBuf.live = sender.payloads.flatten :=
        hConserves
      rw [← hAll]
      exact List.prefix_append _ _
    rw [← hPosted, List.flatten_append]
    rw [← hBytes] at hAccepted
    calc receiver.received
        <+: receiver.received ++ inbox := List.prefix_append _ _
      _ <+: receiver.received ++ inbox ++ wire := List.prefix_append _ _
      _ <+: sender.payloads.flatten := hAccepted
      _ <+: sender.payloads.flatten ++ queued.flatten := List.prefix_append _ _
  have hCut := Cut.frames_prefix hBounded hStable hFramed hFrames hReceived
  calc queue.executed
      <+: queue.pushed := hHanded.exact.executed_prefix
    _ = receiver.fragments := hHanded.pushed
    _ <+: receiver.fragments ++ fragmentsOf pending := List.prefix_append _ _
    _ <+: frames := hCut

theorem sessionExecuted_prefix (hBounded : BoundedSplit (stateless split))
    (hStable : PrefixStable split) {actions : List ConnectionAction}
    {s : Connection} (hRun : run (step split) start actions = some s)
    {frames : List (List UInt8)} {rest : List UInt8}
    (hFrames : Cut (stateless split) () (clientPosts actions).flatten frames rest ()) :
    s.sessionHeavy.executed <+: frames := by
  have hInv := coherent_of_run hBounded hStable hRun
  exact executed_prefix hBounded hStable hInv.client.conserves hInv.toSession
    hInv.sessionFramed hInv.sessionHanded (posts_of_run hRun).1 hFrames

theorem clientExecuted_prefix (hBounded : BoundedSplit (stateless split))
    (hStable : PrefixStable split) {actions : List ConnectionAction}
    {s : Connection} (hRun : run (step split) start actions = some s)
    {frames : List (List UInt8)} {rest : List UInt8}
    (hFrames : Cut (stateless split) () (sessionPosts actions).flatten frames rest ()) :
    s.clientHeavy.executed <+: frames := by
  have hInv := coherent_of_run hBounded hStable hRun
  exact executed_prefix hBounded hStable hInv.session.conserves hInv.toClient
    hInv.clientFramed hInv.clientHanded (posts_of_run hRun).2 hFrames

end Connection

end Net
end KZEvent
