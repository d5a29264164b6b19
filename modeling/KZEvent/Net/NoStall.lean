import KZEvent.Net.Attention

/-!
# Nothing is left behind

When nothing moves any more, in the kernel, in the io queues and on the heavy threads,
everything that was posted has been delivered.  Without attentive endpoints a
connection could come to rest with bytes in an inbox or in a send buffer.
-/

namespace KZEvent
namespace Net

open KZEvent.Core Foundation EventType

/-- Nothing is on the way, nothing is to be reported, and there is room. -/
structure SocketEnd.Quiet (e : SocketEnd) : Prop where
  wire : e.wire = []
  writable : e.writable = true
  ready : e.ready = false
  reported : e.reported = none

instance (e : SocketEnd) : Decidable e.Quiet :=
  decidable_of_iff
    (e.wire = [] ∧ e.writable = true ∧ e.ready = false ∧ e.reported = none)
    ⟨fun h => ⟨h.1, h.2.1, h.2.2.1, h.2.2.2⟩,
      fun h => ⟨h.wire, h.writable, h.ready, h.reported⟩⟩

namespace Connection

variable {split : List UInt8 → Int}

/-- Nothing moves unless somebody posts again.  Before the session is accepted its two
queued tasks, `register_fd` and the first `enable_fd`, keep the connection unquiet. -/
structure Quiet (s : Connection) : Prop where
  clientIdle : s.client.pending = []
  clientTasks : s.client.ioQueue = []
  clientEnd : s.clientEnd.Quiet
  clientHeavy : s.clientHeavy.Done
  sessionIdle : s.session.pending = []
  sessionTasks : s.session.ioQueue = []
  sessionEnd : s.sessionEnd.Quiet
  sessionHeavy : s.sessionHeavy.Done

instance (s : Connection) : Decidable s.Quiet :=
  decidable_of_iff
    ((s.client.pending = [] ∧ s.client.ioQueue = [] ∧ s.clientEnd.Quiet ∧
        s.clientHeavy.Done) ∧
      s.session.pending = [] ∧ s.session.ioQueue = [] ∧ s.sessionEnd.Quiet ∧
        s.sessionHeavy.Done)
    ⟨fun ⟨⟨h₁, h₂, h₃, h₄⟩, h₅, h₆, h₇, h₈⟩ => ⟨h₁, h₂, h₃, h₄, h₅, h₆, h₇, h₈⟩,
      fun h => ⟨⟨h.clientIdle, h.clientTasks, h.clientEnd, h.clientHeavy⟩,
        h.sessionIdle, h.sessionTasks, h.sessionEnd, h.sessionHeavy⟩⟩

/-- Both endpoints miss nothing, and what happens to the connection before there is a
session happens in order. -/
structure Watchful (s : Connection) : Prop where
  client : s.client.Attentive s.clientEnd
  session : s.session.Attentive s.sessionEnd
  untouched : s.accepted = false → s.session = .accepted ()
  accepted : s.accepted = true → s.established = true
  begun : s.established = true → s.client.connected ≠ .kDisconnected

theorem watchful_start : Watchful start where
  client := StreamClient.attentive_make _
  session := StreamSession.attentive_accepted _
  untouched := fun _ => rfl
  accepted := fun hTrue => by cases hTrue
  begun := fun hTrue => by cases hTrue

theorem watchful_step (s : Connection) (action : ConnectionAction)
    (next : Connection) (hInv : Coherent split s ∧ Watchful s)
    (hStep : step split s action = some next) : Watchful next := by
  obtain ⟨hCoherent, hWatchful⟩ := hInv
  cases stepped hStep with
  | client hFlow hServed hClient =>
      exact
        { hWatchful with
          client := StreamClient.attentive_step hCoherent.client hWatchful.client
            hFlow hServed hClient
          begun := fun hEstablished => StreamClient.connected_ne_step hFlow hClient
            (hWatchful.begun hEstablished) }
  | session hAccepted hFlow hServed hSession =>
      exact
        { hWatchful with
          session := StreamSession.attentive_step hCoherent.session
            hWatchful.session hFlow hServed hSession
          untouched := fun hNot => by
            rw [show s.accepted = false from hNot] at hAccepted
            cases hAccepted }
  | establish hNot hConnecting =>
      exact
        { hWatchful with
          client := { hWatchful.client with
            alert := hWatchful.client.alert.makeRoom }
          accepted := fun _ => rfl
          begun := fun _ => by
            show s.client.connected ≠ .kDisconnected
            rw [hConnecting]
            exact fun hEq => by cases hEq }
  | accept hEstablished hNot =>
      exact
        { hWatchful with
          untouched := fun hFalse => by cases hFalse
          accepted := fun _ => hEstablished }
  | carryToSession hSome hCount =>
      exact
        { hWatchful with
          client := { hWatchful.client with
            alert := { hWatchful.client.alert with } }
          session := { hWatchful.session with
            alert := hWatchful.session.alert.arrive _ } }
  | carryToClient hSome hCount =>
      exact
        { hWatchful with
          client := { hWatchful.client with
            alert := hWatchful.client.alert.arrive _ }
          session := { hWatchful.session with
            alert := { hWatchful.session.alert with } } }
  | clientRoom hEstablished hFull =>
      exact
        { hWatchful with
          client := { hWatchful.client with
            alert := hWatchful.client.alert.makeRoom } }
  | sessionRoom hFull =>
      exact
        { hWatchful with
          session := { hWatchful.session with
            alert := hWatchful.session.alert.makeRoom } }
  | clientWait hIdle hReady hNone =>
      exact
        { hWatchful with
          client := { hWatchful.client with
            alert := SocketEnd.alert_report _ _ _ _ } }
  | sessionWait hIdle hReady hNone =>
      exact
        { hWatchful with
          session := { hWatchful.session with
            alert := SocketEnd.alert_report _ _ _ _ } }
  | clientHeavy hConsume => exact { hWatchful with }
  | sessionHeavy hConsume => exact { hWatchful with }

theorem watchful_of_run (hBounded : BoundedSplit (stateless split))
    (hStable : PrefixStable split) {actions : List ConnectionAction}
    {s : Connection} (hRun : run (step split) start actions = some s) :
    Coherent split s ∧ Watchful s := by
  have hKeeps (state : Connection) (action : ConnectionAction) (next : Connection)
      (hInv : Coherent split state ∧ Watchful state)
      (hStep : step split state action = some next) :
      Coherent split next ∧ Watchful next :=
    ⟨coherent_step hBounded hStable state action next hInv.1 hStep,
      watchful_step state action next hInv hStep⟩
  exact run_keeps hKeeps ⟨coherent_start hBounded, watchful_start⟩ hRun

/-! ## A quiet connection -/

section Quiet

variable {s : Connection}

/-- A quiet client is connected: its attempt does not rest before its end. -/
theorem Quiet.connected (hQuiet : s.Quiet) (hWatchful : Watchful s) :
    s.client.connected = .kConnected := by
  have hSession : s.accepted = true := by
    by_contra hNot
    have hTasks := hQuiet.sessionTasks
    rw [hWatchful.untouched (by simpa using hNot)] at hTasks
    cases hTasks
  have hBegun := hWatchful.begun (hWatchful.accepted hSession)
  by_contra hNot
  have hConnecting : s.client.connected = .kConnecting := by
    cases hState : s.client.connected with
    | kDisconnected => exact absurd hState hBegun
    | kConnecting => rfl
    | kConnected => exact absurd hState hNot
  -- the detection is installed, and room for sending is what it waits for
  have hWaits := hWatchful.client.detecting hConnecting
  rw [StreamClient.settled, hQuiet.clientTasks, StreamClient.streamTasks_nil,
    FdSlot.drain_nil] at hWaits
  rcases hWatchful.client.alert.writes (.inr hNot) hQuiet.clientEnd.writable hWaits
    with hNoticed | hArming
  · exact SocketEnd.not_noticed hQuiet.clientEnd.ready hQuiet.clientEnd.reported
      hNoticed
  · rw [StreamClient.Arming, hQuiet.clientTasks, hQuiet.clientIdle] at hArming
    rcases hArming with ⟨task, hMem, -⟩ | hRequest
    · cases hMem
    · exact hRequest rfl

/-- An end that waits for input, and for room where it needs it, has neither input
nor anything to send when it is quiet. -/
theorem quiet_end {Cb : Type*} {conn : StreamConn} {slot : FdSlot Cb} {e : SocketEnd}
    {busy arming : Prop} (hWaits : Waits conn slot)
    (hAlert : e.Alert slot.interest busy arming)
    (hBusy : conn.sendBuf.live ≠ [] → busy) (hCalm : ¬ arming) (hQuiet : e.Quiet) :
    e.inbox = [] ∧ conn.sendBuf.live = [] := by
  have hUnnoticed (flag : EpollEvents) : ¬ (e.Noticed flag ∨ arming) := by
    rintro (hNoticed | hArming)
    · exact SocketEnd.not_noticed hQuiet.ready hQuiet.reported hNoticed
    · exact hCalm hArming
  have hInterest := hWaits.follows.interest
  constructor
  · by_contra hInbox
    refine hUnnoticed _ (hAlert.reads hInbox ?_)
    rw [hInterest]
    show hasFlag conn.channel.interest EPOLLIN = true
    rw [ChannelInfo.interest, hasFlag_EPOLLIN]
    exact hWaits.reads
  · by_contra hLeft
    refine hUnnoticed _ (hAlert.writes (hBusy hLeft) hQuiet.writable ?_)
    rw [hInterest]
    show hasFlag conn.channel.interest EPOLLOUT = true
    rw [ChannelInfo.interest, hasFlag_EPOLLOUT]
    exact hWaits.writes hLeft

theorem Quiet.client (hQuiet : s.Quiet) (hCoherent : Coherent split s)
    (hWatchful : Watchful s) :
    s.clientEnd.inbox = [] ∧ s.client.conn.sendBuf.live = [] := by
  have hConnected := hQuiet.connected hWatchful
  have hWaits := hCoherent.client.waits_settled hQuiet.clientIdle hConnected
  rw [StreamClient.settled, hQuiet.clientTasks, StreamClient.streamTasks_nil,
    FdSlot.drain_nil] at hWaits
  refine quiet_end hWaits hWatchful.client.alert .inl ?_ hQuiet.clientEnd
  rw [StreamClient.Arming, hQuiet.clientTasks, hQuiet.clientIdle]
  rintro (⟨task, hMem, -⟩ | hRequest)
  · cases hMem
  · exact hRequest rfl

theorem Quiet.session (hQuiet : s.Quiet) (hCoherent : Coherent split s)
    (hWatchful : Watchful s) :
    s.sessionEnd.inbox = [] ∧ s.session.conn.sendBuf.live = [] := by
  have hWaits := hCoherent.session.waits
  rw [StreamSession.foreseen_of_idle hQuiet.sessionIdle, StreamSession.settled,
    hQuiet.sessionTasks] at hWaits
  refine quiet_end hWaits hWatchful.session.alert id ?_ hQuiet.sessionEnd
  rw [StreamSession.Arming, hQuiet.sessionTasks, hQuiet.sessionIdle]
  rintro (⟨task, hMem, -⟩ | hRequest)
  · cases hMem
  · exact hRequest rfl

/-- One direction: with nothing left on any of its stages, what was executed is the
cut of what was posted. -/
theorem executed_eq {sender receiver : Traffic} {pending : List Effect}
    {conn peer : StreamConn} {posted frames : List (List UInt8)}
    {rest : List UInt8} {queue : DoubleBuffer (List UInt8)}
    (hConserves : sender.Conserves [] conn) (hSent : conn.sendBuf.live = [])
    (hBytes : receiver.received ++ [] ++ [] = sender.accepted)
    (hFramed : (receiveView receiver pending peer).Framed split)
    (hIdle : pending = []) (hHanded : Handed receiver queue) (hDone : queue.Done)
    (hPosted : sender.payloads ++ [] = posted)
    (hFrames : Cut (stateless split) () posted.flatten frames rest ()) :
    queue.executed = frames ∧ peer.recvBuf.live = rest := by
  have hAccepted : sender.accepted ++ conn.sendBuf.live =
      sender.payloads.flatten := hConserves
  rw [hSent, List.append_nil] at hAccepted
  have hReceived : receiver.received = posted.flatten := by
    rw [← hPosted, List.append_nil, ← hAccepted, ← hBytes, List.append_nil,
      List.append_nil]
  rw [← hReceived] at hFrames
  obtain ⟨hSame, hLeft⟩ := Cut.unique hFramed hFrames
  refine ⟨?_, hLeft⟩
  rw [hHanded.exact.executed_eq hDone.idle hDone.buffer, hHanded.pushed, ← hSame]
  simp [receiveView, hIdle, fragmentsOf]

theorem Quiet.toSession (hBounded : BoundedSplit (stateless split))
    (hStable : PrefixStable split) {actions : List ConnectionAction}
    (hRun : run (step split) start actions = some s) (hQuiet : s.Quiet)
    {frames : List (List UInt8)} {rest : List UInt8}
    (hFrames : Cut (stateless split) () (clientPosts actions).flatten frames rest ()) :
    s.sessionHeavy.executed = frames ∧ s.session.conn.recvBuf.live = rest := by
  obtain ⟨hCoherent, hWatchful⟩ := watchful_of_run hBounded hStable hRun
  have hBytes := hCoherent.toSession
  rw [(hQuiet.session hCoherent hWatchful).1, hQuiet.clientEnd.wire] at hBytes
  have hPosts := (posts_of_run hRun).1
  rw [StreamClient.posted, hQuiet.clientTasks] at hPosts
  exact executed_eq hCoherent.client.conserves
    (hQuiet.client hCoherent hWatchful).2 hBytes hCoherent.sessionFramed
    hQuiet.sessionIdle hCoherent.sessionHanded hQuiet.sessionHeavy hPosts hFrames

theorem Quiet.toClient (hBounded : BoundedSplit (stateless split))
    (hStable : PrefixStable split) {actions : List ConnectionAction}
    (hRun : run (step split) start actions = some s) (hQuiet : s.Quiet)
    {frames : List (List UInt8)} {rest : List UInt8}
    (hFrames : Cut (stateless split) () (sessionPosts actions).flatten frames rest ()) :
    s.clientHeavy.executed = frames ∧ s.client.conn.recvBuf.live = rest := by
  obtain ⟨hCoherent, hWatchful⟩ := watchful_of_run hBounded hStable hRun
  have hBytes := hCoherent.toClient
  rw [(hQuiet.client hCoherent hWatchful).1, hQuiet.sessionEnd.wire] at hBytes
  have hPosts := (posts_of_run hRun).2
  rw [StreamSession.posted, hQuiet.sessionTasks] at hPosts
  exact executed_eq hCoherent.session.conserves
    (hQuiet.session hCoherent hWatchful).2 hBytes hCoherent.clientFramed
    hQuiet.clientIdle hCoherent.clientHanded hQuiet.clientHeavy hPosts hFrames

end Quiet

end Connection

end Net
end KZEvent
