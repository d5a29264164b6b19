import KZEvent.Net.UdpIntegrity
import Mathlib.Data.List.Perm.Basic

/-!
# How often a UDP client is answered

Where the network repeats nothing, a client is not given more datagrams than its
requests can have been answered with: everything on the way there is one of the
datagrams the client sent, and everything on the way back one of the answers to a call
of its sessions.

The datagrams are counted on the way there, at the turning point and on the way back;
each step moves one of them on or loses it.
-/

namespace KZEvent
namespace Net

open KZEvent.Core Foundation EventType

namespace UdpExchange

variable {Ctx : Type*}

/-- The datagrams of the client in the network and at the server. -/
def asking (names : UdpNames) (s : UdpExchange Ctx) : Nat :=
  s.wire.countP (fun datagram => names.ofClient datagram.sender) +
    s.serverQueue.countP (fun packet => names.ofClient packet.sender) +
    s.server.calls.countP fun made => names.clientSession made.session.source

/-- The calls made for the client. -/
def served (names : UdpNames) (s : UdpExchange Ctx) : Nat :=
  s.server.callsMade.countP fun made => names.clientSession made.session.source

/-- The replies posted for the client. -/
def answering (names : UdpNames) (s : UdpExchange Ctx) : Nat :=
  s.outbox.countP (fun reply => names.clientSession reply.2) +
    s.replies.pushed.countP fun reply => names.clientSession reply.2

/-- The replies for the client that were executed. -/
def answered (names : UdpNames) (s : UdpExchange Ctx) : Nat :=
  s.replies.executed.countP fun reply => names.clientSession reply.2

/-- The replies in the network and at the client. -/
def returning (names : UdpNames) (s : UdpExchange Ctx) : Nat :=
  s.wire.countP (fun datagram =>
      names.ofServer datagram.sender && names.reachesClient datagram.target) +
    s.client.arrived.countP fun packet => names.ofServer packet.sender

/-- Nothing is more than what it comes from. -/
structure Counted (names : UdpNames) (replies : Nat) (s : UdpExchange Ctx) :
    Prop where
  asking_le : s.asking names ≤ s.client.sent.length
  answering_le : s.answering names ≤ replies * s.served names
  returning_le : s.returning names ≤ s.answered names

/-- The network does not carry the datagram again. -/
def Once (_ : UdpExchange Ctx) : UdpExchangeAction → Prop
  | .carryToClient _ again => again = false
  | .carryToServer _ again => again = false
  | _ => True

instance (s : UdpExchange Ctx) : (action : UdpExchangeAction) →
    Decidable (s.Once action)
  | .carryToClient _ again => inferInstanceAs (Decidable (again = false))
  | .carryToServer _ again => inferInstanceAs (Decidable (again = false))
  | .client _ => .isTrue trivial
  | .server _ => .isTrue trivial
  | .serverReceive _ => .isTrue trivial
  | .executeHeavy => .isTrue trivial
  | .reply => .isTrue trivial
  | .serverIo _ _ => .isTrue trivial
  | .others _ => .isTrue trivial

variable {names : UdpNames} {std : StdHash}
  {bucketOf : List UdpEvent → UInt64 → Nat}
  {serve : Ctx → UdpCallback × List UInt8 → Ctx × List (List UInt8)} {ctx : Ctx}
  {s next : UdpExchange Ctx} {posted : List (List UInt8)} {replies : Nat}

/-- A datagram that is carried is taken out of the network. -/
theorem countP_remaining {index : Nat} {datagram : Datagram}
    (hSome : s.wire[index]? = some datagram) (p : Datagram → Bool) :
    (s.remaining index false).countP p + (p datagram).toNat = s.wire.countP p := by
  obtain ⟨hLess, rfl⟩ := List.getElem?_eq_some_iff.mp hSome
  have hPerm := (List.getElem_cons_eraseIdx_perm hLess).countP_eq p
  rw [← hPerm, List.countP_cons, remaining, if_neg Bool.false_ne_true]
  cases p s.wire[index] <;> rfl

/-- Counting one more. -/
theorem countP_concat {α : Type*} (p : α → Bool) (items : List α) (item : α) :
    (items ++ [item]).countP p = items.countP p + (p item).toNat := by
  rw [List.countP_append, List.countP_singleton]
  cases p item <;> rfl

theorem countP_filterMap_le {α β : Type*} {f : α → Option β} {p : β → Bool}
    {q : α → Bool} {items : List α}
    (hCounts : ∀ item ∈ items, ∀ image, f item = some image → p image = true →
      q item = true) : (items.filterMap f).countP p ≤ items.countP q := by
  rw [List.countP_filterMap]
  refine List.countP_mono_left fun item hMem hImage => ?_
  cases hSome : f item with
  | none => simp [hSome] at hImage
  | some image => exact hCounts item hMem image hSome (by simpa [hSome] using hImage)

theorem counted_start {localAddr source : InetAddr} {family : UInt16}
    {timeout : UInt64} {client : UdpClient} {server : UdpServer}
    (hClient : UdpClient.make localAddr source = some client)
    (hServer : UdpServer.make family timeout = some server) :
    (start client server ctx).Counted names replies := by
  obtain ⟨-, -, rfl⟩ := UdpClient.make_eq_some hClient
  obtain ⟨-, rfl⟩ := UdpServer.make_eq_some hServer
  exact ⟨Nat.zero_le _, Nat.zero_le _, Nat.zero_le _⟩

/-! ## The steps -/

theorem Counted.client_step (hCounted : s.Counted names replies)
    {action : UdpClientAction} {client : UdpClient} {sent : List (List UInt8)}
    (hOwn : action.own = true) (hStep : UdpClient.Stepped s.client action client)
    (hSent : client.sent = s.client.sent ++ sent) :
    Counted names replies
      { s with
        client := client
        wire := s.wire ++ sent.map fun data =>
          ⟨names.client, client.source.sockaddr, data⟩ } := by
  have hServer : names.ofServer names.client = false :=
    UdpNames.ofServer_of_ofClient UdpNames.ofClient_client
  have hAsking := hCounted.asking_le
  have hReturning := hCounted.returning_le
  simp only [asking, returning, answered] at hAsking hReturning
  refine ⟨?_, hCounted.answering_le, ?_⟩
  · simp only [asking, List.countP_append, List.countP_map, Function.comp_def,
      UdpNames.ofClient_client, List.countP_true, hSent, List.length_append]
    omega
  · simp only [returning, answered, List.countP_append, List.countP_map,
      Function.comp_def, hServer, Bool.false_and, List.countP_false,
      Function.const_apply, hStep.arrived_eq hOwn]
    omega

theorem Counted.server_received (hCounted : s.Counted names replies)
    (hTable : s.server.TableOk) {packet : Packet} {queue : List Packet} {now : Nat}
    {server : UdpServer} (hQueue : s.serverQueue = packet :: queue)
    (hStep : UdpServer.Stepped s.server
      (.receive packet.sender packet.data now) server) :
    Counted names replies { s with server := server, serverQueue := queue } := by
  obtain ⟨calls, hCalls, hFor⟩ := UdpServer.callsFor_received hTable hStep
  have hMade := UdpServer.callsMade_eq_of_stepped hStep (by simp)
  have hMoved : calls.countP (fun made =>
      names.clientSession made.session.source) ≤
        (names.ofClient packet.sender).toNat := by
    cases hFrom : names.ofClient packet.sender with
    | true => exact Nat.le_trans List.countP_le_length hFor.length_le
    | false =>
        refine Nat.le_of_eq (List.countP_eq_zero.mpr fun made hMem hSession => ?_)
        have hIsFrom := hFor.isFrom made hMem _ hSession
        rw [UdpNames.ofClient, hIsFrom] at hFrom
        cases hFrom
  have hAsking := hCounted.asking_le
  refine ⟨?_, ?_, hCounted.returning_le⟩
  · simp only [asking, hQueue, List.countP_cons] at hAsking ⊢
    rw [hCalls, List.countP_append]
    cases hFrom : names.ofClient packet.sender with
    | true =>
        simp only [hFrom, if_true, Bool.toNat_true] at hAsking hMoved
        omega
    | false =>
        simp only [hFrom, Bool.toNat_false] at hMoved
        omega
  · have hAnswering := hCounted.answering_le
    simp only [answering, served] at hAnswering ⊢
    rw [hMade]
    exact hAnswering

theorem Counted.server_plain (hCounted : s.Counted names replies)
    {action : UdpAction} {server : UdpServer} (hPlain : action.plain = true)
    (hStep : UdpServer.Stepped s.server action server) :
    Counted names replies { s with server := server } := by
  obtain ⟨hCalls, hMade⟩ := UdpServer.plain_step hPlain hStep
  have hAsking := hCounted.asking_le
  have hAnswering := hCounted.answering_le
  simp only [asking, answering, served] at hAsking hAnswering
  refine ⟨?_, ?_, hCounted.returning_le⟩
  · simp only [asking, hCalls]
    exact hAsking
  · simp only [answering, served, hMade]
    exact hAnswering

theorem Counted.execute_step (hCounted : s.Counted names replies)
    (hServe : ∀ ctx request, (serve ctx request).2.length ≤ replies)
    {heavy : DoubleBuffer HeavyTask} {task : HeavyTask} (hOutbox : s.outbox = [])
    (hNext : s.server.heavy.execute = some heavy)
    (hExecuted : heavy.executed = s.server.heavy.executed ++ [task]) :
    Counted names replies
      (UdpExchange.task serve
        { s with server := { s.server with heavy := heavy } } task) := by
  have hCalls : UdpServer.calls { s.server with heavy := heavy } = s.server.calls := by
    rw [UdpServer.calls, DoubleBuffer.execute_pushed hNext]
    rfl
  have hMade : UdpServer.callsMade { s.server with heavy := heavy } =
      s.server.callsMade ++ task.call?.toList := by
    show heavy.executed.filterMap _ = _
    rw [hExecuted, List.filterMap_append]
    cases task <;> rfl
  have hAsking := hCounted.asking_le
  have hAnswering := hCounted.answering_le
  simp only [asking, answering, served, hOutbox, List.countP_nil, Nat.zero_add]
    at hAsking hAnswering
  cases task with
  | user =>
      refine ⟨?_, ?_, hCounted.returning_le⟩
      · simp only [UdpExchange.task, asking, hCalls]
        exact hAsking
      · simp only [UdpExchange.task, answering, served, hMade, hOutbox,
          HeavyTask.call?, Option.toList_none, List.append_nil, List.countP_nil,
          Nat.zero_add]
        exact hAnswering
  | call made =>
      refine ⟨?_, ?_, hCounted.returning_le⟩
      · simp only [UdpExchange.task, callback, asking, hCalls]
        exact hAsking
      · have hLength := hServe (s.ctx made.session.id) (made.callback, made.data)
        simp only [UdpExchange.task, callback, answering, served, hMade,
          HeavyTask.call?, Option.toList_some, countP_concat, List.countP_map,
          Function.comp_def]
        cases hSession : names.clientSession made.session.source with
        | true =>
            simp only [List.countP_true, Bool.toNat_true, Nat.mul_add, Nat.mul_one]
            omega
        | false =>
            simp only [List.countP_false, Function.const_apply, Bool.toNat_false,
              Nat.add_zero, Nat.zero_add]
            exact hAnswering

theorem Counted.serverIo_step (hCounted : s.Counted names replies)
    (hIntact : s.Intact names serve ctx posted)
    {action : DoubleBuffer.ConsumerStep} {ret : SendtoRet}
    {queue : DoubleBuffer (List UInt8 × InetAddr)}
    {taken : List (List UInt8 × InetAddr)}
    (hConsume : s.replies.consume action = some queue)
    (hTaken : queue.executed = s.replies.executed ++ taken) :
    Counted names replies
      { s with
        replies := queue
        wire := s.wire ++ taken.filterMap (sendReply names ret) } := by
  obtain ⟨hExact, hPushed⟩ := hIntact.exact.consume hConsume
  have hNotClient : (taken.filterMap (sendReply names ret)).countP
      (fun datagram => names.ofClient datagram.sender) = 0 := by
    refine List.countP_eq_zero.mpr fun datagram hMem hClient => ?_
    obtain ⟨reply, -, hSent⟩ := List.mem_filterMap.mp hMem
    obtain rfl := sendReply_eq_some hSent
    rw [UdpNames.ofClient_server] at hClient
    cases hClient
  have hOwn : (taken.filterMap (sendReply names ret)).countP (fun datagram =>
      names.ofServer datagram.sender && names.reachesClient datagram.target) ≤
        taken.countP fun reply => names.clientSession reply.2 := by
    refine countP_filterMap_le fun reply hMem datagram hSent hBoth => ?_
    obtain rfl := sendReply_eq_some hSent
    obtain ⟨-, hReaches⟩ := Bool.and_eq_true_iff.mp hBoth
    refine UdpNames.clientSession_of_reaches (hIntact.opened reply ?_) hReaches
    refine List.mem_append_right _ ?_
    rw [← hPushed]
    refine hExact.executed_prefix.subset ?_
    rw [hTaken]
    exact List.mem_append_right _ hMem
  have hAsking := hCounted.asking_le
  have hAnswering := hCounted.answering_le
  have hReturning := hCounted.returning_le
  simp only [asking, answering, returning, answered] at hAsking hAnswering hReturning
  refine ⟨?_, ?_, ?_⟩
  · simp only [asking, List.countP_append, hNotClient]
    omega
  · simp only [answering, hPushed]
    exact hAnswering
  · simp only [returning, answered, List.countP_append, hTaken]
    omega

theorem Counted.step (hCounted : s.Counted names replies)
    (hIntact : s.Intact names serve ctx posted)
    (hServe : ∀ ctx request, (serve ctx request).2.length ≤ replies)
    {action : UdpExchangeAction} (hOnce : s.Once action)
    (hStep : Stepped names std bucketOf serve s action next) :
    next.Counted names replies := by
  have hAsking := hCounted.asking_le
  have hAnswering := hCounted.answering_le
  have hReturning := hCounted.returning_le
  simp only [asking, answering, returning, answered] at hAsking hAnswering hReturning
  cases hStep with
  | client hOwn hClient hSent => exact hCounted.client_step hOwn hClient hSent
  | server hPlain hServer => exact hCounted.server_plain hPlain hServer
  | dropped hQueue hNone =>
      refine ⟨?_, hCounted.answering_le, hCounted.returning_le⟩
      simp only [asking, hQueue, List.countP_cons] at hAsking ⊢
      omega
  | received hQueue hServer =>
      exact hCounted.server_received hIntact.server.table hQueue hServer
  | executeHeavy hOutbox hHeavy hExecuted =>
      exact hCounted.execute_step hServe hOutbox hHeavy hExecuted
  | reply hOutbox =>
      refine ⟨hCounted.asking_le, ?_, hCounted.returning_le⟩
      simp only [answering, hOutbox, List.countP_cons, DoubleBuffer.push,
        List.countP_append, List.countP_nil] at hAnswering ⊢
      exact Nat.le_trans (Nat.le_of_eq (by omega)) hAnswering
  | serverIo hConsume hTaken =>
      exact hCounted.serverIo_step hIntact hConsume hTaken
  | others hClient hServer =>
      refine ⟨?_, hCounted.answering_le, ?_⟩
      · simp only [asking, countP_concat, hClient, Bool.toNat_false, Nat.add_zero]
        exact hAsking
      · simp only [returning, countP_concat, hServer, Bool.false_and,
          Bool.toNat_false, Nat.add_zero]
        exact hReturning
  | carryToClient hSome hReaches =>
      rename_i index again datagram
      obtain rfl : again = false := hOnce
      have hThere := countP_remaining hSome fun datagram =>
        names.ofClient datagram.sender
      have hBack := countP_remaining hSome fun datagram =>
        names.ofServer datagram.sender && names.reachesClient datagram.target
      simp only [hReaches, Bool.and_true] at hBack
      refine ⟨?_, hCounted.answering_le, ?_⟩
      · simp only [asking]
        omega
      · simp only [returning, countP_concat, answered]
        omega
  | carryToServer hSome hReaches =>
      rename_i index again datagram
      obtain rfl : again = false := hOnce
      have hThere := countP_remaining hSome fun datagram =>
        names.ofClient datagram.sender
      have hBack := countP_remaining hSome fun datagram =>
        names.ofServer datagram.sender && names.reachesClient datagram.target
      refine ⟨?_, hCounted.answering_le, ?_⟩
      · simp only [asking, countP_concat]
        omega
      · simp only [returning, answered]
        omega

/-! ## The count -/

/-- A client makes no more calls than datagrams have come from its peer. -/
theorem callsMade_length_le {client : UdpClient} (hKept : client.Kept posted)
    (hSource : client.source.eq names.serverAddr = true) :
    client.callsMade.length ≤
      client.arrived.countP fun packet => names.ofServer packet.sender := by
  obtain ⟨consumed, hArrived, hHanded⟩ := hKept.received
  have hWanted : client.wanted.length ≤
      (client.handed.map fun handed => (handed.data, handed.source)).countP
        fun read => read.2.eq client.source := by
    rw [UdpClient.wanted, List.length_map, ← List.countP_eq_length_filter,
      List.countP_map]
    exact List.countP_mono_left fun handed _ hWants =>
      (Bool.and_eq_true_iff.mp hWants).2
  have hFrom : (consumed.filterMap Packet.read?).countP
      (fun read => read.2.eq client.source) ≤
        consumed.countP fun packet => names.ofServer packet.sender := by
    refine countP_filterMap_le fun packet _ read hRead hEq => ?_
    obtain ⟨source, hDecoded, rfl⟩ := Option.map_eq_some_iff.mp hRead
    rw [UdpNames.ofServer, Sockaddr.isFrom, hDecoded, Option.any_some]
    exact InetAddr.eq_trans hEq hSource
  have hLength := hKept.callsMade_prefix.length_le
  rw [hHanded] at hWanted
  rw [hArrived, List.countP_append]
  omega

/-- **A client is answered at most as often as it asks.**  Where the network carries
each datagram once, and no call of the server's callbacks posts more than `replies`
replies, `read_cb_` of the client is called at most `replies` times for each datagram
the client posted, whatever is lost or reordered, and whatever others send from
addresses equal neither to the client's nor to the server's. -/
theorem client_answered_at_most {localAddr source : InetAddr} {family : UInt16}
    {timeout : UInt64} {client : UdpClient} {server : UdpServer}
    {actions : List UdpExchangeAction}
    (hClient : UdpClient.make localAddr source = some client)
    (hServer : UdpServer.make family timeout = some server)
    (hSource : source.eq names.serverAddr = true)
    (hServe : ∀ ctx request, (serve ctx request).2.length ≤ replies)
    (hOnce : Guarded (UdpExchange.step names std bucketOf serve) Once
      (start client server ctx) actions)
    (hRun : run (UdpExchange.step names std bucketOf serve)
      (start client server ctx) actions = some s) :
    s.client.callsMade.length ≤ replies * (requests actions).length := by
  have hStep (state : UdpExchange Ctx) (action : UdpExchangeAction)
      (next : UdpExchange Ctx)
      (hInv : (∃ posted, state.Intact names serve ctx posted) ∧
        state.Counted names replies)
      (hOnce : state.Once action)
      (hNext : UdpExchange.step names std bucketOf serve state action = some next) :
      (∃ posted, next.Intact names serve ctx posted) ∧
        next.Counted names replies := by
    obtain ⟨⟨posted, hIntact⟩, hCounted⟩ := hInv
    exact ⟨⟨_, hIntact.step (stepped hNext)⟩,
      hCounted.step hIntact hServe hOnce (stepped hNext)⟩
  obtain ⟨-, hCounted⟩ := run_invariant hStep
    ⟨⟨[], intact_start hClient hServer hSource⟩, counted_start hClient hServer⟩
    hOnce hRun
  have hIntact := intact_of_run hClient hServer hSource hRun
  have hCalls : s.client.callsMade.length ≤ s.returning names :=
    Nat.le_trans (callsMade_length_le hIntact.client hIntact.source)
      (Nat.le_add_left _ _)
  have hAnswered : s.answered names ≤ s.answering names :=
    Nat.le_trans (hIntact.exact.executed_prefix.sublist.countP_le)
      (Nat.le_add_left _ _)
  have hServed : s.served names ≤ s.asking names :=
    Nat.le_trans
      ((hIntact.heavy.executed_prefix.filterMap _).sublist.countP_le)
      (Nat.le_add_left _ _)
  have hSent : s.client.sent.length ≤ (requests actions).length := by
    rw [← hIntact.client.posted]
    exact Nat.le_trans hIntact.client.sent.length_le
      hIntact.client.io.executed_prefix.length_le
  calc s.client.callsMade.length
      ≤ s.answered names := Nat.le_trans hCalls hCounted.returning_le
    _ ≤ replies * s.served names := Nat.le_trans hAnswered hCounted.answering_le
    _ ≤ replies * (requests actions).length :=
        Nat.mul_le_mul_left _
          (Nat.le_trans hServed (Nat.le_trans hCounted.asking_le hSent))

/-- The callbacks of the UDP example reply at most once. -/
theorem length_exampleCallbacks (ctx : Option (List UInt8))
    (request : UdpCallback × List UInt8) :
    (exampleCallbacks ctx request).2.length ≤ 1 := by
  obtain ⟨callback, data⟩ := request
  cases callback with
  | newSession => exact Nat.le_refl 1
  | read =>
      cases ctx with
      | none => exact Nat.zero_le 1
      | some ctx =>
          rw [exampleCallbacks]
          split
          · exact Nat.zero_le 1
          · exact Nat.le_refl 1

/-- A client of the UDP example posts `AAA`, `BBB` and `GET`.  The network loses one of
them and exchanges the others, so that `GET` opens the session. -/
theorem client_answered_at_most_example :
    let std : StdHash := ⟨UInt16.toUInt64, UInt32.toUInt64, fun _ => 0⟩
    let step := UdpExchange.step loopbackNames std (fun _ _ => 0) exampleCallbacks
    let actions : List UdpExchangeAction :=
      [.client (.setReadCb true), .server (.setNewSessionCb true),
        .server (.setReadCb true), .client (.postSendTask [65, 65, 65]),
        .client (.postSendTask [66, 66, 66]), .client (.postSendTask GET),
        .client (.io .swap .sent), .client (.io .execute .sent),
        .client (.io .execute .sent), .client (.io .execute .sent),
        .carryToServer 2 false, .carryToServer 0 false, .serverReceive 0,
        .serverReceive 0, .server .swapHeavy, .executeHeavy, .reply, .executeHeavy,
        .serverIo .swap .sent, .serverIo .execute .sent, .carryToClient 1 false,
        .client (.dispatch kRead 1 EAGAIN 0), .client (.heavy .swap),
        .client (.heavy .execute)]
    ∃ client server s,
      UdpClient.make loopbackNames.clientAddr loopbackNames.serverAddr = some client ∧
      UdpServer.make AF_INET 1 = some server ∧
      run step (start client server none) actions = some s ∧
      s.client.callsMade = [NEW] ∧
      s.client.callsMade.length ≤ 1 * (requests actions).length := by
  intro std step actions
  have hOutcome : (UdpClient.make loopbackNames.clientAddr
      loopbackNames.serverAddr).any (fun client =>
        (UdpServer.make AF_INET 1).any fun server =>
          decide (Guarded step Once (start client server none) actions) &&
          (run step (start client server none) actions).any fun s => decide
            (s.client.callsMade = [NEW])) = true := by
    decide +kernel
  obtain ⟨client, hClient, hRest⟩ := (Option.any_eq_true _ _).mp hOutcome
  obtain ⟨server, hServer, hRest⟩ := (Option.any_eq_true _ _).mp hRest
  obtain ⟨hOnce, hRest⟩ := Bool.and_eq_true_iff.mp hRest
  obtain ⟨s, hRun, hView⟩ := (Option.any_eq_true _ _).mp hRest
  have hAtMost := client_answered_at_most hClient hServer (by decide +kernel)
    length_exampleCallbacks (of_decide_eq_true hOnce) hRun
  exact ⟨client, server, s, hClient, hServer, hRun, of_decide_eq_true hView, hAtMost⟩

end UdpExchange
end Net
end KZEvent
