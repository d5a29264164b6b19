import KZEvent.Net.UdpExchange

/-!
# What a UDP client is given

Whatever the network does, and whatever others send from addresses that are equal
neither to the client's nor to the server's, each datagram a client is given is an
answer of one of its own sessions: the callbacks of that session were called with
datagrams the client posted, and with none of anybody else.

The invariant follows the datagrams once around: those of the client in the network,
in the queue of the server, in the calls of its sessions, the contexts and replies
these calls lead to, and the replies on their way back.
-/

namespace KZEvent
namespace Net

open KZEvent.Core Foundation EventType

/-! ## Steps of the server -/

namespace UdpServer

variable {s next : UdpServer}

theorem exact_step {action : UdpAction} (hExact : s.heavy.Exact)
    (hStep : Stepped s action next) : next.heavy.Exact := by
  cases hStep with
  | receive hSource hFamily hClock hRead => exact hRead.keeps.2 hExact
  | postHeavyTask => exact hExact.push _
  | swapHeavy hIdle => exact hExact.swap hIdle
  | executeHeavy hNext => exact hExact.execute hNext
  | clearHeavy hEnd => exact hExact.clear hEnd
  | setNewSessionCb => exact hExact
  | setReadCb => exact hExact
  | scan => exact hExact

/-- Any other step than a task of the heavy thread makes no call. -/
theorem callsMade_eq_of_stepped {action : UdpAction} (hStep : Stepped s action next)
    (hOther : action ≠ .executeHeavy) : next.callsMade = s.callsMade := by
  cases hStep with
  | receive hSource hFamily hClock hRead => cases hRead <;> rfl
  | executeHeavy => exact absurd rfl hOther
  | setNewSessionCb => rfl
  | setReadCb => rfl
  | scan => rfl
  | postHeavyTask => rfl
  | swapHeavy => rfl
  | clearHeavy => rfl

/-- A plain step neither posts nor makes a call. -/
theorem plain_step {action : UdpAction} (hPlain : action.plain = true)
    (hStep : Stepped s action next) :
    next.calls = s.calls ∧ next.callsMade = s.callsMade := by
  constructor
  · refine calls_eq_of_stepped hStep ?_
    rintro sender data now rfl
    cases hPlain
  · refine callsMade_eq_of_stepped hStep ?_
    rintro rfl
    cases hPlain

/-- The calls posted for a datagram: with its data, and of a session with an equal
source. -/
structure CallsFor (sender : Sockaddr) (data : List UInt8) (calls : List UdpCall) :
    Prop where
  length_le : calls.length ≤ 1
  data_eq : ∀ made ∈ calls, made.data = data
  isFrom : ∀ made ∈ calls, ∀ addr, made.session.source.eq addr = true →
    sender.isFrom addr = true

theorem callsFor_received {sender : Sockaddr} {data : List UInt8} {now : Nat}
    (hTable : s.TableOk) (hStep : Stepped s (.receive sender data now) next) :
    ∃ calls, next.calls = s.calls ++ calls ∧ CallsFor sender data calls := by
  cases hStep with
  | @receive _ source _ _ next hSource hFamily hClock hRead =>
      have hFrom {addr : InetAddr} (hEq : source.eq addr = true) :
          sender.isFrom addr = true := by
        rw [Sockaddr.isFrom, hSource, Option.any_some]
        exact hEq
      have hOne (made : UdpCall) (hData : made.data = data)
          (hMade : ∀ addr, made.session.source.eq addr = true →
            source.eq addr = true) : CallsFor sender data [made] :=
        { length_le := Nat.le_refl 1
          data_eq := List.forall_mem_singleton.mpr hData
          isFrom := List.forall_mem_singleton.mpr fun addr hEq =>
            hFrom (hMade addr hEq) }
      cases hRead with
      | ignored =>
          exact ⟨[], (List.append_nil _).symm, Nat.zero_le 1,
            List.forall_mem_nil _, List.forall_mem_nil _⟩
      | opened hNone =>
          exact ⟨_, calls_post _ _, hOne _ rfl fun addr hEq => hEq⟩
      | continued hFound =>
          refine ⟨_, calls_post _ _, hOne _ rfl fun addr hEq => ?_⟩
          obtain ⟨hMem, hKey⟩ := HashTable.mem_of_lookup hFound
          have hSource := hTable.source_eq _ hMem
          exact InetAddr.eq_trans (InetAddr.eq_symm hKey) (hSource ▸ hEq)

end UdpServer

namespace UdpNames

variable {names : UdpNames}

/-- Nobody is both. -/
theorem ofServer_of_ofClient {sender : Sockaddr}
    (hClient : names.ofClient sender = true) : names.ofServer sender = false := by
  rw [Bool.eq_false_iff]
  intro hServer
  obtain ⟨source, hSource, hEq⟩ := (Option.any_eq_true _ _).mp hClient
  obtain ⟨other, hOther, hEq'⟩ := (Option.any_eq_true _ _).mp hServer
  obtain rfl := Option.some.inj (hSource.symm.trans hOther)
  have hSame := InetAddr.eq_trans (InetAddr.eq_symm hEq) hEq'
  rw [names.distinct] at hSame
  cases hSame

theorem ofClient_client : names.ofClient names.client = true := by
  obtain ⟨i, hIdent⟩ := (InetAddr.decoded names.client_decoded).ident
  rw [ofClient, Sockaddr.isFrom, names.client_decoded, Option.any_some]
  exact InetAddr.eq_self_of_ident hIdent

theorem ofServer_server : names.ofServer names.server = true := by
  obtain ⟨i, hIdent⟩ := (InetAddr.decoded names.server_decoded).ident
  rw [ofServer, Sockaddr.isFrom, names.server_decoded, Option.any_some]
  exact InetAddr.eq_self_of_ident hIdent

theorem ofClient_server : names.ofClient names.server = false := by
  rw [Bool.eq_false_iff]
  intro hClient
  have hServer := ofServer_of_ofClient hClient
  rw [ofServer_server] at hServer
  cases hServer

/-- What reaches the client was sent in one of its sessions. -/
theorem clientSession_of_reaches {source : InetAddr}
    (hDecoded : ∃ opener, InetAddr.makeFromSockaddr (some opener) = some source)
    (hReaches : names.reachesClient source.sockaddr = true) :
    names.clientSession source = true := by
  obtain ⟨opener, hOpener⟩ := hDecoded
  exact InetAddr.eq_of_kernelAddr_eq hOpener names.client_decoded
    names.client_family (of_decide_eq_true hReaches)

end UdpNames

namespace UdpClient

/-- The client's own steps leave alone what arrived. -/
theorem Stepped.arrived_eq {s next : UdpClient} {action : UdpClientAction}
    (hStep : Stepped s action next) (hOwn : action.own = true) :
    next.arrived = s.arrived := by
  cases hStep with
  | arrive => cases hOwn
  | dispatch hQueue hMade hCalled => exact hCalled.arrived
  | setReadCb => rfl
  | setErrorCb => rfl
  | postSendTask => rfl
  | postHeavyTask => rfl
  | io => rfl
  | heavy => rfl

/-- A datagram given to `read_cb_` has arrived from `source_`. -/
theorem Kept.exists_arrived {s : UdpClient} {posted : List (List UInt8)}
    (hKept : s.Kept posted) {data : List UInt8} (hMem : data ∈ s.callsMade) :
    ∃ packet ∈ s.arrived, packet.data = data ∧
      packet.sender.isFrom s.source = true := by
  obtain ⟨handed, hHanded, rfl⟩ :=
    List.mem_map.mp (hKept.callsMade_prefix.subset hMem)
  obtain ⟨hIn, hWants⟩ := List.mem_filter.mp hHanded
  obtain ⟨-, hSource⟩ := Bool.and_eq_true_iff.mp hWants
  obtain ⟨consumed, hArrived, hRead⟩ := hKept.received
  have hPair : (handed.data, handed.source) ∈ consumed.filterMap Packet.read? :=
    hRead ▸ List.mem_map_of_mem hIn
  obtain ⟨packet, hPacket, hDecoded⟩ := List.mem_filterMap.mp hPair
  obtain ⟨source, hMade, hPairEq⟩ := Option.map_eq_some_iff.mp hDecoded
  obtain ⟨hData, rfl⟩ := Prod.mk.inj hPairEq
  refine ⟨packet, hArrived ▸ List.mem_append_left _ hPacket, hData, ?_⟩
  rw [Sockaddr.isFrom, hMade, Option.any_some]
  exact hSource

end UdpClient

/-! ## The invariant -/

namespace UdpExchange

variable {Ctx : Type*}

/-- The calls made for a session. -/
def asked (s : UdpExchange Ctx) (id : Nat) : List (UdpCallback × List UInt8) :=
  (s.server.callsMade.filter fun made => made.session.id = id).map fun made =>
    (made.callback, made.data)

/-- An answer of a session with the client, to the calls made for that session. -/
def AnswersOwn (names : UdpNames)
    (serve : Ctx → UdpCallback × List UInt8 → Ctx × List (List UInt8)) (ctx : Ctx)
    (s : UdpExchange Ctx) (data : List UInt8) : Prop :=
  ∃ made ∈ s.server.callsMade, names.clientSession made.session.source = true ∧
    data ∈ answers serve ctx (s.asked made.session.id)

structure Intact (names : UdpNames)
    (serve : Ctx → UdpCallback × List UInt8 → Ctx × List (List UInt8)) (ctx : Ctx)
    (s : UdpExchange Ctx) (posted : List (List UInt8)) : Prop where
  client : s.client.Kept posted
  source : s.client.source.eq names.serverAddr = true
  server : s.server.Sourced
  heavy : s.server.heavy.Exact
  fromClient : ∀ datagram ∈ s.wire, names.ofClient datagram.sender = true →
    datagram.data ∈ posted
  queued : ∀ packet ∈ s.serverQueue, names.ofClient packet.sender = true →
    packet.data ∈ posted
  called : ∀ made ∈ s.server.calls,
    names.clientSession made.session.source = true → made.data ∈ posted
  context : ∀ id, s.ctx id = stateAfter serve ctx (s.asked id)
  opened : ∀ reply ∈ s.outbox ++ s.replies.pushed, ∃ opener,
    InetAddr.makeFromSockaddr (some opener) = some reply.2
  answered : ∀ reply ∈ s.outbox ++ s.replies.pushed,
    names.clientSession reply.2 = true → AnswersOwn names serve ctx s reply.1
  exact : s.replies.Exact
  toClient : ∀ datagram ∈ s.wire, names.ofServer datagram.sender = true →
    names.reachesClient datagram.target = true →
    AnswersOwn names serve ctx s datagram.data
  arrived : ∀ packet ∈ s.client.arrived, names.ofServer packet.sender = true →
    AnswersOwn names serve ctx s packet.data

variable {names : UdpNames} {std : StdHash}
  {bucketOf : List UdpEvent → UInt64 → Nat}
  {serve : Ctx → UdpCallback × List UInt8 → Ctx × List (List UInt8)} {ctx : Ctx}
  {s next : UdpExchange Ctx} {posted : List (List UInt8)}

/-- The calls made later change no answer that was given. -/
theorem AnswersOwn.mono {data : List UInt8} (hOwn : AnswersOwn names serve ctx s data)
    (hMade : s.server.callsMade <+: next.server.callsMade) :
    AnswersOwn names serve ctx next data := by
  obtain ⟨made, hMem, hSession, hData⟩ := hOwn
  have hAsked : s.asked made.session.id <+: next.asked made.session.id :=
    (hMade.filter _).map _
  have hAnswers : answers serve ctx (s.asked made.session.id) <+:
      answers serve ctx (next.asked made.session.id) := answers_prefix ctx hAsked
  exact ⟨made, hMade.subset hMem, hSession, hAnswers.subset hData⟩

theorem intact_start {localAddr source : InetAddr} {family : UInt16}
    {timeout : UInt64} {client : UdpClient} {server : UdpServer}
    (hClient : UdpClient.make localAddr source = some client)
    (hServer : UdpServer.make family timeout = some server)
    (hSource : source.eq names.serverAddr = true) :
    (start client server ctx).Intact names serve ctx [] := by
  have hKept := UdpClient.kept_make hClient
  have hSourced := UdpServer.sourced_make hServer
  obtain ⟨-, -, rfl⟩ := UdpClient.make_eq_some hClient
  obtain ⟨-, rfl⟩ := UdpServer.make_eq_some hServer
  exact
    { client := hKept
      source := hSource
      server := hSourced
      heavy := DoubleBuffer.exact_empty
      fromClient := List.forall_mem_nil _
      queued := List.forall_mem_nil _
      called := List.forall_mem_nil _
      context := fun _ => rfl
      opened := List.forall_mem_nil _
      answered := List.forall_mem_nil _
      exact := DoubleBuffer.exact_empty
      toClient := List.forall_mem_nil _
      arrived := List.forall_mem_nil _ }

/-! ## The steps -/

/-- The client asks, and sends what it was asked to. -/
theorem Intact.client_step (hIntact : s.Intact names serve ctx posted)
    {action : UdpClientAction} {client : UdpClient} {sent : List (List UInt8)}
    (hOwn : action.own = true) (hStep : UdpClient.Stepped s.client action client)
    (hSent : client.sent = s.client.sent ++ sent) :
    Intact names serve ctx
      { s with
        client := client
        wire := s.wire ++ sent.map fun data =>
          ⟨names.client, client.source.sockaddr, data⟩ }
      (posted ++ UdpClient.posts [action]) := by
  have hKept : client.Kept (posted ++ UdpClient.posts [action]) :=
    hIntact.client.step hStep
  have hPosted (data : List UInt8) (hMem : data ∈ sent) :
      data ∈ posted ++ UdpClient.posts [action] := by
    rw [← hKept.posted]
    refine hKept.io.executed_prefix.subset (hKept.sent.subset ?_)
    rw [hSent]
    exact List.mem_append_right _ hMem
  exact
    { client := hKept
      source := by
        show client.source.eq names.serverAddr = true
        rw [hStep.source_eq]
        exact hIntact.source
      server := hIntact.server
      heavy := hIntact.heavy
      fromClient := by
        refine List.forall_mem_append.mpr ⟨fun datagram hMem hFrom =>
          List.mem_append_left _ (hIntact.fromClient datagram hMem hFrom), ?_⟩
        rintro _ hNew -
        obtain ⟨data, hMem, rfl⟩ := List.mem_map.mp hNew
        exact hPosted data hMem
      queued := fun packet hMem hFrom =>
        List.mem_append_left _ (hIntact.queued packet hMem hFrom)
      called := fun made hMem hSession =>
        List.mem_append_left _ (hIntact.called made hMem hSession)
      context := hIntact.context
      opened := hIntact.opened
      answered := hIntact.answered
      exact := hIntact.exact
      toClient := by
        refine List.forall_mem_append.mpr ⟨hIntact.toClient, ?_⟩
        intro _ hNew hFrom
        obtain ⟨data, -, rfl⟩ := List.mem_map.mp hNew
        rw [UdpNames.ofServer_of_ofClient UdpNames.ofClient_client] at hFrom
        cases hFrom
      arrived := by
        show ∀ packet ∈ client.arrived, _
        rw [hStep.arrived_eq hOwn]
        exact hIntact.arrived }

/-- The server moves on without a call; the calls it has posted keep to the rule. -/
theorem Intact.with_server (hIntact : s.Intact names serve ctx posted)
    {server : UdpServer} (hSourced : server.Sourced) (hHeavy : server.heavy.Exact)
    (hCalled : ∀ made ∈ server.calls,
      names.clientSession made.session.source = true → made.data ∈ posted)
    (hMade : server.callsMade = s.server.callsMade) :
    Intact names serve ctx { s with server := server } posted := by
  have hOwn {data : List UInt8} (hAnswer : AnswersOwn names serve ctx s data) :
      AnswersOwn names serve ctx { s with server := server } data :=
    hAnswer.mono (hMade ▸ List.prefix_rfl)
  exact
    { hIntact with
      server := hSourced
      heavy := hHeavy
      called := hCalled
      context := by
        intro id
        show s.ctx id = stateAfter serve ctx
          ((server.callsMade.filter fun made => made.session.id = id).map fun made =>
            (made.callback, made.data))
        rw [hMade]
        exact hIntact.context id
      answered := fun reply hMem hSession => hOwn (hIntact.answered reply hMem hSession)
      toClient := fun datagram hMem hFrom hReaches =>
        hOwn (hIntact.toClient datagram hMem hFrom hReaches)
      arrived := fun packet hMem hFrom => hOwn (hIntact.arrived packet hMem hFrom) }

/-- The server handles a datagram, which it may have had queued. -/
theorem Intact.server_received (hIntact : s.Intact names serve ctx posted)
    {packet : Packet} {queue : List Packet} {now : Nat} {server : UdpServer}
    (hQueue : s.serverQueue = packet :: queue)
    (hStep : UdpServer.Stepped s.server
      (.receive packet.sender packet.data now) server) :
    Intact names serve ctx { s with server := server, serverQueue := queue }
      posted := by
  obtain ⟨calls, hCalls, hFor⟩ :=
    UdpServer.callsFor_received hIntact.server.table hStep
  have hQueued := hIntact.queued
  rw [hQueue] at hQueued
  obtain ⟨hFirst, hRest⟩ := List.forall_mem_cons.mp hQueued
  have hCalled : ∀ made ∈ server.calls,
      names.clientSession made.session.source = true → made.data ∈ posted := by
    rw [hCalls]
    refine List.forall_mem_append.mpr ⟨hIntact.called, ?_⟩
    intro made hMem hSession
    rw [hFor.data_eq made hMem]
    exact hFirst (hFor.isFrom made hMem _ hSession)
  have hServer := hIntact.with_server (hIntact.server.step hStep)
    (UdpServer.exact_step hIntact.heavy hStep) hCalled
    (UdpServer.callsMade_eq_of_stepped hStep nofun)
  exact { hServer with queued := hRest }

theorem Intact.server_plain (hIntact : s.Intact names serve ctx posted)
    {action : UdpAction} {server : UdpServer} (hPlain : action.plain = true)
    (hStep : UdpServer.Stepped s.server action server) :
    Intact names serve ctx { s with server := server } posted := by
  obtain ⟨hCalls, hMade⟩ := UdpServer.plain_step hPlain hStep
  exact hIntact.with_server (hIntact.server.step hStep)
    (UdpServer.exact_step hIntact.heavy hStep) (hCalls ▸ hIntact.called) hMade

/-- A task of the heavy thread makes its call, if it has one. -/
theorem callsMade_executed {heavy : DoubleBuffer HeavyTask} {task : HeavyTask}
    (hExecuted : heavy.executed = s.server.heavy.executed ++ [task]) :
    UdpServer.callsMade { s.server with heavy := heavy } =
      s.server.callsMade ++ task.call?.toList := by
  show heavy.executed.filterMap (·.call?) = _
  rw [hExecuted, List.filterMap_append]
  cases task <;> rfl

/-- The request that a task of the heavy thread is for a session. -/
theorem asked_executed {heavy : DoubleBuffer HeavyTask} {task : HeavyTask}
    (hExecuted : heavy.executed = s.server.heavy.executed ++ [task]) (id : Nat) :
    UdpExchange.asked { s with server := { s.server with heavy := heavy } } id =
      s.asked id ++ (task.call?.toList.filter fun made =>
        made.session.id = id).map fun made => (made.callback, made.data) := by
  show ((UdpServer.callsMade { s.server with heavy := heavy }).filter _).map _ = _
  rw [callsMade_executed hExecuted, List.filter_append, List.map_append]
  rfl

/-- Its own session is asked once more, and the others are not. -/
theorem asked_called {heavy : DoubleBuffer HeavyTask} {made : UdpCall}
    (hExecuted : heavy.executed = s.server.heavy.executed ++ [.call made]) (id : Nat) :
    UdpExchange.asked { s with server := { s.server with heavy := heavy } } id =
      if made.session.id = id then s.asked id ++ [(made.callback, made.data)]
      else s.asked id := by
  rw [asked_executed hExecuted]
  split
  · rename_i hOwn
    simp [HeavyTask.call?, hOwn]
  · rename_i hOther
    simp [HeavyTask.call?, hOther]

/-- All calls of one session are for the client if one of them is. -/
theorem Intact.asked_posted (hIntact : s.Intact names serve ctx posted)
    {made : UdpCall} (hMem : made ∈ s.server.calls)
    (hSession : names.clientSession made.session.source = true) :
    ∀ request ∈ s.asked made.session.id, request.2 ∈ posted := by
  intro request hRequest
  obtain ⟨other, hOther, rfl⟩ := List.mem_map.mp hRequest
  obtain ⟨hMade, hId⟩ := List.mem_filter.mp hOther
  have hCall : other ∈ s.server.calls :=
    (hIntact.heavy.executed_prefix.filterMap _).subset hMade
  have hSource : other.session.source = made.session.source := by
    have hOtherSource := hIntact.server.calls other hCall
    rw [of_decide_eq_true hId, hIntact.server.calls made hMem] at hOtherSource
    exact (Option.some.inj hOtherSource).symm
  exact hIntact.called other hCall (by rw [hSource]; exact hSession)

/-- A call that is executed was posted. -/
theorem Intact.mem_calls (hIntact : s.Intact names serve ctx posted)
    {heavy : DoubleBuffer HeavyTask} {made : UdpCall}
    (hNext : s.server.heavy.execute = some heavy)
    (hExecuted : heavy.executed = s.server.heavy.executed ++ [.call made]) :
    made ∈ s.server.calls := by
  have hExact : heavy.Exact := hIntact.heavy.execute hNext
  refine List.mem_filterMap.mpr ⟨.call made, ?_, rfl⟩
  rw [← DoubleBuffer.execute_pushed hNext]
  refine hExact.executed_prefix.subset ?_
  rw [hExecuted]
  exact List.mem_append_right _ List.mem_cons_self

/-- The context of a session goes where the call takes it. -/
theorem Intact.context_called (hIntact : s.Intact names serve ctx posted)
    {heavy : DoubleBuffer HeavyTask} {made : UdpCall}
    (hExecuted : heavy.executed = s.server.heavy.executed ++ [.call made]) (id : Nat) :
    Function.update s.ctx made.session.id
        (serve (s.ctx made.session.id) (made.callback, made.data)).1 id =
      stateAfter serve ctx
        (UdpExchange.asked { s with server := { s.server with heavy := heavy } } id) := by
  rw [asked_called hExecuted]
  by_cases hId : made.session.id = id
  · subst hId
    rw [Function.update_self, if_pos rfl, stateAfter_append, ← hIntact.context]
    rfl
  · rw [Function.update_of_ne (Ne.symm hId), if_neg hId]
    exact hIntact.context id

/-- A call for the client leads to answers of its session. -/
theorem Intact.answersOwn_called (hIntact : s.Intact names serve ctx posted)
    {heavy : DoubleBuffer HeavyTask} {made : UdpCall}
    (hExecuted : heavy.executed = s.server.heavy.executed ++ [.call made])
    (hSession : names.clientSession made.session.source = true) {data : List UInt8}
    (hData : data ∈ (serve (s.ctx made.session.id) (made.callback, made.data)).2) :
    AnswersOwn names serve ctx { s with server := { s.server with heavy := heavy } }
      data := by
  refine ⟨made, ?_, hSession, ?_⟩
  · show made ∈ UdpServer.callsMade { s.server with heavy := heavy }
    rw [callsMade_executed hExecuted]
    exact List.mem_append_right _ List.mem_cons_self
  · -- The callback answers in the context its session has by now.
    rw [asked_called hExecuted, if_pos rfl, answers_append, ← hIntact.context]
    exact List.mem_append_right _ (List.mem_append_left _ hData)

theorem Intact.execute_step (hIntact : s.Intact names serve ctx posted)
    {heavy : DoubleBuffer HeavyTask} {task : HeavyTask}
    (hNext : s.server.heavy.execute = some heavy)
    (hExecuted : heavy.executed = s.server.heavy.executed ++ [task]) :
    Intact names serve ctx
      (UdpExchange.task serve
        { s with server := { s.server with heavy := heavy } } task) posted := by
  have hSourced : UdpServer.Sourced { s.server with heavy := heavy } :=
    hIntact.server.step (.executeHeavy hNext)
  have hExact := hIntact.heavy.execute hNext
  have hCalled : ∀ made ∈ UdpServer.calls { s.server with heavy := heavy },
      names.clientSession made.session.source = true → made.data ∈ posted := by
    rw [UdpServer.calls, DoubleBuffer.execute_pushed hNext]
    exact hIntact.called
  have hMade := callsMade_executed hExecuted
  cases task with
  | user =>
      exact hIntact.with_server hSourced hExact hCalled
        (hMade.trans (List.append_nil _))
  | call made =>
      have hSource := hIntact.server.decoded made.session.source
        (List.mem_of_getElem?
          (hIntact.server.calls made (hIntact.mem_calls hNext hExecuted)))
      have hNew (reply : List UInt8 × InetAddr)
          (hReply : reply ∈ (serve (s.ctx made.session.id)
            (made.callback, made.data)).2.map fun data =>
              (data, made.session.source)) :
          reply.1 ∈ (serve (s.ctx made.session.id) (made.callback, made.data)).2 ∧
            reply.2 = made.session.source := by
        obtain ⟨data, hData, rfl⟩ := List.mem_map.mp hReply
        exact ⟨hData, rfl⟩
      have hOld (reply : List UInt8 × InetAddr)
          (hReply : reply ∈ s.replies.pushed) :
          reply ∈ s.outbox ++ s.replies.pushed := List.mem_append_right _ hReply
      have hOwn {data : List UInt8} (hAnswer : AnswersOwn names serve ctx s data) :
          AnswersOwn names serve ctx
            { s with server := { s.server with heavy := heavy } } data :=
        hAnswer.mono (hMade ▸ List.prefix_append _ _)
      exact
        { hIntact with
          server := hSourced
          heavy := hExact
          called := hCalled
          context := hIntact.context_called hExecuted
          opened := by
            refine List.forall_mem_append.mpr ⟨fun reply hReply => ?_,
              fun reply hReply => hIntact.opened reply (hOld reply hReply)⟩
            rw [(hNew reply hReply).2]
            exact hSource
          answered := by
            refine List.forall_mem_append.mpr ⟨fun reply hReply hSession => ?_,
              fun reply hReply hSession =>
                hOwn (hIntact.answered reply (hOld reply hReply) hSession)⟩
            obtain ⟨hAnswer, hOwner⟩ := hNew reply hReply
            rw [hOwner] at hSession
            exact hIntact.answersOwn_called hExecuted hSession hAnswer
          toClient := fun datagram hDatagram hFrom hReaches =>
            hOwn (hIntact.toClient datagram hDatagram hFrom hReaches)
          arrived := fun packet hPacket hFrom =>
            hOwn (hIntact.arrived packet hPacket hFrom) }

theorem Intact.reply_step (hIntact : s.Intact names serve ctx posted)
    {reply : List UInt8 × InetAddr} {outbox : List (List UInt8 × InetAddr)}
    (hOutbox : s.outbox = reply :: outbox) :
    Intact names serve ctx
      { s with outbox := outbox, replies := s.replies.push reply } posted := by
  have hMoved (other : List UInt8 × InetAddr)
      (hMem : other ∈ outbox ++ (s.replies.pushed ++ [reply])) :
      other ∈ s.outbox ++ s.replies.pushed := by
    rw [hOutbox]
    simp only [List.mem_append, List.mem_cons, List.not_mem_nil, or_false] at hMem ⊢
    tauto
  exact
    { hIntact with
      opened := fun other hMem => hIntact.opened other (hMoved other hMem)
      answered := fun other hMem => hIntact.answered other (hMoved other hMem)
      exact := hIntact.exact.push reply }

/-- The datagram of a reply goes from the server to the source of the session. -/
theorem sendReply_eq_some {ret : SendtoRet} {reply : List UInt8 × InetAddr}
    {datagram : Datagram} (hSent : sendReply names ret reply = some datagram) :
    datagram = ⟨names.server, reply.2.sockaddr, reply.1⟩ := by
  cases ret with
  | sent => exact (Option.some.inj hSent).symm
  | error errno => cases hSent

theorem Intact.serverIo_step (hIntact : s.Intact names serve ctx posted)
    {action : DoubleBuffer.ConsumerStep} {ret : SendtoRet}
    {replies : DoubleBuffer (List UInt8 × InetAddr)}
    {taken : List (List UInt8 × InetAddr)}
    (hConsume : s.replies.consume action = some replies)
    (hTaken : replies.executed = s.replies.executed ++ taken) :
    Intact names serve ctx
      { s with
        replies := replies
        wire := s.wire ++ taken.filterMap (sendReply names ret) } posted := by
  obtain ⟨hExact, hPushed⟩ := hIntact.exact.consume hConsume
  have hPosted (reply : List UInt8 × InetAddr) (hMem : reply ∈ taken) :
      reply ∈ s.outbox ++ s.replies.pushed := by
    refine List.mem_append_right _ ?_
    rw [← hPushed]
    refine hExact.executed_prefix.subset ?_
    rw [hTaken]
    exact List.mem_append_right _ hMem
  have hSame (reply : List UInt8 × InetAddr)
      (hMem : reply ∈ s.outbox ++ replies.pushed) :
      reply ∈ s.outbox ++ s.replies.pushed := hPushed ▸ hMem
  exact
    { hIntact with
      fromClient := by
        refine List.forall_mem_append.mpr ⟨hIntact.fromClient, ?_⟩
        intro datagram hMem hFrom
        obtain ⟨reply, -, hSent⟩ := List.mem_filterMap.mp hMem
        obtain rfl := sendReply_eq_some hSent
        rw [UdpNames.ofClient_server] at hFrom
        cases hFrom
      opened := fun reply hMem => hIntact.opened reply (hSame reply hMem)
      answered := fun reply hMem => hIntact.answered reply (hSame reply hMem)
      exact := hExact
      toClient := by
        refine List.forall_mem_append.mpr ⟨hIntact.toClient, ?_⟩
        intro datagram hMem _ hReaches
        obtain ⟨reply, hReply, hSent⟩ := List.mem_filterMap.mp hMem
        obtain rfl := sendReply_eq_some hSent
        have hIn := hPosted reply hReply
        exact hIntact.answered reply hIn
          (UdpNames.clientSession_of_reaches (hIntact.opened reply hIn) hReaches) }

/-- What the network carries is what it has. -/
theorem Intact.carried (hIntact : s.Intact names serve ctx posted) (index : Nat)
    (again : Bool) :
    Intact names serve ctx { s with wire := s.remaining index again } posted :=
  { hIntact with
    fromClient := fun datagram hMem =>
      hIntact.fromClient datagram (mem_of_mem_remaining hMem)
    toClient := fun datagram hMem =>
      hIntact.toClient datagram (mem_of_mem_remaining hMem) }

/-- What an action asks for. -/
def addRequest (posted : List (List UInt8)) (action : UdpExchangeAction) :
    List (List UInt8) :=
  posted ++ requests [action]

theorem Intact.step {action : UdpExchangeAction}
    (hIntact : s.Intact names serve ctx posted)
    (hStep : Stepped names std bucketOf serve s action next) :
    next.Intact names serve ctx (addRequest posted action) := by
  have hNothing (hRequests : requests [action] = []) :
      addRequest posted action = posted := by
    rw [addRequest, hRequests, List.append_nil]
  cases hStep with
  | client hOwn hClient hSent =>
      rename_i action client sent
      have hSame : requests [.client action] = UdpClient.posts [action] := by
        cases action <;> rfl
      rw [addRequest, hSame]
      exact hIntact.client_step hOwn hClient hSent
  | server hPlain hServer =>
      rw [hNothing rfl]
      exact hIntact.server_plain hPlain hServer
  | dropped hQueue hNone =>
      rw [hNothing rfl]
      have hQueued := hIntact.queued
      rw [hQueue] at hQueued
      exact { hIntact with queued := (List.forall_mem_cons.mp hQueued).2 }
  | received hQueue hServer =>
      rw [hNothing rfl]
      exact hIntact.server_received hQueue hServer
  | executeHeavy _ hHeavy hExecuted =>
      rw [hNothing rfl]
      exact hIntact.execute_step hHeavy hExecuted
  | reply hOutbox =>
      rw [hNothing rfl]
      exact hIntact.reply_step hOutbox
  | serverIo hConsume hTaken =>
      rw [hNothing rfl]
      exact hIntact.serverIo_step hConsume hTaken
  | others hClient hServer =>
      rw [hNothing rfl]
      refine { hIntact with fromClient := ?_, toClient := ?_ }
      · refine List.forall_mem_append.mpr ⟨hIntact.fromClient, ?_⟩
        refine List.forall_mem_singleton.mpr fun hFrom => ?_
        rw [hClient] at hFrom
        cases hFrom
      · refine List.forall_mem_append.mpr ⟨hIntact.toClient, ?_⟩
        refine List.forall_mem_singleton.mpr fun hFrom => ?_
        rw [hServer] at hFrom
        cases hFrom
  | carryToClient hSome hReaches =>
      rw [hNothing rfl]
      rename_i index again datagram
      have hMem := List.mem_of_getElem? hSome
      have hClient : UdpClient.Kept _ (posted ++ UdpClient.posts [.arrive _]) :=
        hIntact.client.step (.arrive ⟨datagram.data, datagram.sender⟩)
      refine
        { hIntact.carried index again with
          client := by simpa [UdpClient.posts] using hClient
          source := hIntact.source
          arrived := ?_ }
      refine List.forall_mem_append.mpr ⟨hIntact.arrived, ?_⟩
      exact List.forall_mem_singleton.mpr fun hFrom =>
        hIntact.toClient datagram hMem hFrom hReaches
  | carryToServer hSome hReaches =>
      rw [hNothing rfl]
      rename_i index again datagram
      have hMem := List.mem_of_getElem? hSome
      refine { hIntact.carried index again with queued := ?_ }
      refine List.forall_mem_append.mpr ⟨hIntact.queued, ?_⟩
      exact List.forall_mem_singleton.mpr (hIntact.fromClient datagram hMem)

theorem foldl_addRequest (posted : List (List UInt8))
    (actions : List UdpExchangeAction) :
    actions.foldl addRequest posted = posted ++ requests actions := by
  induction actions generalizing posted with
  | nil => exact (List.append_nil posted).symm
  | cons action actions ih =>
      have hCons : requests (action :: actions) =
          requests [action] ++ requests actions := by
        rw [requests, requests, requests, ← List.filterMap_append,
          List.singleton_append]
      rw [List.foldl_cons, ih, addRequest, List.append_assoc, ← hCons]

theorem intact_of_run {localAddr source : InetAddr} {family : UInt16}
    {timeout : UInt64} {client : UdpClient} {server : UdpServer}
    {actions : List UdpExchangeAction}
    (hClient : UdpClient.make localAddr source = some client)
    (hServer : UdpServer.make family timeout = some server)
    (hSource : source.eq names.serverAddr = true)
    (hRun : run (UdpExchange.step names std bucketOf serve)
      (start client server ctx) actions = some s) :
    s.Intact names serve ctx (requests actions) := by
  have hIntact := run_simulates addRequest
    (fun state posted action next (hState : state.Intact names serve ctx posted)
      hStep => hState.step (stepped hStep))
    (intact_start hClient hServer hSource) hRun
  rwa [foldl_addRequest, List.nil_append] at hIntact

/-- **A client gets answers of its own sessions.**  However the network loses, repeats
and reorders datagrams, whatever others send from addresses equal neither to the
client's nor to the server's, and whatever happens to the sessions in between, each
datagram that `read_cb_` of the client is called with is an answer of one session with
the client to the calls made for that session, and every call made for it was made with
a datagram the client posted. -/
theorem client_gets_own_answers {localAddr source : InetAddr} {family : UInt16}
    {timeout : UInt64} {client : UdpClient} {server : UdpServer}
    {actions : List UdpExchangeAction}
    (hClient : UdpClient.make localAddr source = some client)
    (hServer : UdpServer.make family timeout = some server)
    (hSource : source.eq names.serverAddr = true)
    (hRun : run (UdpExchange.step names std bucketOf serve)
      (start client server ctx) actions = some s) :
    ∀ data ∈ s.client.callsMade,
      ∃ made ∈ s.server.callsMade, names.clientSession made.session.source = true ∧
        (∀ request ∈ s.asked made.session.id, request.2 ∈ requests actions) ∧
        data ∈ answers serve ctx (s.asked made.session.id) := by
  have hIntact := intact_of_run hClient hServer hSource hRun
  intro data hMem
  obtain ⟨packet, hPacket, rfl, hFrom⟩ := hIntact.client.exists_arrived hMem
  have hServerSent : names.ofServer packet.sender = true := by
    obtain ⟨sender, hSender, hEq⟩ := (Option.any_eq_true _ _).mp hFrom
    rw [UdpNames.ofServer, Sockaddr.isFrom, hSender, Option.any_some]
    exact InetAddr.eq_trans hEq hIntact.source
  obtain ⟨made, hMade, hSession, hData⟩ := hIntact.arrived packet hPacket hServerSent
  have hCall : made ∈ s.server.calls :=
    (hIntact.heavy.executed_prefix.filterMap _).subset hMade
  exact ⟨made, hMade, hSession, hIntact.asked_posted hCall hSession, hData⟩

/-- `GET` and `NEW` of the UDP example. -/
def GET : List UInt8 := [71, 69, 84]

def NEW : List UInt8 := [78, 69, 87]

/-- The callbacks of the UDP example; the context is a pointer. -/
def exampleCallbacks :
    Option (List UInt8) → UdpCallback × List UInt8 →
      Option (List UInt8) × List (List UInt8)
  | _, (.newSession, data) => (some data, [NEW])
  | some ctx, (.read, data) =>
      if data ≠ GET then (some data, []) else (some ctx, [ctx])
  -- There is nothing the pointer points to.
  | none, (.read, _) => (none, [])

/-- Two addresses on the loopback interface. -/
def loopbackNames : UdpNames where
  client := UdpServer.loopback 9
  server := UdpServer.loopback 1
  clientAddr := (InetAddr.makeFromSockaddr (some (UdpServer.loopback 9))).get
    (by decide +kernel)
  serverAddr := (InetAddr.makeFromSockaddr (some (UdpServer.loopback 1))).get
    (by decide +kernel)
  client_decoded := (Option.some_get _).symm
  server_decoded := (Option.some_get _).symm
  client_family := by decide +kernel
  distinct := by decide +kernel

/-- A client of the UDP example posts `AAA` and `GET`, the network brings `AAA` twice,
and somebody else gets a session, too. -/
theorem client_gets_own_answers_example :
    let std : StdHash := ⟨UInt16.toUInt64, UInt32.toUInt64, fun _ => 0⟩
    let heavy : List UdpExchangeAction :=
      [.serverReceive 0, .serverReceive 0, .serverReceive 0, .serverReceive 0,
        .server .swapHeavy, .executeHeavy, .reply, .executeHeavy, .reply,
        .executeHeavy, .executeHeavy, .reply]
    let actions : List UdpExchangeAction :=
      [.client (.setReadCb true), .server (.setNewSessionCb true),
        .server (.setReadCb true), .client (.postSendTask [65, 65, 65]),
        .client (.postSendTask GET), .client (.io .swap .sent),
        .client (.io .execute .sent), .client (.io .execute .sent),
        .others ⟨UdpServer.loopback 2, UdpServer.loopback 1, [66]⟩,
        .carryToServer 0 true, .carryToServer 2 false, .carryToServer 0 false,
        .carryToServer 0 false] ++ heavy ++
      [.serverIo .swap .sent, .serverIo .execute .sent, .serverIo .execute .sent,
        .serverIo .execute .sent, .carryToClient 0 false, .carryToClient 1 false,
        .client (.dispatch kRead 2 EAGAIN 0), .client (.heavy .swap),
        .client (.heavy .execute), .client (.heavy .execute)]
    ∃ client server s,
      UdpClient.make loopbackNames.clientAddr loopbackNames.serverAddr = some client ∧
      UdpServer.make AF_INET 1 = some server ∧
      run (UdpExchange.step loopbackNames std (fun _ _ => 0) exampleCallbacks)
        (start client server none) actions = some s ∧
      s.client.callsMade = [NEW, [65, 65, 65]] ∧
      ∀ data ∈ s.client.callsMade, ∃ made ∈ s.server.callsMade,
        loopbackNames.clientSession made.session.source = true ∧
        (∀ request ∈ s.asked made.session.id, request.2 ∈ requests actions) ∧
        data ∈ answers exampleCallbacks none (s.asked made.session.id) := by
  intro std heavy actions
  have hOutcome : (UdpClient.make loopbackNames.clientAddr
      loopbackNames.serverAddr).any (fun client =>
        (UdpServer.make AF_INET 1).any fun server =>
          (run (UdpExchange.step loopbackNames std (fun _ _ => 0) exampleCallbacks)
            (start client server none) actions).any fun s => decide
              (s.client.callsMade = [NEW, [65, 65, 65]])) = true := by
    decide +kernel
  obtain ⟨client, hClient, hRest⟩ := (Option.any_eq_true _ _).mp hOutcome
  obtain ⟨server, hServer, hRest⟩ := (Option.any_eq_true _ _).mp hRest
  obtain ⟨s, hRun, hView⟩ := (Option.any_eq_true _ _).mp hRest
  have hOwn := client_gets_own_answers hClient hServer (by decide +kernel) hRun
  exact ⟨client, server, s, hClient, hServer, hRun, of_decide_eq_true hView, hOwn⟩

end UdpExchange
end Net
end KZEvent
