import KZEvent.Foundation.Transducer
import KZEvent.Net.UdpClient
import KZEvent.Net.UdpReplies
import KZEvent.Net.UdpRouting

/-!
# A UDP client and a UDP server

A client posts requests to a server, whose callbacks answer each datagram of a
session from the session's context.  The network between them loses, repeats and
reorders datagrams, and anybody else may send to both of them, but only from addresses
that are equal to neither of theirs; addresses that differ in the scope id alone are
equal.

The heavy thread of the server runs a callback to its end before it goes on; the
replies are posted as io tasks one after the other, while everything else may move.
-/

namespace KZEvent
namespace Net

open Foundation

/-- The datagram comes from an address equal to `addr`. -/
def Sockaddr.isFrom (addr : InetAddr) (sender : Sockaddr) : Bool :=
  (InetAddr.makeFromSockaddr (some sender)).any fun source => source.eq addr

/-- The addresses of the two sockets, as the network gives them to receivers. -/
structure UdpNames where
  client : Sockaddr
  server : Sockaddr
  clientAddr : InetAddr
  serverAddr : InetAddr
  client_decoded : InetAddr.makeFromSockaddr (some client) = some clientAddr
  server_decoded : InetAddr.makeFromSockaddr (some server) = some serverAddr
  client_family : client.family = AF_INET ∨ client.family = AF_INET6
  distinct : clientAddr.eq serverAddr = false

/-- A datagram in the network. -/
structure Datagram where
  sender : Sockaddr
  target : Sockaddr
  data : List UInt8

namespace UdpNames

variable (names : UdpNames)

def ofClient (sender : Sockaddr) : Bool := sender.isFrom names.clientAddr

def ofServer (sender : Sockaddr) : Bool := sender.isFrom names.serverAddr

/-- The session is one with the client. -/
def clientSession (source : InetAddr) : Bool := source.eq names.clientAddr

/-- The network takes what is sent there to the client. -/
def reachesClient (target : Sockaddr) : Bool :=
  decide (target.kernelAddr = names.client.kernelAddr)

def reachesServer (target : Sockaddr) : Bool :=
  decide (target.kernelAddr = names.server.kernelAddr)

end UdpNames

/-- `outbox` is what the running callback has still to post, `replies` the io tasks of
the server, `wire` what is in the network. -/
structure UdpExchange (Ctx : Type*) where
  client : UdpClient
  server : UdpServer
  ctx : Nat → Ctx
  outbox : List (List UInt8 × InetAddr)
  replies : DoubleBuffer (List UInt8 × InetAddr)
  wire : List Datagram
  serverQueue : List Packet

inductive UdpExchangeAction
  | client (action : UdpClientAction)
  | server (action : UdpAction)
  | serverReceive (now : Nat)
  | executeHeavy
  | reply
  | serverIo (action : DoubleBuffer.ConsumerStep) (ret : SendtoRet)
  | others (datagram : Datagram)
  | carryToClient (index : Nat) (again : Bool)
  | carryToServer (index : Nat) (again : Bool)

/-- The kernel alone queues datagrams at the socket. -/
def UdpClientAction.own : UdpClientAction → Bool
  | arrive _ => false
  | _ => true

/-- A step that is neither a datagram nor a task of the heavy thread. -/
def UdpAction.plain : UdpAction → Bool
  | receive _ _ _ => false
  | executeHeavy => false
  | _ => true

/-- The heavy thread moves on. -/
def UdpAction.heavy : UdpAction → Bool
  | swapHeavy => true
  | clearHeavy => true
  | _ => false

namespace UdpExchange

variable {Ctx : Type*}

def start (client : UdpClient) (server : UdpServer) (ctx : Ctx) :
    UdpExchange Ctx where
  client := client
  server := server
  ctx := fun _ => ctx
  outbox := []
  replies := .empty
  wire := []
  serverQueue := []

/-- What stays in the network when a datagram is carried; the network may carry it
again. -/
def remaining (s : UdpExchange Ctx) (index : Nat) (again : Bool) : List Datagram :=
  if again then s.wire else s.wire.eraseIdx index

/-- The callback is called: `serve` takes the context of the session and the datagram
to the new context and the replies. -/
def callback (serve : Ctx → UdpCallback × List UInt8 → Ctx × List (List UInt8))
    (s : UdpExchange Ctx) (made : UdpCall) : UdpExchange Ctx :=
  let served := serve (s.ctx made.session.id) (made.callback, made.data)
  { s with
    ctx := Function.update s.ctx made.session.id served.1
    outbox := served.2.map fun data => (data, made.session.source) }

/-- The task of the heavy thread is executed. -/
def task (serve : Ctx → UdpCallback × List UInt8 → Ctx × List (List UInt8))
    (s : UdpExchange Ctx) : HeavyTask → UdpExchange Ctx
  | .call made => s.callback serve made
  | .user => s

/-- What an executed send task puts into the network. -/
def sendReply (names : UdpNames) (ret : SendtoRet)
    (reply : List UInt8 × InetAddr) : Option Datagram :=
  (dgramSend ret reply.1).map fun data => ⟨names.server, reply.2.sockaddr, data⟩

/-- One step. -/
def step (names : UdpNames) (std : StdHash)
    (bucketOf : List UdpEvent → UInt64 → Nat)
    (serve : Ctx → UdpCallback × List UInt8 → Ctx × List (List UInt8))
    (s : UdpExchange Ctx) : UdpExchangeAction → Option (UdpExchange Ctx)
  | .client action =>
      if action.own then
        (s.client.step action).map fun client =>
          { s with
            client := client
            wire := s.wire ++ (client.sent.drop s.client.sent.length).map fun data =>
              ⟨names.client, client.source.sockaddr, data⟩ }
      else none
  | .server action =>
      if action.plain ∧ (action.heavy = true → s.outbox.isEmpty = true) then
        (s.server.step std bucketOf action).map fun server =>
          { s with server := server }
      else none
  | .serverReceive now =>
      match s.serverQueue with
      | [] => none
      | packet :: queue =>
          match packet.read? with
          | none => some { s with serverQueue := queue }
          | some _ =>
              (s.server.step std bucketOf
                (.receive packet.sender packet.data now)).map fun server =>
                  { s with server := server, serverQueue := queue }
  | .executeHeavy =>
      match s.server.heavy.exe[s.server.heavy.next]? with
      | some task =>
          if s.outbox.isEmpty then
            (s.server.step std bucketOf .executeHeavy).map fun server =>
              { s with server := server }.task serve task
          else none
      | none => none
  | .reply =>
      match s.outbox with
      | [] => none
      | reply :: outbox =>
          some { s with outbox := outbox, replies := s.replies.push reply }
  | .serverIo action ret =>
      (s.replies.consume action).map fun replies =>
        { s with
          replies := replies
          wire := s.wire ++ (replies.executed.drop s.replies.executed.length).filterMap
            (sendReply names ret) }
  | .others datagram =>
      if names.ofClient datagram.sender || names.ofServer datagram.sender then none
      else some { s with wire := s.wire ++ [datagram] }
  | .carryToClient index again =>
      match s.wire[index]? with
      | some datagram =>
          if names.reachesClient datagram.target then
            (s.client.step (.arrive ⟨datagram.data, datagram.sender⟩)).map
              fun client =>
                { s with client := client, wire := s.remaining index again }
          else none
      | none => none
  | .carryToServer index again =>
      match s.wire[index]? with
      | some datagram =>
          if names.reachesServer datagram.target then
            some
              { s with
                serverQueue := s.serverQueue ++ [⟨datagram.data, datagram.sender⟩]
                wire := s.remaining index again }
          else none
      | none => none

/-- The requests the client posted. -/
def requests (actions : List UdpExchangeAction) : List (List UInt8) :=
  actions.filterMap fun
    | .client (.postSendTask data) => some data
    | _ => none

/-! ## Inversion of a step -/

/-- The ways a step can be taken, with their preconditions. -/
inductive Stepped (names : UdpNames) (std : StdHash)
    (bucketOf : List UdpEvent → UInt64 → Nat)
    (serve : Ctx → UdpCallback × List UInt8 → Ctx × List (List UInt8))
    (s : UdpExchange Ctx) : UdpExchangeAction → UdpExchange Ctx → Prop
  | client {action : UdpClientAction} {client : UdpClient}
      {sent : List (List UInt8)} (hOwn : action.own = true)
      (hStep : UdpClient.Stepped s.client action client)
      (hSent : client.sent = s.client.sent ++ sent) :
      Stepped names std bucketOf serve s (.client action)
        { s with
          client := client
          wire := s.wire ++ sent.map fun data =>
            ⟨names.client, client.source.sockaddr, data⟩ }
  | server {action : UdpAction} {server : UdpServer} (hPlain : action.plain = true)
      (hStep : UdpServer.Stepped s.server action server) :
      Stepped names std bucketOf serve s (.server action) { s with server := server }
  | dropped {now : Nat} {packet : Packet} {queue : List Packet}
      (hQueue : s.serverQueue = packet :: queue) (hNone : packet.read? = none) :
      Stepped names std bucketOf serve s (.serverReceive now)
        { s with serverQueue := queue }
  | received {now : Nat} {packet : Packet} {queue : List Packet}
      {server : UdpServer} (hQueue : s.serverQueue = packet :: queue)
      (hStep : UdpServer.Stepped s.server
        (.receive packet.sender packet.data now) server) :
      Stepped names std bucketOf serve s (.serverReceive now)
        { s with server := server, serverQueue := queue }
  | executeHeavy {heavy : DoubleBuffer HeavyTask} {task : HeavyTask}
      (hOutbox : s.outbox = []) (hNext : s.server.heavy.execute = some heavy)
      (hExecuted : heavy.executed = s.server.heavy.executed ++ [task]) :
      Stepped names std bucketOf serve s .executeHeavy
        ({ s with server := { s.server with heavy := heavy } }.task serve task)
  | reply {reply : List UInt8 × InetAddr} {outbox : List (List UInt8 × InetAddr)}
      (hOutbox : s.outbox = reply :: outbox) :
      Stepped names std bucketOf serve s .reply
        { s with outbox := outbox, replies := s.replies.push reply }
  | serverIo {action : DoubleBuffer.ConsumerStep} {ret : SendtoRet}
      {replies : DoubleBuffer (List UInt8 × InetAddr)}
      {taken : List (List UInt8 × InetAddr)}
      (hConsume : s.replies.consume action = some replies)
      (hTaken : replies.executed = s.replies.executed ++ taken) :
      Stepped names std bucketOf serve s (.serverIo action ret)
        { s with
          replies := replies
          wire := s.wire ++ taken.filterMap (sendReply names ret) }
  | others {datagram : Datagram} (hClient : names.ofClient datagram.sender = false)
      (hServer : names.ofServer datagram.sender = false) :
      Stepped names std bucketOf serve s (.others datagram)
        { s with wire := s.wire ++ [datagram] }
  | carryToClient {index : Nat} {again : Bool} {datagram : Datagram}
      (hSome : s.wire[index]? = some datagram)
      (hReaches : names.reachesClient datagram.target = true) :
      Stepped names std bucketOf serve s (.carryToClient index again)
        { s with
          client :=
            { s.client with
              queue := s.client.queue ++ [⟨datagram.data, datagram.sender⟩]
              arrived := s.client.arrived ++ [⟨datagram.data, datagram.sender⟩] }
          wire := s.remaining index again }
  | carryToServer {index : Nat} {again : Bool} {datagram : Datagram}
      (hSome : s.wire[index]? = some datagram)
      (hReaches : names.reachesServer datagram.target = true) :
      Stepped names std bucketOf serve s (.carryToServer index again)
        { s with
          serverQueue := s.serverQueue ++ [⟨datagram.data, datagram.sender⟩]
          wire := s.remaining index again }

variable {names : UdpNames} {std : StdHash}
  {bucketOf : List UdpEvent → UInt64 → Nat}
  {serve : Ctx → UdpCallback × List UInt8 → Ctx × List (List UInt8)}
  {s next : UdpExchange Ctx}

/-- A client only adds to what it has sent. -/
theorem sent_prefix {client next : UdpClient} {action : UdpClientAction}
    (hStep : UdpClient.Stepped client action next) : client.sent <+: next.sent := by
  cases hStep with
  | io hConsume hTaken => exact List.prefix_append _ _
  | dispatch hQueue hMade hCalled => exact hCalled.sent ▸ List.prefix_rfl
  | setReadCb => exact List.prefix_rfl
  | setErrorCb => exact List.prefix_rfl
  | postSendTask => exact List.prefix_rfl
  | postHeavyTask => exact List.prefix_rfl
  | arrive => exact List.prefix_rfl
  | heavy => exact List.prefix_rfl

theorem stepped {action : UdpExchangeAction}
    (hStep : step names std bucketOf serve s action = some next) :
    Stepped names std bucketOf serve s action next := by
  cases action with
  | client action =>
      obtain ⟨hOwn, hNext⟩ := Option.ite_none_right_eq_some.mp hStep
      obtain ⟨client, hClient, rfl⟩ := Option.map_eq_some_iff.mp hNext
      have hStepped := UdpClient.stepped hClient
      obtain ⟨sent, hSent⟩ := sent_prefix hStepped
      rw [← hSent, List.drop_left]
      exact .client hOwn hStepped hSent.symm
  | server action =>
      obtain ⟨⟨hPlain, -⟩, hNext⟩ := Option.ite_none_right_eq_some.mp hStep
      obtain ⟨server, hServer, rfl⟩ := Option.map_eq_some_iff.mp hNext
      exact .server hPlain (UdpServer.stepped hServer)
  | serverReceive now =>
      simp only [step] at hStep
      split at hStep
      · cases hStep
      · rename_i packet queue hQueue
        split at hStep
        · rename_i hNone
          obtain rfl := Option.some.inj hStep
          exact .dropped hQueue hNone
        · obtain ⟨server, hServer, rfl⟩ := Option.map_eq_some_iff.mp hStep
          exact .received hQueue (UdpServer.stepped hServer)
  | executeHeavy =>
      simp only [step] at hStep
      split at hStep
      · rename_i task hTask
        obtain ⟨hOutbox, hNext⟩ := Option.ite_none_right_eq_some.mp hStep
        obtain ⟨server, hServer, rfl⟩ := Option.map_eq_some_iff.mp hNext
        cases UdpServer.stepped hServer with
        | executeHeavy hHeavy =>
            refine .executeHeavy (List.isEmpty_iff.mp hOutbox) hHeavy ?_
            obtain ⟨item, hItem, rfl⟩ := Option.map_eq_some_iff.mp hHeavy
            obtain rfl := Option.some.inj (hTask.symm.trans hItem)
            rfl
      · cases hStep
  | reply =>
      simp only [step] at hStep
      split at hStep
      · cases hStep
      · rename_i hOutbox
        obtain rfl := Option.some.inj hStep
        exact .reply hOutbox
  | serverIo action ret =>
      obtain ⟨replies, hConsume, rfl⟩ := Option.map_eq_some_iff.mp hStep
      obtain ⟨taken, hTaken⟩ := DoubleBuffer.consume_executed_prefix hConsume
      rw [← hTaken, List.drop_left]
      exact .serverIo hConsume hTaken.symm
  | others datagram =>
      obtain ⟨hStrange, hNext⟩ := Option.ite_none_left_eq_some.mp hStep
      obtain rfl := Option.some.inj hNext
      rw [Bool.or_eq_true, not_or, Bool.not_eq_true, Bool.not_eq_true] at hStrange
      exact .others hStrange.1 hStrange.2
  | carryToClient index again =>
      simp only [step] at hStep
      split at hStep
      · rename_i hSome
        obtain ⟨hReaches, hNext⟩ := Option.ite_none_right_eq_some.mp hStep
        obtain ⟨client, hClient, rfl⟩ := Option.map_eq_some_iff.mp hNext
        obtain rfl := Option.some.inj hClient
        exact .carryToClient hSome hReaches
      · cases hStep
  | carryToServer index again =>
      simp only [step] at hStep
      split at hStep
      · rename_i hSome
        obtain ⟨hReaches, hNext⟩ := Option.ite_none_right_eq_some.mp hStep
        obtain rfl := Option.some.inj hNext
        exact .carryToServer hSome hReaches
      · cases hStep

/-- What stays in the network was there. -/
theorem mem_of_mem_remaining {index : Nat} {again : Bool} {datagram : Datagram}
    (hMem : datagram ∈ s.remaining index again) : datagram ∈ s.wire := by
  unfold remaining at hMem
  split at hMem
  · exact hMem
  · exact List.mem_of_mem_eraseIdx hMem

end UdpExchange

/-! ## The two addresses -/

namespace InetAddr

/-- The compared members of an internet address are those it denotes. -/
theorem Ident.eq_of_kernelAddr {i j : Ident} {addr : Sockaddr} {kernel : KernelAddr}
    (hDenotes : Sockaddr.Denotes addr kernel) (hNotUnix : addr.family ≠ AF_UNIX)
    (hLeft : kernel.anyScope = i.kernelAddr)
    (hRight : kernel.anyScope = j.kernelAddr) : i = j := by
  have hUnix (socklen : Nat) (path : List UInt8)
      (hSame : kernel.anyScope = (Ident.unix socklen path).kernelAddr) : False := by
    cases hDenotes with
    | ipv4 =>
        simp only [Ident.kernelAddr, KernelAddr.anyScope] at hSame
        split at hSame <;> cases hSame
    | ipv6 =>
        simp only [Ident.kernelAddr, KernelAddr.anyScope] at hSame
        split at hSame <;> cases hSame
    | abstract hFamily => exact hNotUnix hFamily
    | pathname hFamily => exact hNotUnix hFamily
  have hSame : i.kernelAddr = j.kernelAddr := hLeft.symm.trans hRight
  cases i with
  | unix socklen path => exact (hUnix socklen path hLeft).elim
  | inet port host =>
      cases j with
      | unix socklen path => exact (hUnix socklen path hRight).elim
      | inet port' host' =>
          obtain ⟨rfl, rfl⟩ := KernelAddr.ipv4.inj hSame
          rfl
      | inet6 port' host' => cases hSame
  | inet6 port host =>
      cases j with
      | unix socklen path => exact (hUnix socklen path hRight).elim
      | inet port' host' => cases hSame
      | inet6 port' host' =>
          obtain ⟨rfl, rfl, -⟩ := KernelAddr.ipv6.inj hSame
          rfl

/-- Addresses of the internet families that the kernel takes for one are equal. -/
theorem eq_of_kernelAddr_eq {left right : Sockaddr} {a b : InetAddr}
    (hLeft : makeFromSockaddr (some left) = some a)
    (hRight : makeFromSockaddr (some right) = some b)
    (hFamily : right.family = AF_INET ∨ right.family = AF_INET6)
    (hSame : a.sockaddr.kernelAddr = right.kernelAddr) : a.eq b = true := by
  have hNotUnix : right.family ≠ AF_UNIX := by
    rcases hFamily with hInet | hInet <;> rw [hInet] <;> decide
  obtain ⟨rightAddr, hRightAddr, -⟩ := (decoded hRight).kernelAddr
  have hLeftKept : a.sockaddr.kernelAddr = some rightAddr := hSame.trans hRightAddr
  have hRightKept : b.sockaddr.kernelAddr = some rightAddr :=
    (kernelAddr_decoded hRight hNotUnix).symm.trans hRightAddr
  obtain ⟨i, hLeftIdent⟩ := (decoded hLeft).ident
  obtain ⟨j, hRightIdent⟩ := (decoded hRight).ident
  have hIdents : i = j := Ident.eq_of_kernelAddr (Sockaddr.denotes hRightAddr)
    hNotUnix (anyScope_of_ident hLeftIdent hLeftKept)
    (anyScope_of_ident hRightIdent hRightKept)
  exact eq_iff.mpr ⟨i, hLeftIdent, hIdents ▸ hRightIdent⟩

end InetAddr
end Net
end KZEvent
