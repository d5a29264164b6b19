import KZEvent.Core.EventType
import KZEvent.Foundation.DoubleBuffer
import KZEvent.Foundation.Run
import KZEvent.Net.EdgeDrain
import KZEvent.Net.UdpSessions

/-!
# The UDP client

`UdpClient` talks to one peer, `source_`.  On the io thread the handler of
`DgramSocket` receives datagrams until the kernel has no more or the loop breaks, and
fetches the error of the socket.  `on_read` drops what comes before `read_cb_` is set
or from somebody else, and posts a heavy task for each other datagram.  What is to be
sent is posted as an io task, and `dgram_send` hands it to the kernel or drops it.

So `read_cb_` is called for the datagrams of the peer in the order in which they were
queued at the socket, once each, and what is sent is part of what was posted, in order.
-/

namespace KZEvent
namespace Net

open KZEvent.Core Foundation EventType

/-! ## The handler of a datagram socket -/

/-- A datagram queued at a socket, with the address of its sender. -/
structure Packet where
  data : List UInt8
  sender : Sockaddr

/-- What `on_read` gets of a datagram, unless its sender cannot be decoded. -/
def Packet.read? (packet : Packet) : Option (List UInt8 × InetAddr) :=
  (InetAddr.makeFromSockaddr (some packet.sender)).map fun source =>
    (packet.data, source)

namespace RecvfromRet

def ofPacket (packet : Packet) : RecvfromRet := .packet packet.data packet.sender

def packet? : RecvfromRet → Option Packet
  | packet bytes source => some ⟨bytes, source⟩
  | error _ => none

/-- The kernel hands over queued datagrams, and then an error. -/
def ofQueue (packets : List Packet) (errno : Errno) : List RecvfromRet :=
  packets.map ofPacket ++ [.error errno]

end RecvfromRet

/-- A call that the handler makes. -/
inductive DgramCall
  | onRead (data : List UInt8) (source : InetAddr)
  | onError (err : Errno)

/-- The handler of `DgramSocket::start`, by the calls it makes: `rets` is what
`recvfrom` returns, `soError` what `getsockopt` fetches. -/
def DgramSocket.handler (types : EventType) (rets : List RecvfromRet)
    (soError : Errno) : List DgramCall :=
  (if hasFlag types kRead then
    (receiveLoop rets).handled.map fun read => .onRead read.1 read.2
  else []) ++
  (if hasFlag types kError then
    if soError ≠ 0 then [.onError soError] else []
  else [])

/-- What the loop leaves of the datagrams it was given. -/
def DgramSocket.unread (rets : List RecvfromRet) : List Packet :=
  (receiveLoop rets).unread.filterMap (·.packet?)

/-- The loop hands on what it takes off the queue and can decode. -/
theorem DgramSocket.receiveLoop_ofQueue (packets : List Packet) (errno : Errno) :
    ∃ consumed,
      packets = consumed ++ unread (RecvfromRet.ofQueue packets errno) ∧
      (receiveLoop (RecvfromRet.ofQueue packets errno)).handled =
        consumed.filterMap Packet.read? := by
  induction packets with
  | nil => exact ⟨[], rfl, rfl⟩
  | cons packet packets ih =>
      have hCons : RecvfromRet.ofQueue (packet :: packets) errno =
          .packet packet.data packet.sender :: RecvfromRet.ofQueue packets errno :=
        rfl
      cases hSource : InetAddr.makeFromSockaddr (some packet.sender) with
      | none =>
          -- The loop breaks on it, and what is behind it stays queued.
          have hTurn : receiveTurn (.packet packet.data packet.sender) = .breaks := by
            simp only [receiveTurn, dgramRecv, hSource]
          have hRead : packet.read? = none := by
            simp only [Packet.read?, hSource, Option.map_none]
          refine ⟨[packet], ?_, ?_⟩
          · have hUnread : (RecvfromRet.ofQueue packets errno).filterMap
                (·.packet?) = packets := by
              simp [RecvfromRet.ofQueue, RecvfromRet.ofPacket, RecvfromRet.packet?,
                List.filterMap_map, Function.comp_def]
            rw [hCons]
            simp only [unread, receiveLoop, drain, hTurn, hUnread]
            rfl
          · rw [hCons]
            simp only [receiveLoop, drain, hTurn, List.filterMap_cons_none hRead,
              List.filterMap_nil]
      | some source =>
          have hTurn : receiveTurn (.packet packet.data packet.sender) =
              .goesOn (some (packet.data, source)) := by
            simp [receiveTurn, dgramRecv, hSource, RecvfromRet.bytes]
          have hRead : packet.read? = some (packet.data, source) := by
            simp only [Packet.read?, hSource, Option.map_some]
          obtain ⟨consumed, hPackets, hHandled⟩ := ih
          refine ⟨packet :: consumed, ?_, ?_⟩
          · rw [hCons]
            simp only [unread, receiveLoop, drain, hTurn, List.cons_append]
            exact congrArg (packet :: ·) hPackets
          · rw [hCons, List.filterMap_cons_some hRead]
            simp only [receiveLoop, drain, hTurn, Option.toList_some,
              List.cons_append, List.nil_append]
            exact congrArg ((packet.data, source) :: ·) hHandled

/-! ## The client -/

/-- The tasks in the heavy queue. -/
inductive DatagramTask
  | readCb (data : List UInt8)
  | user

def DatagramTask.data? : DatagramTask → Option (List UInt8)
  | readCb data => some data
  | user => none

/-- The result of `sendto`; a datagram is sent as a whole. -/
inductive SendtoRet
  | sent
  | error (errno : Errno)

/-- `dgram_send`: what goes to the network. -/
def dgramSend : SendtoRet → List UInt8 → Option (List UInt8)
  | .sent, data => some data
  -- With or without a message, the datagram is dropped.
  | .error _, _ => none

/-- A call of `on_read`, and whether `read_cb_` was set. -/
structure HandedDatagram where
  data : List UInt8
  source : InetAddr
  readCb : Bool

/-- A client with its socket: `queue` is what the kernel holds.  `arrived`, `handed`,
`sent` and `errorCalls` are ghost records of what came to the socket, of the calls of
`on_read`, of what went to `source_`, and of the calls of `error_cb_`. -/
structure UdpClient where
  source : InetAddr
  readCb : Bool
  errorCb : Bool
  heavy : DoubleBuffer DatagramTask
  io : DoubleBuffer (List UInt8)
  queue : List Packet
  arrived : List Packet
  handed : List HandedDatagram
  sent : List (List UInt8)
  errorCalls : Nat

/-- A step of a run. -/
inductive UdpClientAction
  | setReadCb (set : Bool)
  | setErrorCb (set : Bool)
  | postSendTask (data : List UInt8)
  | postHeavyTask
  | arrive (packet : Packet)
  | dispatch (types : EventType) (count : Nat) (errno soError : Errno)
  | io (action : DoubleBuffer.ConsumerStep) (ret : SendtoRet)
  | heavy (action : DoubleBuffer.ConsumerStep)

namespace UdpClient

/-- `make_udp_client`, of the addresses. -/
def make (localAddr source : InetAddr) : Option UdpClient :=
  if localAddr.sockaddr.family ≠ AF_INET ∧ localAddr.sockaddr.family ≠ AF_INET6 then
    none
  else if localAddr.sockaddr.family ≠ source.sockaddr.family then none
  else
    some
      { source := source
        readCb := false
        errorCb := false
        heavy := .empty
        io := .empty
        queue := []
        arrived := []
        handed := []
        sent := []
        errorCalls := 0 }

def post (s : UdpClient) (task : DatagramTask) : UdpClient :=
  { s with heavy := s.heavy.push task }

def onRead (s : UdpClient) (data : List UInt8) (source : InetAddr) : UdpClient :=
  if s.readCb = false then s
  else if source.ne s.source then s
  else s.post (.readCb data)

def onError (s : UdpClient) (err : Errno) : UdpClient :=
  if s.errorCb = false then s
  else if err = ECONNREFUSED then { s with errorCalls := s.errorCalls + 1 }
  else s

def record (s : UdpClient) (handed : HandedDatagram) : UdpClient :=
  { s with handed := s.handed ++ [handed] }

/-- One of the calls of the handler. -/
def call (s : UdpClient) : DgramCall → UdpClient
  | .onRead data source => (s.onRead data source).record ⟨data, source, s.readCb⟩
  | .onError err => s.onError err

/-- What `recvfrom` returns: the first datagrams of the queue, and an error. -/
def answers (s : UdpClient) (count : Nat) (errno : Errno) : List RecvfromRet :=
  RecvfromRet.ofQueue (s.queue.take count) errno

/-- What is queued after the loop. -/
def left (s : UdpClient) (types : EventType) (count : Nat) (errno : Errno) :
    List Packet :=
  if hasFlag types kRead then
    DgramSocket.unread (s.answers count errno) ++ s.queue.drop count
  else s.queue

/-- A callback that is not set cannot be called. -/
def callable (s : UdpClient) : DoubleBuffer.ConsumerStep → Bool
  | .execute =>
      match s.heavy.exe[s.heavy.next]? with
      | some (.readCb _) => s.readCb
      | _ => true
  | _ => true

/-- One step. -/
def step (s : UdpClient) : UdpClientAction → Option UdpClient
  | .setReadCb set => some { s with readCb := set }
  | .setErrorCb set => some { s with errorCb := set }
  | .postSendTask data => some { s with io := s.io.push data }
  | .postHeavyTask => some (s.post .user)
  | .arrive packet =>
      some { s with queue := s.queue ++ [packet], arrived := s.arrived ++ [packet] }
  | .dispatch types count errno soError =>
      some ((DgramSocket.handler types (s.answers count errno) soError).foldl call
        { s with queue := s.left types count errno })
  | .io action ret =>
      (s.io.consume action).map fun io =>
        { s with
          io := io
          sent := s.sent ++
            (io.executed.drop s.io.executed.length).filterMap (dgramSend ret) }
  | .heavy action =>
      if s.callable action then
        (s.heavy.consume action).map fun heavy => { s with heavy := heavy }
      else none

/-- What was posted to be sent. -/
def posts (actions : List UdpClientAction) : List (List UInt8) :=
  actions.filterMap fun
    | .postSendTask data => some data
    | _ => none

/-- The calls of `read_cb_` posted to the heavy thread. -/
def calls (s : UdpClient) : List (List UInt8) := s.heavy.pushed.filterMap (·.data?)

/-- The calls of `read_cb_` made. -/
def callsMade (s : UdpClient) : List (List UInt8) :=
  s.heavy.executed.filterMap (·.data?)

/-- The datagram is for `read_cb_`. -/
def wants (s : UdpClient) (handed : HandedDatagram) : Bool :=
  handed.readCb && handed.source.eq s.source

/-- The datagrams for `read_cb_`. -/
def wanted (s : UdpClient) : List (List UInt8) :=
  (s.handed.filter s.wants).map (·.data)

/-! ## Inversion of a step -/

/-- What the calls of the handler come to. -/
structure Called (s : UdpClient) (made : List DgramCall) (next : UdpClient) :
    Prop where
  source : next.source = s.source
  io : next.io = s.io
  queue : next.queue = s.queue
  arrived : next.arrived = s.arrived
  sent : next.sent = s.sent
  heavy : s.heavy.Exact → next.heavy.Exact
  handed : next.handed.map (fun handed => (handed.data, handed.source)) =
    s.handed.map (fun handed => (handed.data, handed.source)) ++
      made.filterMap fun
        | .onRead data source => some (data, source)
        | .onError _ => none
  calls : s.calls = s.wanted → next.calls = next.wanted

theorem wanted_record (s : UdpClient) (handed : HandedDatagram) :
    (s.record handed).wanted =
      s.wanted ++ if s.wants handed then [handed.data] else [] := by
  show ((s.handed ++ [handed]).filter s.wants).map (·.data) = _
  rw [List.filter_append, List.map_append]
  cases hWants : s.wants handed <;> simp [hWants, wanted]

theorem calls_post (s : UdpClient) (task : DatagramTask) :
    (s.post task).calls = s.calls ++ task.data?.toList := by
  show (s.heavy.pushed ++ [task]).filterMap (·.data?) = _
  rw [List.filterMap_append]
  cases task <;> rfl

/-- `on_read` posts a task for a datagram that is for `read_cb_`. -/
theorem onRead_eq (s : UdpClient) (data : List UInt8) (source : InetAddr) :
    s.onRead data source =
      if s.wants ⟨data, source, s.readCb⟩ then s.post (.readCb data) else s := by
  unfold onRead wants InetAddr.ne
  cases s.readCb <;> cases source.eq s.source <;> rfl

theorem called_onRead (s : UdpClient) (data : List UInt8) (source : InetAddr) :
    Called s [.onRead data source] (s.call (.onRead data source)) := by
  have hHanded : (s.handed ++ [HandedDatagram.mk data source s.readCb]).map
      (fun handed => (handed.data, handed.source)) =
        s.handed.map (fun handed => (handed.data, handed.source)) ++
          [(data, source)] := by
    rw [List.map_append, List.map_singleton]
  rw [call, onRead_eq]
  cases hWants : s.wants ⟨data, source, s.readCb⟩ with
  | true =>
      exact
        { source := rfl
          io := rfl
          queue := rfl
          arrived := rfl
          sent := rfl
          heavy := fun hExact => hExact.push _
          handed := hHanded
          calls := by
            intro hCalls
            show (s.post (.readCb data)).calls = _
            have hSame : (s.post (.readCb data)).wants ⟨data, source, s.readCb⟩ =
                true := hWants
            rw [calls_post, if_pos rfl, wanted_record, hSame, hCalls]
            rfl }
  | false =>
      exact
        { source := rfl
          io := rfl
          queue := rfl
          arrived := rfl
          sent := rfl
          heavy := id
          handed := hHanded
          calls := by
            intro hCalls
            rw [if_neg Bool.false_ne_true, wanted_record, hWants, ← hCalls]
            exact (List.append_nil _).symm }

theorem called_onError (s : UdpClient) (err : Errno) :
    Called s [.onError err] (s.call (.onError err)) := by
  simp only [call, onError]
  split_ifs
  all_goals
    exact
      { source := rfl
        io := rfl
        queue := rfl
        arrived := rfl
        sent := rfl
        heavy := id
        handed := (List.append_nil _).symm
        calls := id }

theorem called_foldl (s : UdpClient) (made : List DgramCall) :
    Called s made (made.foldl call s) := by
  induction made generalizing s with
  | nil =>
      exact
        { source := rfl
          io := rfl
          queue := rfl
          arrived := rfl
          sent := rfl
          heavy := id
          handed := (List.append_nil _).symm
          calls := id }
  | cons first made ih =>
      have hFirst : Called s [first] (s.call first) := by
        cases first with
        | onRead data source => exact called_onRead s data source
        | onError err => exact called_onError s err
      have hRest := ih (s.call first)
      exact
        { source := hRest.source.trans hFirst.source
          io := hRest.io.trans hFirst.io
          queue := hRest.queue.trans hFirst.queue
          arrived := hRest.arrived.trans hFirst.arrived
          sent := hRest.sent.trans hFirst.sent
          heavy := fun hExact => hRest.heavy (hFirst.heavy hExact)
          handed := by
            rw [List.foldl_cons, hRest.handed, hFirst.handed, List.append_assoc,
              ← List.filterMap_append, List.singleton_append]
          calls := fun hCalls => hRest.calls (hFirst.calls hCalls) }

/-- The handler takes the first datagrams off the queue, and hands them on in
order. -/
theorem called_handler (s : UdpClient) (types : EventType) (count : Nat)
    (errno soError : Errno) :
    ∃ consumed, s.queue = consumed ++ s.left types count errno ∧
      ((DgramSocket.handler types (s.answers count errno) soError).filterMap fun
        | .onRead data source => some (data, source)
        | .onError _ => none) = consumed.filterMap Packet.read? := by
  have hErrors (made : List DgramCall)
      (hMade : made = (if hasFlag types kError then
        if soError ≠ 0 then [.onError soError] else [] else [])) :
      (made.filterMap fun
        | .onRead data source => some (data, source)
        | .onError _ => none) = ([] : List (List UInt8 × InetAddr)) := by
    subst hMade
    split_ifs <;> rfl
  unfold DgramSocket.handler left
  rw [List.filterMap_append, hErrors _ rfl, List.append_nil]
  by_cases hRead : hasFlag types kRead = true
  · obtain ⟨consumed, hTaken, hHandled⟩ :=
      DgramSocket.receiveLoop_ofQueue (s.queue.take count) errno
    refine ⟨consumed, ?_, ?_⟩
    · rw [if_pos hRead, ← List.append_assoc, answers, ← hTaken,
        List.take_append_drop]
    · rw [if_pos hRead, List.filterMap_map]
      show List.filterMap some _ = _
      rw [List.filterMap_some, answers, hHandled]
  · exact ⟨[], by rw [if_neg hRead]; rfl, by rw [if_neg hRead]; rfl⟩

/-- The ways a step can be taken. -/
inductive Stepped (s : UdpClient) : UdpClientAction → UdpClient → Prop
  | setReadCb (set : Bool) : Stepped s (.setReadCb set) { s with readCb := set }
  | setErrorCb (set : Bool) : Stepped s (.setErrorCb set) { s with errorCb := set }
  | postSendTask (data : List UInt8) :
      Stepped s (.postSendTask data) { s with io := s.io.push data }
  | postHeavyTask :
      Stepped s .postHeavyTask (s.post .user)
  | arrive (packet : Packet) :
      Stepped s (.arrive packet)
        { s with queue := s.queue ++ [packet], arrived := s.arrived ++ [packet] }
  | dispatch {types : EventType} {count : Nat} {errno soError : Errno}
      {made : List DgramCall} {consumed left : List Packet} {next : UdpClient}
      (hQueue : s.queue = consumed ++ left)
      (hMade : (made.filterMap fun
        | .onRead data source => some (data, source)
        | .onError _ => none) = consumed.filterMap Packet.read?)
      (hCalled : Called { s with queue := left } made next) :
      Stepped s (.dispatch types count errno soError) next
  | io {action : DoubleBuffer.ConsumerStep} {ret : SendtoRet}
      {io : DoubleBuffer (List UInt8)} {taken : List (List UInt8)}
      (hConsume : s.io.consume action = some io)
      (hTaken : io.executed = s.io.executed ++ taken) :
      Stepped s (.io action ret)
        { s with io := io, sent := s.sent ++ taken.filterMap (dgramSend ret) }
  | heavy {action : DoubleBuffer.ConsumerStep} {heavy : DoubleBuffer DatagramTask}
      (hConsume : s.heavy.consume action = some heavy) :
      Stepped s (.heavy action) { s with heavy := heavy }

variable {s next : UdpClient}

theorem stepped {action : UdpClientAction} (hStep : s.step action = some next) :
    Stepped s action next := by
  cases action with
  | setReadCb set =>
      obtain rfl := Option.some.inj hStep
      exact .setReadCb set
  | setErrorCb set =>
      obtain rfl := Option.some.inj hStep
      exact .setErrorCb set
  | postSendTask data =>
      obtain rfl := Option.some.inj hStep
      exact .postSendTask data
  | postHeavyTask =>
      obtain rfl := Option.some.inj hStep
      exact .postHeavyTask
  | arrive packet =>
      obtain rfl := Option.some.inj hStep
      exact .arrive packet
  | dispatch types count errno soError =>
      obtain rfl := Option.some.inj hStep
      obtain ⟨consumed, hQueue, hMade⟩ :=
        s.called_handler types count errno soError
      exact .dispatch hQueue hMade (called_foldl _ _)
  | io action ret =>
      obtain ⟨io, hConsume, rfl⟩ := Option.map_eq_some_iff.mp hStep
      obtain ⟨taken, hTaken⟩ := DoubleBuffer.consume_executed_prefix hConsume
      rw [← hTaken, List.drop_left]
      exact .io hConsume hTaken.symm
  | heavy action =>
      obtain ⟨-, hNext⟩ := Option.ite_none_right_eq_some.mp hStep
      obtain ⟨heavy, hConsume, rfl⟩ := Option.map_eq_some_iff.mp hNext
      exact .heavy hConsume

/-! ## The invariant -/

/-- The records of a client that was asked to send `posted`. -/
structure Kept (s : UdpClient) (posted : List (List UInt8)) : Prop where
  io : s.io.Exact
  heavy : s.heavy.Exact
  posted : s.io.pushed = posted
  sent : s.sent.Sublist s.io.executed
  received : ∃ consumed, s.arrived = consumed ++ s.queue ∧
    s.handed.map (fun handed => (handed.data, handed.source)) =
      consumed.filterMap Packet.read?
  calls : s.calls = s.wanted

/-- What an action asks to send. -/
def addPost (posted : List (List UInt8)) (action : UdpClientAction) :
    List (List UInt8) :=
  posted ++ posts [action]

theorem foldl_addPost (posted : List (List UInt8))
    (actions : List UdpClientAction) :
    actions.foldl addPost posted = posted ++ posts actions := by
  induction actions generalizing posted with
  | nil => exact (List.append_nil posted).symm
  | cons action actions ih =>
      have hCons : posts (action :: actions) = posts [action] ++ posts actions := by
        rw [posts, posts, posts, ← List.filterMap_append, List.singleton_append]
      rw [List.foldl_cons, ih, addPost, List.append_assoc, ← hCons]

theorem make_eq_some {localAddr source : InetAddr} {made : UdpClient}
    (hMake : make localAddr source = some made) :
    (localAddr.sockaddr.family = AF_INET ∨ localAddr.sockaddr.family = AF_INET6) ∧
      source.sockaddr.family = localAddr.sockaddr.family ∧
      made = ⟨source, false, false, .empty, .empty, [], [], [], [], 0⟩ := by
  unfold make at hMake
  obtain ⟨hFamily, hRest⟩ := Option.ite_none_left_eq_some.mp hMake
  obtain ⟨hSame, hMade⟩ := Option.ite_none_left_eq_some.mp hRest
  refine ⟨?_, (not_not.mp hSame).symm, (Option.some.inj hMade).symm⟩
  by_cases hInet : localAddr.sockaddr.family = AF_INET
  · exact .inl hInet
  · exact .inr (not_not.mp fun hInet6 => hFamily ⟨hInet, hInet6⟩)

theorem kept_make {localAddr source : InetAddr} {made : UdpClient}
    (hMake : make localAddr source = some made) : made.Kept [] := by
  obtain ⟨-, -, rfl⟩ := make_eq_some hMake
  exact
    { io := DoubleBuffer.exact_empty
      heavy := DoubleBuffer.exact_empty
      posted := rfl
      sent := List.Sublist.slnil
      received := ⟨[], rfl, rfl⟩
      calls := rfl }

theorem Kept.step {posted : List (List UInt8)} {action : UdpClientAction}
    (hKept : s.Kept posted) (hStep : Stepped s action next) :
    next.Kept (addPost posted action) := by
  have hNothing (hPosts : posts [action] = []) : addPost posted action = posted := by
    rw [addPost, hPosts, List.append_nil]
  cases hStep with
  | setReadCb set => rw [hNothing rfl]; exact { hKept with }
  | setErrorCb set => rw [hNothing rfl]; exact { hKept with }
  | postSendTask data =>
      exact
        { hKept with
          io := hKept.io.push data
          posted := congrArg (· ++ [data]) hKept.posted }
  | postHeavyTask =>
      rw [hNothing rfl]
      refine { hKept with heavy := hKept.heavy.push _, calls := ?_ }
      rw [calls_post]
      exact (List.append_nil _).trans hKept.calls
  | arrive packet =>
      rw [hNothing rfl]
      obtain ⟨consumed, hArrived, hHanded⟩ := hKept.received
      refine { hKept with received := ⟨consumed, ?_, hHanded⟩ }
      show s.arrived ++ [packet] = consumed ++ (s.queue ++ [packet])
      rw [hArrived, List.append_assoc]
  | @dispatch types count errno soError made consumed left next hQueue hMade
      hCalled =>
      rw [hNothing rfl]
      obtain ⟨before, hArrived, hHanded⟩ := hKept.received
      exact
        { io := by rw [hCalled.io]; exact hKept.io
          heavy := hCalled.heavy hKept.heavy
          posted := by rw [hCalled.io]; exact hKept.posted
          sent := by rw [hCalled.sent, hCalled.io]; exact hKept.sent
          received := by
            refine ⟨before ++ consumed, ?_, ?_⟩
            · rw [hCalled.arrived, hCalled.queue]
              show s.arrived = before ++ consumed ++ left
              rw [hArrived, hQueue, List.append_assoc]
            · rw [hCalled.handed, hMade, List.filterMap_append]
              exact congrArg (· ++ consumed.filterMap Packet.read?) hHanded
          calls := hCalled.calls hKept.calls }
  | @io action ret io taken hConsume hTaken =>
      rw [hNothing rfl]
      obtain ⟨hExact, hPushed⟩ := hKept.io.consume hConsume
      have hSent : (taken.filterMap (dgramSend ret)).Sublist taken := by
        cases ret with
        | sent =>
            have hAll : dgramSend .sent = some := rfl
            rw [hAll, List.filterMap_some]
        | error errno =>
            have hNone : taken.filterMap (dgramSend (.error errno)) = [] :=
              List.filterMap_eq_nil_iff.mpr fun _ _ => rfl
            rw [hNone]
            exact List.nil_sublist taken
      exact
        { hKept with
          io := hExact
          posted := hPushed.trans hKept.posted
          sent := by
            show List.Sublist _ io.executed
            rw [hTaken]
            exact hKept.sent.append hSent }
  | @heavy action heavy hConsume =>
      rw [hNothing rfl]
      obtain ⟨hExact, hPushed⟩ := hKept.heavy.consume hConsume
      refine { hKept with heavy := hExact, calls := ?_ }
      show heavy.pushed.filterMap (·.data?) = _
      rw [hPushed]
      exact hKept.calls

theorem Stepped.source_eq {action : UdpClientAction}
    (hStep : Stepped s action next) : next.source = s.source := by
  cases hStep with
  | dispatch hQueue hMade hCalled => exact hCalled.source
  | setReadCb => rfl
  | setErrorCb => rfl
  | postSendTask => rfl
  | postHeavyTask => rfl
  | arrive => rfl
  | io => rfl
  | heavy => rfl

theorem kept_of_run {localAddr source : InetAddr} {made s : UdpClient}
    {actions : List UdpClientAction}
    (hMake : make localAddr source = some made)
    (hRun : run UdpClient.step made actions = some s) :
    s.Kept (posts actions) := by
  have hKept := run_simulates addPost
    (fun state posted action next (hState : state.Kept posted) hStep =>
      hState.step (stepped hStep)) (kept_make hMake) hRun
  rwa [foldl_addPost, List.nil_append] at hKept

/-- The calls made are the first of those posted, and all of them in the end. -/
theorem Kept.callsMade_prefix {posted : List (List UInt8)}
    (hKept : s.Kept posted) : s.callsMade <+: s.wanted := by
  rw [← hKept.calls]
  exact hKept.heavy.executed_prefix.filterMap _

/-! ## The calls of `error_cb_` -/

/-- The handler is told of a refused connection. -/
def refused : UdpClientAction → Bool
  | .dispatch types _ _ soError =>
      hasFlag types kError && decide (soError = ECONNREFUSED)
  | _ => false

/-- A step that calls `error_cb_`. -/
def reports (s : UdpClient) (action : UdpClientAction) : Bool :=
  s.errorCb && refused action

theorem errorCalls_onRead (s : UdpClient) (data : List UInt8) (source : InetAddr) :
    (s.onRead data source).errorCalls = s.errorCalls ∧
      (s.onRead data source).errorCb = s.errorCb := by
  rw [onRead_eq]
  split_ifs <;> exact ⟨rfl, rfl⟩

theorem errorCalls_foldl_onRead (s : UdpClient)
    (reads : List (List UInt8 × InetAddr)) :
    ((reads.map fun read => DgramCall.onRead read.1 read.2).foldl call s).errorCalls =
        s.errorCalls ∧
      ((reads.map fun read => DgramCall.onRead read.1 read.2).foldl call s).errorCb =
        s.errorCb := by
  induction reads generalizing s with
  | nil => exact ⟨rfl, rfl⟩
  | cons read reads ih =>
      obtain ⟨hCalls, hSet⟩ := errorCalls_onRead s read.1 read.2
      obtain ⟨hCallsRest, hSetRest⟩ := ih (s.call (.onRead read.1 read.2))
      exact ⟨hCallsRest.trans hCalls, hSetRest.trans hSet⟩

theorem errorCalls_onError (s : UdpClient) (err : Errno) :
    (s.onError err).errorCalls =
      s.errorCalls + (s.errorCb && decide (err = ECONNREFUSED)).toNat := by
  unfold onError
  cases s.errorCb
  · rfl
  · by_cases hRefused : err = ECONNREFUSED <;> simp [hRefused]

theorem errorCalls_handler (s : UdpClient) (types : EventType)
    (rets : List RecvfromRet) (soError : Errno) :
    ((DgramSocket.handler types rets soError).foldl call s).errorCalls =
      s.errorCalls + (s.errorCb &&
        (hasFlag types kError && decide (soError = ECONNREFUSED))).toNat := by
  rw [DgramSocket.handler, List.foldl_append]
  generalize hReads : (if hasFlag types kRead then
    (DgramSocket.receiveLoop rets).handled.map fun read =>
      DgramCall.onRead read.1 read.2 else []) = reads
  obtain ⟨hCalls, hSet⟩ : (reads.foldl call s).errorCalls = s.errorCalls ∧
      (reads.foldl call s).errorCb = s.errorCb := by
    subst hReads
    split_ifs
    · exact errorCalls_foldl_onRead s _
    · exact ⟨rfl, rfl⟩
  cases hasFlag types kError with
  | false => simpa using hCalls
  | true =>
      by_cases hZero : soError = 0
      · subst hZero
        simpa [ECONNREFUSED] using hCalls
      · rw [if_pos rfl, if_pos hZero]
        show ((reads.foldl call s).onError soError).errorCalls = _
        rw [errorCalls_onError, hCalls, hSet, Bool.true_and]

theorem errorCalls_step (s : UdpClient) (action : UdpClientAction)
    (next : UdpClient) (hStep : s.step action = some next) :
    next.errorCalls = s.errorCalls + (s.reports action).toNat := by
  cases action with
  | dispatch types count errno soError =>
      obtain rfl := Option.some.inj hStep
      exact errorCalls_handler _ _ _ _
  | _ =>
      have hSame : next.errorCalls = s.errorCalls := by
        cases stepped hStep
        rfl
      simp [hSame, reports, refused]

/-! ## What a client does -/

/-- **A client reads its peer's datagrams in order.**  In every run the handler hands
on, in the order of their arrival, the datagrams it takes off the queue of the socket,
except those whose sender cannot be decoded.  `read_cb_` is called for those that come
from an address equal to `source_` while it is set: the calls made are the first of
them, and all of them once the heavy thread has nothing left to do.  What goes to the
network is part of what was posted, in order, and `error_cb_` is called once for each
refused connection that is reported while it is set. -/
theorem client_reads_in_order {localAddr source : InetAddr} {made s : UdpClient}
    {actions : List UdpClientAction}
    (hMake : make localAddr source = some made)
    (hRun : run UdpClient.step made actions = some s) :
    s.source = source ∧
    (∃ consumed, s.arrived = consumed ++ s.queue ∧
      s.handed.map (fun handed => (handed.data, handed.source)) =
        consumed.filterMap Packet.read?) ∧
    s.callsMade <+: s.wanted ∧ (s.heavy.Done → s.callsMade = s.wanted) ∧
    s.sent.Sublist (posts actions) ∧
    s.errorCalls = countSteps UdpClient.step reports made actions := by
  have hKept := kept_of_run hMake hRun
  have hSameSource (state : UdpClient) (action : UdpClientAction) (next : UdpClient)
      (hState : state.source = made.source) (hStep : state.step action = some next) :
      next.source = made.source :=
    (stepped hStep).source_eq.trans hState
  have hSource : s.source = made.source := run_keeps hSameSource rfl hRun
  have hErrors := run_counts errorCalls_step hRun
  obtain ⟨-, -, rfl⟩ := make_eq_some hMake
  refine ⟨hSource, hKept.received, hKept.callsMade_prefix, fun hDone => ?_, ?_, ?_⟩
  · rw [callsMade, hKept.heavy.executed_eq hDone.idle hDone.buffer]
    exact hKept.calls
  · rw [← hKept.posted]
    exact hKept.sent.trans hKept.io.executed_prefix.sublist
  · rw [hErrors, Nat.zero_add]

/-- Two datagrams of the peer with one of a stranger between them, a refused
connection, and a datagram sent; the second call is still posted. -/
theorem client_reads_in_order_stranger :
    let own := UdpServer.loopback 9
    let peer := UdpServer.loopback 1
    let actions : List UdpClientAction :=
      [.setReadCb true, .setErrorCb true, .arrive ⟨[1], peer⟩,
        .arrive ⟨[2], UdpServer.loopback 2⟩, .arrive ⟨[3], peer⟩,
        .dispatch (kRead ||| kError) 3 EAGAIN ECONNREFUSED, .heavy .swap,
        .heavy .execute, .postSendTask [7], .io .swap .sent, .io .execute .sent]
    ∃ localAddr source made s,
      InetAddr.makeFromSockaddr (some own) = some localAddr ∧
      InetAddr.makeFromSockaddr (some peer) = some source ∧
      make localAddr source = some made ∧
      run UdpClient.step made actions = some s ∧
      s.wanted = [[1], [3]] ∧ s.callsMade = [[1]] ∧ s.callsMade <+: s.wanted ∧
      s.sent = [[7]] ∧ s.errorCalls = 1 ∧
      s.sent.Sublist (posts actions) := by
  intro own peer actions
  have hOutcome : (InetAddr.makeFromSockaddr (some own)).any (fun localAddr =>
      (InetAddr.makeFromSockaddr (some peer)).any fun source =>
        (make localAddr source).any fun made =>
          (run UdpClient.step made actions).any fun s => decide
            (s.wanted = [[1], [3]] ∧ s.callsMade = [[1]] ∧ s.sent = [[7]] ∧
              s.errorCalls = 1)) = true := by
    decide +kernel
  obtain ⟨localAddr, hLocal, hRest⟩ := (Option.any_eq_true _ _).mp hOutcome
  obtain ⟨source, hSource, hRest⟩ := (Option.any_eq_true _ _).mp hRest
  obtain ⟨made, hMake, hRest⟩ := (Option.any_eq_true _ _).mp hRest
  obtain ⟨s, hRun, hView⟩ := (Option.any_eq_true _ _).mp hRest
  obtain ⟨hWanted, hCalls, hSent, hErrors⟩ := of_decide_eq_true hView
  obtain ⟨-, -, hPrefix, -, hSublist, -⟩ := client_reads_in_order hMake hRun
  exact ⟨localAddr, source, made, s, hLocal, hSource, hMake, hRun, hWanted, hCalls,
    hPrefix, hSent, hErrors, hSublist⟩

end UdpClient
end Net
end KZEvent
