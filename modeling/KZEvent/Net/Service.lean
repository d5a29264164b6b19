import KZEvent.Foundation.Transducer
import KZEvent.Net.LengthPrefix
import KZEvent.Net.NoStall

/-!
# A service over a connection

The fragment callback of a server runs on the heavy thread: it reads and sets the
context of the session and posts replies, one `post_send_task` after the other, while
everything else goes on.  Only when it has returned does the heavy thread take the
next fragment.

The client posts requests whenever it likes.  What its own heavy thread gets to see is
the first part of the answers to these requests, and all of them once nothing moves.
The server of the TCP example is such a service.
-/

namespace KZEvent
namespace Net

open KZEvent.Core Foundation EventType

/-- A connection, the context of the session, and the replies the running callback has
still to post. -/
structure Service (Ctx : Type*) where
  conn : Connection
  ctx : Ctx
  outbox : List (List UInt8)

/-- A step of the connection, of the heavy thread of the server, or of the running
callback. -/
inductive ServiceAction
  | move (action : ConnectionAction)
  | heavy (action : DoubleBuffer.ConsumerStep)
  | reply

/-- Neither a call of the session nor a step of the server's heavy thread. -/
def ConnectionAction.foreign : ConnectionAction → Bool
  | .session (.call _) _ | .sessionHeavy _ => false
  | _ => true

namespace Service

variable {Ctx : Type*}

def start (ctx : Ctx) : Service Ctx where
  conn := .start
  ctx := ctx
  outbox := []

/-- One step; `serve` is the fragment callback.  The connection takes steps of
`Connection.step`, with what that leaves out. -/
def step (split : List UInt8 → Int)
    (serve : Ctx → List UInt8 → Ctx × List (List UInt8)) (s : Service Ctx) :
    ServiceAction → Option (Service Ctx)
  | .move action =>
      if action.foreign = true then
        (s.conn.step split action).map fun conn => { s with conn := conn }
      else none
  | .heavy action =>
      if s.outbox = [] then
        (s.conn.step split (.sessionHeavy action)).map fun conn =>
          let taken := conn.sessionHeavy.executed.drop
            s.conn.sessionHeavy.executed.length
          { conn := conn
            ctx := stateAfter serve s.ctx taken
            outbox := answers serve s.ctx taken }
      else none
  | .reply =>
      match s.outbox with
      | [] => none
      | data :: outbox =>
          (s.conn.step split (.session (.call (.postSendTask data)) true)).map
            fun conn => { s with conn := conn, outbox := outbox }

/-- The requests the client posted, in order. -/
def requests (actions : List ServiceAction) : List (List UInt8) :=
  actions.filterMap fun
    | .move (.client action _) => action.payload?
    | _ => none

/-- The ways a step can be taken, with their preconditions. -/
inductive Stepped (split : List UInt8 → Int)
    (serve : Ctx → List UInt8 → Ctx × List (List UInt8)) (s : Service Ctx) :
    ServiceAction → Service Ctx → Prop
  | move {action : ConnectionAction} {conn : Connection}
      (hForeign : action.foreign = true)
      (hStep : s.conn.step split action = some conn) :
      Stepped split serve s (.move action) { s with conn := conn }
  | heavy {action : DoubleBuffer.ConsumerStep} {conn : Connection}
      {taken : List (List UInt8)} (hOutbox : s.outbox = [])
      (hStep : s.conn.step split (.sessionHeavy action) = some conn)
      (hTaken : conn.sessionHeavy.executed =
        s.conn.sessionHeavy.executed ++ taken) :
      Stepped split serve s (.heavy action)
        { conn := conn
          ctx := stateAfter serve s.ctx taken
          outbox := answers serve s.ctx taken }
  | reply {data : List UInt8} {outbox : List (List UInt8)} {conn : Connection}
      (hOutbox : s.outbox = data :: outbox)
      (hStep : s.conn.step split (.session (.call (.postSendTask data)) true) =
        some conn) :
      Stepped split serve s .reply { s with conn := conn, outbox := outbox }

theorem stepped {split : List UInt8 → Int}
    {serve : Ctx → List UInt8 → Ctx × List (List UInt8)} {s next : Service Ctx}
    {action : ServiceAction} (hStep : step split serve s action = some next) :
    Stepped split serve s action next := by
  cases action with
  | move action =>
      simp only [step, Option.ite_none_right_eq_some] at hStep
      obtain ⟨hForeign, hNext⟩ := hStep
      obtain ⟨conn, hConn, rfl⟩ := Option.map_eq_some_iff.mp hNext
      exact .move hForeign hConn
  | heavy action =>
      simp only [step, Option.ite_none_right_eq_some] at hStep
      obtain ⟨hOutbox, hNext⟩ := hStep
      obtain ⟨conn, hConn, rfl⟩ := Option.map_eq_some_iff.mp hNext
      refine .heavy hOutbox hConn ?_
      cases Connection.stepped hConn with
      | sessionHeavy hConsume =>
          obtain ⟨taken, hTaken⟩ := DoubleBuffer.consume_executed_prefix hConsume
          show _ = _ ++ List.drop _ _
          rw [← hTaken, List.drop_left]
  | reply =>
      simp only [step] at hStep
      split at hStep
      · cases hStep
      · rename_i hOutbox
        obtain ⟨conn, hConn, rfl⟩ := Option.map_eq_some_iff.mp hStep
        exact .reply hOutbox hConn

/-! ## What the session is asked to send -/

/-- The connection under the service is in a run of its own, in which the session was
asked to send the answers to what the heavy thread has executed, but for those the
callback has still to post. -/
structure Answering (split : List UInt8 → Int)
    (serve : Ctx → List UInt8 → Ctx × List (List UInt8)) (ctx : Ctx)
    (s : Service Ctx) (actions : List ConnectionAction)
    (asked : List (List UInt8)) : Prop where
  run : run (Connection.step split) .start actions = some s.conn
  asked : Connection.clientPosts actions = asked
  context : s.ctx = stateAfter serve ctx s.conn.sessionHeavy.executed
  answered : Connection.sessionPosts actions ++ s.outbox =
    answers serve ctx s.conn.sessionHeavy.executed

section Steps

variable {split : List UInt8 → Int}
  {serve : Ctx → List UInt8 → Ctx × List (List UInt8)}

theorem run_concat {actions : List ConnectionAction} {conn next : Connection}
    {action : ConnectionAction}
    (hRun : Foundation.run (Connection.step split) .start actions = some conn)
    (hStep : conn.step split action = some next) :
    Foundation.run (Connection.step split) .start (actions ++ [action]) =
      some next :=
  run_append_eq_some_iff.mpr
    ⟨conn, hRun, run_cons_eq_some_iff.mpr ⟨next, hStep, rfl⟩⟩

/-- A foreign step executes no fragment and asks the session for nothing. -/
theorem foreign_step {conn next : Connection} {action : ConnectionAction}
    (hForeign : action.foreign = true)
    (hStep : conn.step split action = some next) :
    next.sessionHeavy.executed = conn.sessionHeavy.executed ∧
      Connection.sessionPosts [action] = [] := by
  cases Connection.stepped hStep with
  | client hFlow hServed hClient => exact ⟨rfl, rfl⟩
  | session hAccepted hFlow hServed hSession =>
      rename_i action room session
      refine ⟨DoubleBuffer.pushAll_executed _ _, ?_⟩
      cases action with
      | call call => cases hForeign
      | execTask faults ret => rfl
      | dispatch fuel inv => rfl
      | perform => rfl
      | destroyServer => rfl
  | establish hNot hConnecting => exact ⟨rfl, rfl⟩
  | accept hEstablished hNot => exact ⟨rfl, rfl⟩
  | carryToSession hSome hCount => exact ⟨rfl, rfl⟩
  | carryToClient hSome hCount => exact ⟨rfl, rfl⟩
  | clientRoom hEstablished hFull => exact ⟨rfl, rfl⟩
  | sessionRoom hFull => exact ⟨rfl, rfl⟩
  | clientWait hIdle hReady hNone => exact ⟨rfl, rfl⟩
  | sessionWait hIdle hReady hNone => exact ⟨rfl, rfl⟩
  | clientHeavy hConsume => exact ⟨rfl, rfl⟩
  | sessionHeavy hConsume => cases hForeign

/-- What an action of the service asks for. -/
def addRequest (asked : List (List UInt8)) (action : ServiceAction) :
    List (List UInt8) :=
  asked ++ requests [action]

theorem answering_step {ctx : Ctx} (s : Service Ctx) (asked : List (List UInt8))
    (action : ServiceAction) (next : Service Ctx)
    (hInv : ∃ actions, Answering split serve ctx s actions asked)
    (hStep : step split serve s action = some next) :
    ∃ actions, Answering split serve ctx next actions (addRequest asked action) := by
  obtain ⟨actions, hInv⟩ := hInv
  cases stepped hStep with
  | move hForeign hConn =>
      rename_i action conn
      obtain ⟨hExecuted, hPosts⟩ := foreign_step hForeign hConn
      have hAsked : Connection.clientPosts [action] = requests [.move action] := by
        cases action <;> rfl
      refine ⟨actions ++ [action], run_concat hInv.run hConn, ?_, ?_, ?_⟩
      · rw [Connection.clientPosts, List.filterMap_append, ← Connection.clientPosts,
          ← Connection.clientPosts, hInv.asked, hAsked, addRequest]
      · show s.ctx = stateAfter serve ctx conn.sessionHeavy.executed
        rw [hExecuted]
        exact hInv.context
      · show _ ++ s.outbox = answers serve ctx conn.sessionHeavy.executed
        rw [hExecuted, Connection.sessionPosts, List.filterMap_append,
          ← Connection.sessionPosts, ← Connection.sessionPosts, hPosts,
          List.append_nil]
        exact hInv.answered
  | heavy hOutbox hConn hTaken =>
      rename_i action conn taken
      have hBefore := hInv.answered
      rw [hOutbox, List.append_nil] at hBefore
      refine ⟨actions ++ [.sessionHeavy action], run_concat hInv.run hConn, ?_, ?_, ?_⟩
      · rw [Connection.clientPosts, List.filterMap_append, ← Connection.clientPosts,
          hInv.asked]
        rfl
      · show stateAfter serve s.ctx taken = _
        rw [hTaken, stateAfter_append, hInv.context]
      · show _ ++ answers serve s.ctx taken = _
        rw [hTaken, answers_append, ← hBefore, hInv.context, Connection.sessionPosts,
          List.filterMap_append]
        simp [Connection.sessionPosts]
  | reply hOutbox hConn =>
      rename_i data outbox conn
      have hBefore := hInv.answered
      rw [hOutbox] at hBefore
      have hExecuted : conn.sessionHeavy.executed =
          s.conn.sessionHeavy.executed := by
        cases Connection.stepped hConn with
        | session hAccepted hFlow hServed hSession =>
            exact DoubleBuffer.pushAll_executed _ _
      refine ⟨actions ++ [.session (.call (.postSendTask data)) true],
        run_concat hInv.run hConn, ?_, ?_, ?_⟩
      · rw [Connection.clientPosts, List.filterMap_append, ← Connection.clientPosts,
          hInv.asked]
        rfl
      · show s.ctx = stateAfter serve ctx conn.sessionHeavy.executed
        rw [hExecuted]
        exact hInv.context
      · show _ ++ outbox = answers serve ctx conn.sessionHeavy.executed
        rw [hExecuted, ← hBefore, Connection.sessionPosts, List.filterMap_append,
          ← Connection.sessionPosts, List.append_assoc]
        rfl

theorem foldl_addRequest (actions : List ServiceAction)
    (asked : List (List UInt8)) :
    actions.foldl addRequest asked = asked ++ requests actions := by
  induction actions generalizing asked with
  | nil => exact (List.append_nil asked).symm
  | cons action actions ih =>
      have hCons : requests (action :: actions) =
          requests [action] ++ requests actions := by
        show requests ([action] ++ actions) = _
        exact List.filterMap_append
      rw [List.foldl_cons, ih, addRequest, hCons, List.append_assoc]

theorem answering_of_run {ctx : Ctx} {actions : List ServiceAction}
    {s : Service Ctx}
    (hRun : Foundation.run (step split serve) (start ctx) actions = some s) :
    ∃ inner, Answering split serve ctx s inner (requests actions) := by
  have hStart : ∃ inner, Answering split serve ctx (start ctx) inner [] :=
    ⟨[], { run := rfl, asked := rfl, context := rfl, answered := rfl }⟩
  have hEnd := run_simulates addRequest answering_step hStart hRun
  rw [foldl_addRequest, List.nil_append] at hEnd
  exact hEnd

end Steps

/-! ## Requests and replies in packets -/

section Packets

variable {serve : Ctx → List UInt8 → Ctx × List (List UInt8)} {ctx : Ctx}
  {actions : List ServiceAction} {s : Service Ctx} {datas : List (List UInt8)}

/-- A packet of the length-prefix protocol. -/
def IsPacket (packet : List UInt8) : Prop :=
  ∃ data : List UInt8, data.length < 4294967292 ∧ packet = dataToPacket data

theorem cut_isPacket {packets : List (List UInt8)}
    (hPackets : ∀ packet ∈ packets, IsPacket packet) :
    Cut (stateless splitCb) () packets.flatten packets [] () := by
  obtain ⟨datas, hShort, rfl⟩ : ∃ datas : List (List UInt8),
      (∀ data ∈ datas, data.length < 4294967292) ∧
        packets = datas.map dataToPacket := by
    induction packets with
    | nil => exact ⟨[], List.forall_mem_nil _, rfl⟩
    | cons packet packets ih =>
        obtain ⟨⟨data, hData, rfl⟩, hRest⟩ := List.forall_mem_cons.mp hPackets
        obtain ⟨datas, hDatas, rfl⟩ := ih hRest
        exact ⟨data :: datas, List.forall_mem_cons.mpr ⟨hData, hDatas⟩, rfl⟩
  exact cut_packets hShort

theorem isPacket_of_map (hShort : ∀ data ∈ datas, data.length < 4294967292) :
    ∀ packet ∈ datas.map dataToPacket, IsPacket packet := by
  intro packet hMem
  obtain ⟨data, hData, rfl⟩ := List.mem_map.mp hMem
  exact ⟨data, hShort data hData, rfl⟩

/-- The server executes the first of the requests. -/
theorem Answering.executed_prefix {asked : List (List UInt8)}
    {inner : List ConnectionAction} (hRequests : ∀ packet ∈ asked, IsPacket packet)
    (hInner : Answering splitCb serve ctx s inner asked) :
    s.conn.sessionHeavy.executed <+: asked := by
  have hCut := cut_isPacket hRequests
  rw [← hInner.asked] at hCut ⊢
  exact Connection.sessionExecuted_prefix boundedSplit_splitCb prefixStable_splitCb
    hInner.run hCut

/-- What the client sees is the first part of the answers. -/
theorem clientExecuted_prefix
    (hRequests : ∀ packet ∈ requests actions, IsPacket packet)
    (hReplies : ∀ packet ∈ answers serve ctx (requests actions), IsPacket packet)
    (hRun : Foundation.run (step splitCb serve) (start ctx) actions = some s) :
    s.conn.clientHeavy.executed <+: answers serve ctx (requests actions) := by
  obtain ⟨inner, hInner⟩ := answering_of_run hRun
  have hExecuted := hInner.executed_prefix hRequests
  have hPosts : Connection.sessionPosts inner <+:
      answers serve ctx (requests actions) := by
    calc Connection.sessionPosts inner
        <+: Connection.sessionPosts inner ++ s.outbox := List.prefix_append _ _
      _ = answers serve ctx s.conn.sessionHeavy.executed := hInner.answered
      _ <+: answers serve ctx (requests actions) := answers_prefix ctx hExecuted
  have hCut := cut_isPacket fun packet hMem => hReplies packet (hPosts.subset hMem)
  exact (Connection.clientExecuted_prefix boundedSplit_splitCb
    prefixStable_splitCb hInner.run hCut).trans hPosts

/-- When nothing moves any more the client has seen all answers. -/
theorem Answering.clientExecuted {asked : List (List UInt8)}
    {inner : List ConnectionAction} (hRequests : ∀ packet ∈ asked, IsPacket packet)
    (hReplies : ∀ packet ∈ answers serve ctx asked, IsPacket packet)
    (hInner : Answering splitCb serve ctx s inner asked) (hQuiet : s.conn.Quiet)
    (hReturned : s.outbox = []) :
    s.conn.clientHeavy.executed = answers serve ctx asked := by
  have hExecuted : s.conn.sessionHeavy.executed = asked := by
    have hCut := cut_isPacket hRequests
    rw [← hInner.asked] at hCut ⊢
    exact (hQuiet.toSession boundedSplit_splitCb prefixStable_splitCb hInner.run
      hCut).1
  have hPosts := hInner.answered
  rw [hReturned, List.append_nil, hExecuted] at hPosts
  have hCut := cut_isPacket hReplies
  rw [← hPosts] at hCut ⊢
  exact (hQuiet.toClient boundedSplit_splitCb prefixStable_splitCb hInner.run hCut).1

theorem quiet_clientExecuted
    (hRequests : ∀ packet ∈ requests actions, IsPacket packet)
    (hReplies : ∀ packet ∈ answers serve ctx (requests actions), IsPacket packet)
    (hRun : Foundation.run (step splitCb serve) (start ctx) actions = some s)
    (hQuiet : s.conn.Quiet) (hReturned : s.outbox = []) :
    s.conn.clientHeavy.executed = answers serve ctx (requests actions) := by
  obtain ⟨inner, hInner⟩ := answering_of_run hRun
  exact hInner.clientExecuted hRequests hReplies hQuiet hReturned

end Packets

end Service

/-! ## The server of the TCP example -/

/-- `GET` of the example. -/
def GET : List UInt8 := [71, 69, 84]

/-- `server_fragment_cb` of the example: the context holds the data last stored. -/
def serverFragmentCb (rawCtx : Option (List UInt8)) (fragment : List UInt8) :
    Option (List UInt8) × List (List UInt8) :=
  match rawCtx with
  | none => (some (fragment.drop 4), [dataToPacket [78, 69, 87]])
  | some ctx =>
      if fragment = dataToPacket GET then (some ctx, [dataToPacket ctx])
      else (some (fragment.drop 4), [])

/-- What the example is for: a store of one value.  The first request stores a value
and is acknowledged, a `GET` is answered with the value, and any other request
replaces it. -/
def store (value : Option (List UInt8)) (request : List UInt8) :
    Option (List UInt8) × List (List UInt8) :=
  match value with
  | none => (some request, [[78, 69, 87]])
  | some value =>
      if request = GET then (some value, [value]) else (some request, [])

theorem drop_dataToPacket (data : List UInt8) : (dataToPacket data).drop 4 = data := by
  have hLength : (bytes32 (UInt32.ofNat data.length)).length = 4 := length_bytes32 _
  rw [dataToPacket, ← hLength, List.drop_left]

theorem dataToPacket_inj {data other : List UInt8} :
    dataToPacket data = dataToPacket other ↔ data = other := by
  constructor
  · intro hSame
    rw [← drop_dataToPacket data, hSame, drop_dataToPacket]
  · rintro rfl
    rfl

/-- On packets the callback does what the store does. -/
theorem answers_serverFragmentCb (datas : List (List UInt8)) :
    answers serverFragmentCb none (datas.map dataToPacket) =
      (answers store none datas).map dataToPacket := by
  have hReact (state state' : Option (List UInt8)) (request : List UInt8)
      (hSame : state = state') (_ : True) :
      (serverFragmentCb state (dataToPacket request)).1 = (store state' request).1 ∧
      (serverFragmentCb state (dataToPacket request)).2 =
        (store state' request).2.map dataToPacket := by
    subst hSame
    cases state with
    | none => exact ⟨congrArg some (drop_dataToPacket request), rfl⟩
    | some value =>
        simp only [serverFragmentCb, store, dataToPacket_inj, drop_dataToPacket]
        split <;> exact ⟨rfl, rfl⟩
  exact answers_map hReact rfl fun _ _ => trivial

/-- The store answers with data it was given, and with `NEW`. -/
theorem short_answers_store {datas : List (List UInt8)}
    (hShort : ∀ data ∈ datas, data.length < 4294967292) :
    ∀ data ∈ answers store none datas, data.length < 4294967292 := by
  have hReact (state : Option (List UInt8)) (request : List UInt8)
      (hFits : ∀ value, state = some value → value.length < 4294967292)
      (hAsked : request.length < 4294967292) :
      (∀ value, (store state request).1 = some value →
        value.length < 4294967292) ∧
      ∀ answer ∈ (store state request).2, answer.length < 4294967292 := by
    cases state with
    | none =>
        refine ⟨fun value hValue => ?_, fun answer hMem => ?_⟩
        · obtain rfl := Option.some.inj hValue
          exact hAsked
        · obtain rfl := List.mem_singleton.mp hMem
          decide
    | some value =>
        simp only [store]
        split
        · refine ⟨hFits, fun answer hMem => ?_⟩
          obtain rfl := List.mem_singleton.mp hMem
          exact hFits answer rfl
        · refine ⟨fun other hOther => ?_, fun answer hMem => ?_⟩
          · obtain rfl := Option.some.inj hOther
            exact hAsked
          · cases hMem
  exact forall_mem_answers hReact (fun value hValue => by cases hValue) hShort

/-! ## The laws -/

/-- The client connects and posts two requests of seven bytes, and the server answers
each of them with seven bytes; then nothing moves. -/
def twoRequests (first second firstReply secondReply : List UInt8) :
    List ServiceAction :=
  let exec (count : Nat) : ServiceAction :=
    .move (.client (.execTask {} (.sent count)) true)
  let sessionExec (count : Nat) : ServiceAction :=
    .move (.session (.execTask {} (.sent count)) true)
  let onRead (bytes : List UInt8) : Invocation := ⟨kRead, [.read bytes], [], 0⟩
  [.move (.client (.call (.connect (.error EINPROGRESS) 1000)) true), exec 0, exec 0,
    exec 0, exec 0, exec 0, .move .establish, .move .clientWait,
    .move (.client (.dispatch 0 ⟨kWrite, [], [.sent 0], 0⟩) true), exec 0, exec 0,
    .move (.client (.call (.postSendTask first)) true),
    .move (.client (.call (.postSendTask second)) true), exec 7, exec 7,
    .move .accept, sessionExec 0, sessionExec 0, .move (.carryToSession 14),
    .move .sessionWait, .move (.session (.dispatch 3 (onRead (first ++ second))) true),
    .move (.session .perform true), .move (.session .perform true), .heavy .swap,
    .heavy .execute, .reply, .heavy .execute, .reply, .heavy .clear, sessionExec 7,
    sessionExec 7, .move (.carryToClient 14), .move .clientWait,
    .move (.client (.dispatch 3 (onRead (firstReply ++ secondReply))) true),
    .move (.client .perform true), .move (.client .perform true),
    .move (.clientHeavy .swap), .move (.clientHeavy .execute),
    .move (.clientHeavy .execute), .move (.clientHeavy .clear)]

/-- **Requests are answered in order.**  In every run of a connection to a server with
any fragment callback, whose context and replies depend on the fragments alone, and
with requests and replies in packets of the length-prefix protocol: the fragments the
client's callback gets are the first answers to the requests posted, in order; and when
nothing moves any more they are all of them.  As in `Connection.step`, no call to the
kernel fails and nobody stops. -/
theorem service_answers_in_order {Ctx : Type*}
    (serve : Ctx → List UInt8 → Ctx × List (List UInt8)) (ctx : Ctx)
    {actions : List ServiceAction} {s : Service Ctx}
    (hRequests : ∀ packet ∈ Service.requests actions, Service.IsPacket packet)
    (hReplies : ∀ packet ∈ answers serve ctx (Service.requests actions),
      Service.IsPacket packet)
    (hRun : run (Service.step splitCb serve) (.start ctx) actions = some s) :
    s.conn.clientHeavy.executed <+: answers serve ctx (Service.requests actions) ∧
    (s.conn.Quiet → s.outbox = [] →
      s.conn.clientHeavy.executed =
        answers serve ctx (Service.requests actions)) :=
  ⟨Service.clientExecuted_prefix hRequests hReplies hRun,
    Service.quiet_clientExecuted hRequests hReplies hRun⟩

/-- A server that echoes. -/
theorem service_answers_in_order_echo :
    let echo : Unit → List UInt8 → Unit × List (List UInt8) :=
      fun _ fragment => ((), [fragment])
    let first := dataToPacket [1, 2, 3]
    let second := dataToPacket [4, 5, 6]
    ∃ s, run (Service.step splitCb echo) (.start ())
        (twoRequests first second first second) = some s ∧
      s.conn.clientHeavy.executed = [first, second] := by
  intro echo first second
  have hOutcome : (run (Service.step splitCb echo) (.start ())
      (twoRequests first second first second)).any
      (fun s => decide (s.conn.Quiet ∧ s.outbox = [])) = true := by
    decide +kernel
  obtain ⟨s, hRun, hView⟩ := (Option.any_eq_true _ _).mp hOutcome
  obtain ⟨hQuiet, hReturned⟩ := of_decide_eq_true hView
  have hPackets : ∀ packet ∈ [first, second], Service.IsPacket packet :=
    @Service.isPacket_of_map [[1, 2, 3], [4, 5, 6]] (by decide)
  have hRequests : Service.requests (twoRequests first second first second) =
      [first, second] := rfl
  have hLaw := service_answers_in_order echo () (by rwa [hRequests])
    (by rwa [hRequests]) hRun
  rw [hRequests] at hLaw
  exact ⟨s, hRun, hLaw.2 hQuiet hReturned⟩

/-- **The TCP example is a store.**  In every run in which the client posts packets of
`datas`, what its callback gets are packets of the first answers of the store to them:
`NEW` for the first, and for every later `GET` the data last stored before it.  When
nothing moves any more they are all of them.  As above, no call to the kernel fails and
nobody stops. -/
theorem tcp_example_is_store {datas : List (List UInt8)}
    (hShort : ∀ data ∈ datas, data.length < 4294967292)
    {actions : List ServiceAction} {s : Service (Option (List UInt8))}
    (hPosts : Service.requests actions = datas.map dataToPacket)
    (hRun : run (Service.step splitCb serverFragmentCb) (.start none) actions =
      some s) :
    s.conn.clientHeavy.executed <+: (answers store none datas).map dataToPacket ∧
    (s.conn.Quiet → s.outbox = [] →
      s.conn.clientHeavy.executed =
        (answers store none datas).map dataToPacket) := by
  have hRequests : ∀ packet ∈ Service.requests actions, Service.IsPacket packet := by
    rw [hPosts]
    exact Service.isPacket_of_map hShort
  have hAnswers : answers serverFragmentCb none (Service.requests actions) =
      (answers store none datas).map dataToPacket := by
    rw [hPosts, answers_serverFragmentCb]
  have hReplies : ∀ packet ∈
      answers serverFragmentCb none (Service.requests actions),
      Service.IsPacket packet := by
    rw [hAnswers]
    exact Service.isPacket_of_map (short_answers_store hShort)
  rw [← hAnswers]
  exact ⟨Service.clientExecuted_prefix hRequests hReplies hRun,
    Service.quiet_clientExecuted hRequests hReplies hRun⟩

/-- The client stores `AAA` and gets it back. -/
theorem tcp_example_is_store_AAA :
    let stored : List UInt8 := [65, 65, 65]
    let new : List UInt8 := [78, 69, 87]
    ∃ s, run (Service.step splitCb serverFragmentCb) (.start none)
        (twoRequests (dataToPacket stored) (dataToPacket GET) (dataToPacket new)
          (dataToPacket stored)) = some s ∧
      s.conn.clientHeavy.executed = [dataToPacket new, dataToPacket stored] := by
  intro stored new
  have hOutcome : (run (Service.step splitCb serverFragmentCb) (.start none)
      (twoRequests (dataToPacket stored) (dataToPacket GET) (dataToPacket new)
        (dataToPacket stored))).any
      (fun s => decide (s.conn.Quiet ∧ s.outbox = [])) = true := by
    decide +kernel
  obtain ⟨s, hRun, hView⟩ := (Option.any_eq_true _ _).mp hOutcome
  obtain ⟨hQuiet, hReturned⟩ := of_decide_eq_true hView
  have hShort : ∀ data ∈ [stored, GET], data.length < 4294967292 := by decide
  exact ⟨s, hRun, (tcp_example_is_store hShort rfl hRun).2 hQuiet hReturned⟩

end Net
end KZEvent
