import KZEvent.Net.Rest
import KZEvent.Net.Service

/-!
# Every request is answered

A request leads to replies, which have to be posted, sent and read as well.  So what a
service has left to do is what its connection has left to do, and the price of the
replies that were not posted yet: those of the running callback, and those to the
requests that the heavy thread of the server has not executed.  Without new requests
this runs out, and when it has, the client has got all answers.
-/

namespace KZEvent
namespace Net

open KZEvent.Core Foundation

namespace Service

variable {Ctx : Type*} {serve : Ctx → List UInt8 → Ctx × List (List UInt8)} {ctx : Ctx}

/-! ## What is left to do -/

/-- A reply is posted, and then it has to be sent. -/
def replyEffort (replies : List (List UInt8)) : Nat :=
  (replies.map fun data => SessionTask.effort (.send data) + 1).sum

/-- The requests of which the server's callback was not called yet. -/
def waiting (asked : List (List UInt8)) (s : Service Ctx) : List (List UInt8) :=
  asked.drop s.conn.sessionHeavy.executed.length

def effort (serve : Ctx → List UInt8 → Ctx × List (List UInt8))
    (asked : List (List UInt8)) (s : Service Ctx) : Nat :=
  s.conn.effort + replyEffort s.outbox + replyEffort (answers serve s.ctx (s.waiting asked))

/-- A step the client need not call for, with a kernel that keeps its room. -/
def Unasked (split : List UInt8 → Int) (s : Service Ctx) : ServiceAction → Prop
  | .move action => s.conn.Unasked split action
  | .heavy _ | .reply => True

instance (split : List UInt8 → Int) (s : Service Ctx) (action : ServiceAction) :
    Decidable (s.Unasked split action) :=
  match action with
  | .move action => inferInstanceAs (Decidable (s.conn.Unasked split action))
  | .heavy _ | .reply => .isTrue trivial

theorem replyEffort_cons (data : List UInt8) (replies : List (List UInt8)) :
    replyEffort (data :: replies) =
      SessionTask.effort (.send data) + 1 + replyEffort replies := by
  rw [replyEffort, List.map_cons, List.sum_cons, replyEffort]

theorem replyEffort_append (replies later : List (List UInt8)) :
    replyEffort (replies ++ later) = replyEffort replies + replyEffort later := by
  rw [replyEffort, List.map_append, List.sum_append, replyEffort, replyEffort]

/-- Posting a reply leaves a task to execute. -/
theorem effort_postSendTask {split : List UInt8 → Int} {conn next : Connection}
    {data : List UInt8}
    (hStep : conn.step split (.session (.call (.postSendTask data)) true) = some next) :
    next.effort = conn.effort + SessionTask.effort (.send data) := by
  cases Connection.stepped hStep with
  | session hAccepted hFlow hServed hSession =>
      obtain rfl := Option.some.inj hSession
      have hEnd : conn.session.endAfter conn.sessionEnd true
          (conn.session.call (.postSendTask data)) (.call (.postSendTask data)) =
          conn.sessionEnd.exchange [] 0 true := by
        show conn.sessionEnd.exchange (conn.session.traffic.sentSince _)
          (conn.session.traffic.readSince _) true = _
        rw [show (conn.session.call (.postSendTask data)).traffic =
          conn.session.traffic from rfl, Traffic.sentSince_self, Traffic.readSince_self]
      have hCut : conn.session.traffic.cutSince
          (conn.session.call (.postSendTask data)).traffic = [] :=
        Traffic.cutSince_self _
      have hMoved := SocketEnd.effort_exchange (e := conn.sessionEnd)
        conn.session.slot.interest [] 0 true
      have hTasks : ((conn.session.call (.postSendTask data)).ioQueue.map
          SessionTask.effort).sum =
          (conn.session.ioQueue.map SessionTask.effort).sum +
            SessionTask.effort (.send data) := by
        show ((conn.session.ioQueue ++ [SessionTask.send data]).map _).sum = _
        rw [List.map_append, List.sum_append, List.map_singleton, List.sum_singleton]
      simp only [Connection.effort, Connection.sessionStepped, hEnd, hCut,
        StreamSession.effort, hTasks]
      rw [List.length_nil, Bool.and_true] at hMoved
      show _ + ((conn.sessionEnd.exchange [] 0 true).effort conn.session.slot.interest +
        conn.session.conn.effort + _ + effortOf conn.session.pending) + _ +
        (conn.sessionHeavy.pushAll []).cost + _ = _
      rw [DoubleBuffer.cost_pushAll]
      simp only [List.length_nil]
      omega

section Packets

variable {asked : List (List UInt8)} {s next : Service Ctx}

/-- The requests that wait are those behind the executed ones. -/
theorem asked_eq_of_prefix (hPrefix : s.conn.sessionHeavy.executed <+: asked) :
    s.conn.sessionHeavy.executed ++ s.waiting asked = asked := by
  exact (List.prefix_append_drop hPrefix).symm

/-- Whatever is done next, less is left. -/
theorem effort_step_lt (hRequests : ∀ packet ∈ asked, IsPacket packet)
    (hInv : ∃ inner, Answering splitCb serve ctx s inner asked) {action : ServiceAction}
    (hUnasked : s.Unasked splitCb action)
    (hNext : ∃ inner, Answering splitCb serve ctx next inner asked)
    (hStep : step splitCb serve s action = some next) :
    next.effort serve asked < s.effort serve asked := by
  obtain ⟨inner, hInner⟩ := hInv
  have hOrderly := Connection.orderly_of_run boundedSplit_splitCb prefixStable_splitCb
    hInner.run
  cases stepped hStep with
  | move hForeign hConn =>
      have hLess := Connection.effort_step_lt boundedSplit_splitCb hOrderly hUnasked hConn
      have hExecuted := (foreign_step hForeign hConn).1
      simp only [effort, waiting, hExecuted]
      omega
  | heavy hOutbox hConn hTaken =>
      rename_i action conn taken
      have hUnasked : s.conn.Unasked splitCb (.sessionHeavy action) := trivial
      have hLess := Connection.effort_step_lt boundedSplit_splitCb hOrderly hUnasked hConn
      obtain ⟨inner', hInner'⟩ := hNext
      have hBefore := asked_eq_of_prefix (hInner.executed_prefix hRequests)
      have hAfter := asked_eq_of_prefix (hInner'.executed_prefix hRequests)
      have hWaiting : s.waiting asked = taken ++ waiting asked
          { conn := conn
            ctx := stateAfter serve s.ctx taken
            outbox := answers serve s.ctx taken } := by
        have hSame : conn.sessionHeavy.executed ++ _ = _ := hAfter.trans hBefore.symm
        rw [hTaken, List.append_assoc] at hSame
        exact (List.append_cancel_left hSame).symm
      simp only [effort, hWaiting, hOutbox, answers_append, replyEffort_append]
      omega
  | reply hOutbox hConn =>
      rename_i data outbox conn
      have hMore := effort_postSendTask hConn
      have hExecuted : conn.sessionHeavy.executed = s.conn.sessionHeavy.executed := by
        cases Connection.stepped hConn with
        | session hAccepted hFlow hServed hSession =>
            exact DoubleBuffer.pushAll_executed _ _
      simp only [effort, waiting, hExecuted, hOutbox, replyEffort_cons]
      omega

/-! ## Nothing is left to do -/

/-- No step is left that the client need not call for. -/
def Stuck (split : List UInt8 → Int) (serve : Ctx → List UInt8 → Ctx × List (List UInt8))
    (s : Service Ctx) : Prop :=
  ∀ action, s.Unasked split action → step split serve s action = none

/-- A callback that runs was called for a session that exists, so it can post. -/
theorem Stuck.returned {split : List UInt8 → Int} {inner : List ConnectionAction}
    (hStuck : s.Stuck split serve) (hOrderly : Connection.Orderly split s.conn)
    (hInner : Answering split serve ctx s inner asked) : s.outbox = [] := by
  cases hOutbox : s.outbox with
  | nil => rfl
  | cons data outbox =>
      have hAccepted : s.conn.accepted = true := by
        by_contra hNot
        have hUntouched :=
          hOrderly.watchful.untouched (Bool.eq_false_iff.mpr hNot)
        have hPushed : s.conn.sessionHeavy.pushed = [] := by
          rw [hOrderly.coherent.sessionHanded.pushed, hUntouched]
          rfl
        have hExecuted : s.conn.sessionHeavy.executed = [] := by
          have hPrefix := hOrderly.coherent.sessionHanded.exact.executed_prefix
          rw [hPushed] at hPrefix
          exact List.prefix_nil.mp hPrefix
        have hAnswered := hInner.answered
        rw [hExecuted, hOutbox] at hAnswered
        exact absurd (List.append_eq_nil_iff.mp hAnswered).2 (List.cons_ne_nil _ _)
      have hReply := hStuck .reply trivial
      simp only [step, hOutbox, Option.map_eq_none_iff] at hReply
      rw [Connection.step, if_pos ⟨hAccepted, trivial, rfl⟩] at hReply
      cases hReply

/-- A service that cannot go on is quiet, and its callback has returned. -/
theorem Stuck.quiet {split : List UInt8 → Int} (hBounded : BoundedSplit (stateless split))
    {inner : List ConnectionAction} (hStuck : s.Stuck split serve)
    (hOrderly : Connection.Orderly split s.conn)
    (hInner : Answering split serve ctx s inner asked)
    (hBegun : s.conn.client.connected ≠ .kDisconnected) :
    s.conn.Quiet ∧ s.outbox = [] := by
  have hReturned := hStuck.returned hOrderly hInner
  refine ⟨Connection.Stuck.quiet (fun action hUnasked => ?_) hBounded hOrderly hBegun,
    hReturned⟩
  by_cases hForeign : action.foreign = true
  · have hMove := hStuck (.move action) hUnasked
    rw [step, if_pos hForeign, Option.map_eq_none_iff] at hMove
    exact hMove
  · cases action with
    | sessionHeavy action =>
        have hHeavy := hStuck (.heavy action) trivial
        rw [step, if_pos hReturned, Option.map_eq_none_iff] at hHeavy
        exact hHeavy
    | session action room =>
        cases action with
        | call call => cases hUnasked.1
        | _ => exact absurd rfl hForeign
    | _ => exact absurd rfl hForeign

/-- A quiet service whose callback has returned cannot go on. -/
theorem stuck_of_quiet {split : List UInt8 → Int} (hQuiet : s.conn.Quiet)
    (hReturned : s.outbox = []) (hOrderly : Connection.Orderly split s.conn) :
    s.Stuck split serve := by
  have hStuck : s.conn.Stuck split := hQuiet.stuck hOrderly.watchful
  intro action hUnasked
  cases action with
  | move action =>
      rw [step]
      split
      · rw [hStuck action hUnasked, Option.map_none]
      · rfl
  | heavy action =>
      rw [step, if_pos hReturned, hStuck (.sessionHeavy action) trivial, Option.map_none]
  | reply => rw [step, hReturned]

/-! ## Nothing more is asked for -/

theorem requests_of_unasked {split : List UInt8 → Int} {action : ServiceAction}
    (hUnasked : s.Unasked split action) : requests [action] = [] := by
  cases action with
  | move action =>
      cases action with
      | client action room =>
          cases action with
          | call call => cases hUnasked.1
          | _ => rfl
      | _ => rfl
  | heavy action => rfl
  | reply => rfl

/-- The requests stay what they were. -/
theorem answering_unasked {split : List UInt8 → Int} {action : ServiceAction}
    (hInv : ∃ inner, Answering split serve ctx s inner asked)
    (hUnasked : s.Unasked split action) (hStep : step split serve s action = some next) :
    ∃ inner, Answering split serve ctx next inner asked := by
  have hNext := answering_step s asked action next hInv hStep
  rwa [addRequest, requests_of_unasked hUnasked, List.append_nil] at hNext

theorem begun_step {split : List UInt8 → Int} {action : ServiceAction}
    (hBegun : s.conn.client.connected ≠ .kDisconnected)
    (hStep : step split serve s action = some next) :
    next.conn.client.connected ≠ .kDisconnected := by
  have hInner {action : ConnectionAction} {conn : Connection}
      (hConn : s.conn.step split action = some conn) :
      conn.client.connected ≠ .kDisconnected := by
    have hOne : run (Connection.step split) s.conn [action] = some conn :=
      run_cons_eq_some_iff.mpr ⟨conn, hConn, rfl⟩
    exact Connection.begun_of_run hBegun hOne
  cases stepped hStep with
  | move hForeign hConn => exact hInner hConn
  | heavy hOutbox hConn hTaken => exact hInner hConn
  | reply hOutbox hConn => exact hInner hConn

end Packets

end Service

/-- **Every request is answered.**  In every run of a connection to a server with any
fragment callback, whose context and replies depend on the fragments alone, with
requests and replies in packets of the length-prefix protocol, and from any state of it
after the client called `connect`, with neither failing calls nor stops before or after
(see `Connection.step`): as long as the client asks for nothing more, the timer does not
expire, and the kernel uses room up only for bytes it takes or where it refuses a send
task, the service goes on for a number of steps that is known beforehand at most, in
whatever order they come.  It cannot go on exactly when the connection is quiet and the
callback has returned; and then the client's callback has got all answers to the
requests it had posted, in order, and nothing else. -/
theorem every_request_answered {Ctx : Type*}
    (serve : Ctx → List UInt8 → Ctx × List (List UInt8)) (ctx : Ctx)
    {actions : List ServiceAction} {s : Service Ctx}
    (hRequests : ∀ packet ∈ Service.requests actions, Service.IsPacket packet)
    (hReplies : ∀ packet ∈ answers serve ctx (Service.requests actions),
      Service.IsPacket packet)
    (hRun : run (Service.step splitCb serve) (.start ctx) actions = some s)
    (hBegun : s.conn.client.connected ≠ .kDisconnected) :
    ∃ bound, ∀ more t,
      Guarded (Service.step splitCb serve) (Service.Unasked splitCb) s more →
      run (Service.step splitCb serve) s more = some t →
      more.length ≤ bound ∧
      (t.Stuck splitCb serve ↔ t.conn.Quiet ∧ t.outbox = []) ∧
      (t.Stuck splitCb serve →
        t.conn.clientHeavy.executed = answers serve ctx (Service.requests actions)) := by
  let asked := Service.requests actions
  refine ⟨s.effort serve asked, fun more t hGuard hMore => ?_⟩
  have hInv (state : Service Ctx) (action : ServiceAction) (next : Service Ctx)
      (hState : (∃ inner, Service.Answering splitCb serve ctx state inner asked) ∧
        state.conn.client.connected ≠ .kDisconnected)
      (hUnasked : state.Unasked splitCb action)
      (hStep : Service.step splitCb serve state action = some next) :
      (∃ inner, Service.Answering splitCb serve ctx next inner asked) ∧
        next.conn.client.connected ≠ .kDisconnected :=
    ⟨Service.answering_unasked hState.1 hUnasked hStep,
      Service.begun_step hState.2 hStep⟩
  have hStart := And.intro (Service.answering_of_run hRun) hBegun
  have hLength := run_length_le (Service.effort serve asked)
    (fun state action next hState hUnasked hStep =>
      ⟨hInv state action next hState hUnasked hStep,
        Service.effort_step_lt hRequests hState.1 hUnasked
          (hInv state action next hState hUnasked hStep).1 hStep⟩)
    hStart hGuard hMore
  obtain ⟨⟨inner, hInner⟩, hBegunAfter⟩ := run_invariant hInv hStart hGuard hMore
  have hOrderly := Connection.orderly_of_run boundedSplit_splitCb prefixStable_splitCb
    hInner.run
  have hRest : t.Stuck splitCb serve ↔ t.conn.Quiet ∧ t.outbox = [] :=
    ⟨fun hStuck => hStuck.quiet boundedSplit_splitCb hOrderly hInner hBegunAfter,
      fun hQuiet => Service.stuck_of_quiet hQuiet.1 hQuiet.2 hOrderly⟩
  refine ⟨by omega, hRest, fun hStuck => ?_⟩
  obtain ⟨hQuiet, hReturned⟩ := hRest.mp hStuck
  exact hInner.clientExecuted hRequests hReplies hQuiet hReturned

/-- The client of the TCP example stores `AAA` and asks for it, and goes away; the rest
happens by itself. -/
theorem every_request_answered_AAA :
    let stored : List UInt8 := [65, 65, 65]
    let new : List UInt8 := [78, 69, 87]
    let whole := twoRequests (dataToPacket stored) (dataToPacket GET) (dataToPacket new)
      (dataToPacket stored)
    ∃ s t bound,
      run (Service.step splitCb serverFragmentCb) (.start none) (whole.take 13) =
        some s ∧
      run (Service.step splitCb serverFragmentCb) s (whole.drop 13) = some t ∧
      (whole.drop 13).length ≤ bound ∧ t.Stuck splitCb serverFragmentCb ∧
      t.conn.clientHeavy.executed = [dataToPacket new, dataToPacket stored] := by
  intro stored new whole
  have hOutcome : (run (Service.step splitCb serverFragmentCb) (.start none)
      (whole.take 13)).any (fun s =>
        decide (s.conn.client.connected ≠ .kDisconnected ∧
          Guarded (Service.step splitCb serverFragmentCb) (Service.Unasked splitCb) s
            (whole.drop 13)) &&
        (run (Service.step splitCb serverFragmentCb) s (whole.drop 13)).any
          fun t => decide (t.conn.Quiet ∧ t.outbox = [])) = true := by
    decide +kernel
  obtain ⟨s, hRun, hView⟩ := (Option.any_eq_true _ _).mp hOutcome
  obtain ⟨hFirst, hLater⟩ := Bool.and_eq_true_iff.mp hView
  obtain ⟨hBegun, hGuard⟩ := of_decide_eq_true hFirst
  obtain ⟨t, hMore, hRest⟩ := (Option.any_eq_true _ _).mp hLater
  have hQuiet : t.conn.Quiet ∧ t.outbox = [] := of_decide_eq_true hRest
  have hRequests : Service.requests (whole.take 13) = [stored, GET].map dataToPacket := rfl
  have hAnswers : answers serverFragmentCb none (Service.requests (whole.take 13)) =
      [new, stored].map dataToPacket := rfl
  obtain ⟨bound, hLaw⟩ := every_request_answered serverFragmentCb none
    (by rw [hRequests]; exact Service.isPacket_of_map (by decide))
    (by rw [hAnswers]; exact Service.isPacket_of_map (by decide)) hRun hBegun
  obtain ⟨hLength, hStuck, hAnswered⟩ := hLaw (whole.drop 13) t hGuard hMore
  exact ⟨s, t, bound, hRun, hMore, hLength, hStuck.mpr hQuiet,
    hAnswered (hStuck.mpr hQuiet)⟩

end Net
end KZEvent
