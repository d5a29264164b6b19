import KZEvent.Core.EventTable
import KZEvent.Net.HandlerOutcome

/-!
# What went over the wire, and what is asked of the loop

The models of a session and of a client record the traffic of a run: the
payloads of the send tasks executed so far, the bytes the kernel accepted, the
bytes received, and the fragments handed to `on_fragment`.  This module holds
that record, the readings of a list of effects the models share, and what an
invocation without a failure does to the two buffers and to the interest.
-/

namespace KZEvent
namespace Net

open KZEvent.Core Foundation EventType

variable {σ Cb : Type*}

/-- The traffic of a run, oldest first. -/
structure Traffic where
  payloads : List (List UInt8)
  accepted : List UInt8
  received : List UInt8
  fragments : List (List UInt8)

namespace Traffic

def none : Traffic where
  payloads := []
  accepted := []
  received := []
  fragments := []

/-- A send task with payload `data` was executed. -/
def sendTask (traffic : Traffic) (data accepted : List UInt8) : Traffic :=
  { traffic with
    payloads := traffic.payloads ++ [data]
    accepted := traffic.accepted ++ accepted }

/-- A handler invocation moved these bytes. -/
def exchange (traffic : Traffic) (received accepted : List UInt8) : Traffic :=
  { traffic with
    received := traffic.received ++ received
    accepted := traffic.accepted ++ accepted }

/-- `on_fragment` was called. -/
def deliver (traffic : Traffic) (fragment : List UInt8) : Traffic :=
  { traffic with fragments := traffic.fragments ++ [fragment] }

end Traffic

/-! ## Reading effects -/

/-- The interest the loop is asked for on behalf of a channel. -/
def ChannelInfo.interest (channel : ChannelInfo) : EpollEvents :=
  epollInterest channel.eventTypes channel.eventModes

/-- The task `update_event` without a callback posts. -/
def ChannelInfo.enableFd (channel : ChannelInfo) : FdTask Cb :=
  .enableFd channel.eventTypes channel.eventModes

namespace Effect

/-- A notification that ends the connection. -/
def isNotice : Effect → Bool
  | onError _ | onDisconnect => true
  | updateEvent _ _ | onFragment _ => false

def fragment? : Effect → Option (List UInt8)
  | onFragment fragment => some fragment
  | _ => none

def request? : Effect → Option ChannelInfo
  | updateEvent types modes => some ⟨types, modes⟩
  | _ => none

end Effect

def noticesOf (effects : List Effect) : List Effect :=
  effects.filter Effect.isNotice

def fragmentsOf (effects : List Effect) : List (List UInt8) :=
  effects.filterMap Effect.fragment?

def requestsOf (effects : List Effect) : List ChannelInfo :=
  effects.filterMap Effect.request?

theorem fragmentsOf_cons (effect : Effect) (effects : List Effect) :
    fragmentsOf (effect :: effects) =
      effect.fragment?.toList ++ fragmentsOf effects := by
  cases effect <;> rfl

theorem requestsOf_cons (effect : Effect) (effects : List Effect) :
    requestsOf (effect :: effects) =
      effect.request?.toList ++ requestsOf effects := by
  cases effect <;> rfl

@[simp]
theorem noticesOf_append (effects later : List Effect) :
    noticesOf (effects ++ later) = noticesOf effects ++ noticesOf later :=
  List.filter_append ..

@[simp]
theorem fragmentsOf_append (effects later : List Effect) :
    fragmentsOf (effects ++ later) = fragmentsOf effects ++ fragmentsOf later :=
  List.filterMap_append

@[simp]
theorem requestsOf_append (effects later : List Effect) :
    requestsOf (effects ++ later) = requestsOf effects ++ requestsOf later :=
  List.filterMap_append

@[simp]
theorem noticesOf_map_onFragment (frames : List (List UInt8)) :
    noticesOf (frames.map .onFragment) = [] := by
  simp [noticesOf, List.filter_eq_nil_iff, Effect.isNotice]

@[simp]
theorem fragmentsOf_map_onFragment (frames : List (List UInt8)) :
    fragmentsOf (frames.map .onFragment) = frames := by
  induction frames with
  | nil => rfl
  | cons frame frames ih =>
      show frame :: fragmentsOf (frames.map .onFragment) = frame :: frames
      rw [ih]

@[simp]
theorem requestsOf_map_onFragment (frames : List (List UInt8)) :
    requestsOf (frames.map .onFragment) = [] := by
  induction frames with
  | nil => rfl
  | cons frame frames ih => exact ih

theorem exists_isNotice_iff (effects : List Effect) :
    (∃ effect ∈ effects, effect.isNotice = true) ↔ noticesOf effects ≠ [] := by
  simp [noticesOf, List.filter_eq_nil_iff]

/-- The notifications an invocation issues: the pending error first, the end of
the connection last. -/
theorem HandlerOutcome.notices {verdict : Invocation → SocketVerdict}
    {inv : Invocation} {conn : StreamConn} {frames : List (List UInt8)}
    {final : HandlerState}
    (hOutcome : HandlerOutcome verdict inv conn frames final) :
    noticesOf final.effects =
      (verdict inv).notices ++
        if inv.closes verdict conn then [.onDisconnect] else [] := by
  rw [hOutcome.effects, Invocation.earlyEffects, noticesOf_append,
    noticesOf_append, noticesOf_append, noticesOf_map_onFragment]
  have hRequest : noticesOf
      (if inv.sendEnd conn.sendBuf.live.length = .kSuccess then
        [.updateEvent (conn.channel.eventTypes &&& ~~~kWrite)
          conn.channel.eventModes]
      else []) = [] := by
    split <;> rfl
  have hError : noticesOf (verdict inv).notices = (verdict inv).notices := by
    cases verdict inv <;> rfl
  have hEnd : noticesOf
      (if inv.closes verdict conn then [.onDisconnect] else []) =
      if inv.closes verdict conn then [.onDisconnect] else [] := by
    split <;> rfl
  rw [hRequest, hError, hEnd, List.nil_append, List.append_nil]

/-- The invocation issues a notification. -/
def Invocation.Ends (verdict : Invocation → SocketVerdict) (inv : Invocation)
    (conn : StreamConn) : Prop :=
  inv.closes verdict conn = true ∨ (verdict inv).notices ≠ []

instance (verdict : Invocation → SocketVerdict) (inv : Invocation)
    (conn : StreamConn) : Decidable (inv.Ends verdict conn) :=
  inferInstanceAs (Decidable (_ ∨ _))

theorem HandlerOutcome.notices_eq_nil
    {verdict : Invocation → SocketVerdict} {inv : Invocation}
    {conn : StreamConn} {frames : List (List UInt8)} {final : HandlerState}
    (hOutcome : HandlerOutcome verdict inv conn frames final)
    (hGoesOn : ¬ inv.Ends verdict conn) : noticesOf final.effects = [] := by
  rw [Invocation.Ends, not_or, not_not] at hGoesOn
  rw [hOutcome.notices, hGoesOn.2, if_neg hGoesOn.1, List.nil_append]

/-- The fragments an invocation delivers. -/
theorem HandlerOutcome.fragments {verdict : Invocation → SocketVerdict}
    {inv : Invocation} {conn : StreamConn} {frames : List (List UInt8)}
    {final : HandlerState}
    (hOutcome : HandlerOutcome verdict inv conn frames final) :
    fragmentsOf final.effects = frames := by
  have hEarly : fragmentsOf (inv.earlyEffects verdict conn) = [] := by
    rw [Invocation.earlyEffects, fragmentsOf_append]
    cases verdict inv <;> split <;> rfl
  have hEnd : fragmentsOf
      (if inv.closes verdict conn then [.onDisconnect] else []) = [] := by
    split <;> rfl
  rw [hOutcome.effects, fragmentsOf_append, fragmentsOf_append, hEarly, hEnd,
    fragmentsOf_map_onFragment, List.nil_append, List.append_nil]

/-! ## Requests and the kernel interest -/

/-- The entry is registered and the kernel waits for what the channel
remembers. -/
structure Follows (channel : ChannelInfo) (slot : FdSlot Cb) : Prop where
  registered : slot.event.inRegister = true
  interest : slot.interest = some channel.interest

/-- A request is a change of the interest that keeps the entry in step. -/
theorem Follows.request {slot : FdSlot Cb}
    (hRegistered : slot.event.inRegister = true) (channel : ChannelInfo) :
    Follows channel (slot.exec {} channel.enableFd) := by
  rw [ChannelInfo.enableFd, FdSlot.exec_enableFd_ok hRegistered]
  exact { registered := rfl, interest := rfl }

theorem Follows.announced {before after : ChannelInfo}
    {requests : List ChannelInfo} {slot : FdSlot Cb}
    (hFollows : Follows before slot)
    (hAnnounces : Announces before after requests) :
    Follows after (slot.drain (requests.map ChannelInfo.enableFd)) := by
  rcases hAnnounces with ⟨rfl, hNone⟩ | hOne
  · rw [hNone]
    exact hFollows
  · rw [hOne]
    exact Follows.request hFollows.registered after

/-! ## Invocations without a failure -/

/-- The kernel reports no failure and no end of the connection, with `pending`
bytes to send. -/
structure Invocation.Clean (inv : Invocation) (pending : Nat) : Prop where
  readEnd : inv.readEnd = .kTryAgain
  sendEnd : inv.sendEnd pending = .kSuccess ∨ inv.sendEnd pending = .kTryAgain
  soError : inv.soError = 0

instance (inv : Invocation) (pending : Nat) : Decidable (inv.Clean pending) :=
  decidable_of_iff
    (inv.readEnd = .kTryAgain ∧
      (inv.sendEnd pending = .kSuccess ∨ inv.sendEnd pending = .kTryAgain) ∧
      inv.soError = 0)
    ⟨fun h => ⟨h.1, h.2.1, h.2.2⟩, fun h => ⟨h.readEnd, h.sendEnd, h.soError⟩⟩

theorem StreamSession.verdict_of_soError_eq_zero {inv : Invocation}
    (hError : inv.soError = 0) : StreamSession.verdict inv = .quiet := by
  simp [StreamSession.verdict, hError]

theorem StreamClientSocket.verdict_of_soError_eq_zero {inv : Invocation}
    (hError : inv.soError = 0) : StreamClientSocket.verdict inv = .quiet := by
  simp [StreamClientSocket.verdict, hError]

section Clean

variable {verdict : Invocation → SocketVerdict} {inv : Invocation}
  {conn : StreamConn} {final : HandlerState}

theorem Invocation.Clean.closes_eq_false
    (hClean : inv.Clean conn.sendBuf.live.length)
    (hQuiet : verdict inv = .quiet) : inv.closes verdict conn = false := by
  rcases hClean.sendEnd with hSend | hSend <;>
    simp [Invocation.closes, hClean.readEnd, hSend, hQuiet]

theorem Invocation.Clean.not_discards
    (hClean : inv.Clean conn.sendBuf.live.length)
    (hQuiet : verdict inv = .quiet) : ¬ inv.discards verdict conn := by
  rcases hClean.sendEnd with hSend | hSend <;>
    simp [Invocation.discards, hClean.readEnd, hSend, hQuiet]

/-- What an invocation that issues no notification does to the sending side. -/
structure CleanSpec (conn : StreamConn) (final : HandlerState) : Prop where
  conserved : final.accepted ++ final.conn.sendBuf.live = conn.sendBuf.live
  silent : noticesOf final.effects = []
  announces : Announces conn.channel final.conn.channel
    (requestsOf final.effects)
  channel : final.conn.channel = conn.channel ∨
    (final.conn.sendBuf.live = [] ∧
      final.conn.channel =
        ⟨conn.channel.eventTypes &&& ~~~kWrite, conn.channel.eventModes⟩)

theorem HandlerOutcome.silent {frames : List (List UInt8)}
    (hOutcome : HandlerOutcome verdict inv conn frames final)
    (hSilent : noticesOf final.effects = []) : CleanSpec conn final := by
  have hNotices := hSilent
  rw [hOutcome.notices, List.append_eq_nil_iff] at hNotices
  obtain ⟨hQuiet, hOpen⟩ := hNotices
  have hOpen : inv.closes verdict conn = false := by
    cases hCloses : inv.closes verdict conn with
    | true => simp [hCloses] at hOpen
    | false => rfl
  have hNotFailed : ∀ err, verdict inv ≠ .failed err := by
    intro err hFailed
    simp [hFailed, SocketVerdict.notices] at hQuiet
  have hEffects := hOutcome.effects
  have hChannel := hOutcome.channel
  simp only [hOpen, Invocation.earlyEffects, hQuiet, List.append_nil,
    Bool.false_eq_true, if_false] at hEffects
  by_cases hSend : inv.sendEnd conn.sendBuf.live.length = .kSuccess
  · -- all was sent, and the write interest is dropped
    simp only [hSend, if_true] at hEffects hChannel
    exact
      { conserved := hOutcome.conserved hNotFailed hOpen
        silent := hSilent
        announces := by
          right
          rw [hEffects, hChannel, requestsOf_append, requestsOf_map_onFragment]
          rfl
        channel := .inr ⟨hOutcome.drained hSend, hChannel⟩ }
  · simp only [hSend, if_false, List.nil_append] at hEffects hChannel
    exact
      { conserved := hOutcome.conserved hNotFailed hOpen
        silent := hSilent
        announces := .inl ⟨hChannel, by rw [hEffects]; simp⟩
        channel := .inl hChannel }

theorem HandlerOutcome.clean {frames : List (List UInt8)}
    (hOutcome : HandlerOutcome verdict inv conn frames final)
    (hClean : inv.Clean conn.sendBuf.live.length)
    (hQuiet : verdict inv = .quiet) : CleanSpec conn final := by
  apply hOutcome.silent
  rw [hOutcome.notices, hQuiet, hClean.closes_eq_false hQuiet]
  rfl

end Clean

/-! ## Waiting for the events a connection needs -/

/-- The channel waits for input, and for output when there is something to
send; the entry `slot` follows it. -/
structure Waits (conn : StreamConn) (slot : FdSlot Cb) : Prop where
  follows : Follows conn.channel slot
  reads : hasFlag conn.channel.eventTypes kRead = true
  writes : conn.sendBuf.live ≠ [] →
    hasFlag conn.channel.eventTypes kWrite = true

section Waiting

variable {conn : StreamConn} {slot : FdSlot Cb} {data : List UInt8}
  {h : HandlerState}

theorem Waits.enqueue (hWaits : Waits conn slot)
    (hQueued : conn.sendBuf.live ≠ []) : Waits (conn.enqueue data) slot :=
  { follows := hWaits.follows
    reads := hWaits.reads
    writes := fun _ => hWaits.writes hQueued }

theorem Waits.sendNow (hWaits : Waits conn slot) (ret : SendRet)
    (data : List UInt8) (hEmpty : conn.sendBuf.live = []) :
    Waits (conn.sendNow ret data).conn
      (slot.drain ((conn.sendNow ret data).requests.map
        ChannelInfo.enableFd)) := by
  have hSpec := sendNow_spec ret data hEmpty
  exact
    { follows := hWaits.follows.announced (announces_sendNow conn ret data)
      reads := by
        rcases hSpec.channel with hSame | hWrite
        · rw [hSame]
          exact hWaits.reads
        · rw [hWrite, hasFlag_kRead_or_kWrite]
          exact hWaits.reads
      writes := hSpec.waits }

theorem Waits.handler (hWaits : Waits conn slot) (hSpec : CleanSpec conn h) :
    Waits h.conn
      (slot.drain ((requestsOf h.effects).map ChannelInfo.enableFd)) where
  follows := hWaits.follows.announced hSpec.announces
  reads := by
    rcases hSpec.channel with hSame | ⟨-, hDropped⟩
    · rw [hSame]
      exact hWaits.reads
    · rw [hDropped, hasFlag_kRead_andNot_kWrite]
      exact hWaits.reads
  writes := by
    intro hLeft
    rcases hSpec.channel with hSame | ⟨hEmpty, -⟩
    · -- what is left was there before
      have hBefore : conn.sendBuf.live ≠ [] := by
        intro hNil
        have hNothing := hSpec.conserved
        rw [hNil] at hNothing
        exact hLeft (List.append_eq_nil_iff.mp hNothing).2
      rw [hSame]
      exact hWaits.writes hBefore
    · exact absurd hEmpty hLeft

/-- A channel that waits, once the tasks are executed, is armed in the
kernel. -/
theorem Waits.armed (hWaits : Waits conn slot)
    (hQueued : conn.sendBuf.live ≠ []) :
    ∃ interest, slot.interest = some interest ∧
      hasFlag interest EPOLLOUT = true ∧ hasFlag interest EPOLLIN = true := by
  refine ⟨conn.channel.interest, hWaits.follows.interest, ?_, ?_⟩
  · rw [ChannelInfo.interest, hasFlag_EPOLLOUT]
    exact hWaits.writes hQueued
  · rw [ChannelInfo.interest, hasFlag_EPOLLIN]
    exact hWaits.reads

end Waiting

end Net
end KZEvent
