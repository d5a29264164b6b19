import KZEvent.Net.StreamClient
import KZEvent.Net.StreamSession

/-!
# Failures inside one handler invocation

Two laws of the handlers that do not hold as they should, with the exact
condition under which each of them does.

* A hard failure of `readv` or `send` should end in a notification.  An `errno`
  that maps to `kError` only clears `recv_buf_`, and the error phase finds
  `SO_ERROR` already consumed.  So the failure surfaces exactly when it maps to
  `kDisconnected`, or another call of the same invocation sees the end of the
  connection.
* A failing `send` should leave what was received alone.  The write branch
  clears `recv_buf_`, as the read branch does, instead of `send_buf_`.  So
  received bytes are kept exactly when no `send` fails, or none were received.
-/

namespace KZEvent
namespace Net

open KZEvent.Core Foundation EventType

variable {σ : Type*}

namespace Invocation

/-- The `errno` with which `readv` failed in the invocation. -/
def readFailure (inv : Invocation) : Option Errno :=
  if hasFlag inv.types kRead then Net.readFailure inv.reads else none

/-- The invocation read the end of the stream. -/
def readEof (inv : Invocation) : Bool :=
  hasFlag inv.types kRead && Net.readEof inv.reads

/-- The `errno` with which `send` failed, with `pending` bytes to send. -/
def sendFailure (inv : Invocation) (pending : Nat) : Option Errno :=
  if hasFlag inv.types kWrite then Net.sendFailure pending inv.sends else none

/-- `readv` or `send` reported an `errno` other than `EAGAIN`. -/
def HardFailure (inv : Invocation) (conn : StreamConn) : Prop :=
  inv.readFailure ≠ none ∨ inv.sendFailure conn.sendBuf.live.length ≠ none

/-- Every failure of a call maps to `kDisconnected`, or the other call sees the
end of the connection. -/
def Surfaces (inv : Invocation) (conn : StreamConn) : Prop :=
  let sendFailure := inv.sendFailure conn.sendBuf.live.length
  (∀ errno, inv.readFailure = some errno →
    errno = ECONNRESET ∨ sendFailure = some EPIPE) ∧
  ∀ errno, sendFailure = some errno →
    errno = EPIPE ∨ inv.readFailure = some ECONNRESET ∨ inv.readEof = true

theorem readEnd_eq_kDisconnected_iff (inv : Invocation) :
    inv.readEnd = .kDisconnected ↔
      inv.readEof = true ∨ inv.readFailure = some ECONNRESET := by
  simp only [readEnd, readEof, readFailure]
  cases hasFlag inv.types kRead with
  | true => simpa using Net.readEnd_eq_kDisconnected_iff inv.reads
  | false => simp

theorem readEnd_eq_kError_iff (inv : Invocation) :
    inv.readEnd = .kError ↔
      ∃ errno, inv.readFailure = some errno ∧ errno ≠ ECONNRESET := by
  simp only [readEnd, readFailure]
  cases hasFlag inv.types kRead with
  | true => simpa using Net.readEnd_eq_kError_iff inv.reads
  | false => simp

theorem sendEnd_eq_kDisconnected_iff (inv : Invocation) (pending : Nat) :
    inv.sendEnd pending = .kDisconnected ↔
      inv.sendFailure pending = some EPIPE := by
  simp only [sendEnd, sendFailure]
  cases hasFlag inv.types kWrite with
  | true => simpa using Net.sendEnd_eq_kDisconnected_iff pending inv.sends
  | false => simp

theorem sendEnd_eq_kError_iff (inv : Invocation) (pending : Nat) :
    inv.sendEnd pending = .kError ↔
      ∃ errno, inv.sendFailure pending = some errno ∧ errno ≠ EPIPE := by
  simp only [sendEnd, sendFailure]
  cases hasFlag inv.types kWrite with
  | true => simpa using Net.sendEnd_eq_kError_iff pending inv.sends
  | false => simp

/-- The end of the stream is not a failure of `readv`. -/
theorem readEof_of_readFailure {inv : Invocation} {errno : Errno}
    (hFailure : inv.readFailure = some errno) : inv.readEof = false := by
  simp only [readFailure, readEof] at hFailure ⊢
  cases hFlag : hasFlag inv.types kRead with
  | true =>
      rw [hFlag, if_pos rfl] at hFailure
      rw [Bool.true_and]
      exact Net.readEof_of_readFailure hFailure
  | false => rfl

variable {verdict : Invocation → SocketVerdict} {inv : Invocation}
  {conn : StreamConn}

theorem closes_iff (hQuiet : verdict inv = .quiet) :
    inv.closes verdict conn = true ↔
      inv.readEof = true ∨ inv.readFailure = some ECONNRESET ∨
        inv.sendFailure conn.sendBuf.live.length = some EPIPE := by
  simp only [closes, hQuiet, Bool.or_eq_true, beq_iff_eq,
    readEnd_eq_kDisconnected_iff, sendEnd_eq_kDisconnected_iff, reduceCtorEq,
    or_false, or_assoc]

/-- With nothing left in `SO_ERROR`, a hard failure ends the connection exactly
when it surfaces. -/
theorem closes_of_hardFailure_iff (hQuiet : verdict inv = .quiet) :
    (inv.HardFailure conn → inv.closes verdict conn = true) ↔
      inv.Surfaces conn := by
  rw [closes_iff hQuiet]
  simp only [HardFailure, Surfaces]
  cases hRead : inv.readFailure with
  | none =>
      cases inv.sendFailure conn.sendBuf.live.length with
      | none => simp
      | some sendErrno => simp [or_comm]
  | some readErrno =>
      -- A failing read saw no end of the stream, so the send has to.
      have hNotEof : inv.readEof = false := readEof_of_readFailure hRead
      cases inv.sendFailure conn.sendBuf.live.length with
      | none => simp [hNotEof]
      | some sendErrno =>
          simp only [hNotEof]
          grind

end Invocation

/-! ## Failures and notifications -/

section Notification

variable {verdict : Invocation → SocketVerdict}
  {onSplit : σ → List UInt8 → Int × σ} {fuel : Nat} {inv : Invocation}
  {callback callback' : σ} {conn : StreamConn} {final : HandlerState}

/-- With nothing left in `SO_ERROR`, the only notification an invocation can
issue is that of the end of the connection. -/
theorem HandlerOutcome.notifies_iff {frames : List (List UInt8)}
    (hOutcome : HandlerOutcome verdict inv conn frames final)
    (hQuiet : verdict inv = .quiet) :
    (∃ effect ∈ final.effects, effect.isNotice = true) ↔
      inv.closes verdict conn = true := by
  rw [exists_isNotice_iff, hOutcome.notices, hQuiet, SocketVerdict.notices]
  cases inv.closes verdict conn <;> simp

theorem streamHandler_surfaces_iff
    (hQuiet : inv.HardFailure conn → verdict inv = .quiet)
    (hReturns : streamHandler verdict onSplit fuel inv callback conn =
      some (callback', final)) :
    (inv.HardFailure conn → ∃ effect ∈ final.effects, effect.isNotice = true) ↔
      inv.Surfaces conn := by
  obtain ⟨frames, hOutcome⟩ := streamHandler_outcome hReturns
  by_cases hHard : inv.HardFailure conn
  · rw [← Invocation.closes_of_hardFailure_iff (hQuiet hHard)]
    simp only [hHard, true_imp_iff]
    exact hOutcome.notifies_iff (hQuiet hHard)
  · -- Without a hard failure both sides hold.
    have hNoRead : inv.readFailure = none := by
      by_contra hSome
      exact hHard (.inl hSome)
    have hNoSend : inv.sendFailure conn.sendBuf.live.length = none := by
      by_contra hSome
      exact hHard (.inr hSome)
    simp [hHard, Invocation.Surfaces, hNoRead, hNoSend]

end Notification

/-- A notification stops the session. -/
theorem StreamSession.ioQueue_perform_notice (s : StreamSession σ)
    {effect : Effect} (hNotice : effect.isNotice = true) :
    (s.perform effect).ioQueue = s.ioQueue ++ [.fd .disableFd, .erase] := by
  cases effect with
  | updateEvent types modes => cases hNotice
  | onFragment fragment => cases hNotice
  | onError errno => rfl
  | onDisconnect => rfl

/-- A notification stops the client. -/
theorem StreamClient.ioQueue_perform_notice (c : StreamClient σ)
    {effect : Effect} (hNotice : effect.isNotice = true) :
    (c.perform effect).ioQueue =
      c.ioQueue ++ [.stream .disableFd, .timer .disableFd] := by
  cases effect with
  | updateEvent types modes => cases hNotice
  | onFragment fragment => cases hNotice
  | onError errno => rfl
  | onDisconnect => rfl

/-- **When a hard failure surfaces.**  The kernel hands a pending error out
once, so `SO_ERROR` is clear after a failing call.  Then in a session and in a
client an invocation that sees a hard failure issues a notification if and only
if the failure surfaces; every invocation ends if the split callback is bounded;
and a notification stops the session or the client. -/
theorem hard_failure_notifies_iff (onSplit : σ → List UInt8 → Int × σ)
    (inv : Invocation) (conn : StreamConn)
    (hConsumed : inv.HardFailure conn → inv.soError = 0) :
    (∀ fuel callback callback' final,
      StreamSession.handler onSplit fuel true inv callback conn =
        some (callback', final) →
      ((inv.HardFailure conn →
          ∃ effect ∈ final.effects, effect.isNotice = true) ↔
        inv.Surfaces conn)) ∧
    (∀ fuel callback callback' final,
      StreamClientSocket.handler onSplit fuel inv callback conn =
        some (callback', final) →
      ((inv.HardFailure conn →
          ∃ effect ∈ final.effects, effect.isNotice = true) ↔
        inv.Surfaces conn)) ∧
    (BoundedSplit onSplit → ∀ callback,
      (∃ fuel result, StreamSession.handler onSplit fuel true inv callback conn =
        some result) ∧
      ∃ fuel result, StreamClientSocket.handler onSplit fuel inv callback conn =
        some result) ∧
    (∀ (s : StreamSession σ) (effect : Effect), effect.isNotice = true →
      (s.perform effect).ioQueue = s.ioQueue ++ [.fd .disableFd, .erase]) ∧
    ∀ (c : StreamClient σ) (effect : Effect), effect.isNotice = true →
      (c.perform effect).ioQueue =
        c.ioQueue ++ [.stream .disableFd, .timer .disableFd] := by
  refine ⟨?_, ?_, ?_, ?_, ?_⟩
  · intro fuel callback callback' final hReturns
    have hQuiet : inv.HardFailure conn → StreamSession.verdict inv = .quiet :=
      fun hHard => StreamSession.verdict_of_soError_eq_zero (hConsumed hHard)
    exact streamHandler_surfaces_iff hQuiet hReturns
  · intro fuel callback callback' final hReturns
    have hQuiet : inv.HardFailure conn →
        StreamClientSocket.verdict inv = .quiet :=
      fun hHard => StreamClientSocket.verdict_of_soError_eq_zero (hConsumed hHard)
    exact streamHandler_surfaces_iff hQuiet hReturns
  · intro hBounded callback
    exact ⟨streamHandler_returns _ hBounded inv callback conn,
      streamHandler_returns _ hBounded inv callback conn⟩
  · intro s effect hNotice
    exact s.ioQueue_perform_notice hNotice
  · intro c effect hNotice
    exact c.ioQueue_perform_notice hNotice

/-- A peer that resets the connection while nothing is queued: the failure
surfaces. -/
theorem hard_failure_notifies_iff_reset :
    let inv : Invocation := ⟨kRead ||| kError, [.error ECONNRESET], [], 0⟩
    let conn := (StreamSession.accepted ()).conn
    ∃ final, StreamSession.handler (stateless fun _ => 0) 1 true inv () conn =
        some ((), final) ∧
      (inv.HardFailure conn →
        ∃ effect ∈ final.effects, effect.isNotice = true) := by
  intro inv conn
  let result := StreamSession.handler (stateless fun _ => 0) 1 true inv () conn
  obtain ⟨⟨⟨⟩, final⟩, hReturns⟩ : ∃ pair, result = some pair :=
    Option.isSome_iff_exists.mp (by decide +kernel)
  have hRead : inv.readFailure = some ECONNRESET := by decide +kernel
  have hSurfaces : inv.Surfaces conn := by
    constructor
    · intro errno hErrno
      rw [hRead] at hErrno
      exact .inl (Option.some.inj hErrno).symm
    · intro errno _
      exact .inr (.inl hRead)
  have hIff := (hard_failure_notifies_iff (stateless fun _ => 0) inv conn
    (fun _ => rfl)).1 1 () () final hReturns
  exact ⟨final, hReturns, hIff.mpr hSurfaces⟩

/-- A connection that times out while it is readable: `readv` consumes the
error, and nobody is told. -/
theorem hard_failure_goes_unnoticed :
    ¬ ∀ (fuel : Nat) (inv : Invocation) (conn : StreamConn)
      (final : HandlerState), inv.soError = 0 → inv.HardFailure conn →
      StreamSession.handler (stateless fun _ => 0) fuel true inv () conn =
        some ((), final) →
      ∃ effect ∈ final.effects, effect.isNotice = true := by
  intro hClaim
  let inv : Invocation := ⟨kRead ||| kError, [.error ETIMEDOUT], [], 0⟩
  let conn := (StreamSession.accepted ()).conn
  have hHard : inv.HardFailure conn := .inl (by decide +kernel)
  have hEffects : (StreamSession.handler (stateless fun _ => 0) 1 true inv ()
      conn).map (fun result => result.2.effects) = some [] := by
    decide +kernel
  obtain ⟨⟨⟨⟩, final⟩, hReturns, hNone⟩ := Option.map_eq_some_iff.mp hEffects
  obtain ⟨effect, hMem, -⟩ := hClaim 1 inv conn final rfl hHard hReturns
  rw [hNone] at hMem
  cases hMem

/-! ## Failures and received data -/

section Received

variable {verdict : Invocation → SocketVerdict}
  {onSplit : σ → List UInt8 → Int × σ} {fuel : Nat} {inv : Invocation}
  {callback callback' : σ} {conn : StreamConn} {final : HandlerState}

/-- Nothing but a failing `send` disturbs the invocation. -/
structure Invocation.SendOnlyFails (inv : Invocation) (conn : StreamConn) :
    Prop where
  readFailure : inv.readFailure = none
  readEof : inv.readEof = false
  sendFailure : inv.sendFailure conn.sendBuf.live.length ≠ some EPIPE
  soError : inv.soError = 0

theorem Invocation.SendOnlyFails.discards_iff (hOnly : inv.SendOnlyFails conn)
    (hQuiet : verdict inv = .quiet) :
    inv.discards verdict conn ↔
      inv.sendFailure conn.sendBuf.live.length ≠ none := by
  simp only [Invocation.discards, hQuiet, inv.readEnd_eq_kError_iff,
    inv.sendEnd_eq_kError_iff, hOnly.readFailure, reduceCtorEq, false_and,
    exists_false, or_false, false_or]
  have hNotClosed := hOnly.sendFailure
  cases hFailure : inv.sendFailure conn.sendBuf.live.length with
  | none => simp
  | some errno =>
      have hErrno : errno ≠ EPIPE := by
        intro hEq
        exact hNotClosed (by rw [hFailure, hEq])
      simpa using hErrno

theorem streamHandler_keeps_received_iff (hBounded : BoundedSplit onSplit)
    (hQuiet : verdict inv = .quiet) (hOnly : inv.SendOnlyFails conn)
    (hReturns : streamHandler verdict onSplit fuel inv callback conn =
      some (callback', final)) :
    (fragmentsOf final.effects).flatten ++ final.conn.recvBuf.live =
        conn.recvBuf.live ++ final.received ↔
      inv.sendFailure conn.sendBuf.live.length = none ∨
        conn.recvBuf.live ++ inv.readBytes = [] := by
  obtain ⟨frames, input, rest, hOutcome, hCut, hKept, hDiscarded, hRest⟩ :=
    streamHandler_cut hBounded hReturns
  have hOpen : ¬ inv.closes verdict conn = true := by
    rw [Invocation.closes_iff hQuiet]
    simp [hOnly.readEof, hOnly.readFailure, hOnly.sendFailure]
  rw [if_neg hOpen] at hRest
  -- Fragments and rest make up the input of framing.
  rw [hOutcome.fragments, hRest, hOutcome.received, hCut.flatten_append]
  by_cases hFailure : inv.sendFailure conn.sendBuf.live.length = none
  · have hNotDiscards : ¬ inv.discards verdict conn := by
      rw [hOnly.discards_iff hQuiet]
      exact not_not.mpr hFailure
    simp [hFailure, hKept hNotDiscards]
  · have hDiscards : inv.discards verdict conn :=
      (hOnly.discards_iff hQuiet).mpr hFailure
    rw [hDiscarded hDiscards]
    simp only [hFailure, false_or]
    exact eq_comm

end Received

/-- **When a failing send keeps received data.**  In an invocation of a session
or of a client that nothing but a failing `send` disturbs, and with a bounded
split callback, the handler returns, and the fragments followed by the live
bytes of the receive buffer are the live bytes from before followed by the bytes
received if and only if no `send` failed or there was nothing to lose. -/
theorem send_failure_keeps_received_iff (onSplit : σ → List UInt8 → Int × σ)
    (hBounded : BoundedSplit onSplit) (inv : Invocation) (conn : StreamConn)
    (hOnly : inv.SendOnlyFails conn) (callback : σ) :
    (∀ serverAlive,
      (∃ fuel result, StreamSession.handler onSplit fuel serverAlive inv
        callback conn = some result) ∧
      ∀ fuel callback' final,
        StreamSession.handler onSplit fuel serverAlive inv callback conn =
          some (callback', final) →
        ((fragmentsOf final.effects).flatten ++ final.conn.recvBuf.live =
            conn.recvBuf.live ++ final.received ↔
          serverAlive = false ∨
            inv.sendFailure conn.sendBuf.live.length = none ∨
            conn.recvBuf.live ++ inv.readBytes = [])) ∧
    (∃ fuel result, StreamClientSocket.handler onSplit fuel inv callback conn =
      some result) ∧
    ∀ fuel callback' final,
      StreamClientSocket.handler onSplit fuel inv callback conn =
        some (callback', final) →
      ((fragmentsOf final.effects).flatten ++ final.conn.recvBuf.live =
          conn.recvBuf.live ++ final.received ↔
        inv.sendFailure conn.sendBuf.live.length = none ∨
          conn.recvBuf.live ++ inv.readBytes = []) := by
  have hQuiet := StreamSession.verdict_of_soError_eq_zero hOnly.soError
  have hClientQuiet := StreamClientSocket.verdict_of_soError_eq_zero hOnly.soError
  refine ⟨fun serverAlive => ?_, ?_, ?_⟩
  · cases serverAlive with
    | true =>
        refine ⟨streamHandler_returns _ hBounded inv callback conn, ?_⟩
        intro fuel callback' final hReturns
        simp only [Bool.true_eq_false, false_or]
        exact streamHandler_keeps_received_iff hBounded hQuiet hOnly hReturns
    | false =>
        refine ⟨⟨0, _, rfl⟩, ?_⟩
        intro fuel callback' final hReturns
        obtain ⟨-, rfl⟩ := by simpa [StreamSession.handler] using hReturns
        simp [fragmentsOf]
  · exact streamHandler_returns _ hBounded inv callback conn
  · intro fuel callback' final hReturns
    exact streamHandler_keeps_received_iff hBounded hClientQuiet hOnly hReturns

/-- A connection with a partial frame received and a byte to send. -/
def partialFrame : StreamConn where
  recvBuf := (LiveBuffer.make 65535).insert [1]
  sendBuf := (LiveBuffer.make 65535).insert [9]
  channel := ⟨kRead ||| kWrite ||| kError, EventMode.kDefault⟩

/-- A send that the kernel puts off keeps the partial frame. -/
theorem send_failure_keeps_received_iff_again :
    let inv : Invocation := ⟨kWrite, [], [.error EAGAIN], 0⟩
    ∃ fuel result, StreamSession.handler (stateless fun _ => 0) fuel true inv ()
        partialFrame = some result ∧
      (fragmentsOf result.2.effects).flatten ++ result.2.conn.recvBuf.live =
        partialFrame.recvBuf.live ++ result.2.received := by
  intro inv
  have hBounded : BoundedSplit (stateless fun _ : List UInt8 => 0) := by
    intro _ slice
    simp [stateless]
  have hSend (pending : Nat) : inv.sendFailure pending = none := by
    simp [inv, Invocation.sendFailure, sendFailure]
  have hOnly : inv.SendOnlyFails partialFrame :=
    { readFailure := by decide +kernel
      readEof := by decide +kernel
      sendFailure := by simp [hSend]
      soError := rfl }
  have hLaw := (send_failure_keeps_received_iff (stateless fun _ => 0) hBounded
    inv partialFrame hOnly ()).1 true
  obtain ⟨⟨fuel, ⟨⟨⟩, final⟩, hReturns⟩, hIff⟩ := hLaw
  exact ⟨fuel, ((), final), hReturns,
    (hIff fuel () final hReturns).mpr (.inr (.inl (hSend _)))⟩

/-- A send that fails with `ETIMEDOUT` loses the partial frame. -/
theorem send_failure_loses_received :
    ¬ ∀ (fuel : Nat) (inv : Invocation) (conn : StreamConn)
      (final : HandlerState), inv.SendOnlyFails conn →
      StreamSession.handler (stateless fun _ => 0) fuel true inv () conn =
        some ((), final) →
      (fragmentsOf final.effects).flatten ++ final.conn.recvBuf.live =
        conn.recvBuf.live ++ final.received := by
  intro hClaim
  let inv : Invocation := ⟨kWrite, [], [.error ETIMEDOUT], 0⟩
  have hBounded : BoundedSplit (stateless fun _ : List UInt8 => 0) := by
    intro _ slice
    simp [stateless]
  have hSend (pending : Nat) : inv.sendFailure pending = some ETIMEDOUT := by
    have hWrite : hasFlag kWrite kWrite = true := by decide
    have hNotAgain : ETIMEDOUT ≠ EAGAIN := by decide
    simp [inv, Invocation.sendFailure, sendFailure, hWrite, hNotAgain]
  have hOnly : inv.SendOnlyFails partialFrame :=
    { readFailure := by decide +kernel
      readEof := by decide +kernel
      sendFailure := by rw [hSend]; decide
      soError := rfl }
  have hQuiet := StreamSession.verdict_of_soError_eq_zero hOnly.soError
  obtain ⟨fuel, ⟨⟨⟩, final⟩, hReturns⟩ :=
    streamHandler_returns StreamSession.verdict hBounded inv () partialFrame
  have hIff := streamHandler_keeps_received_iff hBounded hQuiet hOnly hReturns
  have hLive : partialFrame.recvBuf.live = [1] := by
    show ((LiveBuffer.make 65535).insert [1]).live = [1]
    rw [LiveBuffer.live_insert, LiveBuffer.live_make, List.nil_append]
  rcases hIff.mp (hClaim fuel inv partialFrame final hOnly hReturns) with
    hNone | hNil
  · rw [hSend] at hNone
    cases hNone
  · rw [hLive] at hNil
    cases hNil

end Net
end KZEvent
