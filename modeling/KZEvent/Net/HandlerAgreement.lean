import KZEvent.Net.Traffic

/-!
# Where the two stream handlers part

`StreamSession::start` and `StreamClientSocket::start` install the same text
but for the error phase.  A session takes `ECONNRESET` and `EPIPE` in
`SO_ERROR` for the end of the connection.  A client asks for the same, behind a
test that has already excluded both.  So the two handlers do the same in every
invocation except one: where these two values are the only sign that the peer is
gone, the session reports the disconnection and clears its buffers, and the
client does nothing.
-/

namespace KZEvent
namespace Net

open KZEvent.Core Foundation EventType HandlerState

variable {σ : Type*}

/-- Two invocations left the same bytes in the buffers, cut the same fragments,
changed the interest alike, and decided alike on the end of the connection. -/
structure Agree (session client : HandlerState) : Prop where
  recvBuf : session.conn.recvBuf.live = client.conn.recvBuf.live
  sendBuf : session.conn.sendBuf.live = client.conn.sendBuf.live
  fragments : fragmentsOf session.effects = fragmentsOf client.effects
  channel : session.conn.channel = client.conn.channel
  requests : requestsOf session.effects = requestsOf client.effects
  notices : noticesOf session.effects = noticesOf client.effects

theorem Agree.refl (h : HandlerState) : Agree h h := by
  constructor <;> rfl

namespace Invocation

/-- `SO_ERROR` tells that the peer is gone. -/
def SoErrorCloses (inv : Invocation) : Prop :=
  hasFlag inv.types kError = true ∧
    (inv.soError = ECONNRESET ∨ inv.soError = EPIPE)

/-- `SO_ERROR` tells that the peer is gone, and neither the reads nor the sends
of the invocation do. -/
structure OnlySoErrorCloses (inv : Invocation) (conn : StreamConn) : Prop where
  soError : inv.SoErrorCloses
  reads : inv.readEnd ≠ .kDisconnected
  sends : inv.sendEnd conn.sendBuf.live.length ≠ .kDisconnected

end Invocation

/-! ## The two verdicts -/

theorem StreamSession.verdict_of_soErrorCloses {inv : Invocation}
    (hCloses : inv.SoErrorCloses) : StreamSession.verdict inv = .closed := by
  obtain ⟨hFlag, hError⟩ := hCloses
  have hNonzero : inv.soError ≠ 0 := by
    rcases hError with hReset | hPipe
    · rw [hReset]
      decide
    · rw [hPipe]
      decide
  simp only [verdict, hFlag, hNonzero, hError, if_true, ne_eq, not_false_eq_true]

theorem StreamClientSocket.verdict_of_soErrorCloses {inv : Invocation}
    (hCloses : inv.SoErrorCloses) : StreamClientSocket.verdict inv = .quiet := by
  obtain ⟨hFlag, hError⟩ := hCloses
  have hExcluded : ¬ (inv.soError ≠ 0 ∧ inv.soError ≠ ECONNRESET ∧
      inv.soError ≠ EPIPE) := by
    rintro ⟨-, hNotReset, hNotPipe⟩
    exact hError.elim hNotReset hNotPipe
  simp only [verdict, hFlag, if_true, if_neg hExcluded]

/-- Any other answer of the kernel is judged alike. -/
theorem verdict_eq_of_not_soErrorCloses {inv : Invocation}
    (hOpen : ¬ inv.SoErrorCloses) :
    StreamSession.verdict inv = StreamClientSocket.verdict inv := by
  simp only [StreamSession.verdict, StreamClientSocket.verdict]
  by_cases hFlag : hasFlag inv.types kError = true
  · have hError : ¬ (inv.soError = ECONNRESET ∨ inv.soError = EPIPE) :=
      fun hError => hOpen ⟨hFlag, hError⟩
    obtain ⟨hNotReset, hNotPipe⟩ := not_or.mp hError
    simp only [hNotReset, hNotPipe, ne_eq, not_false_eq_true, and_true]
  · simp only [if_neg hFlag]

/-! ## What the flag `disconnected` changes -/

/-- Framing neither reads nor writes the local variable `disconnected`. -/
theorem frameLoop_disconnected (onSplit : σ → List UInt8 → Int × σ)
    (disconnected : Bool) (fuel : Nat) (callback : σ) (h : HandlerState) :
    frameLoop onSplit fuel callback { h with disconnected := disconnected } =
      (frameLoop onSplit fuel callback h).map fun result =>
        (result.1, { result.2 with disconnected := disconnected }) := by
  induction fuel generalizing callback h with
  | zero => rfl
  | succ fuel ih =>
      simp only [frameLoop]
      split
      · rfl
      · -- The rounds to come start from the same buffers and effects.
        let consumeLen := (onSplit callback h.conn.recvBuf.live).1.toNat
        exact ih (onSplit callback h.conn.recvBuf.live).2
          { h with
            conn := { h.conn with recvBuf := h.conn.recvBuf.pop consumeLen }
            effects :=
              h.effects ++ [.onFragment (h.conn.recvBuf.front consumeLen)] }

/-- With the end of the connection already seen, `closed` adds nothing. -/
theorem settle_closed_of_disconnected {h : HandlerState}
    (hDisconnected : h.disconnected = true) :
    settle h .closed = settle h .quiet := by
  cases h
  obtain rfl := hDisconnected
  rfl

/-- Both handlers complete with the same number of frames, if they do. -/
theorem isSome_handlers (onSplit : σ → List UInt8 → Int × σ) (fuel : Nat)
    (inv : Invocation) (callback : σ) (conn : StreamConn) :
    (StreamSession.handler onSplit fuel true inv callback conn).isSome =
      (StreamClientSocket.handler onSplit fuel inv callback conn).isSome := by
  simp only [StreamSession.handler, StreamClientSocket.handler, streamHandler,
    if_true, Option.isSome_map]
  by_cases hCloses : inv.SoErrorCloses
  · rw [StreamSession.verdict_of_soErrorCloses hCloses,
      StreamClientSocket.verdict_of_soErrorCloses hCloses]
    simp only [settle, frameLoop_disconnected, Option.isSome_map]
  · rw [verdict_eq_of_not_soErrorCloses hCloses]

/-- Unless `SO_ERROR` alone tells of the end, the two handlers are the same
function. -/
theorem handlers_eq {inv : Invocation} {conn : StreamConn}
    (hOther : ¬ inv.OnlySoErrorCloses conn)
    (onSplit : σ → List UInt8 → Int × σ) (fuel : Nat) (callback : σ) :
    StreamSession.handler onSplit fuel true inv callback conn =
      StreamClientSocket.handler onSplit fuel inv callback conn := by
  simp only [StreamSession.handler, StreamClientSocket.handler, streamHandler,
    if_true]
  by_cases hCloses : inv.SoErrorCloses
  · -- Another phase has set the flag before.
    obtain ⟨-, -, -, -, hFlag, -⟩ := ioPhases_spec inv conn rfl
    have hDisconnected :
        (writePhase inv (readPhase inv (enter conn))).disconnected = true := by
      rw [hFlag]
      by_contra hOpen
      simp only [Bool.not_eq_true, Bool.or_eq_false_iff,
        beq_eq_false_iff_ne] at hOpen
      exact hOther ⟨hCloses, hOpen.1, hOpen.2⟩
    rw [StreamSession.verdict_of_soErrorCloses hCloses,
      StreamClientSocket.verdict_of_soErrorCloses hCloses,
      settle_closed_of_disconnected hDisconnected]
  · rw [verdict_eq_of_not_soErrorCloses hCloses]

/-- Where `SO_ERROR` alone tells of the end, only the session notifies. -/
theorem notices_differ {inv : Invocation} {conn : StreamConn}
    (hOnly : inv.OnlySoErrorCloses conn)
    {onSplit : σ → List UInt8 → Int × σ} {fuel : Nat}
    {callback session client : σ} {sessionEnd clientEnd : HandlerState}
    (hSession : StreamSession.handler onSplit fuel true inv callback conn =
      some (session, sessionEnd))
    (hClient : StreamClientSocket.handler onSplit fuel inv callback conn =
      some (client, clientEnd)) :
    noticesOf sessionEnd.effects = [.onDisconnect] ∧
      noticesOf clientEnd.effects = [] := by
  obtain ⟨hCloses, hReads, hSends⟩ := hOnly
  have hClosed := StreamSession.verdict_of_soErrorCloses hCloses
  have hQuiet := StreamClientSocket.verdict_of_soErrorCloses hCloses
  obtain ⟨_, hSessionOutcome⟩ := streamHandler_outcome hSession
  obtain ⟨_, hClientOutcome⟩ := streamHandler_outcome hClient
  rw [hSessionOutcome.notices, hClientOutcome.notices]
  simp [Invocation.closes, hClosed, hQuiet, hReads, hSends,
    SocketVerdict.notices]

/-- **When the two handlers agree.**  Started from the same state, with the same
split callback and the same answers of the kernel, the handler of a session and
that of a client complete together, with a bounded split callback they do
complete, and what they leave behind and ask for is the same if and only if
`SO_ERROR` is not the only sign that the peer is gone. -/
theorem handlers_agree_iff (onSplit : σ → List UInt8 → Int × σ)
    (inv : Invocation) (callback : σ) (conn : StreamConn) :
    (∀ fuel,
      (StreamSession.handler onSplit fuel true inv callback conn).isSome =
        (StreamClientSocket.handler onSplit fuel inv callback conn).isSome) ∧
    (BoundedSplit onSplit → ∃ fuel,
      (StreamClientSocket.handler onSplit fuel inv callback conn).isSome) ∧
    ∀ fuel session client sessionEnd clientEnd,
      StreamSession.handler onSplit fuel true inv callback conn =
        some (session, sessionEnd) →
      StreamClientSocket.handler onSplit fuel inv callback conn =
        some (client, clientEnd) →
      (Agree sessionEnd clientEnd ↔ ¬ inv.OnlySoErrorCloses conn) := by
  refine ⟨fun fuel => isSome_handlers onSplit fuel inv callback conn, ?_, ?_⟩
  · intro hBounded
    obtain ⟨fuel, result, hReturns⟩ := streamHandler_returns
      StreamClientSocket.verdict hBounded inv callback conn
    exact ⟨fuel, Option.isSome_iff_exists.mpr ⟨result, hReturns⟩⟩
  · intro fuel session client sessionEnd clientEnd hSession hClient
    constructor
    · intro hAgree hOnly
      obtain ⟨hNotified, hSilent⟩ := notices_differ hOnly hSession hClient
      have hSame := hAgree.notices
      rw [hNotified, hSilent] at hSame
      cases hSame
    · intro hOther
      rw [handlers_eq hOther, hClient] at hSession
      obtain ⟨-, rfl⟩ := Prod.mk.inj (Option.some.inj hSession)
      exact Agree.refl _

/-- A frame arrives together with the end of the stream: the two handlers hand
it out and report the disconnection alike. -/
theorem handlers_agree_iff_eof :
    let inv : Invocation :=
      ⟨kRead ||| kError, [.read [7, 8], .read []], [], ECONNRESET⟩
    let conn : StreamConn :=
      ⟨.make 4, .make 4, ⟨EventType.kDefault, EventMode.kDefault⟩⟩
    let onSplit := stateless fun slice => if slice.length < 2 then 0 else 2
    ∃ session client,
      StreamSession.handler onSplit 2 true inv () conn = some ((), session) ∧
      StreamClientSocket.handler onSplit 2 inv () conn = some ((), client) ∧
      Agree session client := by
  intro inv conn onSplit
  obtain ⟨⟨⟨⟩, client⟩, hClient⟩ :
      ∃ pair, StreamClientSocket.handler onSplit 2 inv () conn = some pair :=
    Option.isSome_iff_exists.mp (by decide +kernel)
  have hIff := handlers_agree_iff onSplit inv () conn
  obtain ⟨⟨⟨⟩, session⟩, hSession⟩ :
      ∃ pair, StreamSession.handler onSplit 2 true inv () conn = some pair :=
    Option.isSome_iff_exists.mp (by rw [hIff.1 2, hClient]; rfl)
  have hEof : inv.readEnd = .kDisconnected := by decide +kernel
  exact ⟨session, client, hSession, hClient,
    (hIff.2.2 2 _ _ _ _ hSession hClient).mpr fun hOnly => hOnly.reads hEof⟩

/-- A reset that the kernel reports through `SO_ERROR` alone ends a session and
goes unnoticed in a client. -/
theorem handlers_disagree_on_reset :
    ¬ ∀ (fuel : Nat) (inv : Invocation) (conn : StreamConn)
      (session client : HandlerState),
      StreamSession.handler (stateless fun _ => 0) fuel true inv () conn =
        some ((), session) →
      StreamClientSocket.handler (stateless fun _ => 0) fuel inv () conn =
        some ((), client) → Agree session client := by
  intro hClaim
  let inv : Invocation := ⟨kError, [], [], ECONNRESET⟩
  let conn : StreamConn :=
    ⟨.make 4, .make 4, ⟨EventType.kDefault, EventMode.kDefault⟩⟩
  have hOnly : inv.OnlySoErrorCloses conn :=
    ⟨⟨by decide +kernel, .inl rfl⟩, by decide +kernel, by decide +kernel⟩
  obtain ⟨⟨⟨⟩, session⟩, hSession⟩ : ∃ pair,
      StreamSession.handler (stateless fun _ => 0) 1 true inv () conn =
        some pair := Option.isSome_iff_exists.mp (by decide +kernel)
  obtain ⟨⟨⟨⟩, client⟩, hClient⟩ : ∃ pair,
      StreamClientSocket.handler (stateless fun _ => 0) 1 inv () conn =
        some pair := Option.isSome_iff_exists.mp (by decide +kernel)
  obtain ⟨hNotified, hSilent⟩ := notices_differ hOnly hSession hClient
  have hSame := (hClaim 1 inv conn session client hSession hClient).notices
  rw [hNotified, hSilent] at hSame
  cases hSame

end Net
end KZEvent
