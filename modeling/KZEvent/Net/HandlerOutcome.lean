import KZEvent.Foundation.PrefixFraming
import KZEvent.Net.StreamHandler

/-!
# The outcome of one handler invocation

The phases of `streamHandler` put together.  `streamHandler_outcome` says what
a completed invocation did in terms of its inputs: the mask, the answers of the
kernel, and the buffers before it.  `streamHandler_returns` says that it
completes whenever the split callback keeps to the length of the slice.
-/

namespace KZEvent
namespace Net

open KZEvent.Core Foundation EventType HandlerState

variable {σ : Type*}

/-! ## The framing loop -/

/-- What framing leaves alone. -/
structure FrameSpec (frames : List (List UInt8)) (h final : HandlerState) :
    Prop where
  sendBuf : final.conn.sendBuf = h.conn.sendBuf
  channel : final.conn.channel = h.conn.channel
  disconnected : final.disconnected = h.disconnected
  received : final.received = h.received
  accepted : final.accepted = h.accepted
  effects : final.effects = h.effects ++ frames.map Effect.onFragment

theorem frameLoop_spec {onSplit : σ → List UInt8 → Int × σ} {fuel : Nat}
    {callback callback' : σ} {h final : HandlerState}
    (hLoop : frameLoop onSplit fuel callback h = some (callback', final)) :
    ∃ frames, FrameSpec frames h final := by
  induction fuel generalizing callback h with
  | zero => simp [frameLoop] at hLoop
  | succ fuel ih =>
      simp only [frameLoop] at hLoop
      split at hLoop
      · obtain ⟨rfl, rfl⟩ := by simpa using hLoop
        exact ⟨[], by constructor <;> simp⟩
      · obtain ⟨frames, hSpec⟩ := ih hLoop
        exact ⟨_ :: frames,
          { hSpec with
            effects := by
              rw [hSpec.effects, List.append_assoc]
              rfl }⟩

/-- Where no verdict exceeds the slice, the fragments are the cut of the live
bytes. -/
theorem frameLoop_cut_of_fits {onSplit : σ → List UInt8 → Int × σ} {fuel : Nat}
    {callback callback' : σ} {h final : HandlerState}
    (hFits : SplitsFit onSplit callback h.conn.recvBuf.live)
    (hLoop : frameLoop onSplit fuel callback h = some (callback', final)) :
    ∃ frames, FrameSpec frames h final ∧
      Cut onSplit callback h.conn.recvBuf.live frames
        final.conn.recvBuf.live callback' := by
  induction fuel generalizing callback h with
  | zero => simp [frameLoop] at hLoop
  | succ fuel ih =>
      simp only [frameLoop] at hLoop
      split at hLoop
      · rename_i hStop
        obtain ⟨rfl, rfl⟩ := by simpa using hLoop
        exact ⟨[], by constructor <;> simp, Cut.stop hStop⟩
      · rename_i hFrame
        have hNext := hFits.next (not_le.mp hFrame)
        rw [← LiveBuffer.live_pop] at hNext
        obtain ⟨frames, hSpec, hCut⟩ := ih hNext hLoop
        -- The verdict makes the slice handed out a prefix of the live bytes.
        have hLe := hFits.first
        have hShort : (onSplit callback h.conn.recvBuf.live).1.toNat ≤
            h.conn.recvBuf.live.length := by omega
        have hFront := LiveBuffer.front_eq_take h.conn.recvBuf hShort
        rw [LiveBuffer.live_pop] at hCut
        rw [hFront] at hSpec
        exact ⟨_,
          { hSpec with
            effects := by
              rw [hSpec.effects, List.append_assoc]
              rfl },
          Cut.frame (by omega) hCut⟩

/-- With a bounded callback the fragments are the cut of the live bytes. -/
theorem frameLoop_cut {onSplit : σ → List UInt8 → Int × σ}
    (hBounded : BoundedSplit onSplit) {fuel : Nat}
    {callback callback' : σ} {h final : HandlerState}
    (hLoop : frameLoop onSplit fuel callback h = some (callback', final)) :
    ∃ frames, FrameSpec frames h final ∧
      Cut onSplit callback h.conn.recvBuf.live frames
        final.conn.recvBuf.live callback' :=
  frameLoop_cut_of_fits (hBounded.splitsFit callback _) hLoop

/-- With a bounded callback the framing loop ends. -/
theorem frameLoop_returns {onSplit : σ → List UInt8 → Int × σ}
    (hBounded : BoundedSplit onSplit) (callback : σ) (h : HandlerState) :
    ∃ fuel result, frameLoop onSplit fuel callback h = some result := by
  obtain ⟨frames, rest, final, hCut⟩ :=
    Cut.exists_cut hBounded callback h.conn.recvBuf.live
  -- The fuel is the number of frames and one more, so induct on the cut.
  generalize hItems : h.conn.recvBuf.live = items at hCut
  induction hCut generalizing h with
  | @stop callback _ hStop =>
      subst hItems
      exact ⟨1, ((onSplit callback h.conn.recvBuf.live).2, h),
        by simp only [frameLoop, hStop, if_true]⟩
  | @frame callback _ _ _ _ hFrame _ ih =>
      subst hItems
      have hNotStop := not_le.mpr hFrame
      let consumeLen := (onSplit callback h.conn.recvBuf.live).1.toNat
      obtain ⟨fuel, result, hRest⟩ := ih
        { h with
          conn := { h.conn with recvBuf := h.conn.recvBuf.pop consumeLen }
          effects :=
            h.effects ++ [.onFragment (h.conn.recvBuf.front consumeLen)] }
        (LiveBuffer.live_pop _ _)
      exact ⟨fuel + 1, result, by
        simp only [frameLoop, hNotStop, if_false]
        exact hRest⟩

/-! ## The whole invocation -/

/-- The notification the error phase issues. -/
def SocketVerdict.notices : SocketVerdict → List Effect
  | failed err => [.onError err]
  | quiet | closed => []

namespace Invocation

/-- Some phase sees the end of the connection. -/
def closes (verdict : Invocation → SocketVerdict) (inv : Invocation)
    (conn : StreamConn) : Bool :=
  inv.readEnd == .kDisconnected ||
    inv.sendEnd conn.sendBuf.live.length == .kDisconnected ||
    verdict inv == .closed

/-- The receive buffer is cleared before framing. -/
def discards (verdict : Invocation → SocketVerdict) (inv : Invocation)
    (conn : StreamConn) : Prop :=
  inv.readEnd = .kError ∨ inv.sendEnd conn.sendBuf.live.length = .kError ∨
    ∃ err, verdict inv = .failed err

/-- The effects before framing: dropping the write interest once the send
buffer is empty, and reporting an error. -/
def earlyEffects (verdict : Invocation → SocketVerdict) (inv : Invocation)
    (conn : StreamConn) : List Effect :=
  (if inv.sendEnd conn.sendBuf.live.length = .kSuccess then
      [.updateEvent (conn.channel.eventTypes &&& ~~~kWrite)
        conn.channel.eventModes]
    else []) ++
  (verdict inv).notices

end Invocation

/-- The state in which framing starts. -/
structure FramingStart (verdict : Invocation → SocketVerdict) (inv : Invocation)
    (conn : StreamConn) (h : HandlerState) : Prop where
  kept : ¬ inv.discards verdict conn →
    h.conn.recvBuf.live = conn.recvBuf.live ++ inv.readBytes
  discarded : inv.discards verdict conn → h.conn.recvBuf.live = []
  conserved : (∀ err, verdict inv ≠ .failed err) →
    h.accepted ++ h.conn.sendBuf.live = conn.sendBuf.live
  drained : inv.sendEnd conn.sendBuf.live.length = .kSuccess →
    h.conn.sendBuf.live = []
  channel : h.conn.channel =
    if inv.sendEnd conn.sendBuf.live.length = .kSuccess then
      ⟨conn.channel.eventTypes &&& ~~~kWrite, conn.channel.eventModes⟩
    else conn.channel
  disconnected : h.disconnected = inv.closes verdict conn
  received : h.received = inv.readBytes
  effects : h.effects = inv.earlyEffects verdict conn

/-- The read and the write phase together. -/
theorem ioPhases_spec (inv : Invocation) (conn : StreamConn)
    {h : HandlerState} (hPhases : h = writePhase inv (readPhase inv (enter conn))) :
    (h.conn.recvBuf.live =
        if inv.sendEnd conn.sendBuf.live.length = .kError ∨ inv.readEnd = .kError
        then [] else conn.recvBuf.live ++ inv.readBytes) ∧
      h.accepted ++ h.conn.sendBuf.live = conn.sendBuf.live ∧
      (inv.sendEnd conn.sendBuf.live.length = .kSuccess →
        h.conn.sendBuf.live = []) ∧
      h.conn.channel =
        (if inv.sendEnd conn.sendBuf.live.length = .kSuccess then
          ⟨conn.channel.eventTypes &&& ~~~kWrite, conn.channel.eventModes⟩
        else conn.channel) ∧
      h.disconnected =
        (inv.readEnd == .kDisconnected ||
          inv.sendEnd conn.sendBuf.live.length == .kDisconnected) ∧
      h.received = inv.readBytes ∧
      h.effects =
        (if inv.sendEnd conn.sendBuf.live.length = .kSuccess then
          [.updateEvent (conn.channel.eventTypes &&& ~~~kWrite)
            conn.channel.eventModes]
        else []) := by
  subst hPhases
  have hRead := readPhase_spec inv (enter conn)
  have hWrite := writePhase_spec inv (readPhase inv (enter conn))
  simp only [hRead.sendBuf, enter_conn] at hWrite
  refine ⟨?_, ?_, hWrite.drained, ?_, ?_, ?_, ?_⟩
  · rw [hWrite.recvBuf, hRead.recvBuf, enter_conn]
    by_cases hSend : inv.sendEnd conn.sendBuf.live.length = .kError <;>
      simp [hSend]
  · simpa [hRead.accepted, hRead.sendBuf] using hWrite.conserved
  · simpa [hRead.channel] using hWrite.channel
  · simpa [hRead.disconnected] using hWrite.disconnected
  · simpa [hRead.received] using hWrite.received
  · simpa [hRead.effects, hRead.channel] using hWrite.effects

theorem framingStart (verdict : Invocation → SocketVerdict) (inv : Invocation)
    (conn : StreamConn) :
    FramingStart verdict inv conn
      (settle (writePhase inv (readPhase inv (enter conn))) (verdict inv)) := by
  obtain ⟨hRecv, hConserved, hDrained, hChannel, hDisconnected, hReceived,
    hEffects⟩ := ioPhases_spec inv conn rfl
  -- From here on only what the two phases left behind matters.
  generalize writePhase inv (readPhase inv (enter conn)) = h at *
  cases hVerdict : verdict inv with
  | quiet =>
      constructor <;>
        simp_all [settle, Invocation.discards, Invocation.closes,
          Invocation.earlyEffects, SocketVerdict.notices]
      grind
  | closed =>
      constructor <;>
        simp_all [settle, Invocation.discards, Invocation.closes,
          Invocation.earlyEffects, SocketVerdict.notices]
      grind
  | failed err =>
      constructor <;>
        simp_all [settle, clearBoth, Invocation.discards, Invocation.closes,
          Invocation.earlyEffects, SocketVerdict.notices]

/-- What a completed invocation did, apart from the contents of the receive
buffer. -/
structure HandlerOutcome (verdict : Invocation → SocketVerdict)
    (inv : Invocation) (conn : StreamConn) (frames : List (List UInt8))
    (final : HandlerState) : Prop where
  effects : final.effects = inv.earlyEffects verdict conn ++
    frames.map Effect.onFragment ++
    if inv.closes verdict conn then [.onDisconnect] else []
  received : final.received = inv.readBytes
  channel : final.conn.channel =
    if inv.sendEnd conn.sendBuf.live.length = .kSuccess then
      ⟨conn.channel.eventTypes &&& ~~~kWrite, conn.channel.eventModes⟩
    else conn.channel
  conserved : (∀ err, verdict inv ≠ .failed err) →
    inv.closes verdict conn = false →
    final.accepted ++ final.conn.sendBuf.live = conn.sendBuf.live
  drained : inv.sendEnd conn.sendBuf.live.length = .kSuccess →
    final.conn.sendBuf.live = []

/-- The last phase, after framing that started in `start`. -/
theorem disconnectPhase_outcome {verdict : Invocation → SocketVerdict}
    {inv : Invocation} {conn : StreamConn} {frames : List (List UInt8)}
    {start framed : HandlerState} (hStart : FramingStart verdict inv conn start)
    (hFrames : FrameSpec frames start framed) :
    HandlerOutcome verdict inv conn frames (disconnectPhase framed) := by
  have hDisconnected : framed.disconnected = inv.closes verdict conn := by
    rw [hFrames.disconnected, hStart.disconnected]
  have hEffects : framed.effects =
      inv.earlyEffects verdict conn ++ frames.map Effect.onFragment := by
    rw [hFrames.effects, hStart.effects]
  simp only [disconnectPhase, hDisconnected]
  cases hCloses : inv.closes verdict conn with
  | true =>
      -- Both buffers are cleared before `on_disconnect`.
      exact
        { effects := by simp [hCloses, hEffects]
          received := by rw [← hStart.received, ← hFrames.received]; rfl
          channel := by rw [← hStart.channel, ← hFrames.channel]; rfl
          conserved := by simp [hCloses]
          drained := by simp [clearBoth] }
  | false =>
      simp only [Bool.false_eq_true, if_false]
      exact
        { effects := by simp [hCloses, hEffects]
          received := by rw [hFrames.received, hStart.received]
          channel := by rw [hFrames.channel, hStart.channel]
          conserved := by
            intro hQuiet _
            rw [hFrames.accepted, hFrames.sendBuf, hStart.conserved hQuiet]
          drained := by rw [hFrames.sendBuf]; exact hStart.drained }

theorem streamHandler_outcome {verdict : Invocation → SocketVerdict}
    {onSplit : σ → List UInt8 → Int × σ} {fuel : Nat} {inv : Invocation}
    {callback callback' : σ} {conn : StreamConn} {final : HandlerState}
    (hReturns : streamHandler verdict onSplit fuel inv callback conn =
      some (callback', final)) :
    ∃ frames, HandlerOutcome verdict inv conn frames final := by
  simp only [streamHandler, Option.map_eq_some_iff, Prod.mk.injEq] at hReturns
  obtain ⟨⟨_, framed⟩, hLoop, -, rfl⟩ := hReturns
  obtain ⟨frames, hFrames⟩ := frameLoop_spec hLoop
  exact ⟨frames, disconnectPhase_outcome (framingStart verdict inv conn) hFrames⟩

/-- With a bounded callback the fragments are the cut of what was live at the
start of framing, and what the cut leaves stays in the receive buffer unless
the connection ended. -/
theorem streamHandler_cut {verdict : Invocation → SocketVerdict}
    {onSplit : σ → List UInt8 → Int × σ} (hBounded : BoundedSplit onSplit)
    {fuel : Nat} {inv : Invocation} {callback callback' : σ} {conn : StreamConn}
    {final : HandlerState}
    (hReturns : streamHandler verdict onSplit fuel inv callback conn =
      some (callback', final)) :
    ∃ frames input rest,
      HandlerOutcome verdict inv conn frames final ∧
      Cut onSplit callback input frames rest callback' ∧
      (¬ inv.discards verdict conn →
        input = conn.recvBuf.live ++ inv.readBytes) ∧
      (inv.discards verdict conn → input = []) ∧
      final.conn.recvBuf.live =
        if inv.closes verdict conn then [] else rest := by
  simp only [streamHandler, Option.map_eq_some_iff, Prod.mk.injEq] at hReturns
  obtain ⟨⟨_, framed⟩, hLoop, rfl, rfl⟩ := hReturns
  have hStart := framingStart verdict inv conn
  obtain ⟨frames, hFrames, hCut⟩ := frameLoop_cut hBounded hLoop
  refine ⟨frames, _, framed.conn.recvBuf.live,
    disconnectPhase_outcome hStart hFrames, hCut, hStart.kept,
    hStart.discarded, ?_⟩
  simp only [disconnectPhase, hFrames.disconnected, hStart.disconnected]
  split <;> simp [clearBoth]

/-- With a bounded callback every invocation completes. -/
theorem streamHandler_returns (verdict : Invocation → SocketVerdict)
    {onSplit : σ → List UInt8 → Int × σ} (hBounded : BoundedSplit onSplit)
    (inv : Invocation) (callback : σ) (conn : StreamConn) :
    ∃ fuel result,
      streamHandler verdict onSplit fuel inv callback conn = some result := by
  obtain ⟨fuel, result, hLoop⟩ := frameLoop_returns hBounded callback
    (settle (writePhase inv (readPhase inv (enter conn))) (verdict inv))
  exact ⟨fuel, (result.1, disconnectPhase result.2), by
    simp only [streamHandler, hLoop, Option.map_some]⟩

end Net
end KZEvent
