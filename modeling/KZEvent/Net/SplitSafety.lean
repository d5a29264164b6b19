import KZEvent.Net.HandlerOutcome

/-!
# Split callbacks that are wrong

The framing loop hands out `begin()` to `begin() + consume_len` for whatever
positive number the split callback returned, and pops as many bytes.  It stays
within the live bytes, and ends, exactly as long as no result exceeds the slice
it is about.
-/

namespace KZEvent
namespace Net

open KZEvent.Core Foundation HandlerState

variable {σ : Type*} {onSplit : σ → List UInt8 → Int × σ} {callback : σ}
  {h : HandlerState}

/-- The state in which an invocation comes to the framing loop. -/
def framingState (verdict : Invocation → SocketVerdict) (inv : Invocation)
    (conn : StreamConn) : HandlerState :=
  settle (writePhase inv (readPhase inv (enter conn))) (verdict inv)

/-- Hand out a frame and pop it. -/
def HandlerState.cutFrame (h : HandlerState) (consumeLen : Nat) : HandlerState :=
  { h with
    conn := { h.conn with recvBuf := h.conn.recvBuf.pop consumeLen }
    effects := h.effects ++ [.onFragment (h.conn.recvBuf.front consumeLen)] }

/-- What the split callback is shown. -/
def HandlerState.slice (h : HandlerState) : List UInt8 := h.conn.recvBuf.live

/-- The states in which the loop that began in `h` calls the split callback. -/
inductive Splitting (onSplit : σ → List UInt8 → Int × σ) (callback : σ)
    (h : HandlerState) : σ → HandlerState → Prop
  | first : Splitting onSplit callback h callback h
  | next {later : σ} {g : HandlerState}
      (hSplitting : Splitting onSplit callback h later g)
      (hFrame : 0 < (onSplit later g.slice).1) :
      Splitting onSplit callback h (onSplit later g.slice).2
        (g.cutFrame (onSplit later g.slice).1.toNat)

/-- The framing loop of an invocation is safe: every range it hands out ends
before `end()`, it ends after at most `size()` fragments, and the fragments are
what was live and is not any more, in order. -/
structure FramingSafe (onSplit : σ → List UInt8 → Int × σ) (callback : σ)
    (h : HandlerState) : Prop where
  inside : ∀ later g, Splitting onSplit callback h later g →
    0 < (onSplit later g.slice).1 →
    g.conn.recvBuf.reader + (onSplit later g.slice).1.toNat ≤
      g.conn.recvBuf.writer
  ends : ∃ (frames : List (List UInt8)) (later : σ) (final : HandlerState),
    frameLoop onSplit (h.conn.recvBuf.size + 1) callback h = some (later, final) ∧
      frames.length ≤ h.conn.recvBuf.size ∧
      final.effects = h.effects ++ frames.map .onFragment ∧
      frames.flatten ++ final.slice = h.slice

/-! ## The loop and its calls -/

theorem frameLoop_succ (onSplit : σ → List UInt8 → Int × σ) (fuel : Nat)
    (callback : σ) (h : HandlerState) :
    frameLoop onSplit (fuel + 1) callback h =
      if (onSplit callback h.slice).1 ≤ 0 then
        some ((onSplit callback h.slice).2, h)
      else
        frameLoop onSplit fuel (onSplit callback h.slice).2
          (h.cutFrame (onSplit callback h.slice).1.toNat) := rfl

theorem slice_cutFrame (h : HandlerState) (consumeLen : Nat) :
    (h.cutFrame consumeLen).slice = h.slice.drop consumeLen :=
  LiveBuffer.live_pop _ _

theorem length_slice (h : HandlerState) : h.slice.length = h.conn.recvBuf.size :=
  StreamBuffer.length_live h.conn.recvBuf.valid

theorem Splitting.asked {later : σ} {g : HandlerState}
    (hSplitting : Splitting onSplit callback h later g) :
    Asked onSplit callback h.slice later g.slice := by
  induction hSplitting with
  | first => exact .first
  | next _ hFrame ih =>
      rw [slice_cutFrame]
      exact .next ih hFrame

/-- The loop asks what cutting the slice asks. -/
theorem splitting_of_asked {later : σ} {left : List UInt8}
    (hAsked : Asked onSplit callback h.slice later left) :
    ∃ g, Splitting onSplit callback h later g ∧ g.slice = left := by
  induction hAsked with
  | first => exact ⟨h, .first, rfl⟩
  | next _ hFrame ih =>
      obtain ⟨g, hSplitting, rfl⟩ := ih
      exact ⟨_, .next hSplitting hFrame, slice_cutFrame _ _⟩

/-- A range within the live bytes is one that ends before `end()`. -/
theorem inside_iff (g : HandlerState) (consumeLen : Nat) :
    g.conn.recvBuf.reader + consumeLen ≤ g.conn.recvBuf.writer ↔
      consumeLen ≤ g.slice.length := by
  have hOrder := g.conn.recvBuf.valid.reader_le_writer
  rw [length_slice, StreamBuffer.size]
  omega

/-- Every frame takes a byte, so there are no more frames than bytes. -/
theorem frameLoop_ends {fuel : Nat}
    (hFits : SplitsFit onSplit callback h.slice) (hFuel : h.slice.length < fuel) :
    ∃ result, frameLoop onSplit fuel callback h = some result := by
  induction fuel generalizing callback h with
  | zero => exact absurd hFuel (Nat.not_lt_zero _)
  | succ fuel ih =>
      rw [frameLoop_succ]
      split
      · exact ⟨_, rfl⟩
      · rename_i hStop
        have hFrame := not_le.mp hStop
        have hNext := hFits.next hFrame
        rw [← slice_cutFrame] at hNext
        apply ih hNext
        have hFirst := hFits.first
        rw [slice_cutFrame, List.length_drop]
        omega

theorem length_frames {items rest : List UInt8} {frames : List (List UInt8)}
    {state final : σ} (hFits : SplitsFit onSplit state items)
    (hCut : Cut onSplit state items frames rest final) :
    frames.length ≤ items.length := by
  induction hCut with
  | stop _ => exact Nat.zero_le _
  | frame hFrame _ ih =>
      have hRest := ih (hFits.next hFrame)
      have hFirst := hFits.first
      rw [List.length_drop] at hRest
      rw [List.length_cons]
      omega

/-- From any state in which framing begins, the loop is safe if and only if no
result on the way exceeds its slice. -/
theorem framingSafe_iff (onSplit : σ → List UInt8 → Int × σ) (callback : σ)
    (h : HandlerState) :
    FramingSafe onSplit callback h ↔ SplitsFit onSplit callback h.slice := by
  constructor
  · intro hSafe later left hAsked
    obtain ⟨g, hSplitting, rfl⟩ := splitting_of_asked hAsked
    by_cases hFrame : 0 < (onSplit later g.slice).1
    · have hInside := (inside_iff g _).mp (hSafe.inside later g hSplitting hFrame)
      omega
    · omega
  · intro hFits
    refine ⟨fun later g hSplitting hFrame => ?_, ?_⟩
    · have hSlice := hFits later g.slice hSplitting.asked
      apply (inside_iff g _).mpr
      omega
    · obtain ⟨⟨later, final⟩, hLoop⟩ :=
        frameLoop_ends hFits (Nat.lt_succ_self _)
      obtain ⟨frames, hSpec, hCut⟩ := frameLoop_cut_of_fits hFits hLoop
      have hCount := length_frames hFits hCut
      rw [length_slice] at hLoop hCount
      exact ⟨frames, later, final, hLoop, hCount, hSpec.effects, hCut.flatten_append⟩

/-- **Safe framing, exactly.**  In every invocation of either handler, with every
split callback: the framing loop stays within the live bytes and ends after at
most `size()` fragments if and only if no result the callback gives on the way
exceeds the slice it was given for. -/
theorem framing_safe_iff (onSplit : σ → List UInt8 → Int × σ) (callback : σ)
    (inv : Invocation) (conn : StreamConn) :
    (FramingSafe onSplit callback
        (framingState StreamSession.verdict inv conn) ↔
      SplitsFit onSplit callback
        (framingState StreamSession.verdict inv conn).slice) ∧
    (FramingSafe onSplit callback
        (framingState StreamClientSocket.verdict inv conn) ↔
      SplitsFit onSplit callback
        (framingState StreamClientSocket.verdict inv conn).slice) :=
  ⟨framingSafe_iff _ _ _, framingSafe_iff _ _ _⟩

/-- A split callback that gives the results of a list, one after the other, and
zero when the list is used up. -/
def scriptedSplit (results : List Int) (_ : List UInt8) : Int × List Int :=
  (results.headD 0, results.tail)

theorem not_splitsFit_first {items : List UInt8}
    (hLong : (items.length : Int) < (onSplit callback items).1) :
    ¬ SplitsFit onSplit callback items :=
  fun hFits => absurd hFits.first (not_le.mpr hLong)

/-- A callback that is never content keeps the loop going on an empty buffer. -/
theorem frameLoop_diverges (hPositive : ∀ later left, 0 < (onSplit later left).1)
    (fuel : Nat) (callback : σ) (h : HandlerState) :
    frameLoop onSplit fuel callback h = none := by
  induction fuel generalizing callback h with
  | zero => rfl
  | succ fuel ih =>
      rw [frameLoop_succ, if_neg (not_le.mpr (hPositive callback h.slice))]
      exact ih _ _

/-- Three bytes arrive.  The result `10` makes both handlers hand out a range
that goes on behind them, and a callback that always returns `1` keeps both from
returning. -/
theorem framing_unsafe :
    let inv : Invocation := ⟨EventType.kRead, [.read [1, 2, 3]], [], 0⟩
    let conn : StreamConn := ⟨.make 4, .make 1, ⟨EventType.kRead, 0⟩⟩
    (framingState StreamSession.verdict inv conn).slice = [1, 2, 3] ∧
    ¬ FramingSafe scriptedSplit [10] (framingState StreamSession.verdict inv conn) ∧
    ¬ FramingSafe scriptedSplit [10]
      (framingState StreamClientSocket.verdict inv conn) ∧
    (StreamSession.handler scriptedSplit 2 true inv [10] conn).map
      (·.2.effects) = some [.onFragment [1, 2, 3, 0]] ∧
    ∀ fuel,
      StreamSession.handler (fun () _ => (1, ())) fuel true inv () conn = none ∧
      StreamClientSocket.handler (fun () _ => (1, ())) fuel inv () conn = none := by
  intro inv conn
  have hLong : (([1, 2, 3] : List UInt8).length : Int) <
      (scriptedSplit [10] [1, 2, 3]).1 := by decide
  have hServer : (framingState StreamSession.verdict inv conn).slice = [1, 2, 3] := by
    decide
  have hClient : (framingState StreamClientSocket.verdict inv conn).slice =
      [1, 2, 3] := by
    decide
  refine ⟨hServer, ?_, ?_, by decide, fun fuel => ?_⟩
  · rw [framingSafe_iff, hServer]
    exact not_splitsFit_first hLong
  · rw [framingSafe_iff, hClient]
    exact not_splitsFit_first hLong
  · have hPositive (later : Unit) (left : List UInt8) :
        0 < ((fun () _ => (1, ()) : Unit → List UInt8 → Int × Unit) later left).1 :=
      Int.one_pos
    have hLoop := frameLoop_diverges hPositive fuel ()
    constructor
    · simp only [StreamSession.handler, streamHandler, hLoop, Option.map_none,
        if_true]
    · simp only [StreamClientSocket.handler, streamHandler, hLoop, Option.map_none]

end Net
end KZEvent
