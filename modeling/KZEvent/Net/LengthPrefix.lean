import KZEvent.Foundation.ByteOrder
import KZEvent.Net.ReceiveFraming
import KZEvent.Net.SplitSafety

/-!
# The length prefix of the examples

The README and the tests frame a stream by a length of four bytes before each
payload.  The splitters add four to the length in 32 bits, so a header near the
end of the range makes the sum wrap: the splitter of the README then takes one to
three bytes for a frame.  Where no header is that large, every fragment is a
length and as many bytes, and packets come out as they were packed.
-/

namespace KZEvent
namespace Net

open KZEvent.Core Foundation EventType

/-- The length in front of a packet, as `std::copy` into a `uint32_t` reads it. -/
def header (slice : List UInt8) : UInt32 := load32 slice 0

/-- The split callback of the README and of `TcpServerTest`.  `len + 4` is
`uint32_t`. -/
def splitCb (slice : List UInt8) : Int :=
  if slice.length < 4 then 0
  else
    let len := header slice
    if (len + 4).toNat ≤ slice.length then ((len + 4).toNat : Int) else 0

/-- The split callback of `EchoTcpClientTestIpv4`. -/
def clientSplitCb (slice : List UInt8) : Int :=
  if slice.length < 4 then 0
  else
    let dataLen := header slice
    if slice.length - 4 < dataLen.toNat then 0
    else ((4 + dataLen).toNat : Int)

def dataToPacket (data : List UInt8) : List UInt8 :=
  bytes32 (UInt32.ofNat data.length) ++ data

/-- A fragment is a length and as many bytes. -/
def ExactFragment (fragment : List UInt8) : Prop :=
  4 ≤ fragment.length ∧ fragment.length = 4 + (header fragment).toNat

instance (fragment : List UInt8) : Decidable (ExactFragment fragment) :=
  inferInstanceAs (Decidable (_ ∧ _))

/-- What is left of a stream behind some of its frames, each a length and as many
bytes, less than `2 ^ 32` in all. -/
inductive FrameBoundary (stream : List UInt8) : List UInt8 → Prop
  | start : FrameBoundary stream stream
  | next {left : List UInt8} (hLeft : FrameBoundary stream left)
      (hFits : 4 + (header left).toNat < 4294967296)
      (hWhole : 4 + (header left).toNat ≤ left.length) :
      FrameBoundary stream (left.drop (4 + (header left).toNat))

/-- No header at the boundary of two frames is among the last three numbers of 32
bits. -/
def HeadersFit (stream : List UInt8) : Prop :=
  ∀ left, FrameBoundary stream left → 4 ≤ left.length →
    4 + (header left).toNat ≤ 4294967296

/-! ## Headers -/

theorem toNat_header (slice : List UInt8) :
    (header slice).toNat = leValue (slice.take 4) % 4294967296 := by
  rw [header, load32, UInt32.toNat_ofNat']
  rfl

/-- The header is in the first four bytes. -/
theorem header_take {slice : List UInt8} {count : Nat} (hCount : 4 ≤ count) :
    header (slice.take count) = header slice := by
  have hFirst : (slice.take count).take 4 = slice.take 4 := by
    rw [List.take_take, Nat.min_eq_left hCount]
  apply UInt32.toNat_inj.mp
  rw [toNat_header, toNat_header, hFirst]

theorem header_append {slice : List UInt8} (hLength : 4 ≤ slice.length)
    (more : List UInt8) : header (slice ++ more) = header slice := by
  apply UInt32.toNat_inj.mp
  rw [toNat_header, toNat_header, List.take_append_of_le_length hLength]

theorem header_dataToPacket {data : List UInt8}
    (hFits : data.length < 4294967292) (more : List UInt8) :
    (header (dataToPacket data ++ more)).toNat = data.length := by
  have hLength : (bytes32 (UInt32.ofNat data.length)).length = 4 :=
    length_bytes32 _
  have hFirst : (dataToPacket data ++ more).take 4 =
      bytes32 (UInt32.ofNat data.length) := by
    rw [dataToPacket, List.append_assoc, ← hLength, List.take_left]
  rw [toNat_header, hFirst, leValue_bytes32, UInt32.toNat_ofNat']
  omega

/-! ## What the sum in 32 bits makes of a header -/

theorem toNat_header_add_four (slice : List UInt8) :
    (header slice + 4).toNat = (4 + (header slice).toNat) % 4294967296 := by
  rw [UInt32.toNat_add, Nat.add_comm]
  rfl

theorem splitCb_of_short {slice : List UInt8} (hShort : slice.length < 4) :
    splitCb slice = 0 := if_pos hShort

/-- The splitter on a slice with a header. -/
theorem splitCb_of_header {slice : List UInt8} (hLength : 4 ≤ slice.length) :
    splitCb slice =
      if (4 + (header slice).toNat) % 4294967296 ≤ slice.length then
        (((4 + (header slice).toNat) % 4294967296 : Nat) : Int)
      else 0 := by
  rw [splitCb, if_neg (not_lt.mpr hLength)]
  simp only [toNat_header_add_four]

theorem clientSplitCb_of_header {slice : List UInt8}
    (hLength : 4 ≤ slice.length) :
    clientSplitCb slice =
      if 4 + (header slice).toNat ≤ slice.length then
        (((4 + (header slice).toNat) % 4294967296 : Nat) : Int)
      else 0 := by
  have hSum : (4 + header slice).toNat =
      (4 + (header slice).toNat) % 4294967296 := UInt32.toNat_add _ _
  rw [clientSplitCb, if_neg (not_lt.mpr hLength)]
  simp only [hSum]
  split <;> split <;> omega

theorem boundedSplit_splitCb : BoundedSplit (stateless splitCb) := by
  intro _ slice
  show splitCb slice ≤ slice.length
  by_cases hLength : 4 ≤ slice.length
  · rw [splitCb_of_header hLength]
    split <;> omega
  · rw [splitCb_of_short (not_le.mp hLength)]
    omega

theorem four_le_of_pos {slice : List UInt8} (hFrame : 0 < splitCb slice) :
    4 ≤ slice.length := by
  by_contra hShort
  rw [splitCb_of_short (not_le.mp hShort)] at hFrame
  exact absurd hFrame (lt_irrefl _)

/-- A frame does not depend on what follows it, not even a wrong one. -/
theorem prefixStable_splitCb : PrefixStable splitCb := by
  intro slice more hFrame
  have hLength := four_le_of_pos hFrame
  have hLonger : 4 ≤ (slice ++ more).length := by
    rw [List.length_append]
    omega
  rw [splitCb_of_header hLength] at hFrame ⊢
  rw [splitCb_of_header hLonger, header_append hLength, List.length_append]
  split at hFrame
  · rename_i hFits
    rw [if_pos hFits, if_pos (by omega)]
  · exact absurd hFrame (lt_irrefl _)

/-! ## One frame -/

/-- The header at the front of a slice, if there is one, is not one of the last
three numbers. -/
def HeaderFits (slice : List UInt8) : Prop :=
  4 ≤ slice.length → 4 + (header slice).toNat ≤ 4294967296

/-- A frame whose header fits has the length the header says. -/
theorem splitCb_of_fits {slice : List UInt8} (hFits : HeaderFits slice)
    (hFrame : 0 < splitCb slice) :
    splitCb slice = ((4 + (header slice).toNat : Nat) : Int) ∧
      4 + (header slice).toNat < 4294967296 ∧
      4 + (header slice).toNat ≤ slice.length := by
  have hLength := four_le_of_pos hFrame
  have hBound := hFits hLength
  rw [splitCb_of_header hLength] at hFrame ⊢
  split at hFrame
  · rename_i hSum
    -- A sum of exactly 2 ^ 32 wraps to zero, and is no frame.
    have hLess : 4 + (header slice).toNat < 4294967296 := by omega
    rw [Nat.mod_eq_of_lt hLess] at hSum ⊢
    exact ⟨if_pos hSum, hLess, hSum⟩
  · exact absurd hFrame (lt_irrefl _)

/-- A header that does not fit passes for a frame of one to three bytes. -/
theorem splitCb_of_not_fits {slice : List UInt8} (hWraps : ¬ HeaderFits slice) :
    0 < splitCb slice ∧ splitCb slice < 4 := by
  simp only [HeaderFits, Classical.not_imp, not_le] at hWraps
  obtain ⟨hLength, hSum⟩ := hWraps
  have hHeader := (header slice).toNat_lt
  rw [splitCb_of_header hLength, if_pos (by omega)]
  omega

theorem length_take_splitCb {slice : List UInt8} :
    (slice.take (splitCb slice).toNat).length = (splitCb slice).toNat := by
  have hBounded : splitCb slice ≤ slice.length := boundedSplit_splitCb () slice
  exact List.length_take_of_le (by omega)

/-- A frame is exact if and only if its header fits. -/
theorem exactFragment_take_iff {slice : List UInt8}
    (hFrame : 0 < splitCb slice) :
    ExactFragment (slice.take (splitCb slice).toNat) ↔ HeaderFits slice := by
  constructor
  · intro hExact
    by_contra hWraps
    have hShort := (splitCb_of_not_fits hWraps).2
    have hLong := hExact.1
    rw [length_take_splitCb] at hLong
    omega
  · intro hFits
    obtain ⟨hSplit, -, hWhole⟩ := splitCb_of_fits hFits hFrame
    rw [ExactFragment, length_take_splitCb, hSplit, Int.toNat_natCast,
      header_take (Nat.le_add_right 4 _)]
    exact ⟨Nat.le_add_right 4 _, rfl⟩

/-! ## A whole stream -/

/-- The boundaries of a stream are its start and those behind its first frame. -/
theorem headersFit_iff (stream : List UInt8) :
    HeadersFit stream ↔
      HeaderFits stream ∧
        (4 + (header stream).toNat < 4294967296 →
          4 + (header stream).toNat ≤ stream.length →
          HeadersFit (stream.drop (4 + (header stream).toNat))) := by
  constructor
  · intro hHeaders
    refine ⟨hHeaders stream .start, fun hFits hWhole left hBoundary => ?_⟩
    apply hHeaders
    induction hBoundary with
    | start => exact .next .start hFits hWhole
    | next _ hFits hWhole ih => exact .next ih hFits hWhole
  · rintro ⟨hFirst, hRest⟩ left hBoundary
    have hSplit : left = stream ∨
        (4 + (header stream).toNat < 4294967296 ∧
          4 + (header stream).toNat ≤ stream.length ∧
          FrameBoundary (stream.drop (4 + (header stream).toNat)) left) := by
      induction hBoundary with
      | start => exact .inl rfl
      | next _ hFits hWhole ih =>
          rcases ih with rfl | ⟨hFirstFits, hFirstWhole, hLater⟩
          · exact .inr ⟨hFits, hWhole, .start⟩
          · exact .inr ⟨hFirstFits, hFirstWhole, .next hLater hFits hWhole⟩
    rcases hSplit with rfl | ⟨hFits, hWhole, hLater⟩
    · exact hFirst
    · exact hRest hFits hWhole left hLater

/-- Cutting a stream: the frames are exact if and only if its headers fit. -/
theorem exactFragments_iff {u u' : Unit} {stream rest : List UInt8}
    {frames : List (List UInt8)}
    (hCut : Cut (stateless splitCb) u stream frames rest u') :
    (∀ frame ∈ frames, ExactFragment frame) ↔ HeadersFit stream := by
  induction hCut with
  | stop hStop =>
      rename_i u stream
      have hNone : ¬ 0 < splitCb stream := not_lt.mpr hStop
      have hFits : HeaderFits stream := by
        by_contra hWraps
        exact hNone (splitCb_of_not_fits hWraps).1
      refine iff_of_true (fun _ hMem => by cases hMem) ?_
      rw [headersFit_iff]
      refine ⟨hFits, fun hLess hWhole => ?_⟩
      -- A whole frame would have been cut off.
      have hSplit : splitCb stream = ((4 + (header stream).toNat : Nat) : Int) := by
        rw [splitCb_of_header (by omega), Nat.mod_eq_of_lt hLess, if_pos hWhole]
      exact absurd (by omega) hNone
  | frame hFrame hRest ih =>
      rename_i u u' stream rest frames
      have hFrame : 0 < splitCb stream := hFrame
      show (∀ frame ∈ stream.take (splitCb stream).toNat :: frames,
        ExactFragment frame) ↔ HeadersFit stream
      rw [List.forall_mem_cons, exactFragment_take_iff hFrame, headersFit_iff]
      refine and_congr_right fun hFits => ?_
      obtain ⟨hSplit, hLess, hWhole⟩ := splitCb_of_fits hFits hFrame
      have ih : (∀ frame ∈ frames, ExactFragment frame) ↔
          HeadersFit (stream.drop (splitCb stream).toNat) := ih
      rw [hSplit, Int.toNat_natCast] at ih
      rw [ih]
      exact ⟨fun hLater _ _ => hLater, fun hLater => hLater hLess hWhole⟩

/-- Packets behind each other are cut into just these packets. -/
theorem cut_packets {payloads : List (List UInt8)}
    (hShort : ∀ data ∈ payloads, data.length < 4294967292) :
    Cut (stateless splitCb) () (payloads.map dataToPacket).flatten
      (payloads.map dataToPacket) [] () := by
  induction payloads with
  | nil => exact .stop (le_refl _)
  | cons data payloads ih =>
      obtain ⟨hData, hRest⟩ := List.forall_mem_cons.mp hShort
      rw [List.map_cons, List.flatten_cons]
      generalize (payloads.map dataToPacket).flatten = later at ih ⊢
      have hPacket : (dataToPacket data).length = 4 + data.length := by
        rw [dataToPacket, List.length_append, length_bytes32]
      have hHeader := header_dataToPacket hData later
      have hSplit : splitCb (dataToPacket data ++ later) =
          ((dataToPacket data).length : Int) := by
        have hLength : (dataToPacket data ++ later).length =
            4 + data.length + later.length := by
          rw [List.length_append, hPacket]
        rw [splitCb_of_header (by omega), hHeader,
          Nat.mod_eq_of_lt (by omega), if_pos (by omega), hPacket]
      exact Cut.frame_of_eq hSplit (by omega) (ih hRest)

/-- The two splitters agree on a slice if and only if its header fits, or all the
bytes it announces are there. -/
theorem splitCb_eq_clientSplitCb_iff (slice : List UInt8) :
    splitCb slice = clientSplitCb slice ↔
      HeaderFits slice ∨ 4 + (header slice).toNat ≤ slice.length := by
  by_cases hLength : 4 ≤ slice.length
  · have hHeader := (header slice).toNat_lt
    rw [splitCb_of_header hLength, clientSplitCb_of_header hLength]
    simp only [HeaderFits, hLength, true_imp_iff]
    by_cases hFits : 4 + (header slice).toNat < 4294967296
    · rw [Nat.mod_eq_of_lt hFits]
      exact iff_of_true rfl (.inl (Nat.le_of_lt hFits))
    · -- The sum wraps to a number from zero to three.
      rw [if_pos (by omega)]
      split <;> omega
  · have hShort : slice.length < 4 := not_le.mp hLength
    rw [splitCb_of_short hShort, clientSplitCb, if_pos hShort]
    exact iff_of_true rfl (.inl fun hLong => absurd hLong hLength)

/-! ## The law -/

/-- The fragments of an invocation are the cut of what framing begins with. -/
theorem fragments_cut {onSplit : List UInt8 → Int}
    (hBounded : BoundedSplit (stateless onSplit)) {fuel : Nat} {inv : Invocation}
    {conn : StreamConn} {u : Unit} {final : HandlerState}
    (hReturns : StreamSession.handler (stateless onSplit) fuel true inv () conn =
      some (u, final)) :
    ∃ rest u', Cut (stateless onSplit) ()
      (framingState StreamSession.verdict inv conn).slice
      (fragmentsOf final.effects) rest u' := by
  simp only [StreamSession.handler, if_true, streamHandler,
    Option.map_eq_some_iff, Prod.mk.injEq] at hReturns
  obtain ⟨⟨u', framed⟩, hLoop, -, rfl⟩ := hReturns
  have hStart := framingStart StreamSession.verdict inv conn
  obtain ⟨frames, hFrames, hCut⟩ := frameLoop_cut hBounded hLoop
  have hFragments := (disconnectPhase_outcome hStart hFrames).fragments
  rw [hFragments]
  exact ⟨_, u', hCut⟩

/-- The fragments of a clean run are the cut of what was received. -/
theorem StreamSession.CleanRun.cut {s : StreamSession Unit}
    (hRun : CleanRun splitCb s) (hIdle : s.pending = []) :
    Cut (stateless splitCb) () s.traffic.received s.traffic.fragments
      s.conn.recvBuf.live () := by
  have hFramed := hRun.framed boundedSplit_splitCb prefixStable_splitCb
  simpa [view, ReceiveView.Framed, receiveView, hIdle, fragmentsOf] using hFramed

/-- **Exact length prefixes.**  In every invocation of the session's handler, from
any buffer, and for the bytes received in every clean run, however they were
segmented: with the splitter of the README all fragments are exact if and only if
no header at a frame boundary is among the last three numbers of 32 bits; packets
of payloads shorter than `2 ^ 32 - 4` come out as they went in; and the splitter
of the client test agrees on a slice if and only if its header fits or the bytes
it announces are there. -/
theorem length_prefix_exact_iff (s : StreamSession Unit) (slice : List UInt8) :
    (∀ fuel inv conn u final,
      StreamSession.handler (stateless splitCb) fuel true inv () conn =
        some (u, final) →
      ((∀ fragment ∈ fragmentsOf final.effects, ExactFragment fragment) ↔
        HeadersFit (framingState StreamSession.verdict inv conn).slice)) ∧
    (StreamSession.CleanRun splitCb s → s.pending = [] →
      ((∀ fragment ∈ s.traffic.fragments, ExactFragment fragment) ↔
        HeadersFit s.traffic.received) ∧
      ∀ payloads : List (List UInt8),
        (∀ data ∈ payloads, data.length < 4294967292) →
        s.traffic.received = (payloads.map dataToPacket).flatten →
        s.traffic.fragments = payloads.map dataToPacket) ∧
    (splitCb slice = clientSplitCb slice ↔
      HeaderFits slice ∨ 4 + (header slice).toNat ≤ slice.length) := by
  refine ⟨?_, ?_, splitCb_eq_clientSplitCb_iff slice⟩
  · intro fuel inv conn u final hReturns
    obtain ⟨rest, u', hCut⟩ := fragments_cut boundedSplit_splitCb hReturns
    exact exactFragments_iff hCut
  · intro hRun hIdle
    have hCut := hRun.cut hIdle
    refine ⟨exactFragments_iff hCut, fun payloads hShort hReceived => ?_⟩
    have hPackets := cut_packets hShort
    rw [← hReceived] at hPackets
    exact (hCut.unique hPackets).1

/-- A packet of two bytes and an empty one, received in two pieces that end inside
the first. -/
theorem length_prefix_exact_iff_pieces :
    ∃ s, StreamSession.CleanRun splitCb s ∧
      s.traffic.received = dataToPacket [7, 8] ++ dataToPacket [] ∧
      s.traffic.fragments = [dataToPacket [7, 8], dataToPacket []] := by
  obtain ⟨s, hRun, hWaiting⟩ := StreamSession.exists_cleanRun boundedSplit_splitCb
    [[2, 0, 0, 0, 7], [8, 0, 0, 0, 0]] (by decide)
  have hReceived : s.traffic.received = dataToPacket [7, 8] ++ dataToPacket [] :=
    hWaiting.received.trans (by decide)
  have hFragments := ((length_prefix_exact_iff s []).2.1 hRun hWaiting.idle).2
    [[7, 8], []] (by decide) (hReceived.trans (by decide))
  exact ⟨s, hRun, hReceived, hFragments⟩

/-- Four bytes `0xff` are a header of `2 ^ 32 - 1`.  The sum is three: the splitter
of the README hands three of them out, and that of the client test waits. -/
theorem length_prefix_wraps :
    ∃ s, StreamSession.CleanRun splitCb s ∧
      s.traffic.received = [255, 255, 255, 255] ∧
      s.traffic.fragments = [[255, 255, 255]] ∧
      ¬ ExactFragment [255, 255, 255] ∧
      splitCb [255, 255, 255, 255] = 3 ∧
      clientSplitCb [255, 255, 255, 255] = 0 := by
  obtain ⟨s, hRun, hWaiting⟩ := StreamSession.exists_cleanRun boundedSplit_splitCb
    [[255, 255, 255, 255]] (by decide)
  have hReceived : s.traffic.received = [255, 255, 255, 255] := hWaiting.received
  have hCut := hRun.cut hWaiting.idle
  rw [hReceived] at hCut
  have hFirst : 0 < (stateless splitCb () [255, 255, 255, 255]).1 := by decide
  have hWrong : Cut (stateless splitCb) () [255, 255, 255, 255]
      [[255, 255, 255]] [255] () := .frame hFirst (.stop (by decide))
  exact ⟨s, hRun, hReceived, (hCut.unique hWrong).1, by decide, by decide, by decide⟩

end Net
end KZEvent
