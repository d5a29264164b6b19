import KZEvent.Net.StreamClient
import KZEvent.Net.StreamSession

/-!
# Receive framing does not depend on segmentation

The receiving side of a run is seen through three things: the bytes received,
the fragments handed over or about to be, and the bytes still in the receive
buffer.  Only a handler invocation changes any of them, and a clean invocation
resumes the cut of the received bytes.  So after every clean run the fragments
are the cut of the bytes received, which does not know how they were segmented.
-/

namespace KZEvent
namespace Net

open KZEvent.Core Foundation EventType

/-- The receiving side of a run. -/
structure ReceiveView where
  received : List UInt8
  fragments : List (List UInt8)
  unconsumed : List UInt8

def receiveView (traffic : Traffic) (pending : List Effect) (conn : StreamConn) :
    ReceiveView where
  received := traffic.received
  fragments := traffic.fragments ++ fragmentsOf pending
  unconsumed := conn.recvBuf.live

/-- The fragments are the cut of the bytes received, and what the cut leaves
over is in the receive buffer. -/
def ReceiveView.Framed (split : List UInt8 → Int) (view : ReceiveView) : Prop :=
  Cut (stateless split) () view.received view.fragments view.unconsumed ()

variable {split : List UInt8 → Int}

theorem ReceiveView.framed_start (hBounded : BoundedSplit (stateless split)) :
    ReceiveView.Framed split ⟨[], [], []⟩ :=
  Cut.stop (hBounded () [])

/-- A clean invocation resumes the cut. -/
theorem ReceiveView.Framed.handler {verdict : Invocation → SocketVerdict}
    (hBounded : BoundedSplit (stateless split)) (hStable : PrefixStable split)
    {fuel : Nat} {inv : Invocation} {conn : StreamConn} {traffic : Traffic}
    {h : HandlerState} (hQuiet : verdict inv = .quiet)
    (hClean : inv.Clean conn.sendBuf.live.length)
    (hReturns : streamHandler verdict (stateless split) fuel inv () conn =
      some ((), h))
    (hFramed : (receiveView traffic [] conn).Framed split) :
    (receiveView (traffic.exchange h.received h.accepted) h.effects
      h.conn).Framed split := by
  obtain ⟨frames, input, rest, hOutcome, hCut, hInput, -, hRest⟩ :=
    streamHandler_cut hBounded hReturns
  have hKept : input = conn.recvBuf.live ++ inv.readBytes :=
    hInput (hClean.not_discards hQuiet)
  have hOpen : inv.closes verdict conn = false := hClean.closes_eq_false hQuiet
  rw [hKept] at hCut
  have hBefore : Cut (stateless split) () traffic.received traffic.fragments
      conn.recvBuf.live () := by
    simpa [ReceiveView.Framed, receiveView, fragmentsOf] using hFramed
  -- The cut of this invocation goes on where the cut so far stopped.
  have hResumed := Cut.resume hBounded hStable hBefore hCut
  simpa [ReceiveView.Framed, receiveView, Traffic.exchange, hOutcome.fragments,
    hOutcome.received, hRest, hOpen] using hResumed

/-! ## Sessions -/

namespace StreamSession

variable {σ : Type*}

def view (s : StreamSession σ) : ReceiveView :=
  receiveView s.traffic s.pending s.conn

theorem view_call (s : StreamSession σ) (call : SessionCall) :
    (s.call call).view = s.view := by
  cases call <;> rfl

theorem view_exec (faults : TaskFaults) (ret : SendRet) (s : StreamSession σ)
    (task : SessionTask) : (s.exec faults ret task).view = s.view := by
  cases task with
  | fd task => rfl
  | send data =>
      simp only [exec, execSend]
      split_ifs
      · simp [view, receiveView, post, Traffic.sendTask]
      · rfl
      · rfl
  | erase =>
      simp only [exec]
      split <;> rfl

theorem view_perform {s : StreamSession σ} {effect : Effect}
    {effects : List Effect} (hPending : s.pending = effect :: effects) :
    ({ s with pending := effects }.perform effect).view = s.view := by
  simp only [view, receiveView, hPending, fragmentsOf_cons]
  cases effect with
  | onFragment fragment =>
      simp [perform, Traffic.deliver, Effect.fragment?]
  | updateEvent types modes => rfl
  | onError errno => rfl
  | onDisconnect => rfl

/-- No handler invocation sees a failure or the end of the connection. -/
def CleanEvents (s : StreamSession σ) : SessionAction → Prop
  | .dispatch _ inv => s.serverAlive = true →
      inv.Clean s.conn.sendBuf.live.length
  | _ => True

instance (s : StreamSession σ) (action : SessionAction) :
    Decidable (s.CleanEvents action) :=
  match action with
  | .dispatch _ _ => inferInstanceAs (Decidable (_ → _))
  | .call _ | .execTask _ _ | .perform | .destroyServer => .isTrue trivial

theorem framed_step (hBounded : BoundedSplit (stateless split))
    (hStable : PrefixStable split) (s : StreamSession Unit)
    (action : SessionAction) (next : StreamSession Unit)
    (hFramed : s.view.Framed split) (hClean : s.CleanEvents action)
    (hStep : step (stateless split) s action = some next) :
    next.view.Framed split := by
  cases stepped hStep with
  | call call => rwa [view_call]
  | execTask hIdle hQueue =>
      rw [view_exec]
      exact hFramed
  | dispatch hIdle hInstalled hReturns =>
      rename_i fuel inv callback h
      simp only [handler] at hReturns
      simp only [view, hIdle] at hFramed
      split at hReturns
      · rename_i hAlive
        have hCleanInv := hClean hAlive
        have hQuiet := verdict_of_soError_eq_zero hCleanInv.soError
        exact ReceiveView.Framed.handler hBounded hStable hQuiet hCleanInv
          hReturns hFramed
      · -- without a server the invocation does nothing
        obtain ⟨-, rfl⟩ := by simpa using hReturns
        simpa [view, leave, Traffic.exchange] using hFramed
  | perform hPending => rwa [view_perform hPending]
  | destroyServer hIdle => exact hFramed

/-- The states of sessions whose runs are clean. -/
def CleanRun (split : List UInt8 → Int) (s : StreamSession Unit) : Prop :=
  ∃ actions, Guarded (step (stateless split)) CleanEvents (accepted ()) actions ∧
    run (step (stateless split)) (accepted ()) actions = some s

theorem CleanRun.framed (hBounded : BoundedSplit (stateless split))
    (hStable : PrefixStable split) {s : StreamSession Unit}
    (hRun : CleanRun split s) : s.view.Framed split := by
  obtain ⟨actions, hGuarded, hActions⟩ := hRun
  have hInit : (accepted () : StreamSession Unit).view.Framed split := by
    simpa [view, receiveView, accepted, start, post, Traffic.none, fragmentsOf]
      using ReceiveView.framed_start hBounded
  exact run_invariant (framed_step hBounded hStable) hInit hGuarded hActions

/-- An event that finds the io thread idle and the callback installed is
handled to the end. -/
theorem dispatch_returns {onSplit : σ → List UInt8 → Int × σ}
    (hBounded : BoundedSplit onSplit) {s : StreamSession σ}
    (hIdle : s.pending = []) (hInstalled : s.slot.event.cb = some ())
    (inv : Invocation) :
    ∃ fuel next, step onSplit s (.dispatch fuel inv) = some next := by
  obtain ⟨fuel, result, hReturns⟩ :=
    streamHandler_returns verdict hBounded inv s.split s.conn
  cases hAlive : s.serverAlive with
  | true =>
      exact ⟨fuel, s.leave result.1 result.2, by
        simp [step, hIdle, hInstalled, handler, hAlive, hReturns]⟩
  | false =>
      exact ⟨fuel, s.leave s.split (HandlerState.enter s.conn), by
        simp [step, hIdle, hInstalled, handler, hAlive]⟩

/-- A session that waits for input, with what it has received. -/
structure Waiting (s : StreamSession σ) (received : List UInt8) : Prop where
  idle : s.pending = []
  installed : s.slot.event.cb = some ()
  alive : s.serverAlive = true
  received : s.traffic.received = received

theorem CleanRun.append {s next : StreamSession Unit}
    {actions : List SessionAction} (hRun : CleanRun split s)
    (hGuard : Guarded (step (stateless split)) CleanEvents s actions)
    (hActions : run (step (stateless split)) s actions = some next) :
    CleanRun split next := by
  obtain ⟨earlier, hEarlier, hReached⟩ := hRun
  exact ⟨earlier ++ actions, hEarlier.append hReached hGuard,
    run_append_eq_some_iff.mpr ⟨s, hReached, hActions⟩⟩

/-- The effects of an invocation are performed one by one. -/
theorem run_perform (onSplit : σ → List UInt8 → Int × σ) (effects : List Effect)
    {s : StreamSession σ} (hPending : s.pending = effects) :
    ∃ next, run (step onSplit) s (List.replicate effects.length .perform) =
        some next ∧ next.pending = [] ∧ next.slot = s.slot ∧
      next.serverAlive = s.serverAlive ∧
      next.traffic.received = s.traffic.received := by
  induction effects generalizing s with
  | nil => exact ⟨s, rfl, hPending, rfl, rfl, rfl⟩
  | cons effect effects ih =>
      have hStep : step onSplit s .perform =
          some ({ s with pending := effects }.perform effect) := by
        simp only [step, hPending]
      have hFirst : ({ s with pending := effects }.perform effect).pending = effects ∧
          ({ s with pending := effects }.perform effect).slot = s.slot ∧
          ({ s with pending := effects }.perform effect).serverAlive =
            s.serverAlive ∧
          ({ s with pending := effects }.perform effect).traffic.received =
            s.traffic.received := by
        cases effect <;> exact ⟨rfl, rfl, rfl, rfl⟩
      obtain ⟨next, hRun, hIdle, hSlot, hAlive, hReceived⟩ := ih hFirst.1
      exact ⟨next, run_cons_eq_some_iff.mpr ⟨_, hStep, hRun⟩, hIdle,
        hSlot.trans hFirst.2.1, hAlive.trans hFirst.2.2.1,
        hReceived.trans hFirst.2.2.2⟩

/-- A session that waits for input receives a segment in one event. -/
theorem CleanRun.receive (hBounded : BoundedSplit (stateless split))
    {s : StreamSession Unit} {received segment : List UInt8}
    (hRun : CleanRun split s) (hWaiting : s.Waiting received)
    (hSegment : segment ≠ []) :
    ∃ next, CleanRun split next ∧ next.Waiting (received ++ segment) := by
  let inv : Invocation := ⟨kRead, [.read segment], [], 0⟩
  have hStatus : (ReadvRet.read segment).status = .kSuccess := by
    simp [ReadvRet.status, hSegment]
  have hRead : hasFlag inv.types kRead = true :=
    show hasFlag kRead kRead = true by decide
  have hWrite : ¬ hasFlag inv.types kWrite = true :=
    show ¬ hasFlag kRead kWrite = true by decide
  have hBytes : inv.readBytes = segment := by
    rw [Invocation.readBytes, if_pos hRead]
    simp [inv, Net.readBytes, hStatus, ReadvRet.bytes]
  have hClean : inv.Clean s.conn.sendBuf.live.length := by
    refine ⟨?_, .inr ?_, rfl⟩
    · rw [Invocation.readEnd, if_pos hRead]
      simp [inv, Net.readEnd, hStatus]
    · rw [Invocation.sendEnd, if_neg hWrite]
  obtain ⟨fuel, reached, hStep⟩ :=
    dispatch_returns hBounded hWaiting.idle hWaiting.installed inv
  have hReached : reached.slot = s.slot ∧ reached.serverAlive = s.serverAlive ∧
      reached.traffic.received = received ++ segment := by
    cases stepped hStep with
    | dispatch hIdle hInstalled hReturns =>
        rename_i callback h
        rw [handler, if_pos hWaiting.alive] at hReturns
        obtain ⟨frames, input, rest, hOutcome, -⟩ :=
          streamHandler_cut hBounded hReturns
        refine ⟨rfl, rfl, ?_⟩
        show s.traffic.received ++ h.received = _
        rw [hWaiting.received, hOutcome.received, hBytes]
  obtain ⟨next, hPerformed, hIdle, hSlot, hAlive, hReceived⟩ :=
    run_perform (stateless split) reached.pending rfl
  have hPerforms : Guarded (step (stateless split)) CleanEvents reached
      (List.replicate reached.pending.length .perform) := by
    have hOnly : ∀ action ∈ List.replicate reached.pending.length
        SessionAction.perform, action = .perform :=
      fun _ => List.eq_of_mem_replicate
    refine (guarded_of_forall_mem hOnly reached).imp ?_
    rintro state action rfl
    trivial
  have hGuard : Guarded (step (stateless split)) CleanEvents s
      (.dispatch fuel inv :: List.replicate reached.pending.length .perform) := by
    refine ⟨fun _ => hClean, fun other hOther => ?_⟩
    obtain rfl := Option.some.inj (hStep.symm.trans hOther)
    exact hPerforms
  refine ⟨next, hRun.append hGuard
    (run_cons_eq_some_iff.mpr ⟨reached, hStep, hPerformed⟩), hIdle, ?_, ?_, ?_⟩
  · rw [hSlot, hReached.1]
    exact hWaiting.installed
  · rw [hAlive, hReached.2.1]
    exact hWaiting.alive
  · rw [hReceived, hReached.2.2]

/-- Every segmentation is received by some clean run. -/
theorem exists_cleanRun (hBounded : BoundedSplit (stateless split))
    (segments : List (List UInt8))
    (hSegments : ∀ segment ∈ segments, segment ≠ []) :
    ∃ s, CleanRun split s ∧ s.Waiting segments.flatten := by
  have hFrom (s : StreamSession Unit) (received : List UInt8)
      (hRun : CleanRun split s) (hWaiting : s.Waiting received) :
      ∃ next, CleanRun split next ∧ next.Waiting (received ++ segments.flatten) := by
    induction segments generalizing s received with
    | nil => exact ⟨s, hRun, by simpa using hWaiting⟩
    | cons segment segments ih =>
        obtain ⟨hFirst, hRest⟩ := List.forall_mem_cons.mp hSegments
        obtain ⟨middle, hMiddle, hReceived⟩ := hRun.receive hBounded hWaiting hFirst
        rw [List.flatten_cons, ← List.append_assoc]
        exact ih hRest middle _ hMiddle hReceived
  -- The descriptor is registered, and the handler installed.
  let actions : List SessionAction :=
    [.execTask {} (.sent 0), .execTask {} (.sent 0)]
  obtain ⟨s, hRun, hWaiting⟩ : ∃ s, run (step (stateless split)) (accepted ())
      actions = some s ∧ s.Waiting [] := ⟨_, rfl, rfl, rfl, rfl, rfl⟩
  have hClean : CleanRun split s :=
    ⟨actions, ⟨trivial, fun _ _ => ⟨trivial, fun _ _ => trivial⟩⟩, hRun⟩
  obtain ⟨next, hNext, hReceived⟩ := hFrom s [] hClean hWaiting
  exact ⟨next, hNext, by simpa using hReceived⟩

end StreamSession

/-! ## Clients -/

namespace StreamClient

variable {σ : Type*}

def view (c : StreamClient σ) : ReceiveView :=
  receiveView c.traffic c.pending c.conn

theorem view_start (c : StreamClient σ) : c.start.view = c.view := by
  simp only [start]
  split <;> rfl

theorem view_call (c : StreamClient σ) (call : ClientCall) :
    (c.call call).view = c.view := by
  cases call with
  | connect ret timeoutMs =>
      have hConnects := c.connects ret timeoutMs
      rw [StreamClient.call]
      generalize c.connect ret timeoutMs = next at hConnects ⊢
      cases hConnects with
      | ignored _ hBusy => rfl
      | succeeds hFree => exact view_start _
      | fails hFree hErrno => rfl
      | detects hFree => rfl
  | connectReturns =>
      simp only [StreamClient.call, connectReturns]
      split <;> rfl
  | start => exact view_start c
  | stop => rfl
  | postSendTask data => rfl

theorem view_exec (faults : TaskFaults) (ret : SendRet) (c : StreamClient σ)
    (task : ClientTask) : (c.exec faults ret task).view = c.view := by
  cases task with
  | stream task => rfl
  | timer task => rfl
  | resetTimer timeoutMs => rfl
  | send data =>
      simp only [exec, execSend]
      split_ifs
      · rfl
      · simp [view, receiveView, post, Traffic.sendTask]

theorem view_socketCb (c : StreamClient σ) (attempt : Nat) (inv : Invocation) :
    (c.socketCb attempt inv).view = c.view := by
  simp only [socketCb]
  split
  · split
    · rfl
    · rw [view_start]
      rfl
  · rfl

theorem view_timerCb (c : StreamClient σ) (attempt : Nat) :
    (c.timerCb attempt).view = c.view := by
  simp only [timerCb]
  split <;> rfl

theorem view_perform {c : StreamClient σ} {effect : Effect}
    {effects : List Effect} (hPending : c.pending = effect :: effects) :
    ({ c with pending := effects }.perform effect).view = c.view := by
  simp only [view, receiveView, hPending, fragmentsOf_cons]
  cases effect with
  | onFragment fragment =>
      simp [perform, Traffic.deliver, Effect.fragment?]
  | updateEvent types modes => rfl
  | onError errno => rfl
  | onDisconnect => rfl

/-- No invocation of the stream handler sees a failure or the end of the
connection. -/
def CleanEvents (c : StreamClient σ) : ClientAction → Prop
  | .dispatch _ inv => c.streamSlot.event.cb = some .handler →
      inv.Clean c.conn.sendBuf.live.length
  | _ => True

theorem framed_step (hBounded : BoundedSplit (stateless split))
    (hStable : PrefixStable split) (c : StreamClient Unit)
    (action : ClientAction) (next : StreamClient Unit)
    (hFramed : c.view.Framed split) (hClean : c.CleanEvents action)
    (hStep : step (stateless split) c action = some next) :
    next.view.Framed split := by
  cases stepped hStep with
  | call call => rwa [view_call]
  | execTask hIdle hQueue =>
      rw [view_exec]
      exact hFramed
  | socketCb hIdle hInstalled => rwa [view_socketCb]
  | handler hIdle hInstalled hReturns =>
      have hCleanInv := hClean hInstalled
      have hQuiet := StreamClientSocket.verdict_of_soError_eq_zero hCleanInv.soError
      simp only [view, hIdle] at hFramed
      exact ReceiveView.Framed.handler hBounded hStable hQuiet hCleanInv
        hReturns hFramed
  | perform hPending => rwa [view_perform hPending]
  | timerExpires hIdle hInstalled => rwa [view_timerCb]

/-- The states of clients whose runs are clean. -/
def CleanRun (split : List UInt8 → Int) (c : StreamClient Unit) : Prop :=
  ∃ actions, Guarded (step (stateless split)) CleanEvents (make ()) actions ∧
    run (step (stateless split)) (make ()) actions = some c

theorem CleanRun.framed (hBounded : BoundedSplit (stateless split))
    (hStable : PrefixStable split) {c : StreamClient Unit}
    (hRun : CleanRun split c) : c.view.Framed split := by
  obtain ⟨actions, hGuarded, hActions⟩ := hRun
  have hInit : (make () : StreamClient Unit).view.Framed split := by
    simpa [view, receiveView, make, Traffic.none, fragmentsOf]
      using ReceiveView.framed_start hBounded
  exact run_invariant (framed_step hBounded hStable) hInit hGuarded hActions

/-- An event that finds the io thread idle and the stream handler installed is
handled to the end. -/
theorem dispatch_returns {onSplit : σ → List UInt8 → Int × σ}
    (hBounded : BoundedSplit onSplit) {c : StreamClient σ}
    (hIdle : c.pending = [])
    (hInstalled : c.streamSlot.event.cb = some .handler) (inv : Invocation) :
    ∃ fuel next, step onSplit c (.dispatch fuel inv) = some next := by
  obtain ⟨fuel, result, hReturns⟩ :=
    streamHandler_returns StreamClientSocket.verdict hBounded inv c.split c.conn
  exact ⟨fuel, c.leave result.1 result.2, by
    simp [step, hIdle, hInstalled, StreamClientSocket.handler, hReturns]⟩

end StreamClient

/-! ## The law -/

/-- When the io thread is idle, fragments and live bytes make up the bytes
received. -/
theorem ReceiveView.Framed.conserved {traffic : Traffic} {pending : List Effect}
    {conn : StreamConn} (hFramed : (receiveView traffic pending conn).Framed split)
    (hIdle : pending = []) :
    traffic.fragments.flatten ++ conn.recvBuf.live = traffic.received := by
  have hCut := Cut.flatten_append hFramed
  simpa [receiveView, hIdle, fragmentsOf] using hCut

/-- Two framed views of the same bytes show the same fragments. -/
theorem ReceiveView.Framed.fragments_unique {traffic traffic' : Traffic}
    {pending pending' : List Effect} {conn conn' : StreamConn}
    (hFramed : (receiveView traffic pending conn).Framed split)
    (hFramed' : (receiveView traffic' pending' conn').Framed split)
    (hIdle : pending = []) (hIdle' : pending' = [])
    (hReceived : traffic.received = traffic'.received) :
    traffic.fragments = traffic'.fragments := by
  simp only [ReceiveView.Framed, receiveView, hIdle, hIdle', fragmentsOf,
    List.filterMap_nil, List.append_nil, hReceived] at hFramed hFramed'
  exact (Cut.unique hFramed hFramed').1

/-- **Receive framing is independent of segmentation.**  For a bounded,
prefix-stable split callback and every run of a session or of a client without
a hard error or a disconnect: every invocation of the handler ends; the
fragments followed by the live bytes of the receive buffer are the bytes
received; and two runs that received the same bytes delivered the same
fragments. -/
theorem receive_framing_segmentation_independent (split : List UInt8 → Int)
    (hBounded : BoundedSplit (stateless split)) (hStable : PrefixStable split) :
    (∀ s, StreamSession.CleanRun split s → s.pending = [] →
      s.traffic.fragments.flatten ++ s.conn.recvBuf.live = s.traffic.received ∧
      (s.slot.event.cb = some () → ∀ inv, ∃ fuel next,
        StreamSession.step (stateless split) s (.dispatch fuel inv) = some next) ∧
      ∀ s', StreamSession.CleanRun split s' → s'.pending = [] →
        s.traffic.received = s'.traffic.received →
        s.traffic.fragments = s'.traffic.fragments) ∧
    ∀ c, StreamClient.CleanRun split c → c.pending = [] →
      c.traffic.fragments.flatten ++ c.conn.recvBuf.live = c.traffic.received ∧
      (c.streamSlot.event.cb = some .handler → ∀ inv, ∃ fuel next,
        StreamClient.step (stateless split) c (.dispatch fuel inv) = some next) ∧
      ∀ c', StreamClient.CleanRun split c' → c'.pending = [] →
        c.traffic.received = c'.traffic.received →
        c.traffic.fragments = c'.traffic.fragments := by
  constructor
  · intro s hRun hIdle
    have hFramed := hRun.framed hBounded hStable
    refine ⟨hFramed.conserved hIdle, ?_, ?_⟩
    · intro hInstalled inv
      exact StreamSession.dispatch_returns hBounded hIdle hInstalled inv
    · intro s' hRun' hIdle' hReceived
      have hFramed' := hRun'.framed hBounded hStable
      exact hFramed.fragments_unique hFramed' hIdle hIdle' hReceived
  · intro c hRun hIdle
    have hFramed := hRun.framed hBounded hStable
    refine ⟨hFramed.conserved hIdle, ?_, ?_⟩
    · intro hInstalled inv
      exact StreamClient.dispatch_returns hBounded hIdle hInstalled inv
    · intro c' hRun' hIdle' hReceived
      have hFramed' := hRun'.framed hBounded hStable
      exact hFramed.fragments_unique hFramed' hIdle hIdle' hReceived

/-- Frames of two bytes.  One session receives three bytes in one event, the
other in two, with the boundary inside a frame. -/
theorem receive_framing_segmentation_independent_pairs :
    let split : List UInt8 → Int := fun slice => if slice.length < 2 then 0 else 2
    ∃ s s', StreamSession.CleanRun split s ∧ StreamSession.CleanRun split s' ∧
      s.traffic.received = [1, 2, 3] ∧ s'.traffic.received = [1, 2, 3] ∧
      s.traffic.fragments = s'.traffic.fragments := by
  intro split
  have hBounded : BoundedSplit (stateless split) := by
    intro _ slice
    show (if slice.length < 2 then (0 : Int) else 2) ≤ slice.length
    split <;> omega
  have hStable : PrefixStable split := by
    intro slice more hPositive
    simp only [split, List.length_append] at hPositive ⊢
    split at hPositive
    · cases hPositive
    · rw [if_neg (by omega), if_neg (by omega)]
  obtain ⟨s, hRun, hWaiting⟩ := StreamSession.exists_cleanRun hBounded
    [[1, 2, 3]] (by decide)
  obtain ⟨s', hRun', hWaiting'⟩ := StreamSession.exists_cleanRun hBounded
    [[1], [2], [3]] (by decide)
  have hLaw := receive_framing_segmentation_independent split hBounded hStable
  have hSame := (hLaw.1 s hRun hWaiting.idle).2.2 s' hRun' hWaiting'.idle
    (hWaiting.received.trans hWaiting'.received.symm)
  exact ⟨s, s', hRun, hRun', hWaiting.received, hWaiting'.received, hSame⟩

end Net
end KZEvent
