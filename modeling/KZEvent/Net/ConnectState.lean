import KZEvent.Net.StreamClient

/-!
# The connect state

`connected_` should say what the client is about: when an attempt fails, when
the peer ends the connection and when the client is stopped, it should be
`kDisconnected`, or a later `connect` returns without an attempt.  The callbacks
of an attempt in progress reset it before they call `on_error`.  An attempt that
fails at once resets it only afterwards, and `stop` and the end of a connection
never do.

The law holds for the runs that keep off these three paths.
-/

namespace KZEvent
namespace Net

open KZEvent.Core Foundation EventType

variable {σ : Type*}

/-! ## The property -/

/-- The notification found `connected_` reset. -/
def ClientEvent.SeesReset : ClientEvent → Prop
  | attemptError _ _ seen => seen = .kDisconnected
  | disconnect seen => seen = .kDisconnected
  | _ => True

/-- The client was stopped, and no attempt was made since. -/
def stoppedIn : List ClientEvent → Bool
  | [] => false
  | .attempt _ _ :: _ => false
  | .stopped :: _ => true
  | _ :: log => stoppedIn log

namespace StreamClient

/-- A call of `connect` returns without an attempt exactly when `connected_` is
not reset. -/
theorem connect_eq_self_iff (c : StreamClient σ) :
    (∀ ret timeoutMs, c.connect ret timeoutMs = c) ↔
      c.connected ≠ .kDisconnected := by
  constructor
  · intro hIgnored hFree
    have hAttempts :
        (c.connect (.error EINPROGRESS) 0).attempts = c.attempts := by
      rw [hIgnored]
    -- An attempt that is made is counted.
    simp [connect, hFree, detect, claim, record, post] at hAttempts
  · intro hBusy ret timeoutMs
    simp only [connect, if_neg hBusy]

/-- `connected_` tracks what happened: it was reset at each notification of a
failed attempt and of an ended connection, and it is once a `stop` is processed.
While it is not, so that `connect` returns without an attempt, a callback is
installed on the stream socket, or about to be, and one on the timer as long as
the attempt is in progress. -/
structure TracksReality (c : StreamClient σ) : Prop where
  noticed : ∀ event ∈ c.log, event.SeesReset
  stopped : stoppedIn c.log = true → c.ioQueue = [] →
    c.connected = .kDisconnected
  detecting : (∀ ret timeoutMs, c.connect ret timeoutMs = c) →
    c.settled.event.cb ≠ none
  limited : c.connected = .kConnecting → c.timerSettled.event.cb ≠ none

/-! ## The condition -/

/-- No attempt fails at once, and none is made while a notification is still to
be issued; `stop` is called only when the client is disconnected already; no
invocation of the stream handler ends a connection that `connected_` shows; the
detection does not report success once the attempt failed; and no call of the
kernel fails in a task. -/
def KeepsTrack (c : StreamClient σ) : ClientAction → Prop
  | .call (.connect ret _) => c.connected = .kDisconnected →
      (ret = .success ∨ ret = .error EINPROGRESS) ∧ noticesOf c.pending = []
  | .call .stop => c.connected = .kDisconnected
  | .execTask faults _ => faults = {}
  | .dispatch _ inv =>
      if c.streamSlot.event.cb = some .handler then
        inv.Ends StreamClientSocket.verdict c.conn →
          c.connected = .kDisconnected
      else
        hasFlag inv.types kWrite = true → inv.soError = 0 →
          c.connected ≠ .kDisconnected
  | _ => True

instance (c : StreamClient σ) (action : ClientAction) :
    Decidable (c.KeepsTrack action) :=
  match action with
  | .call (.connect _ _) => inferInstanceAs (Decidable (_ → _))
  | .call .stop => inferInstanceAs (Decidable (_ = _))
  | .call .connectReturns | .call .start | .call (.postSendTask _) =>
      .isTrue trivial
  | .execTask _ _ => inferInstanceAs (Decidable (_ = _))
  | .dispatch _ _ => inferInstanceAs (Decidable (ite _ _ _))
  | .perform | .timerExpires => .isTrue trivial

/-! ## The invariant -/

/-- The callbacks the two descriptors are left with, once the queue is drained,
notice what happens next. -/
structure Detects (connected : ConnectState) (started : Bool)
    (stream : FdSlot StreamCb) (timer : FdSlot Nat) : Prop where
  streamRegistered : stream.event.inRegister = true
  timerRegistered : timer.event.inRegister = true
  detecting : connected ≠ .kDisconnected → stream.event.cb ≠ none
  limited : connected = .kConnecting → timer.event.cb ≠ none
  started : started = true → stream.event.cb ≠ none

namespace Detects

variable {connected : ConnectState} {started : Bool}
  {stream : FdSlot StreamCb} {timer : FdSlot Nat}

/-- The interest changes. -/
theorem requests (hDetects : Detects connected started stream timer)
    (channels : List ChannelInfo) :
    Detects connected started
      (stream.drain (channels.map ChannelInfo.enableFd)) timer := by
  have hCb : (stream.drain (channels.map ChannelInfo.enableFd)).event.cb =
      stream.event.cb :=
    FdSlot.drain_map_enableFd_cb hDetects.streamRegistered channels _ _
  have hRegistered : (stream.drain
      (channels.map ChannelInfo.enableFd)).event.inRegister = true := by
    apply FdSlot.drain_inRegister hDetects.streamRegistered
    intro task hMem
    obtain ⟨channel, -, rfl⟩ := List.mem_map.mp hMem
    simp [ChannelInfo.enableFd]
  constructor
  · exact hRegistered
  · exact hDetects.timerRegistered
  · rw [hCb]
    exact hDetects.detecting
  · exact hDetects.limited
  · rw [hCb]
    exact hDetects.started

/-- A callback is installed on the stream socket. -/
theorem install (hDetects : Detects connected started stream timer)
    (started' : Bool) (types : EventType) (modes : EventMode) (cb : StreamCb) :
    Detects connected started' (stream.drain [.enableFdCb types modes cb])
      timer := by
  rw [FdSlot.drain_cons, FdSlot.drain_nil,
    FdSlot.exec_enableFdCb_ok hDetects.streamRegistered]
  exact
    { streamRegistered := rfl
      timerRegistered := hDetects.timerRegistered
      detecting := fun _ => Option.some_ne_none cb
      limited := hDetects.limited
      started := fun _ => Option.some_ne_none cb }

/-- An attempt stays in progress: callbacks are installed on both. -/
theorem detect (hDetects : Detects connected started stream timer)
    (types timerTypes : EventType) (modes timerModes : EventMode)
    (cb : StreamCb) (timerCb : Nat) :
    Detects .kConnecting started (stream.drain [.enableFdCb types modes cb])
      (timer.drain [.enableFdCb timerTypes timerModes timerCb]) := by
  rw [FdSlot.drain_cons, FdSlot.drain_nil,
    FdSlot.exec_enableFdCb_ok hDetects.streamRegistered, FdSlot.drain_cons,
    FdSlot.drain_nil, FdSlot.exec_enableFdCb_ok hDetects.timerRegistered]
  exact
    { streamRegistered := rfl
      timerRegistered := rfl
      detecting := fun _ => Option.some_ne_none cb
      limited := fun _ => Option.some_ne_none timerCb
      started := fun _ => Option.some_ne_none cb }

/-- The timer is disabled when it is not needed any more. -/
theorem disableTimer (hDetects : Detects connected started stream timer)
    (hDecided : connected ≠ .kConnecting) :
    Detects connected started stream (timer.drain [.disableFd]) := by
  rw [FdSlot.drain_cons, FdSlot.drain_nil,
    FdSlot.exec_disableFd_ok hDetects.timerRegistered]
  exact
    { hDetects with
      timerRegistered := rfl
      limited := fun hConnecting => absurd hConnecting hDecided }

/-- `connected_` is set to a value that needs no other callbacks. -/
theorem assign (hDetects : Detects connected started stream timer)
    {next : ConnectState} (hDecided : next ≠ .kConnecting)
    (hDetecting : next ≠ .kDisconnected → stream.event.cb ≠ none) :
    Detects next started stream timer :=
  { hDetects with
    detecting := hDetecting
    limited := fun hConnecting => absurd hConnecting hDecided }

/-- `stop`, in the disconnected state. -/
theorem stop (hDetects : Detects .kDisconnected started stream timer) :
    Detects .kDisconnected false (stream.drain [.disableFd])
      (timer.drain [.disableFd]) := by
  rw [FdSlot.drain_cons, FdSlot.drain_nil,
    FdSlot.exec_disableFd_ok hDetects.streamRegistered]
  have hTimer := hDetects.disableTimer (by decide)
  exact
    { streamRegistered := rfl
      timerRegistered := hTimer.timerRegistered
      detecting := fun hBusy => absurd rfl hBusy
      limited := fun hConnecting => by cases hConnecting
      started := fun hStarted => by cases hStarted }

end Detects

structure TrackInv (c : StreamClient σ) : Prop where
  detects : Detects c.connected c.started c.settled c.timerSettled
  noticed : ∀ event ∈ c.log, event.SeesReset
  stopped : stoppedIn c.log = true → c.connected = .kDisconnected
  silent : noticesOf c.pending ≠ [] → c.connected = .kDisconnected
  returned : c.failing = 0

theorem trackInv_make (split : σ) : TrackInv (make split) where
  detects :=
    { streamRegistered := rfl
      timerRegistered := rfl
      detecting := fun hBusy => absurd rfl hBusy
      limited := fun hConnecting => by cases hConnecting
      started := fun hStarted => by cases hStarted }
  noticed := fun event hMem => by cases hMem
  stopped := fun hStopped => by cases hStopped
  silent := fun hNotice => absurd rfl hNotice
  returned := rfl

namespace TrackInv

variable {c : StreamClient σ}

theorem post (hInv : TrackInv c) {tasks : List ClientTask}
    (hDetects : Detects c.connected c.started
      (c.settled.drain (streamTasks tasks))
      (c.timerSettled.drain (timerTasks tasks))) : TrackInv (c.post tasks) where
  detects := by
    rw [settled_post, timerSettled_post]
    exact hDetects
  noticed := hInv.noticed
  stopped := fun hStopped => hInv.stopped hStopped
  silent := hInv.silent
  returned := hInv.returned

/-- Requests for a change of the interest are posted. -/
theorem requests (hInv : TrackInv c) (channels : List ChannelInfo) :
    TrackInv (c.post (channels.map ClientTask.request)) := by
  apply hInv.post
  rw [streamTasks_map_request, timerTasks_map_request]
  exact hInv.detects.requests channels

/-- The timer is disabled once `connected_` shows the outcome. -/
theorem disableTimer (hInv : TrackInv c) (hDecided : c.connected ≠ .kConnecting) :
    TrackInv (c.post [.timer .disableFd]) :=
  hInv.post (hInv.detects.disableTimer hDecided)

theorem start (hInv : TrackInv c) : TrackInv c.start := by
  unfold StreamClient.start
  split
  · exact hInv
  · exact
      { detects := by
          rw [settled_install, timerSettled_install]
          exact hInv.detects.install true _ _ _
        noticed := hInv.noticed
        stopped := hInv.stopped
        silent := hInv.silent
        returned := hInv.returned }

theorem stop (hInv : TrackInv c) (hReset : c.connected = .kDisconnected) :
    TrackInv c.stop where
  detects := by
    have hDetects := hInv.detects
    rw [hReset] at hDetects
    rw [settled_stop, timerSettled_stop,
      show c.stop.connected = .kDisconnected from hReset]
    exact hDetects.stop
  noticed := by
    intro event hMem
    rcases List.mem_cons.mp hMem with rfl | hMem
    · trivial
    · exact hInv.noticed event hMem
  stopped := fun _ => hReset
  silent := fun _ => hReset
  returned := hInv.returned

/-- A notification in the disconnected state, and the `stop` it leads to. -/
theorem notify (hInv : TrackInv c) (hReset : c.connected = .kDisconnected)
    (event : ClientEvent) (hSees : event.SeesReset) :
    TrackInv (c.record event).stop := by
  refine stop ?_ hReset
  exact
    { detects := hInv.detects
      noticed := by
        intro event' hMem
        rcases List.mem_cons.mp hMem with rfl | hMem
        · exact hSees
        · exact hInv.noticed event' hMem
      stopped := fun _ => hReset
      silent := hInv.silent
      returned := hInv.returned }

/-- A new attempt: what it installs notices its end. -/
theorem detect (hInv : TrackInv c) (hSilent : noticesOf c.pending = [])
    (ret : ConnectRet) (timeoutMs : Nat) :
    TrackInv ((c.claim ret).detect timeoutMs) where
  detects := by
    rw [settled_detect, timerSettled_detect]
    exact hInv.detects.detect _ _ _ _ _ _
  noticed := by
    intro event hMem
    rcases List.mem_cons.mp hMem with rfl | hMem
    · trivial
    · exact hInv.noticed event hMem
  stopped := fun hStopped => by cases hStopped
  silent := fun hNotice => absurd hSilent hNotice
  returned := hInv.returned

/-- An attempt succeeds, or is seen to have succeeded. -/
theorem succeed (hInv : TrackInv c) (attempt : Nat)
    (hPending : c.connected ≠ .kDisconnected) :
    TrackInv (c.succeed attempt) where
  detects := hInv.detects.assign (fun hEq => by cases hEq)
    fun _ => hInv.detects.detecting hPending
  noticed := by
    intro event hMem
    rcases List.mem_cons.mp hMem with rfl | hMem
    · trivial
    · exact hInv.noticed event hMem
  stopped := fun hStopped => absurd (hInv.stopped hStopped) hPending
  silent := fun hNotice => absurd (hInv.silent hNotice) hPending
  returned := hInv.returned

/-- An attempt that succeeds at once calls `start`, which leaves the handler
installed, now or by an earlier call. -/
theorem connected (hInv : TrackInv c) (hSilent : noticesOf c.pending = []) :
    TrackInv ((c.claim .success).succeed (c.attempts + 1)).start := by
  have hNoticed : ∀ event ∈
      ((c.claim .success).succeed (c.attempts + 1)).log, event.SeesReset := by
    intro event hMem
    rcases List.mem_cons.mp hMem with rfl | hMem
    · trivial
    · rcases List.mem_cons.mp hMem with rfl | hMem
      · trivial
      · exact hInv.noticed event hMem
  unfold StreamClient.start
  split
  · rename_i hStarted
    exact
      { detects := hInv.detects.assign (fun hEq => by cases hEq)
          fun _ => hInv.detects.started hStarted
        noticed := hNoticed
        stopped := fun hStopped => by cases hStopped
        silent := fun hNotice => absurd hSilent hNotice
        returned := hInv.returned }
  · exact
      { detects := by
          rw [settled_install, timerSettled_install]
          have hInstalled := hInv.detects.install true
            (startTypes c.conn.sendBuf.empty) EventMode.kDefault .handler
          exact hInstalled.assign (fun hEq => by cases hEq)
            fun _ => hInstalled.started rfl
        noticed := hNoticed
        stopped := fun hStopped => by cases hStopped
        silent := fun hNotice => absurd hSilent hNotice
        returned := hInv.returned }

/-- The end of an attempt in progress: `connected_` is reset first. -/
theorem failAttempt (hInv : TrackInv c) (attempt : Nat) (errno : Errno) :
    TrackInv ({ c with connected := .kDisconnected }.post [.timer .disableFd]
      |>.failAttempt attempt errno) := by
  have hReset : TrackInv { c with connected := .kDisconnected } :=
    { detects := hInv.detects.assign (fun hEq => by cases hEq)
        fun hBusy => absurd rfl hBusy
      noticed := hInv.noticed
      stopped := fun _ => rfl
      silent := fun _ => rfl
      returned := hInv.returned }
  have hTimer := hReset.disableTimer fun hEq => by cases hEq
  exact hTimer.notify rfl _ rfl

theorem connect (hInv : TrackInv c) (ret : ConnectRet) (timeoutMs : Nat)
    (hGuard : c.KeepsTrack (.call (.connect ret timeoutMs))) :
    TrackInv (c.connect ret timeoutMs) := by
  have hConnects := c.connects ret timeoutMs
  generalize c.connect ret timeoutMs = next at hConnects ⊢
  cases hConnects with
  | ignored _ hBusy => exact hInv
  | succeeds hFree => exact hInv.connected (hGuard hFree).2
  | fails hFree hErrno =>
      rcases (hGuard hFree).1 with hSuccess | hProgress
      · cases hSuccess
      · exact absurd (ConnectRet.error.inj hProgress) hErrno
  | detects hFree => exact hInv.detect (hGuard hFree).2 _ timeoutMs

theorem exec {task : ClientTask} {tasks : List ClientTask} (hInv : TrackInv c)
    (hQueue : c.ioQueue = task :: tasks) (ret : SendRet) :
    TrackInv ({ c with ioQueue := tasks }.exec {} ret task) := by
  have hDetects := hInv.detects
  rw [settled, timerSettled, hQueue] at hDetects
  have hTaken (slot : FdSlot StreamCb) (timer : FdSlot Nat)
      (hLeft : Detects c.connected c.started (slot.drain (streamTasks tasks))
        (timer.drain (timerTasks tasks))) :
      TrackInv { c with
        ioQueue := tasks
        streamSlot := slot
        timerSlot := timer } :=
    { detects := hLeft
      noticed := hInv.noticed
      stopped := hInv.stopped
      silent := hInv.silent
      returned := hInv.returned }
  cases task with
  | stream task => exact hTaken _ _ hDetects
  | timer task => exact hTaken _ _ hDetects
  | resetTimer timeoutMs => exact hTaken _ _ hDetects
  | send data =>
      have hRest := hTaken _ _ hDetects
      simp only [StreamClient.exec, execSend]
      split
      · exact { hRest with }
      · have hSent : TrackInv
            { c with
              ioQueue := tasks
              conn := (c.conn.sendNow ret data).conn
              traffic := c.traffic.sendTask data
                (c.conn.sendNow ret data).accepted } :=
          { hRest with }
        exact hSent.requests _

theorem perform {effect : Effect} {effects : List Effect} (hInv : TrackInv c)
    (hPending : c.pending = effect :: effects) :
    TrackInv ({ c with pending := effects }.perform effect) := by
  have hRest : TrackInv { c with pending := effects } :=
    { hInv with
      silent := by
        intro hNotice
        apply hInv.silent
        rw [hPending, noticesOf, List.filter_cons]
        split
        · exact List.cons_ne_nil _ _
        · exact hNotice }
  have hReset (hNotice : effect.isNotice = true) :
      c.connected = .kDisconnected := by
    apply hInv.silent
    rw [hPending, noticesOf, List.filter_cons_of_pos hNotice]
    exact List.cons_ne_nil _ _
  cases effect with
  | updateEvent types modes => exact hRest.requests [⟨types, modes⟩]
  | onFragment fragment => exact { hRest with }
  | onError errno => exact hRest.notify (hReset rfl) _ trivial
  | onDisconnect => exact hRest.notify (hReset rfl) _ (hReset rfl)

end TrackInv

theorem trackInv_step {onSplit : σ → List UInt8 → Int × σ}
    (c : StreamClient σ) (action : ClientAction) (next : StreamClient σ)
    (hInv : TrackInv c) (hKeeps : c.KeepsTrack action)
    (hStep : step onSplit c action = some next) : TrackInv next := by
  cases stepped hStep with
  | call call =>
      cases call with
      | connect ret timeoutMs => exact hInv.connect ret timeoutMs hKeeps
      | connectReturns =>
          rw [StreamClient.call, connectReturns, if_pos hInv.returned]
          exact hInv
      | start => exact hInv.start
      | stop => exact hInv.stop hKeeps
      | postSendTask data => exact hInv.post hInv.detects
  | execTask hIdle hQueue =>
      obtain rfl := hKeeps
      exact hInv.exec hQueue _
  | socketCb hIdle hInstalled =>
      rename_i fuel inv attempt
      simp only [KeepsTrack, hInstalled] at hKeeps
      unfold socketCb
      split
      · rename_i hWrite
        split
        · exact hInv.failAttempt attempt inv.soError
        · rename_i hNoError
          have hPending := hKeeps hWrite (not_not.mp hNoError)
          have hSucceeded := hInv.succeed attempt hPending
          have hTimer := hSucceeded.disableTimer fun hEq => by cases hEq
          exact hTimer.start
      · exact hInv
  | handler hIdle hInstalled hReturns =>
      simp only [KeepsTrack, hInstalled, if_true] at hKeeps
      obtain ⟨frames, hOutcome⟩ := streamHandler_outcome hReturns
      exact
        { hInv with
          silent := by
            -- A connection that `connected_` shows does not end here.
            intro hNotice
            by_contra hBusy
            have hGoesOn := fun hEnds => hBusy (hKeeps hEnds)
            exact hNotice (hOutcome.notices_eq_nil hGoesOn) }
  | perform hPending => exact hInv.perform hPending
  | timerExpires hIdle hInstalled =>
      rename_i attempt
      unfold timerCb
      split
      · rename_i hConnected
        exact hInv.disableTimer (by simp [hConnected])
      · exact hInv.failAttempt attempt ETIMEDOUT

end StreamClient

/-! ## The law -/

/-- **The connect state tracks reality.**  It does in every state reached by a
run of a client whose steps keep to `KeepsTrack`. -/
theorem connect_state_tracks_reality (onSplit : σ → List UInt8 → Int × σ)
    (split : σ) (actions : List ClientAction) (c : StreamClient σ)
    (hGuarded : Guarded (StreamClient.step onSplit) StreamClient.KeepsTrack
      (.make split) actions)
    (hRun : run (StreamClient.step onSplit) (.make split) actions = some c) :
    c.TracksReality := by
  have hInv : c.TrackInv := run_invariant StreamClient.trackInv_step
    (StreamClient.trackInv_make split) hGuarded hRun
  exact
    { noticed := hInv.noticed
      stopped := fun hStopped _ => hInv.stopped hStopped
      detecting := fun hIgnored =>
        hInv.detects.detecting (c.connect_eq_self_iff.mp hIgnored)
      limited := hInv.detects.limited }

/-- An attempt fails with `ETIMEDOUT`, the client is stopped once more, and a
second attempt is made and succeeds. -/
theorem connect_state_tracks_reality_retry :
    let onSplit : Unit → List UInt8 → Int × Unit := stateless fun _ => 0
    let actions : List ClientAction :=
      [.call (.connect (.error EINPROGRESS) 1000), .execTask {} (.sent 0),
        .execTask {} (.sent 0), .execTask {} (.sent 0),
        .dispatch 0 ⟨kWrite, [], [], ETIMEDOUT⟩, .call .stop,
        .call (.connect .success 1000)]
    ∃ c, run (StreamClient.step onSplit) (.make ()) actions = some c ∧
      (c.connected, c.attempts) = (.kConnected, 2) ∧ c.TracksReality := by
  intro onSplit actions
  obtain ⟨hGuarded, hRetried⟩ :
      Guarded (StreamClient.step onSplit) StreamClient.KeepsTrack (.make ())
        actions ∧
      (run (StreamClient.step onSplit) (.make ()) actions).map
        (fun c => (c.connected, c.attempts)) = some (.kConnected, 2) := by
    decide +kernel
  obtain ⟨c, hRun, hView⟩ := Option.map_eq_some_iff.mp hRetried
  exact ⟨c, hRun, hView,
    connect_state_tracks_reality onSplit () actions c hGuarded hRun⟩

/-- The peer ends a connection.  `connected_` is still `kConnected` when
`on_disconnect` is called, nothing resets it once the client is stopped, no
callback is left, and every later `connect` is ignored. -/
theorem connect_state_stuck_after_disconnect :
    let onSplit : Unit → List UInt8 → Int × Unit := stateless fun _ => 0
    let actions : List ClientAction :=
      [.call (.connect .success 1000), .execTask {} (.sent 0),
        .execTask {} (.sent 0), .execTask {} (.sent 0),
        .dispatch 1 ⟨kRead, [.read []], [], 0⟩, .perform,
        .execTask {} (.sent 0), .execTask {} (.sent 0)]
    ∃ c, run (StreamClient.step onSplit) (.make ()) actions = some c ∧
      c.log = [.stopped, .disconnect .kConnected, .established 1,
        .attempt 1 .success] ∧
      c.ioQueue = [] ∧ c.settled.event.cb = none ∧
      c.timerSettled.event.cb = none ∧
      (∀ ret timeoutMs, c.connect ret timeoutMs = c) ∧ ¬ c.TracksReality := by
  intro onSplit actions
  obtain ⟨hState, hCallbacks⟩ :
      (run (StreamClient.step onSplit) (.make ()) actions).map
        (fun c => (c.log, c.connected, c.ioQueue)) =
        some ([.stopped, .disconnect .kConnected, .established 1,
          .attempt 1 .success], .kConnected, []) ∧
      (run (StreamClient.step onSplit) (.make ()) actions).map
        (fun c => (c.settled.event.cb, c.timerSettled.event.cb)) =
        some (none, none) := by
    decide +kernel
  obtain ⟨c, hRun, hView⟩ := Option.map_eq_some_iff.mp hState
  rw [hRun, Option.map_some] at hCallbacks
  obtain ⟨hLog, hView⟩ := Prod.mk.inj hView
  obtain ⟨hConnected, hDrained⟩ := Prod.mk.inj hView
  obtain ⟨hStream, hTimer⟩ := Prod.mk.inj (Option.some.inj hCallbacks)
  have hIgnored : ∀ ret timeoutMs, c.connect ret timeoutMs = c := by
    rw [c.connect_eq_self_iff, hConnected]
    decide
  refine ⟨c, hRun, hLog, hDrained, hStream, hTimer, hIgnored, ?_⟩
  intro hTracks
  exact hTracks.detecting hIgnored hStream

end Net
end KZEvent
