import KZEvent.Net.StreamClient
import KZEvent.Net.StreamSession

/-!
# At most one terminal notification

`on_session_error`, `on_error` and `on_disconnect` stop the session or client,
but `stop` only posts a `disable_fd`.  Until that task is executed the loop goes
on dispatching events to the callback, and one of them can issue another
notification; and a single invocation can report both a pending error and the
end of the stream.

Outside these two situations, and as long as nobody starts a socket again after
its notification, there is at most one: once the `disable_fd` is executed no
callback is left to be called.
-/

namespace KZEvent
namespace Net

open KZEvent.Core Foundation EventType

variable {σ : Type*}

namespace Invocation

/-- The invocation finds a pending error and sees the end of the connection. -/
def EndsTwice (verdict : Invocation → SocketVerdict) (inv : Invocation)
    (conn : StreamConn) : Prop :=
  inv.closes verdict conn = true ∧ (verdict inv).notices ≠ []

instance (verdict : Invocation → SocketVerdict) (inv : Invocation)
    (conn : StreamConn) : Decidable (inv.EndsTwice verdict conn) :=
  inferInstanceAs (Decidable (_ ∧ _))

end Invocation

section Counting

variable {verdict : Invocation → SocketVerdict} {inv : Invocation}
  {conn : StreamConn} {frames : List (List UInt8)} {final : HandlerState}

theorem SocketVerdict.length_notices_le (socketVerdict : SocketVerdict) :
    socketVerdict.notices.length ≤ 1 := by
  cases socketVerdict <;> simp [notices]

theorem HandlerOutcome.length_notices_le
    (hOutcome : HandlerOutcome verdict inv conn frames final)
    (hOnce : ¬ inv.EndsTwice verdict conn) :
    (noticesOf final.effects).length ≤ 1 := by
  have hError := (verdict inv).length_notices_le
  rw [hOutcome.notices]
  by_cases hCloses : inv.closes verdict conn = true
  · have hNone : (verdict inv).notices = [] := by
      by_contra hSome
      exact hOnce ⟨hCloses, hSome⟩
    simp [hCloses, hNone]
  · simpa [hCloses] using hError

end Counting

/-! ## The invariant -/

/-- After `count` notifications, with `pending` still to be performed: there is
at most one in all, and after it the descriptor is stopping. -/
structure Quieted {Cb : Type*} (count : Nat) (pending : List Effect)
    (slot : FdSlot Cb) (tasks : List (FdTask Cb)) : Prop where
  total : count + (noticesOf pending).length ≤ 1
  stopping : 0 < count → slot.Stopping tasks
  cbRegistered : slot.CbRegistered

namespace Quieted

variable {Cb : Type*} {count : Nat} {pending : List Effect} {slot : FdSlot Cb}
  {tasks : List (FdTask Cb)}

/-- Before the first notification, and before the loop knows the descriptor. -/
theorem unknown (tasks : List (FdTask Cb)) : Quieted 0 [] .unknown tasks where
  total := Nat.zero_le 1
  stopping := fun hCount => absurd hCount (Nat.lt_irrefl 0)
  cbRegistered := FdSlot.cbRegistered_unknown

theorem append (hQuieted : Quieted count pending slot tasks)
    {later : List (FdTask Cb)} (hLater : FdSlot.NoInstall later) :
    Quieted count pending slot (tasks ++ later) :=
  { hQuieted with
    stopping := fun hCount => (hQuieted.stopping hCount).append hLater }

/-- `stop` after any number of notifications the total allows. -/
theorem stop (hQuieted : Quieted count pending slot tasks) {count' : Nat}
    {pending' : List Effect}
    (hTotal : count' + (noticesOf pending').length ≤ 1) :
    Quieted count' pending' slot (tasks ++ [.disableFd]) where
  total := hTotal
  stopping := fun _ => FdSlot.stopping_append_disableFd slot tasks
  cbRegistered := hQuieted.cbRegistered

theorem exec {task : FdTask Cb} {faults : TaskFaults}
    (hQuieted : Quieted count pending slot (task :: tasks))
    (hFault : task = .disableFd → faults.first = none) :
    Quieted count pending (slot.exec faults task) tasks where
  total := hQuieted.total
  stopping := fun hCount =>
    (hQuieted.stopping hCount).exec hQuieted.cbRegistered hFault
  cbRegistered := hQuieted.cbRegistered.exec faults task

/-- While no notification counts, anything may be queued. -/
theorem reset (hQuieted : Quieted count pending slot tasks)
    (tasks' : List (FdTask Cb)) : Quieted 0 pending slot tasks' where
  total := by
    have hTotal := hQuieted.total
    omega
  stopping := fun hCount => absurd hCount (Nat.lt_irrefl 0)
  cbRegistered := hQuieted.cbRegistered

/-- An invocation.  The callback is installed, so after a notification the
`disable_fd` is still queued. -/
theorem handler {verdict : Invocation → SocketVerdict} {inv : Invocation}
    {conn : StreamConn} {frames : List (List UInt8)} {final : HandlerState}
    (hQuieted : Quieted count [] slot tasks) (hCb : slot.event.cb ≠ none)
    (hOutcome : HandlerOutcome verdict inv conn frames final)
    (hOnce : ¬ inv.EndsTwice verdict conn)
    (hGoesOn : 0 < count → .disableFd ∈ tasks → ¬ inv.Ends verdict conn) :
    Quieted count final.effects slot tasks where
  total := by
    rcases Nat.eq_zero_or_pos count with rfl | hCount
    · -- the first notification
      have hLe := hOutcome.length_notices_le hOnce
      omega
    · -- a callback that survived a notification: the guard forbids another
      have hQueued := (hQuieted.stopping hCount).disableFd_mem hCb
      have hNone := hOutcome.notices_eq_nil (hGoesOn hCount hQueued)
      have hTotal := hQuieted.total
      rw [hNone]
      exact hTotal
  stopping := hQuieted.stopping
  cbRegistered := hQuieted.cbRegistered

end Quieted

/-! ## Sessions -/

namespace StreamSession

/-- No invocation ends the connection twice, none ends it while a notification
waits for its `disable_fd` to be executed, no `disable_fd` fails, and a session
is not started again after its notification. -/
def EndsOnce (s : StreamSession σ) : SessionAction → Prop
  | .call .start => s.notices = []
  | .execTask faults _ =>
      s.ioQueue.head? = some (.fd .disableFd) → faults.first = none
  | .dispatch _ inv => s.serverAlive = true →
      ¬ inv.EndsTwice verdict s.conn ∧
      (0 < s.notices.length → .disableFd ∈ fdTasks s.ioQueue →
        ¬ inv.Ends verdict s.conn)
  | _ => True

instance (s : StreamSession σ) (action : SessionAction) :
    Decidable (s.EndsOnce action) :=
  match action with
  | .call .start => inferInstanceAs (Decidable (_ = _))
  | .call .stop | .call (.postSendTask _) => .isTrue trivial
  | .execTask _ _ => inferInstanceAs (Decidable (_ → _))
  | .dispatch _ _ => inferInstanceAs (Decidable (_ → _))
  | .perform | .destroyServer => .isTrue trivial

def NoticeInv (s : StreamSession σ) : Prop :=
  Quieted s.notices.length s.pending s.slot (fdTasks s.ioQueue)

theorem noticeInv_accepted (split : σ) : NoticeInv (accepted split) :=
  Quieted.unknown _

theorem NoticeInv.post {s : StreamSession σ} (hInv : NoticeInv s)
    {tasks : List SessionTask} (hTasks : FdSlot.NoInstall (fdTasks tasks)) :
    NoticeInv (s.post tasks) := by
  rw [NoticeInv, StreamSession.post, fdTasks_append]
  exact hInv.append hTasks

theorem noticeInv_exec {s : StreamSession σ} {faults : TaskFaults}
    {ret : SendRet} {task : SessionTask} {tasks : List SessionTask}
    (hInv : NoticeInv s) (hQueue : s.ioQueue = task :: tasks)
    (hFault : task = .fd .disableFd → faults.first = none) :
    NoticeInv ({ s with ioQueue := tasks }.exec faults ret task) := by
  rw [NoticeInv, hQueue] at hInv
  cases task with
  | fd task =>
      apply Quieted.exec hInv
      rintro rfl
      exact hFault rfl
  | erase =>
      simp only [exec]
      split <;> exact hInv
  | send data =>
      simp only [exec, execSend]
      split_ifs
      · rw [NoticeInv, StreamSession.post, fdTasks_append, fdTasks_map_request]
        exact Quieted.append hInv (FdSlot.noInstall_map_enableFd _ _ _)
      · exact hInv
      · exact hInv

theorem noticeInv_perform {s : StreamSession σ} {effect : Effect}
    {effects : List Effect} (hInv : NoticeInv s)
    (hPending : s.pending = effect :: effects) :
    NoticeInv ({ s with pending := effects }.perform effect) := by
  have hTotal := Quieted.total hInv
  rw [NoticeInv, hPending] at hInv
  rw [hPending] at hTotal
  -- one notification moves from `pending` to `notices`
  have hMoved (hNotice : effect.isNotice = true) :
      (s.notices ++ [effect]).length + (noticesOf effects).length ≤ 1 := by
    have hCons : noticesOf (effect :: effects) = effect :: noticesOf effects :=
      List.filter_cons_of_pos hNotice
    rw [hCons, List.length_cons] at hTotal
    rw [List.length_append, List.length_singleton]
    omega
  cases effect with
  | updateEvent types modes =>
      have hRest : Quieted s.notices.length effects s.slot (fdTasks s.ioQueue) :=
        { hInv with total := hTotal }
      rw [NoticeInv, perform, StreamSession.post, fdTasks_append]
      exact hRest.append
        (FdSlot.noInstall_map_enableFd [()] (fun _ => types) fun _ => modes)
  | onFragment fragment => exact { hInv with total := hTotal }
  | onError errno =>
      rw [NoticeInv, perform, StreamSession.stop, StreamSession.post,
        fdTasks_append]
      exact Quieted.stop hInv (hMoved rfl)
  | onDisconnect =>
      rw [NoticeInv, perform, StreamSession.stop, StreamSession.post,
        fdTasks_append]
      exact Quieted.stop hInv (hMoved rfl)

theorem noticeInv_step {onSplit : σ → List UInt8 → Int × σ}
    (s : StreamSession σ) (action : SessionAction) (next : StreamSession σ)
    (hInv : NoticeInv s) (hOnce : s.EndsOnce action)
    (hStep : step onSplit s action = some next) : NoticeInv next := by
  cases stepped hStep with
  | call call =>
      cases call with
      | start =>
          have hNone : s.notices.length = 0 := by
            rw [show s.notices = [] from hOnce]
            rfl
          rw [NoticeInv, hNone] at hInv
          have hQueued := hInv.reset (fdTasks s.start.ioQueue)
          rw [← hNone] at hQueued
          exact hQueued
      | stop =>
          rw [NoticeInv, StreamSession.call, stop, post, fdTasks_append]
          exact Quieted.stop hInv (Quieted.total hInv)
      | postSendTask data => exact NoticeInv.post hInv FdSlot.noInstall_nil
  | execTask hIdle hQueue =>
      apply noticeInv_exec hInv hQueue
      rintro rfl
      exact hOnce (by rw [hQueue]; rfl)
  | dispatch hIdle hInstalled hReturns =>
      rename_i fuel inv split h
      rw [NoticeInv, hIdle] at hInv
      rw [handler] at hReturns
      split at hReturns
      · rename_i hAlive
        obtain ⟨hNotTwice, hGoesOn⟩ := hOnce hAlive
        obtain ⟨frames, hOutcome⟩ := streamHandler_outcome hReturns
        have hCb : s.slot.event.cb ≠ none := by simp [hInstalled]
        exact Quieted.handler hInv hCb hOutcome hNotTwice hGoesOn
      · obtain ⟨-, rfl⟩ := by simpa using hReturns
        exact hInv
  | perform hPending => exact noticeInv_perform hInv hPending
  | destroyServer hIdle => exact hInv

end StreamSession

/-! ## Clients -/

/-- The notifications of the current connection, that is, those since the
current attempt led to a connection. -/
def noticeCount : List ClientEvent → Nat
  | [] => 0
  | .attempt _ _ :: _ => 0
  | .established _ :: log => noticeCount log
  | .stopped :: log => noticeCount log
  | _ :: log => if establishedIn log then noticeCount log + 1 else noticeCount log

/-- No connection in the log has more than one notification. -/
def OneNotice (log : List ClientEvent) : Prop :=
  ∀ earlier, earlier <:+ log → noticeCount earlier ≤ 1

theorem OneNotice.cons {event : ClientEvent} {log : List ClientEvent}
    (hLog : OneNotice log) (hCount : noticeCount (event :: log) ≤ 1) :
    OneNotice (event :: log) := by
  intro earlier hEarlier
  rcases List.suffix_cons_iff.mp hEarlier with rfl | hEarlier
  · exact hCount
  · exact hLog earlier hEarlier

/-- A notification counts for the connection it ends. -/
theorem noticeCount_cons_le (event : ClientEvent) (log : List ClientEvent) :
    noticeCount (event :: log) ≤ noticeCount log + 1 := by
  cases event with
  | attempt attempt ret => exact Nat.zero_le _
  | established attempt => exact Nat.le_succ _
  | stopped => exact Nat.le_succ _
  | attemptError attempt errno seen => simp only [noticeCount]; split <;> omega
  | streamError errno seen => simp only [noticeCount]; split <;> omega
  | disconnect seen => simp only [noticeCount]; split <;> omega

namespace StreamClient

/-- No invocation of the stream handler ends the connection twice; while a
notification waits for its `disable_fd` to be executed, none ends it at all, no
detection reports a result, and the time limit does not expire unless the
client is connected; no `disable_fd` fails; and a client is not started again
after the notification of its connection. -/
def EndsOnce (c : StreamClient σ) : ClientAction → Prop
  | .call .start => noticeCount c.log = 0
  | .execTask faults _ =>
      c.ioQueue.head? = some (.stream .disableFd) ∨
        c.ioQueue.head? = some (.timer .disableFd) → faults.first = none
  | .dispatch _ inv =>
      if c.streamSlot.event.cb = some .handler then
        ¬ inv.EndsTwice StreamClientSocket.verdict c.conn ∧
        (0 < noticeCount c.log → .disableFd ∈ streamTasks c.ioQueue →
          ¬ inv.Ends StreamClientSocket.verdict c.conn)
      else
        0 < noticeCount c.log → .disableFd ∈ streamTasks c.ioQueue →
          hasFlag inv.types kWrite = false
  | .timerExpires =>
      0 < noticeCount c.log → .disableFd ∈ timerTasks c.ioQueue →
        c.connected = .kConnected
  | _ => True

instance (c : StreamClient σ) (action : ClientAction) :
    Decidable (c.EndsOnce action) :=
  match action with
  | .call .start => inferInstanceAs (Decidable (_ = _))
  | .call (.connect _ _) | .call .connectReturns | .call .stop
  | .call (.postSendTask _) => .isTrue trivial
  | .execTask _ _ => inferInstanceAs (Decidable (_ → _))
  | .dispatch _ _ => inferInstanceAs (Decidable (ite _ _ _))
  | .timerExpires => inferInstanceAs (Decidable (_ → _))
  | .perform => .isTrue trivial

structure NoticeInv (c : StreamClient σ) : Prop where
  stream : Quieted (noticeCount c.log) c.pending c.streamSlot
    (streamTasks c.ioQueue)
  timer : Quieted (noticeCount c.log) c.pending c.timerSlot
    (timerTasks c.ioQueue)
  once : OneNotice c.log

theorem noticeInv_make (split : σ) : NoticeInv (make split) where
  stream := Quieted.unknown _
  timer := Quieted.unknown _
  once := by
    intro earlier hEarlier
    obtain rfl := List.suffix_nil.mp hEarlier
    exact Nat.zero_le 1

namespace NoticeInv

variable {c : StreamClient σ}

theorem post (hInv : NoticeInv c) {tasks : List ClientTask}
    (hStream : FdSlot.NoInstall (streamTasks tasks))
    (hTimer : FdSlot.NoInstall (timerTasks tasks)) : NoticeInv (c.post tasks) where
  stream := by
    rw [StreamClient.post, streamTasks_append]
    exact hInv.stream.append hStream
  timer := by
    rw [StreamClient.post, timerTasks_append]
    exact hInv.timer.append hTimer
  once := hInv.once

/-- While no notification counts, anything may be queued. -/
theorem queue (hInv : NoticeInv c) (hNone : noticeCount c.log = 0)
    (tasks : List ClientTask) : NoticeInv (c.post tasks) where
  stream := by
    have hReset := hInv.stream.reset (streamTasks (c.post tasks).ioQueue)
    rwa [← hNone] at hReset
  timer := by
    have hReset := hInv.timer.reset (timerTasks (c.post tasks).ioQueue)
    rwa [← hNone] at hReset
  once := hInv.once

/-- A notification, or a call of `stop`. -/
theorem stop (hInv : NoticeInv c) : NoticeInv c.stop where
  stream := by
    rw [StreamClient.stop, StreamClient.post, streamTasks_append]
    exact hInv.stream.stop hInv.stream.total
  timer := by
    rw [StreamClient.stop, StreamClient.post, timerTasks_append]
    exact hInv.timer.stop hInv.timer.total
  once := hInv.once.cons (by
    have hTotal := hInv.stream.total
    show noticeCount c.log ≤ 1
    omega)

/-- A notification is recorded and stops the client. -/
theorem notify (hInv : NoticeInv c) (event : ClientEvent)
    (pending : List Effect)
    (hTotal : noticeCount (event :: c.log) + (noticesOf pending).length ≤ 1) :
    NoticeInv (({ c with pending := pending }.record event).stop) where
  stream := by
    rw [StreamClient.stop, StreamClient.post, streamTasks_append]
    exact hInv.stream.stop hTotal
  timer := by
    rw [StreamClient.stop, StreamClient.post, timerTasks_append]
    exact hInv.timer.stop hTotal
  once := by
    have hCount : noticeCount (event :: c.log) ≤ 1 := by omega
    exact (hInv.once.cons hCount).cons hCount

/-- A new attempt begins. -/
theorem claim (hInv : NoticeInv c) (ret : ConnectRet) :
    NoticeInv (c.claim ret) where
  stream := hInv.stream.reset _
  timer := hInv.timer.reset _
  once := hInv.once.cons (Nat.zero_le 1)

theorem succeed (hInv : NoticeInv c) (attempt : Nat) :
    NoticeInv (c.succeed attempt) where
  stream := hInv.stream
  timer := hInv.timer
  once := hInv.once.cons (by
    have hTotal := hInv.stream.total
    show noticeCount c.log ≤ 1
    omega)

theorem start (hInv : NoticeInv c) (hNone : noticeCount c.log = 0) :
    NoticeInv c.start := by
  unfold StreamClient.start
  split
  · exact hInv
  · have hQueued := hInv.queue hNone
      [.stream (.enableFdCb
        (if c.conn.sendBuf.empty then kRead ||| kError
          else kRead ||| kWrite ||| kError) EventMode.kDefault .handler)]
    exact { hQueued with }

theorem connect (hInv : NoticeInv c) (ret : ConnectRet) (timeoutMs : Nat) :
    NoticeInv (c.connect ret timeoutMs) := by
  have hClaimed := hInv.claim ret
  have hConnects := c.connects ret timeoutMs
  generalize c.connect ret timeoutMs = next at hConnects
  cases hConnects with
  | ignored _ hBusy => exact hInv
  | succeeds hFree => exact (hClaimed.succeed _).start rfl
  | fails hFree hErrno =>
      rename_i errno
      have hFailed := hClaimed.notify
        (.attemptError (c.attempts + 1) errno .kConnecting) c.pending
        hClaimed.stream.total
      exact { hFailed with }
  | detects hFree =>
      have hQueued := hClaimed.queue rfl
        [.stream (.enableFdCb kWrite EventMode.kDefault
            (.socketCb (c.attempts + 1))),
          .timer (.enableFdCb kRead EventMode.kDefault (c.attempts + 1)),
          .resetTimer timeoutMs]
      exact { hQueued with }

theorem connectReturns (hInv : NoticeInv c) : NoticeInv c.connectReturns := by
  rw [StreamClient.connectReturns]
  split
  · exact hInv
  · exact { hInv with }

/-- A callback of the io thread that finds no notification before it. -/
theorem failAttempt (hInv : NoticeInv c) (hIdle : c.pending = [])
    (hNone : noticeCount c.log = 0) (attempt : Nat) (errno : Errno)
    (connected : ConnectState) :
    NoticeInv ({ c with connected := connected }.post [.timer .disableFd]
      |>.failAttempt attempt errno) := by
  have hQueued : NoticeInv
      ({ c with connected := connected }.post [.timer .disableFd]) := by
    have hPosted := hInv.queue hNone [.timer .disableFd]
    exact { hPosted with }
  apply hQueued.notify _ c.pending
  have hLe := noticeCount_cons_le (.attemptError attempt errno connected) c.log
  rw [hNone] at hLe
  rw [hIdle]
  exact hLe

theorem exec {faults : TaskFaults} {ret : SendRet} {task : ClientTask}
    {tasks : List ClientTask} (hInv : NoticeInv c)
    (hQueue : c.ioQueue = task :: tasks)
    (hFault : task = .stream .disableFd ∨ task = .timer .disableFd →
      faults.first = none) :
    NoticeInv ({ c with ioQueue := tasks }.exec faults ret task) := by
  obtain ⟨hStream, hTimer, hOnce⟩ := hInv
  rw [hQueue] at hStream hTimer
  cases task with
  | stream task =>
      refine ⟨hStream.exec ?_, hTimer, hOnce⟩
      rintro rfl
      exact hFault (.inl rfl)
  | timer task =>
      refine ⟨hStream, hTimer.exec ?_, hOnce⟩
      rintro rfl
      exact hFault (.inr rfl)
  | resetTimer timeoutMs => exact ⟨hStream, hTimer, hOnce⟩
  | send data =>
      simp only [StreamClient.exec, execSend]
      split_ifs
      · exact ⟨hStream, hTimer, hOnce⟩
      · have hSent : NoticeInv
            { c with
              ioQueue := tasks
              conn := (c.conn.sendNow ret data).conn
              traffic := c.traffic.sendTask data
                (c.conn.sendNow ret data).accepted } :=
          ⟨hStream, hTimer, hOnce⟩
        refine hSent.post ?_ ?_
        · rw [streamTasks_map_request]
          exact FdSlot.noInstall_map_enableFd _ _ _
        · rw [timerTasks_map_request]
          exact FdSlot.noInstall_nil

theorem perform {effect : Effect} {effects : List Effect} (hInv : NoticeInv c)
    (hPending : c.pending = effect :: effects) :
    NoticeInv ({ c with pending := effects }.perform effect) := by
  have hTotal := hInv.stream.total
  rw [hPending] at hTotal
  -- a pending notification leaves no room for another one
  have hMoved (event : ClientEvent) (hNotice : effect.isNotice = true) :
      noticeCount (event :: c.log) + (noticesOf effects).length ≤ 1 := by
    have hCons : noticesOf (effect :: effects) = effect :: noticesOf effects :=
      List.filter_cons_of_pos hNotice
    have hLe := noticeCount_cons_le event c.log
    rw [hCons, List.length_cons] at hTotal
    omega
  have hRest (hQuiet : effect.isNotice = false) :
      NoticeInv { c with pending := effects } := by
    have hSame : noticesOf (effect :: effects) = noticesOf effects :=
      List.filter_cons_of_neg (by simp [hQuiet])
    rw [hSame] at hTotal
    exact
      { stream := { hInv.stream with total := hTotal }
        timer := { hInv.timer with total := hTotal }
        once := hInv.once }
  cases effect with
  | updateEvent types modes =>
      exact (hRest rfl).post
        (FdSlot.noInstall_map_enableFd [()] (fun _ => types) fun _ => modes)
        FdSlot.noInstall_nil
  | onFragment fragment => exact { hRest rfl with }
  | onError errno => exact hInv.notify _ effects (hMoved _ rfl)
  | onDisconnect => exact hInv.notify _ effects (hMoved _ rfl)

end NoticeInv

theorem noticeInv_step {onSplit : σ → List UInt8 → Int × σ}
    (c : StreamClient σ) (action : ClientAction) (next : StreamClient σ)
    (hInv : NoticeInv c) (hOnce : c.EndsOnce action)
    (hStep : step onSplit c action = some next) : NoticeInv next := by
  cases stepped hStep with
  | call call =>
      cases call with
      | connect ret timeoutMs => exact hInv.connect ret timeoutMs
      | connectReturns => exact hInv.connectReturns
      | start => exact hInv.start hOnce
      | stop => exact hInv.stop
      | postSendTask data =>
          exact hInv.post FdSlot.noInstall_nil FdSlot.noInstall_nil
  | execTask hIdle hQueue =>
      apply hInv.exec hQueue
      rintro (rfl | rfl)
      · exact hOnce (.inl (by rw [hQueue]; rfl))
      · exact hOnce (.inr (by rw [hQueue]; rfl))
  | socketCb hIdle hInstalled =>
      rename_i fuel inv attempt
      unfold socketCb
      split
      · rename_i hWrite
        have hNone : noticeCount c.log = 0 := by
          by_contra hSome
          have hCount : 0 < noticeCount c.log := Nat.pos_of_ne_zero hSome
          have hQueued := (hInv.stream.stopping hCount).disableFd_mem
            (by simp [hInstalled])
          have hSilent : hasFlag inv.types kWrite = false := by
            simp only [EndsOnce, hInstalled] at hOnce
            exact hOnce hCount hQueued
          rw [hSilent] at hWrite
          cases hWrite
        split
        · exact hInv.failAttempt hIdle hNone attempt inv.soError .kDisconnected
        · exact ((hInv.succeed attempt).queue hNone [.timer .disableFd]).start hNone
      · exact hInv
  | handler hIdle hInstalled hReturns =>
      simp only [EndsOnce, hInstalled, if_true] at hOnce
      obtain ⟨hNotTwice, hGoesOn⟩ := hOnce
      obtain ⟨frames, hOutcome⟩ := streamHandler_outcome hReturns
      obtain ⟨hStream, hTimer, hLog⟩ := hInv
      rw [hIdle] at hStream hTimer
      have hHandled := hStream.handler (by simp [hInstalled]) hOutcome hNotTwice
        hGoesOn
      exact ⟨hHandled, { hTimer with total := hHandled.total }, hLog⟩
  | perform hPending => exact hInv.perform hPending
  | timerExpires hIdle hInstalled =>
      unfold timerCb
      split
      · exact hInv.post FdSlot.noInstall_nil FdSlot.noInstall_disableFd
      · rename_i hNotConnected
        have hNone : noticeCount c.log = 0 := by
          by_contra hSome
          have hCount : 0 < noticeCount c.log := Nat.pos_of_ne_zero hSome
          have hQueued := (hInv.timer.stopping hCount).disableFd_mem
            (by simp [hInstalled])
          exact hNotConnected (hOnce hCount hQueued)
        exact hInv.failAttempt hIdle hNone _ ETIMEDOUT .kDisconnected

end StreamClient

/-! ## The law -/

/-- **At most one terminal notification.**  In every run of a session whose
steps keep to `EndsOnce` at most one notification is issued, and in every such
run of a client at most one for each connection. -/
theorem terminal_notice_at_most_once (onSplit : σ → List UInt8 → Int × σ)
    (split : σ) :
    (∀ actions s,
      Guarded (StreamSession.step onSplit) StreamSession.EndsOnce
        (.accepted split) actions →
      run (StreamSession.step onSplit) (.accepted split) actions = some s →
      s.notices.length ≤ 1) ∧
    ∀ actions c,
      Guarded (StreamClient.step onSplit) StreamClient.EndsOnce (.make split)
        actions →
      run (StreamClient.step onSplit) (.make split) actions = some c →
      OneNotice c.log := by
  constructor
  · intro actions s hGuarded hRun
    have hInv : s.NoticeInv := run_invariant StreamSession.noticeInv_step
      (StreamSession.noticeInv_accepted split) hGuarded hRun
    have hTotal := Quieted.total hInv
    omega
  · intro actions c hGuarded hRun
    have hInv : c.NoticeInv := run_invariant StreamClient.noticeInv_step
      (StreamClient.noticeInv_make split) hGuarded hRun
    exact hInv.once

/-- A session and a connected client read the end of the stream, are notified,
and let the queued tasks run. -/
theorem terminal_notice_at_most_once_eof :
    let onSplit : Unit → List UInt8 → Int × Unit := stateless fun _ => 0
    let actions : List SessionAction :=
      [.execTask {} (.sent 0), .execTask {} (.sent 0),
        .dispatch 1 ⟨kRead, [.read []], [], 0⟩, .perform,
        .execTask {} (.sent 0), .execTask {} (.sent 0)]
    let clientActions : List ClientAction :=
      [.call (.connect .success 1000), .execTask {} (.sent 0),
        .execTask {} (.sent 0), .execTask {} (.sent 0),
        .dispatch 1 ⟨kRead, [.read []], [], 0⟩, .perform,
        .execTask {} (.sent 0), .execTask {} (.sent 0)]
    (∃ s, run (StreamSession.step onSplit) (.accepted ()) actions = some s ∧
      s.notices = [.onDisconnect] ∧ s.inSessions = false ∧
      s.notices.length ≤ 1) ∧
    ∃ c, run (StreamClient.step onSplit) (.make ()) clientActions = some c ∧
      c.log = [.stopped, .disconnect .kConnected, .established 1,
        .attempt 1 .success] ∧ OneNotice c.log := by
  intro onSplit actions clientActions
  have hLaw := terminal_notice_at_most_once onSplit ()
  constructor
  · obtain ⟨hGuarded, hOutcome⟩ :
        Guarded (StreamSession.step onSplit) StreamSession.EndsOnce
          (.accepted ()) actions ∧
        (run (StreamSession.step onSplit) (.accepted ()) actions).map
          (fun s => (s.notices, s.inSessions)) =
          some ([.onDisconnect], false) := by
      decide +kernel
    obtain ⟨s, hRun, hView⟩ := Option.map_eq_some_iff.mp hOutcome
    obtain ⟨hNotices, hErased⟩ := Prod.mk.inj hView
    exact ⟨s, hRun, hNotices, hErased, hLaw.1 actions s hGuarded hRun⟩
  · obtain ⟨hGuarded, hOutcome⟩ :
        Guarded (StreamClient.step onSplit) StreamClient.EndsOnce (.make ())
          clientActions ∧
        (run (StreamClient.step onSplit) (.make ()) clientActions).map
          (fun c => c.log) =
          some [.stopped, .disconnect .kConnected, .established 1,
            .attempt 1 .success] := by
      decide +kernel
    obtain ⟨c, hRun, hLog⟩ := Option.map_eq_some_iff.mp hOutcome
    exact ⟨c, hRun, hLog, hLaw.2 clientActions c hGuarded hRun⟩

/-- The peer closes the connection and then resets it.  The second event is
dispatched before the `disable_fd` the first one led to, and `readv` is at the
end of the stream as before. -/
theorem terminal_notice_twice :
    let onSplit : Unit → List UInt8 → Int × Unit := stateless fun _ => 0
    (run (StreamSession.step onSplit) (.accepted ())
      [.execTask {} (.sent 0), .execTask {} (.sent 0),
        .dispatch 1 ⟨kRead, [.read []], [], 0⟩, .perform,
        .dispatch 1 ⟨kRead ||| kError, [.read []], [], EPIPE⟩,
        .perform]).map (fun s => s.notices) =
      some [.onDisconnect, .onDisconnect] := by
  decide +kernel

end Net
end KZEvent
