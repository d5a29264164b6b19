import KZEvent.Net.SendOrder

/-!
# What one step adds to the traffic

The surroundings of a session or of a client see of a step only what it adds to the
traffic: bytes the kernel accepted, bytes read, a fragment handed over.  A step only
adds; reading is done by the handler alone; and the payloads of the send tasks
executed so far, followed by those still queued, are the payloads posted, in the
order in which they were posted.
-/

namespace KZEvent
namespace Net

open KZEvent.Core Foundation EventType

variable {σ : Type*}

namespace Traffic

/-- The bytes the kernel accepted between two states. -/
def sentSince (before after : Traffic) : List UInt8 :=
  after.accepted.drop before.accepted.length

/-- How many bytes were read between two states. -/
def readSince (before after : Traffic) : Nat :=
  after.received.length - before.received.length

/-- The fragments handed over between two states. -/
def cutSince (before after : Traffic) : List (List UInt8) :=
  after.fragments.drop before.fragments.length

/-- The traffic goes on, and `bytes` were read. -/
structure Grows (before after : Traffic) (bytes : List UInt8) : Prop where
  accepted : before.accepted <+: after.accepted
  received : after.received = before.received ++ bytes
  fragments : before.fragments <+: after.fragments

variable {before after : Traffic} {bytes : List UInt8}

theorem Grows.sentSince_eq (hGrows : Grows before after bytes) :
    before.accepted ++ sentSince before after = after.accepted := by
  obtain ⟨sent, hSent⟩ := hGrows.accepted
  rw [sentSince, ← hSent, List.drop_left]

theorem Grows.readSince_eq (hGrows : Grows before after bytes) :
    readSince before after = bytes.length := by
  rw [readSince, hGrows.received, List.length_append]
  omega

theorem Grows.cutSince_eq (hGrows : Grows before after bytes) :
    before.fragments ++ cutSince before after = after.fragments := by
  obtain ⟨cut, hCut⟩ := hGrows.fragments
  rw [cutSince, ← hCut, List.drop_left]

theorem grows_refl (traffic : Traffic) : Grows traffic traffic [] where
  accepted := List.prefix_rfl
  received := (List.append_nil _).symm
  fragments := List.prefix_rfl

theorem grows_sendTask (traffic : Traffic) (data accepted : List UInt8) :
    Grows traffic (traffic.sendTask data accepted) [] where
  accepted := List.prefix_append _ _
  received := (List.append_nil _).symm
  fragments := List.prefix_rfl

theorem grows_exchange (traffic : Traffic) (received accepted : List UInt8) :
    Grows traffic (traffic.exchange received accepted) received where
  accepted := List.prefix_append _ _
  received := rfl
  fragments := List.prefix_rfl

theorem grows_deliver (traffic : Traffic) (fragment : List UInt8) :
    Grows traffic (traffic.deliver fragment) [] where
  accepted := List.prefix_rfl
  received := (List.append_nil _).symm
  fragments := List.prefix_append _ _

end Traffic

/-! ## Sessions -/

/-- The payload of a send task. -/
def SessionTask.payload? : SessionTask → Option (List UInt8)
  | .send data => some data
  | .fd _ | .erase => none

/-- The payload a call posts. -/
def SessionAction.payload? : SessionAction → Option (List UInt8)
  | .call (.postSendTask data) => some data
  | _ => none

namespace StreamSession

/-- The payloads posted so far. -/
def posted (s : StreamSession σ) : List (List UInt8) :=
  s.traffic.payloads ++ s.ioQueue.filterMap SessionTask.payload?

/-- The bytes a step reads. -/
def readBy (s : StreamSession σ) : SessionAction → List UInt8
  | .dispatch _ inv => if s.serverAlive then inv.readBytes else []
  | _ => []

theorem grows_step {onSplit : σ → List UInt8 → Int × σ} {s next : StreamSession σ}
    {action : SessionAction} (hStep : step onSplit s action = some next) :
    s.traffic.Grows next.traffic (s.readBy action) := by
  cases stepped hStep with
  | call call => cases call <;> exact Traffic.grows_refl s.traffic
  | execTask hIdle hQueue =>
      rename_i faults ret task tasks
      cases task with
      | fd task => exact Traffic.grows_refl s.traffic
      | send data =>
          simp only [exec, execSend]
          split_ifs
          · exact Traffic.grows_sendTask _ _ _
          · exact Traffic.grows_sendTask _ _ _
          · exact Traffic.grows_sendTask _ _ _
      | erase =>
          simp only [exec]
          split <;> exact Traffic.grows_refl s.traffic
  | dispatch hIdle hInstalled hReturns =>
      rename_i fuel inv split h
      simp only [handler] at hReturns
      rw [readBy]
      split at hReturns
      · rename_i hAlive
        obtain ⟨frames, hOutcome⟩ := streamHandler_outcome hReturns
        rw [if_pos hAlive, ← hOutcome.received]
        exact Traffic.grows_exchange _ _ _
      · rename_i hGone
        obtain ⟨-, rfl⟩ := by simpa using hReturns
        rw [if_neg hGone]
        exact Traffic.grows_exchange s.traffic [] []
  | perform hPending =>
      rename_i effect effects
      cases effect with
      | onFragment fragment => exact Traffic.grows_deliver _ _
      | updateEvent types modes => exact Traffic.grows_refl s.traffic
      | onError errno => exact Traffic.grows_refl s.traffic
      | onDisconnect => exact Traffic.grows_refl s.traffic
  | destroyServer hIdle => exact Traffic.grows_refl s.traffic

/-- A request for a change of the interest is not a payload. -/
theorem filterMap_payload_request (requests : List ChannelInfo) :
    (requests.map SessionTask.request).filterMap SessionTask.payload? = [] := by
  induction requests with
  | nil => rfl
  | cons channel requests ih => exact ih

theorem posted_post (s : StreamSession σ) {tasks : List SessionTask}
    (hTasks : tasks.filterMap SessionTask.payload? = []) :
    (s.post tasks).posted = s.posted := by
  show s.traffic.payloads ++ (s.ioQueue ++ tasks).filterMap _ = _
  rw [List.filterMap_append, hTasks, List.append_nil]
  rfl

theorem posted_stop (s : StreamSession σ) : s.stop.posted = s.posted :=
  posted_post s rfl

/-- An executed send task counts among the payloads instead of the queue. -/
theorem posted_sendTask {s next : StreamSession σ} {data accepted : List UInt8}
    {tasks : List SessionTask} (hQueue : s.ioQueue = .send data :: tasks)
    (hTraffic : next.traffic = s.traffic.sendTask data accepted)
    (hTasks : next.ioQueue = tasks) : next.posted = s.posted := by
  rw [posted, posted, hQueue, hTraffic, hTasks]
  simp [Traffic.sendTask, SessionTask.payload?]

theorem posted_exec {s : StreamSession σ} {task : SessionTask}
    {tasks : List SessionTask} (hQueue : s.ioQueue = task :: tasks)
    (faults : TaskFaults) (ret : SendRet) :
    ({ s with ioQueue := tasks }.exec faults ret task).posted = s.posted := by
  cases task with
  | fd task =>
      simp only [posted, hQueue]
      rfl
  | send data =>
      simp only [exec, execSend]
      split_ifs
      · rw [posted_post _ (filterMap_payload_request _)]
        exact posted_sendTask hQueue rfl rfl
      · exact posted_sendTask hQueue rfl rfl
      · exact posted_sendTask hQueue rfl rfl
  | erase =>
      simp only [posted, hQueue, exec]
      split <;> rfl

/-- Only a call of `post_send_task` adds a payload, and an executed task leaves it
where it was. -/
theorem posted_step {onSplit : σ → List UInt8 → Int × σ} {s next : StreamSession σ}
    {action : SessionAction} (hStep : step onSplit s action = some next) :
    next.posted = s.posted ++ action.payload?.toList := by
  cases stepped hStep with
  | call call =>
      cases call with
      | start => exact (posted_post s rfl).trans (List.append_nil _).symm
      | stop => exact (posted_stop s).trans (List.append_nil _).symm
      | postSendTask data =>
          show s.traffic.payloads ++
            (s.ioQueue ++ [SessionTask.send data]).filterMap _ = _
          rw [List.filterMap_append, ← List.append_assoc]
          rfl
  | execTask hIdle hQueue =>
      exact (posted_exec hQueue _ _).trans (List.append_nil _).symm
  | dispatch hIdle hInstalled hReturns => exact (List.append_nil _).symm
  | perform hPending =>
      rename_i effect effects
      show _ = s.posted ++ []
      rw [List.append_nil]
      cases effect with
      | onFragment fragment => rfl
      | updateEvent types modes =>
          exact posted_post { s with pending := effects } rfl
      | onError errno => exact posted_stop { s with pending := effects }
      | onDisconnect => exact posted_stop { s with pending := effects }
  | destroyServer hIdle => exact (List.append_nil _).symm

end StreamSession

/-! ## Clients -/

/-- The payload of a send task. -/
def ClientTask.payload? : ClientTask → Option (List UInt8)
  | .send data => some data
  | .stream _ | .timer _ | .resetTimer _ => none

/-- The payload a call posts. -/
def ClientAction.payload? : ClientAction → Option (List UInt8)
  | .call (.postSendTask data) => some data
  | _ => none

namespace StreamClient

/-- The payloads posted so far. -/
def posted (c : StreamClient σ) : List (List UInt8) :=
  c.traffic.payloads ++ c.ioQueue.filterMap ClientTask.payload?

/-- The bytes a step reads; the detection of the connection reads none. -/
def readBy (c : StreamClient σ) : ClientAction → List UInt8
  | .dispatch _ inv =>
      if c.streamSlot.event.cb = some .handler then inv.readBytes else []
  | _ => []

theorem traffic_start (c : StreamClient σ) : c.start.traffic = c.traffic := by
  simp only [start]
  split <;> rfl

theorem traffic_connect (c : StreamClient σ) (ret : ConnectRet)
    (timeoutMs : Nat) : (c.connect ret timeoutMs).traffic = c.traffic := by
  have hConnects := c.connects ret timeoutMs
  generalize c.connect ret timeoutMs = next at hConnects
  cases hConnects with
  | ignored _ hBusy => rfl
  | succeeds hFree => exact traffic_start _
  | fails hFree hErrno => rfl
  | detects hFree => rfl

theorem traffic_call (c : StreamClient σ) (call : ClientCall) :
    (c.call call).traffic = c.traffic := by
  cases call with
  | connect ret timeoutMs => exact traffic_connect c ret timeoutMs
  | connectReturns =>
      simp only [StreamClient.call, connectReturns]
      split <;> rfl
  | start => exact traffic_start c
  | stop => rfl
  | postSendTask data => rfl

theorem traffic_socketCb (c : StreamClient σ) (attempt : Nat) (inv : Invocation) :
    (c.socketCb attempt inv).traffic = c.traffic := by
  simp only [socketCb]
  split
  · split
    · rfl
    · exact traffic_start _
  · rfl

theorem traffic_timerCb (c : StreamClient σ) (attempt : Nat) :
    (c.timerCb attempt).traffic = c.traffic := by
  simp only [timerCb]
  split <;> rfl

theorem grows_step {onSplit : σ → List UInt8 → Int × σ} {c next : StreamClient σ}
    {action : ClientAction} (hStep : step onSplit c action = some next) :
    c.traffic.Grows next.traffic (c.readBy action) := by
  cases stepped hStep with
  | call call =>
      rw [traffic_call]
      exact Traffic.grows_refl c.traffic
  | execTask hIdle hQueue =>
      rename_i faults ret task tasks
      cases task with
      | stream task => exact Traffic.grows_refl c.traffic
      | timer task => exact Traffic.grows_refl c.traffic
      | resetTimer timeoutMs => exact Traffic.grows_refl c.traffic
      | send data =>
          simp only [exec, execSend]
          split_ifs
          · exact Traffic.grows_sendTask _ _ _
          · exact Traffic.grows_sendTask _ _ _
  | socketCb hIdle hInstalled =>
      rw [traffic_socketCb, readBy, if_neg (by simp [hInstalled])]
      exact Traffic.grows_refl c.traffic
  | handler hIdle hInstalled hReturns =>
      obtain ⟨frames, hOutcome⟩ := streamHandler_outcome hReturns
      rw [readBy, if_pos hInstalled, ← hOutcome.received]
      exact Traffic.grows_exchange _ _ _
  | perform hPending =>
      rename_i effect effects
      cases effect with
      | onFragment fragment => exact Traffic.grows_deliver _ _
      | updateEvent types modes => exact Traffic.grows_refl c.traffic
      | onError errno => exact Traffic.grows_refl c.traffic
      | onDisconnect => exact Traffic.grows_refl c.traffic
  | timerExpires hIdle hInstalled =>
      rw [traffic_timerCb]
      exact Traffic.grows_refl c.traffic

/-- A request for a change of the interest is not a payload. -/
theorem filterMap_payload_request (requests : List ChannelInfo) :
    (requests.map ClientTask.request).filterMap ClientTask.payload? = [] := by
  induction requests with
  | nil => rfl
  | cons channel requests ih => exact ih

theorem posted_post (c : StreamClient σ) {tasks : List ClientTask}
    (hTasks : tasks.filterMap ClientTask.payload? = []) :
    (c.post tasks).posted = c.posted := by
  show c.traffic.payloads ++ (c.ioQueue ++ tasks).filterMap _ = _
  rw [List.filterMap_append, hTasks, List.append_nil]
  rfl

theorem posted_start (c : StreamClient σ) : c.start.posted = c.posted := by
  simp only [start]
  split
  · rfl
  · exact posted_post { c with started := true } rfl

theorem posted_stop (c : StreamClient σ) : c.stop.posted = c.posted :=
  posted_post (({ c with started := false } : StreamClient σ).record .stopped) rfl

theorem posted_connect (c : StreamClient σ) (ret : ConnectRet) (timeoutMs : Nat) :
    (c.connect ret timeoutMs).posted = c.posted := by
  have hConnects := c.connects ret timeoutMs
  generalize c.connect ret timeoutMs = next at hConnects
  cases hConnects with
  | ignored _ hBusy => rfl
  | succeeds hFree => exact posted_start _
  | fails hFree hErrno =>
      exact posted_stop ((c.claim (.error _)).record (.attemptError _ _ _))
  | detects hFree => exact posted_post (c.claim (.error EINPROGRESS)) rfl

theorem posted_call (c : StreamClient σ) (call : ClientCall) :
    (c.call call).posted =
      c.posted ++ (ClientAction.call call).payload?.toList := by
  have hNone (c' : StreamClient σ) (hSame : c'.posted = c.posted) :
      c'.posted = c.posted ++ [] := by
    rw [hSame, List.append_nil]
  cases call with
  | connect ret timeoutMs => exact hNone _ (posted_connect c ret timeoutMs)
  | connectReturns =>
      refine hNone _ ?_
      simp only [StreamClient.call, connectReturns]
      split <;> rfl
  | start => exact hNone _ (posted_start c)
  | stop => exact hNone _ (posted_stop c)
  | postSendTask data =>
      show c.traffic.payloads ++
        (c.ioQueue ++ [ClientTask.send data]).filterMap _ = _
      rw [List.filterMap_append, ← List.append_assoc]
      rfl

theorem posted_socketCb (c : StreamClient σ) (attempt : Nat) (inv : Invocation) :
    (c.socketCb attempt inv).posted = c.posted := by
  simp only [socketCb]
  split
  · split
    · rw [failAttempt, posted_stop]
      exact posted_post { c with connected := .kDisconnected } rfl
    · rw [posted_start]
      exact posted_post (c.succeed attempt) rfl
  · rfl

theorem posted_timerCb (c : StreamClient σ) (attempt : Nat) :
    (c.timerCb attempt).posted = c.posted := by
  simp only [timerCb]
  split
  · exact posted_post c rfl
  · rw [failAttempt, posted_stop]
    exact posted_post { c with connected := .kDisconnected } rfl

/-- An executed send task counts among the payloads instead of the queue. -/
theorem posted_sendTask {c next : StreamClient σ} {data accepted : List UInt8}
    {tasks : List ClientTask} (hQueue : c.ioQueue = .send data :: tasks)
    (hTraffic : next.traffic = c.traffic.sendTask data accepted)
    (hTasks : next.ioQueue = tasks) : next.posted = c.posted := by
  rw [posted, posted, hQueue, hTraffic, hTasks]
  simp [Traffic.sendTask, ClientTask.payload?]

theorem posted_exec {c : StreamClient σ} {task : ClientTask}
    {tasks : List ClientTask} (hQueue : c.ioQueue = task :: tasks)
    (faults : TaskFaults) (ret : SendRet) :
    ({ c with ioQueue := tasks }.exec faults ret task).posted = c.posted := by
  cases task with
  | stream task =>
      simp only [posted, hQueue]
      rfl
  | timer task =>
      simp only [posted, hQueue]
      rfl
  | resetTimer timeoutMs =>
      simp only [posted, hQueue]
      rfl
  | send data =>
      simp only [exec, execSend]
      split_ifs
      · exact posted_sendTask hQueue rfl rfl
      · rw [posted_post _ (filterMap_payload_request _)]
        exact posted_sendTask hQueue rfl rfl

/-- Only a call of `post_send_task` adds a payload, and an executed task leaves it
where it was. -/
theorem posted_step {onSplit : σ → List UInt8 → Int × σ} {c next : StreamClient σ}
    {action : ClientAction} (hStep : step onSplit c action = some next) :
    next.posted = c.posted ++ action.payload?.toList := by
  cases stepped hStep with
  | call call => exact posted_call c call
  | execTask hIdle hQueue =>
      exact (posted_exec hQueue _ _).trans (List.append_nil _).symm
  | socketCb hIdle hInstalled =>
      exact (posted_socketCb c _ _).trans (List.append_nil _).symm
  | handler hIdle hInstalled hReturns => exact (List.append_nil _).symm
  | perform hPending =>
      rename_i effect effects
      show _ = c.posted ++ []
      rw [List.append_nil]
      cases effect with
      | onFragment fragment => rfl
      | updateEvent types modes =>
          exact posted_post { c with pending := effects } rfl
      | onError errno =>
          exact posted_stop (({ c with pending := effects } :
            StreamClient σ).record (.streamError errno c.connected))
      | onDisconnect =>
          exact posted_stop (({ c with pending := effects } :
            StreamClient σ).record (.disconnect c.connected))
  | timerExpires hIdle hInstalled =>
      exact (posted_timerCb c _).trans (List.append_nil _).symm

end StreamClient
end Net
end KZEvent
