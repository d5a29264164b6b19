import KZEvent.Net.Effort

/-!
# Whatever is done next, less is left

The steps of a session, of a client and of a connection against the price of what they
leave to do.  A step that somebody calls for adds work, and so does the timer; every
other step takes some away, as long as the kernel keeps its room.
-/

namespace KZEvent
namespace Net

open KZEvent.Core Foundation EventType SocketEnd

/-! ## Sessions -/

def SessionTask.effort : SessionTask → Nat
  | .fd task => FdTask.effort task
  -- the bytes, a request for the write event, and room that is refused
  | .send data => 15 + 19 * data.length
  | .erase => 1

/-- A step nobody has to call for. -/
def SessionAction.unasked : SessionAction → Bool
  | .call _ | .destroyServer => false
  | .execTask _ _ | .dispatch _ _ | .perform => true

namespace StreamSession

variable {split : List UInt8 → Int} {e : SocketEnd} {room : Bool}

def effort (s : StreamSession Unit) (e : SocketEnd) : Nat :=
  e.effort s.slot.interest + s.conn.effort + (s.ioQueue.map SessionTask.effort).sum +
    effortOf s.pending

/-- The step executes a send task. -/
def sendsNext (s : StreamSession Unit) : SessionAction → Bool
  | .execTask _ _ =>
      match s.ioQueue with
      | .send _ :: _ => true
      | _ => false
  | _ => false

/-- The kernel uses room up only for bytes it takes, or where it refuses a send task. -/
def KeepsRoom (split : List UInt8 → Int) (s : StreamSession Unit) (e : SocketEnd)
    (room : Bool) (action : SessionAction) : Prop :=
  room = false → e.writable = true → s.sendsNext action = true ∨
    ∀ next ∈ step (stateless split) s action, s.traffic.sentSince next.traffic ≠ []

instance (s : StreamSession Unit) (action : SessionAction) :
    Decidable (s.KeepsRoom split e room action) :=
  inferInstanceAs (Decidable (_ → _ → _ ∨ _))

theorem KeepsRoom.used {s next : StreamSession Unit} {action : SessionAction}
    (hRoom : s.KeepsRoom split e room action)
    (hStep : step (stateless split) s action = some next)
    (hNoTask : s.sendsNext action = false) :
    roomEffort (e.writable && room) ≤
      roomEffort e.writable + 7 * (s.traffic.sentSince next.traffic).length := by
  refine roomEffort_le fun hFull hWritable => ?_
  rcases hRoom hFull hWritable with hTask | hSent
  · rw [hNoTask] at hTask
    cases hTask
  · exact hSent next hStep

theorem endAfter_execTask {s next : StreamSession Unit} (faults : TaskFaults)
    (ret : SendRet) (hSame : next.traffic = s.traffic) :
    s.endAfter e room next (.execTask faults ret) =
      if s.armsNext then (e.exchange [] 0 room).rearm next.slot.interest
      else e.exchange [] 0 room := by
  simp only [endAfter, hSame, Traffic.sentSince_self, Traffic.readSince_self]

theorem effort_execFd_lt {s : StreamSession Unit} {task : FdTask Unit}
    {tasks : List SessionTask} {ret : SendRet} (hTended : s.Tended e)
    (hAttentive : s.Attentive e) (hQueue : s.ioQueue = .fd task :: tasks)
    (hUsed : roomEffort (e.writable && room) ≤ roomEffort e.writable) :
    effort ({ s with ioQueue := tasks }.exec {} ret (.fd task))
        (s.endAfter e room ({ s with ioQueue := tasks }.exec {} ret (.fd task))
          (.execTask {} ret)) < s.effort e := by
  have hLasting := hAttentive.lasting
  rw [hQueue, fdTasks_fd_cons] at hLasting
  obtain ⟨hStays, hKept⟩ := hLasting task List.mem_cons_self
  have hArms : s.armsNext = task.arms := by rw [armsNext, hQueue]
  have hMoved := effort_exchange (e := e) s.slot.interest [] 0 room
  have hExec := effort_execFd (e := e.exchange [] 0 room) hTended.tasks.first hStays
    hKept
  let next : StreamSession Unit := { s with ioQueue := tasks }.exec {} ret (.fd task)
  have hSame : next.traffic = s.traffic := rfl
  show next.effort (s.endAfter e room next (.execTask {} ret)) < _
  rw [endAfter_execTask {} ret hSame, hArms, effort, effort, hQueue, List.map_cons,
    List.sum_cons]
  show (if task.arms then (e.exchange [] 0 room).rearm (s.slot.exec {} task).interest
    else e.exchange [] 0 room).effort (s.slot.exec {} task).interest +
      s.conn.effort + (tasks.map SessionTask.effort).sum + effortOf s.pending <
    _ + _ + (FdTask.effort task + _) + _
  rw [List.length_nil] at hMoved
  omega

theorem sum_map_request_le {channel : ChannelInfo} {conn : StreamConn}
    {requests : List ChannelInfo} (hAnnounces : Announces channel conn.channel requests) :
    ((requests.map SessionTask.request).map SessionTask.effort).sum ≤ 7 := by
  rcases hAnnounces with ⟨-, rfl⟩ | rfl
  · exact Nat.zero_le 7
  · exact armEffort_le conn.channel.eventTypes

theorem effort_execSend_lt {s : StreamSession Unit} {data : List UInt8}
    {tasks : List SessionTask} {ret : SendRet} (hAlive : s.serverAlive = true)
    (hFine : ret.Fine) (hQueue : s.ioQueue = .send data :: tasks) :
    effort ({ s with ioQueue := tasks }.execSend ret data)
        (s.endAfter e room ({ s with ioQueue := tasks }.execSend ret data)
          (.execTask {} ret)) < s.effort e := by
  have hCalm : s.armsNext = false := by rw [armsNext, hQueue]
  have hRoom : roomEffort (e.writable && room) ≤ 7 := roomEffort_le_seven _
  have hMoved (sent : List UInt8) :=
    effort_exchange (e := e) s.slot.interest sent 0 room
  have hSum : (s.ioQueue.map SessionTask.effort).sum =
      15 + 19 * data.length + (tasks.map SessionTask.effort).sum := by
    rw [hQueue, List.map_cons, List.sum_cons, SessionTask.effort]
  unfold StreamSession.execSend
  by_cases hEmpty : s.conn.sendBuf.empty = true
  · have hNil := (LiveBuffer.empty_iff s.conn.sendBuf).mp hEmpty
    have hConn := effort_sendNow_le data hFine hNil
    have hTasks := sum_map_request_le (announces_sendNow s.conn ret data)
    have hSent := hMoved (s.conn.sendNow ret data).accepted
    simp only [hAlive, hEmpty, if_true, endAfter, hCalm, Bool.false_eq_true, if_false,
      post, Traffic.sentSince_sendTask]
    rw [effort, effort, hSum]
    show SocketEnd.effort s.slot.interest (e.exchange _
        (s.traffic.received.length - s.traffic.received.length) room) +
      (s.conn.sendNow ret data).conn.effort +
      ((tasks ++ (s.conn.sendNow ret data).requests.map SessionTask.request).map
        SessionTask.effort).sum + effortOf s.pending < _
    rw [Nat.sub_self, List.map_append, List.sum_append]
    omega
  · have hSent := hMoved []
    have hConn := effort_enqueue s.conn data
    rw [List.length_nil] at hSent
    simp only [hAlive, hEmpty, if_true, endAfter, hCalm, Bool.false_eq_true, if_false,
      Traffic.sentSince_sendTask]
    rw [effort, effort, hSum]
    show SocketEnd.effort s.slot.interest (e.exchange []
        (s.traffic.received.length - s.traffic.received.length) room) +
      (s.conn.enqueue data).effort + (tasks.map SessionTask.effort).sum +
      effortOf s.pending < _
    rw [Nat.sub_self, hConn]
    omega

theorem effort_dispatch_lt (hBounded : BoundedSplit (stateless split))
    {s : StreamSession Unit} {fuel : Nat} {inv : Invocation} {callback : Unit}
    {h : HandlerState} (hIdle : s.pending = [])
    (hReturns : streamHandler verdict (stateless split) fuel inv s.split s.conn =
      some (callback, h))
    (hClean : inv.Clean s.conn.sendBuf.live.length)
    (hServes : e.Serves inv s.conn.sendBuf.live.length room)
    (hRoom : room = false → e.writable = true → h.accepted ≠ []) :
    effort (s.leave callback h)
        (s.endAfter e room (s.leave callback h) (.dispatch fuel inv)) < s.effort e := by
  obtain ⟨frames, input, rest, hOutcome, hCut, hKept, -, hRest⟩ :=
    streamHandler_cut hBounded hReturns
  have hQuiet := verdict_of_soError_eq_zero hClean.soError
  have hInput := hKept (hClean.not_discards hQuiet)
  rw [if_neg (by simp [hClean.closes_eq_false hQuiet])] at hRest
  have hFrames := hCut.length_frames_le hBounded
  rw [hInput, List.length_append, ← hRest] at hFrames
  have hLess := effort_handler_lt s.slot.interest hServes hOutcome
    (hOutcome.clean hClean hQuiet) hClean hQuiet hFrames hRoom
  have hCount : s.traffic.readSince (s.traffic.exchange h.received h.accepted) =
      inv.readBytes.length := by
    rw [(Traffic.grows_exchange _ _ _).readSince_eq, hOutcome.received]
  simp only [endAfter, leave, Traffic.sentSince_exchange, hCount]
  rw [effort, effort, hIdle]
  show SocketEnd.effort s.slot.interest _ + h.conn.effort +
    (s.ioQueue.map SessionTask.effort).sum + effortOf h.effects < _ + _ + _ + 0
  omega

theorem effort_perform_lt {s : StreamSession Unit} {effect : Effect}
    {effects : List Effect} (hPending : s.pending = effect :: effects)
    (hSilent : noticesOf s.pending = [])
    (hUsed : roomEffort (e.writable && room) ≤ roomEffort e.writable) :
    effort ({ s with pending := effects }.perform effect) (e.exchange [] 0 room) +
      4 * (s.traffic.cutSince
        ({ s with pending := effects }.perform effect).traffic).length <
      s.effort e := by
  have hMoved := effort_exchange (e := e) s.slot.interest [] 0 room
  rw [List.length_nil] at hMoved
  have hBefore : s.effort e = e.effort s.slot.interest + s.conn.effort +
      (s.ioQueue.map SessionTask.effort).sum + (effect.effort + effortOf effects) := by
    rw [effort, hPending, effortOf_cons]
  rw [hPending] at hSilent
  rw [hBefore]
  cases effect with
  | updateEvent types modes =>
      show SocketEnd.effort s.slot.interest (e.exchange [] 0 room) + s.conn.effort +
        ((s.ioQueue ++ [SessionTask.fd (.enableFd types modes)]).map
          SessionTask.effort).sum + effortOf effects +
        4 * (s.traffic.cutSince s.traffic).length <
        _ + _ + _ + (armEffort types + 1 + _)
      rw [Traffic.cutSince_self, List.length_nil, List.map_append, List.sum_append]
      show _ + _ + (_ + armEffort types) + _ + _ < _
      omega
  | onFragment fragment =>
      show SocketEnd.effort s.slot.interest (e.exchange [] 0 room) + s.conn.effort +
        (s.ioQueue.map SessionTask.effort).sum + effortOf effects +
        4 * (s.traffic.cutSince (s.traffic.deliver fragment)).length <
        _ + _ + _ + (5 + _)
      rw [Traffic.cutSince_deliver, List.length_singleton]
      omega
  | onError errno => cases hSilent
  | onDisconnect => cases hSilent

/-- An effect neither sends nor reads. -/
theorem still_perform (s : StreamSession Unit) (effects : List Effect)
    (effect : Effect) :
    s.traffic.sentSince ({ s with pending := effects }.perform effect).traffic = [] ∧
    s.traffic.readSince ({ s with pending := effects }.perform effect).traffic = 0 := by
  cases effect <;> exact ⟨List.drop_length, Nat.sub_self _⟩

/-- What a task leaves of the traffic: it hands over no fragment. -/
theorem cutSince_exec (s : StreamSession Unit) (tasks : List SessionTask)
    (faults : TaskFaults) (ret : SendRet) (task : SessionTask) :
    s.traffic.cutSince ({ s with ioQueue := tasks }.exec faults ret task).traffic =
      [] := by
  cases task with
  | fd task => exact Traffic.cutSince_self _
  | send data =>
      simp only [exec, execSend]
      split_ifs <;> exact List.drop_length
  | erase =>
      simp only [exec]
      split <;> exact Traffic.cutSince_self _

/-- Whatever a session does next of its own accord, less is left to do; a fragment that
is handed over is left to the heavy thread. -/
theorem effort_step_lt (hBounded : BoundedSplit (stateless split)) {base : List UInt8}
    {s next : StreamSession Unit} {action : SessionAction} (hInv : s.SendInv base)
    (hAttentive : s.Attentive e) (hTended : s.Tended e) (hFlow : s.SendsFlow action)
    (hServed : s.Served e room action) (hUnasked : action.unasked = true)
    (hRoom : s.KeepsRoom split e room action)
    (hStep : step (stateless split) s action = some next) :
    next.effort (s.endAfter e room next action) +
      4 * (s.traffic.cutSince next.traffic).length < s.effort e := by
  have hUsed := hRoom.used hStep
  cases stepped hStep with
  | call call => cases hUnasked
  | execTask hIdle hQueue =>
      rename_i faults ret task tasks
      obtain ⟨rfl, hFine⟩ := hFlow
      rw [cutSince_exec, List.length_nil, Nat.mul_zero, Nat.add_zero]
      cases task with
      | fd task =>
          have hNone := hUsed (by rw [sendsNext, hQueue])
          have hSent : s.traffic.sentSince
              (exec {} ret { s with ioQueue := tasks } (.fd task)).traffic = [] :=
            Traffic.sentSince_self _
          rw [hSent] at hNone
          exact effort_execFd_lt hTended hAttentive hQueue hNone
      | send data => exact effort_execSend_lt hInv.serverAlive hFine hQueue
      | erase =>
          have hNone := hUsed (by rw [sendsNext, hQueue])
          have hCalm : s.armsNext = false := by rw [armsNext, hQueue]
          have hErased : exec {} ret { s with ioQueue := tasks } .erase =
              { s with ioQueue := tasks, inSessions := false } :=
            if_pos hInv.serverAlive
          rw [hErased] at hNone ⊢
          rw [Traffic.sentSince_self] at hNone
          have hMoved := effort_exchange (e := e) s.slot.interest [] 0 room
          rw [List.length_nil] at hMoved hNone
          simp only [endAfter, hCalm, Bool.false_eq_true, if_false,
            Traffic.sentSince_self, Traffic.readSince_self]
          rw [effort, effort, hQueue, List.map_cons, List.sum_cons]
          show SocketEnd.effort s.slot.interest (e.exchange [] 0 room) + s.conn.effort +
            (tasks.map SessionTask.effort).sum + effortOf s.pending <
            _ + _ + (1 + _) + _
          omega
  | dispatch hIdle hInstalled hReturns =>
      rename_i fuel inv callback h
      rw [handler, if_pos hInv.serverAlive] at hReturns
      have hCut : s.traffic.cutSince (s.leave callback h).traffic = [] :=
        List.drop_length
      rw [hCut, List.length_nil, Nat.mul_zero, Nat.add_zero]
      refine effort_dispatch_lt hBounded hIdle hReturns hFlow hServed ?_
      intro hFull hWritable
      rcases hRoom hFull hWritable with hTask | hSent
      · cases hTask
      · have hBytes := hSent _ hStep
        have hAccepted : s.traffic.sentSince (s.leave callback h).traffic =
            h.accepted := Traffic.sentSince_exchange _ _ _
        rwa [hAccepted] at hBytes
  | perform hPending =>
      rename_i effect effects
      obtain ⟨hSent, hRead⟩ := still_perform s effects effect
      have hNone := hUsed rfl
      rw [hSent] at hNone
      simp only [endAfter, hSent, hRead]
      exact effort_perform_lt hPending hInv.silent hNone
  | destroyServer hIdle => exact hFlow.elim

end StreamSession

/-! ## Clients -/

def ClientTask.effort : ClientTask → Nat
  | .stream task => FdTask.effort task
  | .timer _ | .resetTimer _ => 1
  | .send data => 15 + 19 * data.length

/-- A step nobody has to call for; the expiry of the timer is not one. -/
def ClientAction.unasked : ClientAction → Bool
  | .call _ | .timerExpires => false
  | .execTask _ _ | .dispatch _ _ | .perform => true

namespace StreamClient

variable {split : List UInt8 → Int} {e : SocketEnd} {room : Bool}

/-- The price of the task that installs the handler. -/
def startEffort : Bool → Nat
  | true => 0
  | false => 7

def effort (c : StreamClient Unit) (e : SocketEnd) : Nat :=
  e.effort c.streamSlot.interest + c.conn.effort +
    (c.ioQueue.map ClientTask.effort).sum + effortOf c.pending + startEffort c.started

/-- The step executes a send task. -/
def sendsNext (c : StreamClient Unit) : ClientAction → Bool
  | .execTask _ _ =>
      match c.ioQueue with
      | .send _ :: _ => true
      | _ => false
  | _ => false

/-- The kernel uses room up only for bytes it takes, or where it refuses a send task. -/
def KeepsRoom (split : List UInt8 → Int) (c : StreamClient Unit) (e : SocketEnd)
    (room : Bool) (action : ClientAction) : Prop :=
  room = false → e.writable = true → c.sendsNext action = true ∨
    ∀ next ∈ step (stateless split) c action, c.traffic.sentSince next.traffic ≠ []

instance (c : StreamClient Unit) (action : ClientAction) :
    Decidable (c.KeepsRoom split e room action) :=
  inferInstanceAs (Decidable (_ → _ → _ ∨ _))

theorem KeepsRoom.used {c next : StreamClient Unit} {action : ClientAction}
    (hRoom : c.KeepsRoom split e room action)
    (hStep : step (stateless split) c action = some next)
    (hNoTask : c.sendsNext action = false) :
    roomEffort (e.writable && room) ≤
      roomEffort e.writable + 7 * (c.traffic.sentSince next.traffic).length := by
  refine roomEffort_le fun hFull hWritable => ?_
  rcases hRoom hFull hWritable with hTask | hSent
  · rw [hNoTask] at hTask
    cases hTask
  · exact hSent next hStep

/-- A task that neither sends nor concerns the stream socket. -/
theorem effort_pop_lt {c c' : StreamClient Unit} {task : ClientTask}
    {tasks : List ClientTask} (hQueue : c.ioQueue = task :: tasks)
    (hPrice : task.effort = 1) (hSame : c'.effort = effort { c with ioQueue := tasks })
    (hUsed : roomEffort (e.writable && room) ≤ roomEffort e.writable) :
    c'.effort (e.exchange [] 0 room) < c.effort e := by
  have hMoved := effort_exchange (e := e) c.streamSlot.interest [] 0 room
  rw [List.length_nil] at hMoved
  rw [hSame, effort, effort, hQueue, List.map_cons, List.sum_cons, hPrice]
  show SocketEnd.effort c.streamSlot.interest (e.exchange [] 0 room) + c.conn.effort +
    (tasks.map ClientTask.effort).sum + effortOf c.pending + startEffort c.started < _
  omega

theorem effort_execStream_lt {c : StreamClient Unit} {task : FdTask StreamCb}
    {tasks : List ClientTask} {ret : SendRet} (hTended : c.Tended e)
    (hAttentive : c.Attentive e) (hQueue : c.ioQueue = .stream task :: tasks)
    (hUsed : roomEffort (e.writable && room) ≤ roomEffort e.writable) :
    effort ({ c with ioQueue := tasks }.exec {} ret (.stream task))
        (c.endAfter e room ({ c with ioQueue := tasks }.exec {} ret (.stream task))
          (.execTask {} ret)) < c.effort e := by
  have hLasting := hAttentive.lasting
  rw [hQueue, streamTasks_stream_cons] at hLasting
  obtain ⟨hStays, hKept⟩ := hLasting task List.mem_cons_self
  have hArms : c.armsNext = task.arms := by rw [armsNext, hQueue]
  have hMoved := effort_exchange (e := e) c.streamSlot.interest [] 0 room
  have hExec := effort_execFd (e := e.exchange [] 0 room) hTended.tasks.first hStays
    hKept
  rw [List.length_nil] at hMoved
  simp only [endAfter, exec, hArms, Traffic.sentSince_self, Traffic.readSince_self]
  rw [effort, effort, hQueue, List.map_cons, List.sum_cons]
  show (if task.arms then (e.exchange [] 0 room).rearm (c.streamSlot.exec {} task).interest
    else e.exchange [] 0 room).effort (c.streamSlot.exec {} task).interest +
      c.conn.effort + (tasks.map ClientTask.effort).sum + effortOf c.pending +
      startEffort c.started <
    _ + _ + (FdTask.effort task + _) + _ + _
  omega

theorem sum_map_request_le {channel : ChannelInfo} {conn : StreamConn}
    {requests : List ChannelInfo} (hAnnounces : Announces channel conn.channel requests) :
    ((requests.map ClientTask.request).map ClientTask.effort).sum ≤ 7 := by
  rcases hAnnounces with ⟨-, rfl⟩ | rfl
  · exact Nat.zero_le 7
  · exact armEffort_le conn.channel.eventTypes

theorem effort_execSend_lt {c : StreamClient Unit} {data : List UInt8}
    {tasks : List ClientTask} {ret : SendRet} (hFine : ret.Fine)
    (hQueue : c.ioQueue = .send data :: tasks) :
    effort ({ c with ioQueue := tasks }.execSend ret data)
        (c.endAfter e room ({ c with ioQueue := tasks }.execSend ret data)
          (.execTask {} ret)) < c.effort e := by
  have hCalm : c.armsNext = false := by rw [armsNext, hQueue]
  have hRoom : roomEffort (e.writable && room) ≤ 7 := roomEffort_le_seven _
  have hMoved (sent : List UInt8) :=
    effort_exchange (e := e) c.streamSlot.interest sent 0 room
  have hSum : (c.ioQueue.map ClientTask.effort).sum =
      15 + 19 * data.length + (tasks.map ClientTask.effort).sum := by
    rw [hQueue, List.map_cons, List.sum_cons, ClientTask.effort]
  unfold StreamClient.execSend
  by_cases hQueues : ¬ c.conn.sendBuf.empty = true ∨ c.connected ≠ .kConnected
  · have hSent := hMoved []
    have hConn := effort_enqueue c.conn data
    rw [List.length_nil] at hSent
    simp only [hQueues, if_true, endAfter, hCalm, Bool.false_eq_true, if_false,
      Traffic.sentSince_sendTask]
    rw [effort, effort, hSum]
    show SocketEnd.effort c.streamSlot.interest (e.exchange []
        (c.traffic.received.length - c.traffic.received.length) room) +
      (c.conn.enqueue data).effort + (tasks.map ClientTask.effort).sum +
      effortOf c.pending + startEffort c.started < _
    rw [Nat.sub_self, hConn]
    omega
  · have hNil : c.conn.sendBuf.live = [] := by
      rw [not_or, not_not] at hQueues
      exact (LiveBuffer.empty_iff c.conn.sendBuf).mp hQueues.1
    have hConn := effort_sendNow_le data hFine hNil
    have hTasks := sum_map_request_le (announces_sendNow c.conn ret data)
    have hSent := hMoved (c.conn.sendNow ret data).accepted
    simp only [hQueues, endAfter, hCalm, Bool.false_eq_true, if_false, post,
      Traffic.sentSince_sendTask]
    rw [effort, effort, hSum]
    show SocketEnd.effort c.streamSlot.interest (e.exchange _
        (c.traffic.received.length - c.traffic.received.length) room) +
      (c.conn.sendNow ret data).conn.effort +
      ((tasks ++ (c.conn.sendNow ret data).requests.map ClientTask.request).map
        ClientTask.effort).sum + effortOf c.pending + startEffort c.started < _
    rw [Nat.sub_self, List.map_append, List.sum_append]
    omega

/-- The report of room pays for the timer, and the handler was paid for. -/
theorem effort_succeed_le (c : StreamClient Unit) (attempt : Nat) (e' : SocketEnd) :
    effort ((c.succeed attempt).post [.timer .disableFd]).start e' ≤
      e'.effort c.streamSlot.interest + c.conn.effort +
        (c.ioQueue.map ClientTask.effort).sum + effortOf c.pending +
        startEffort c.started + 1 := by
  have hTimer : ((c.ioQueue ++ [ClientTask.timer .disableFd]).map
      ClientTask.effort).sum = (c.ioQueue.map ClientTask.effort).sum + 1 := by
    rw [List.map_append, List.sum_append]
    rfl
  unfold StreamClient.start
  split_ifs with hStarted
  · show SocketEnd.effort c.streamSlot.interest e' + c.conn.effort +
      ((c.ioQueue ++ [ClientTask.timer .disableFd]).map ClientTask.effort).sum +
      effortOf c.pending + startEffort c.started ≤ _
    omega
  · have hNot : c.started = false := Bool.eq_false_iff.mpr hStarted
    have hArm := armEffort_le (startTypes c.conn.sendBuf.empty)
    show SocketEnd.effort c.streamSlot.interest e' + c.conn.effort +
      (((c.ioQueue ++ [ClientTask.timer .disableFd]) ++ [ClientTask.stream
        (.enableFdCb (startTypes c.conn.sendBuf.empty) EventMode.kDefault
          .handler)]).map ClientTask.effort).sum +
      effortOf c.pending + startEffort true ≤ _
    rw [List.map_append, List.sum_append, hTimer, hNot]
    show _ + _ + (_ + 1 + armEffort (startTypes c.conn.sendBuf.empty)) + _ + 0 ≤
      _ + _ + _ + _ + 7 + 1
    omega

theorem effort_handler_lt (hBounded : BoundedSplit (stateless split))
    {c : StreamClient Unit} {fuel : Nat} {inv : Invocation} {callback : Unit}
    {h : HandlerState} (hIdle : c.pending = [])
    (hReturns : StreamClientSocket.handler (stateless split) fuel inv c.split c.conn =
      some (callback, h))
    (hClean : inv.Clean c.conn.sendBuf.live.length)
    (hServes : e.Serves inv c.conn.sendBuf.live.length room)
    (hRoom : room = false → e.writable = true → h.accepted ≠ []) :
    effort (c.leave callback h)
        (c.endAfter e room (c.leave callback h) (.dispatch fuel inv)) < c.effort e := by
  obtain ⟨frames, input, rest, hOutcome, hCut, hKept, -, hRest⟩ :=
    streamHandler_cut hBounded hReturns
  have hQuiet := StreamClientSocket.verdict_of_soError_eq_zero hClean.soError
  have hInput := hKept (hClean.not_discards hQuiet)
  rw [if_neg (by simp [hClean.closes_eq_false hQuiet])] at hRest
  have hFrames := hCut.length_frames_le hBounded
  rw [hInput, List.length_append, ← hRest] at hFrames
  have hLess := Net.effort_handler_lt c.streamSlot.interest hServes hOutcome
    (hOutcome.clean hClean hQuiet) hClean hQuiet hFrames hRoom
  have hCount : c.traffic.readSince (c.traffic.exchange h.received h.accepted) =
      inv.readBytes.length := by
    rw [(Traffic.grows_exchange _ _ _).readSince_eq, hOutcome.received]
  simp only [endAfter, leave, Traffic.sentSince_exchange, hCount]
  rw [effort, effort, hIdle]
  show SocketEnd.effort c.streamSlot.interest _ + h.conn.effort +
    (c.ioQueue.map ClientTask.effort).sum + effortOf h.effects + startEffort c.started <
    _ + _ + _ + 0 + _
  omega

theorem effort_perform_lt {c : StreamClient Unit} {effect : Effect}
    {effects : List Effect} (hPending : c.pending = effect :: effects)
    (hSilent : noticesOf c.pending = [])
    (hUsed : roomEffort (e.writable && room) ≤ roomEffort e.writable) :
    effort ({ c with pending := effects }.perform effect) (e.exchange [] 0 room) +
      4 * (c.traffic.cutSince
        ({ c with pending := effects }.perform effect).traffic).length <
      c.effort e := by
  have hMoved := effort_exchange (e := e) c.streamSlot.interest [] 0 room
  rw [List.length_nil] at hMoved
  have hBefore : c.effort e = e.effort c.streamSlot.interest + c.conn.effort +
      (c.ioQueue.map ClientTask.effort).sum + (effect.effort + effortOf effects) +
      startEffort c.started := by
    rw [effort, hPending, effortOf_cons]
  rw [hPending] at hSilent
  rw [hBefore]
  cases effect with
  | updateEvent types modes =>
      show SocketEnd.effort c.streamSlot.interest (e.exchange [] 0 room) +
        c.conn.effort + ((c.ioQueue ++ [ClientTask.stream (.enableFd types modes)]).map
          ClientTask.effort).sum + effortOf effects + startEffort c.started +
        4 * (c.traffic.cutSince c.traffic).length <
        _ + _ + _ + (armEffort types + 1 + _) + _
      rw [Traffic.cutSince_self, List.length_nil, List.map_append, List.sum_append]
      show _ + _ + (_ + armEffort types) + _ + _ + _ < _
      omega
  | onFragment fragment =>
      show SocketEnd.effort c.streamSlot.interest (e.exchange [] 0 room) +
        c.conn.effort + (c.ioQueue.map ClientTask.effort).sum + effortOf effects +
        startEffort c.started +
        4 * (c.traffic.cutSince (c.traffic.deliver fragment)).length <
        _ + _ + _ + (5 + _) + _
      rw [Traffic.cutSince_deliver, List.length_singleton]
      omega
  | onError errno => cases hSilent
  | onDisconnect => cases hSilent

/-- An effect neither sends nor reads. -/
theorem still_perform (c : StreamClient Unit) (effects : List Effect)
    (effect : Effect) :
    c.traffic.sentSince ({ c with pending := effects }.perform effect).traffic = [] ∧
    c.traffic.readSince ({ c with pending := effects }.perform effect).traffic = 0 := by
  cases effect <;> exact ⟨List.drop_length, Nat.sub_self _⟩

/-- What a task leaves of the traffic: it hands over no fragment. -/
theorem cutSince_exec (c : StreamClient Unit) (tasks : List ClientTask)
    (faults : TaskFaults) (ret : SendRet) (task : ClientTask) :
    c.traffic.cutSince ({ c with ioQueue := tasks }.exec faults ret task).traffic =
      [] := by
  cases task with
  | stream task => exact Traffic.cutSince_self _
  | timer task => exact Traffic.cutSince_self _
  | resetTimer timeoutMs => exact Traffic.cutSince_self _
  | send data =>
      simp only [exec, execSend]
      split_ifs <;> exact List.drop_length

/-- Whatever a client does next of its own accord, less is left to do; a fragment that
is handed over is left to the heavy thread. -/
theorem effort_step_lt (hBounded : BoundedSplit (stateless split)) {base : List UInt8}
    {c next : StreamClient Unit} {action : ClientAction} (hInv : c.SendInv base)
    (hAttentive : c.Attentive e) (hTended : c.Tended e) (hFlow : c.SendsFlow action)
    (hServed : c.Served e room action) (hUnasked : action.unasked = true)
    (hRoom : c.KeepsRoom split e room action)
    (hStep : step (stateless split) c action = some next) :
    next.effort (c.endAfter e room next action) +
      4 * (c.traffic.cutSince next.traffic).length < c.effort e := by
  have hUsed := hRoom.used hStep
  cases stepped hStep with
  | call call => cases hUnasked
  | execTask hIdle hQueue =>
      rename_i faults ret task tasks
      obtain ⟨rfl, hFine⟩ := hFlow
      rw [cutSince_exec, List.length_nil, Nat.mul_zero, Nat.add_zero]
      have hStill (hSent : c.traffic.sentSince
          (exec {} ret { c with ioQueue := tasks } task).traffic = [])
          (hNoTask : c.sendsNext (.execTask {} ret) = false) :
          roomEffort (e.writable && room) ≤ roomEffort e.writable := by
        have hNone := hUsed hNoTask
        rwa [hSent] at hNone
      cases task with
      | stream task =>
          exact effort_execStream_lt hTended hAttentive hQueue
            (hStill (Traffic.sentSince_self _) (by rw [sendsNext, hQueue]))
      | timer task =>
          have hCalm : c.armsNext = false := by rw [armsNext, hQueue]
          simp only [endAfter, exec, hCalm, Bool.false_eq_true, if_false,
            Traffic.sentSince_self, Traffic.readSince_self]
          exact effort_pop_lt hQueue rfl rfl
            (hStill (Traffic.sentSince_self _) (by rw [sendsNext, hQueue]))
      | resetTimer timeoutMs =>
          have hCalm : c.armsNext = false := by rw [armsNext, hQueue]
          simp only [endAfter, exec, hCalm, Bool.false_eq_true, if_false,
            Traffic.sentSince_self, Traffic.readSince_self]
          exact effort_pop_lt hQueue rfl rfl
            (hStill (Traffic.sentSince_self _) (by rw [sendsNext, hQueue]))
      | send data => exact effort_execSend_lt hFine hQueue
  | socketCb hIdle hInstalled =>
      rename_i fuel inv attempt
      have hNoError : inv.soError = 0 := by
        simpa [SendsFlow, hInstalled] using hFlow
      have hTraffic := traffic_socketCb c attempt inv
      obtain ⟨events, hReported, -, hWrite⟩ := SocketEnd.Serves.events hServed
      have hNone := hUsed rfl
      have hMoved := effort_exchange (e := e) c.streamSlot.interest [] 0
        room
      have hDone := effort_dispatched c.streamSlot.interest
        (e := e.exchange [] 0 room) hReported
      rw [hTraffic, Traffic.sentSince_self, List.length_nil] at hNone
      rw [List.length_nil] at hMoved
      simp only [endAfter, hTraffic, Traffic.sentSince_self, Traffic.readSince_self,
        Traffic.cutSince_self, List.length_nil, Nat.mul_zero, Nat.add_zero]
      have hBefore : c.effort e = e.effort c.streamSlot.interest + c.conn.effort +
          (c.ioQueue.map ClientTask.effort).sum + effortOf c.pending +
          startEffort c.started := rfl
      simp only [socketCb, hNoError, ne_eq, not_true, if_false]
      rw [hBefore]
      split
      · rename_i hTold
        have hAfter := effort_succeed_le c attempt (e.exchange [] 0 room).dispatched
        rw [reportEffort, ← hWrite, if_pos hTold] at hDone
        omega
      · rename_i hTold
        rw [reportEffort, ← hWrite, if_neg hTold] at hDone
        rw [effort]
        omega
  | handler hIdle hInstalled hReturns =>
      rename_i fuel inv callback h
      have hClean : inv.Clean c.conn.sendBuf.live.length := by
        simpa [SendsFlow, hInstalled] using hFlow
      have hCut : c.traffic.cutSince (c.leave callback h).traffic = [] :=
        List.drop_length
      rw [hCut, List.length_nil, Nat.mul_zero, Nat.add_zero]
      refine effort_handler_lt hBounded hIdle hReturns hClean hServed ?_
      intro hFull hWritable
      rcases hRoom hFull hWritable with hTask | hSent
      · cases hTask
      · have hBytes := hSent _ hStep
        have hAccepted : c.traffic.sentSince (c.leave callback h).traffic =
            h.accepted := Traffic.sentSince_exchange _ _ _
        rwa [hAccepted] at hBytes
  | perform hPending =>
      rename_i effect effects
      obtain ⟨hSent, hRead⟩ := still_perform c effects effect
      have hNone := hUsed rfl
      rw [hSent] at hNone
      simp only [endAfter, hSent, hRead]
      exact effort_perform_lt hPending hInv.silent hNone
  | timerExpires hIdle hInstalled => cases hUnasked

end StreamClient

/-! ## The connection -/

namespace Connection

variable {split : List UInt8 → Int}

/-- The price of `establish`, which makes room for the client, and of `accept`. -/
def acceptEffort (established accepted : Bool) : Nat :=
  match established, accepted with
  | false, _ => 8
  | true, false => 1
  | true, true => 0

/-- What is left to do at both ends, in between and on the heavy threads. -/
def effort (s : Connection) : Nat :=
  s.client.effort s.clientEnd + s.session.effort s.sessionEnd + s.clientHeavy.cost +
    s.sessionHeavy.cost + acceptEffort s.established s.accepted

/-- A step nobody has to call for, with a kernel that keeps its room. -/
def Unasked (split : List UInt8 → Int) (s : Connection) : ConnectionAction → Prop
  | .client action room =>
      action.unasked = true ∧ s.client.KeepsRoom split s.clientEnd room action
  | .session action room =>
      action.unasked = true ∧ s.session.KeepsRoom split s.sessionEnd room action
  | _ => True

instance (s : Connection) (action : ConnectionAction) :
    Decidable (s.Unasked split action) :=
  match action with
  | .client _ _ | .session _ _ => inferInstanceAs (Decidable (_ ∧ _))
  | .establish | .accept | .carryToSession _ | .carryToClient _ | .clientRoom
  | .sessionRoom | .clientWait | .sessionWait | .clientHeavy _ | .sessionHeavy _ =>
      .isTrue trivial

theorem effort_step_lt (hBounded : BoundedSplit (stateless split))
    {s next : Connection} {action : ConnectionAction} (hOrderly : Orderly split s)
    (hUnasked : s.Unasked split action) (hStep : step split s action = some next) :
    next.effort < s.effort := by
  obtain ⟨hCoherent, hWatchful, hTended⟩ := hOrderly
  cases stepped hStep with
  | client hFlow hServed hClient =>
      have hLess := StreamClient.effort_step_lt hBounded hCoherent.client
        hWatchful.client hTended.client hFlow hServed hUnasked.1 hUnasked.2 hClient
      simp only [effort, clientStepped, DoubleBuffer.cost_pushAll]
      omega
  | session hAccepted hFlow hServed hSession =>
      have hLess := StreamSession.effort_step_lt hBounded hCoherent.session
        hWatchful.session hTended.session hFlow hServed hUnasked.1 hUnasked.2 hSession
      simp only [effort, sessionStepped, DoubleBuffer.cost_pushAll]
      omega
  | establish hNot hConnecting =>
      have hMade := effort_makeRoom (e := s.clientEnd)
        s.client.streamSlot.interest
      have hLater : acceptEffort true s.accepted ≤ 1 := by
        cases s.accepted with
        | true => exact Nat.zero_le 1
        | false => exact Nat.le_refl 1
      simp only [effort, StreamClient.effort, hNot]
      rw [acceptEffort]
      omega
  | accept hEstablished hNot =>
      simp only [effort, hEstablished, hNot]
      exact Nat.lt_succ_self _
  | carryToSession hSome hCount =>
      rename_i count
      have hLeft := effort_depart s.client.streamSlot.interest hCount
      have hArrived := effort_arrive (e := s.sessionEnd)
        s.session.slot.interest (s.clientEnd.wire.take count)
      rw [List.length_take_of_le hCount] at hArrived
      simp only [effort, StreamClient.effort, StreamSession.effort]
      omega
  | carryToClient hSome hCount =>
      rename_i count
      have hLeft := effort_depart s.session.slot.interest hCount
      have hArrived := effort_arrive (e := s.clientEnd)
        s.client.streamSlot.interest (s.sessionEnd.wire.take count)
      rw [List.length_take_of_le hCount] at hArrived
      simp only [effort, StreamClient.effort, StreamSession.effort]
      omega
  | clientRoom hEstablished hFull =>
      have hMade := effort_makeRoom (e := s.clientEnd)
        s.client.streamSlot.interest
      rw [hFull, roomEffort] at hMade
      simp only [effort, StreamClient.effort]
      omega
  | sessionRoom hFull =>
      have hMade := effort_makeRoom (e := s.sessionEnd)
        s.session.slot.interest
      rw [hFull, roomEffort] at hMade
      simp only [effort, StreamSession.effort]
      omega
  | clientWait hIdle hReady hNone =>
      have hLess := effort_report_lt s.client.streamSlot.interest hReady
        hNone
      simp only [effort, StreamClient.effort]
      omega
  | sessionWait hIdle hReady hNone =>
      have hLess := effort_report_lt s.session.slot.interest hReady hNone
      simp only [effort, StreamSession.effort]
      omega
  | clientHeavy hConsume =>
      have hLess := DoubleBuffer.cost_consume_lt hConsume
      simp only [effort]
      omega
  | sessionHeavy hConsume =>
      have hLess := DoubleBuffer.cost_consume_lt hConsume
      simp only [effort]
      omega

end Connection

end Net
end KZEvent
