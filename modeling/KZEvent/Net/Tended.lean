import KZEvent.Net.NoStall

/-!
# Descriptors that are looked after

What `epoll_wait` reports for a descriptor is dispatched to the callback the event
table holds for it, and is lost where there is none.  Here is why there always is one:
a descriptor is armed only after it has been registered and has got its callback, and
keeps both as long as nobody stops it.
-/

namespace KZEvent
namespace Net

open KZEvent.Core Foundation EventType SocketEnd

section Slots

variable {Cb : Type*} {slot : FdSlot Cb}

/-- The descriptor is registered and has a callback. -/
structure Manned (slot : FdSlot Cb) : Prop where
  registered : slot.event.inRegister = true
  installed : slot.event.cb ≠ none

/-- The descriptor is not armed, or there is somebody to dispatch its events to. -/
def Tended (slot : FdSlot Cb) : Prop :=
  slot.interest ≠ none → Manned slot

/-- The descriptor is looked after now, and after each of the tasks. -/
def TendedBy (slot : FdSlot Cb) : List (FdTask Cb) → Prop
  | [] => Tended slot
  | task :: tasks => Tended slot ∧ TendedBy (slot.exec {} task) tasks

theorem Manned.tended (hManned : Manned slot) : Tended slot := fun _ => hManned

theorem tended_unknown : Tended (FdSlot.unknown : FdSlot Cb) :=
  fun hArmed => absurd rfl hArmed

theorem TendedBy.first {tasks : List (FdTask Cb)} (hTended : TendedBy slot tasks) :
    Tended slot := by
  cases tasks with
  | nil => exact hTended
  | cons task tasks => exact hTended.1

theorem TendedBy.append {tasks later : List (FdTask Cb)}
    (hTended : TendedBy slot tasks) (hLater : TendedBy (slot.drain tasks) later) :
    TendedBy slot (tasks ++ later) := by
  induction tasks generalizing slot with
  | nil => exact hLater
  | cons task tasks ih => exact ⟨hTended.1, ih hTended.2 hLater⟩

/-- Only the end of a registration and `disable_fd` take the callback away. -/
theorem Manned.exec {task : FdTask Cb} (hManned : Manned slot)
    (hStays : task ≠ .disableFd) (hKept : task ≠ .unregisterFd) :
    Manned (slot.exec {} task) := by
  cases task with
  | registerFd => exact { registered := rfl, installed := hManned.installed }
  | unregisterFd => exact absurd rfl hKept
  | enableFdCb types modes cb =>
      rw [FdSlot.exec_enableFdCb_ok hManned.registered]
      exact { registered := rfl, installed := Option.some_ne_none cb }
  | enableFd types modes =>
      rw [FdSlot.exec_enableFd_ok hManned.registered]
      exact { registered := rfl, installed := hManned.installed }
  | disableFd => exact absurd rfl hStays

theorem Manned.drain {tasks : List (FdTask Cb)} (hManned : Manned slot)
    (hLasting : Lasting tasks) : Manned (slot.drain tasks) := by
  induction tasks generalizing slot with
  | nil => exact hManned
  | cons task tasks ih =>
      obtain ⟨hStays, hKept⟩ := hLasting task List.mem_cons_self
      rw [FdSlot.drain_cons]
      exact ih (hManned.exec hStays hKept) fun other hMem =>
        hLasting other (List.mem_cons_of_mem _ hMem)

/-- From then on the descriptor may be armed as often as one likes. -/
theorem Manned.tendedBy {tasks : List (FdTask Cb)} (hManned : Manned slot)
    (hLasting : Lasting tasks) : TendedBy slot tasks := by
  induction tasks generalizing slot with
  | nil => exact hManned.tended
  | cons task tasks ih =>
      obtain ⟨hStays, hKept⟩ := hLasting task List.mem_cons_self
      exact ⟨hManned.tended, ih (hManned.exec hStays hKept) fun other hMem =>
        hLasting other (List.mem_cons_of_mem _ hMem)⟩

/-- `enable_fd` with a callback does nothing to a descriptor that is not registered. -/
theorem Tended.enableFdCb (hTended : Tended slot) (types : EventType)
    (modes : EventMode) (cb : Cb) :
    Tended (slot.exec {} (.enableFdCb types modes cb)) := by
  by_cases hRegistered : slot.event.inRegister = true
  · rw [FdSlot.exec_enableFdCb_ok hRegistered]
    exact fun _ => { registered := rfl, installed := Option.some_ne_none cb }
  · have hSame : slot.exec {} (.enableFdCb types modes cb) = slot := if_neg hRegistered
    rw [hSame]
    exact hTended

/-- Requests for a change of the interest, behind a descriptor with a callback. -/
theorem TendedBy.requests {tasks : List (FdTask Cb)} (hTended : TendedBy slot tasks)
    (hManned : Manned (slot.drain tasks)) (requests : List ChannelInfo) :
    TendedBy slot (tasks ++ requests.map ChannelInfo.enableFd) :=
  hTended.append (hManned.tendedBy (lasting_requests requests))

/-- An installed callback outlasts a task that does not take it away. -/
theorem cb_exec_ne_none {task : FdTask Cb} (hCb : slot.event.cb ≠ none)
    (hStays : task ≠ .disableFd) (hKept : task ≠ .unregisterFd) :
    (slot.exec {} task).event.cb ≠ none := by
  by_cases hRegistered : slot.event.inRegister = true
  · exact (Manned.exec { registered := hRegistered, installed := hCb } hStays
      hKept).installed
  · cases task with
    | registerFd => exact hCb
    | unregisterFd => exact absurd rfl hKept
    | enableFdCb types modes cb =>
        have hSame : slot.exec {} (.enableFdCb types modes cb) = slot :=
          if_neg hRegistered
        rwa [hSame]
    | enableFd types modes =>
        have hSame : slot.exec {} (.enableFd types modes) = slot := if_neg hRegistered
        rwa [hSame]
    | disableFd => exact absurd rfl hStays

end Slots

/-! ## What was reported -/

theorem SocketEnd.reported_report {interest : Option EpollEvents} {e : SocketEnd}
    (hReported : (e.report interest).reported ≠ none) : interest ≠ none := by
  rintro rfl
  refine hReported (if_pos ?_)
  show e.readiness &&& 0 = 0
  exact BitVec.and_zero

/-- Room for sending is reported only where there is some. -/
theorem SocketEnd.waitsFor_reported {interest : Option EpollEvents} {e : SocketEnd}
    (hFull : e.writable = false) :
    waitsFor (e.report interest).reported EPOLLOUT = false := by
  have hReady : hasFlag e.readiness EPOLLOUT = false := by
    rw [hasFlag_readiness_EPOLLOUT]
    exact hFull
  have hPoll : hasFlag (e.poll interest) EPOLLOUT = false := by
    rw [EPOLLOUT] at hReady ⊢
    rw [poll, hasFlag_and _ _ (by decide), hReady]
    rfl
  simp only [report]
  split
  · rfl
  · exact hPoll

/-! ## Sessions -/

namespace StreamSession

variable {split : List UInt8 → Int} {e : SocketEnd} {room : Bool}

/-- The session's descriptor is looked after, and so is what was reported for it. -/
structure Tended (s : StreamSession Unit) (e : SocketEnd) : Prop where
  tasks : TendedBy s.slot (fdTasks s.ioQueue)
  manned : Manned s.settled
  reported : e.reported ≠ none → s.slot.event.cb ≠ none

theorem tended_accepted {e : SocketEnd} (hNone : e.reported = none) :
    Tended (accepted ()) e where
  tasks := ⟨tended_unknown, fun hArmed => absurd rfl hArmed, fun _ =>
    { registered := rfl, installed := Option.some_ne_none () }⟩
  manned := { registered := rfl, installed := Option.some_ne_none () }
  reported := fun hSome => absurd hNone hSome

/-- Requests behind those of the queue. -/
theorem Tended.request {s s' : StreamSession Unit} (hTended : s.Tended e)
    (requests : List ChannelInfo) (hSlot : s'.slot = s.slot)
    (hQueue : fdTasks s'.ioQueue =
      fdTasks s.ioQueue ++ requests.map ChannelInfo.enableFd) : s'.Tended e where
  tasks := by
    rw [hSlot, hQueue]
    exact hTended.tasks.requests hTended.manned requests
  manned := by
    rw [settled, hSlot, hQueue, FdSlot.drain_append]
    exact hTended.manned.drain (lasting_requests requests)
  reported := by
    rw [hSlot]
    exact hTended.reported

theorem Tended.end {s : StreamSession Unit} {e' : SocketEnd} (hTended : s.Tended e)
    (hReported : e'.reported = e.reported) : s.Tended e' :=
  { hTended with reported := hReported ▸ hTended.reported }

theorem Tended.execSend {s : StreamSession Unit} {data : List UInt8}
    {tasks : List SessionTask} (hTended : s.Tended e)
    (hQueue : s.ioQueue = .send data :: tasks) (ret : SendRet) :
    Tended ({ s with ioQueue := tasks }.execSend ret data) e := by
  have hTasks : fdTasks s.ioQueue = fdTasks tasks := by
    rw [hQueue, fdTasks_send_cons]
  unfold StreamSession.execSend
  split_ifs
  · refine hTended.request (s.conn.sendNow ret data).requests rfl ?_
    show fdTasks (tasks ++ _) = _
    rw [fdTasks_append, fdTasks_map_request, hTasks]
  · exact hTended.request [] rfl (by rw [hTasks]; exact (List.append_nil _).symm)
  · exact hTended.request [] rfl (by rw [hTasks]; exact (List.append_nil _).symm)

theorem Tended.execFd {s : StreamSession Unit} {task : FdTask Unit}
    {tasks : List SessionTask} (hTended : s.Tended e)
    (hLasting : Lasting (fdTasks s.ioQueue)) (hQueue : s.ioQueue = .fd task :: tasks)
    (ret : SendRet) : Tended ({ s with ioQueue := tasks }.exec {} ret (.fd task)) e := by
  have hTasks : fdTasks s.ioQueue = task :: fdTasks tasks := by
    rw [hQueue, fdTasks_fd_cons]
  rw [hTasks] at hLasting
  obtain ⟨hStays, hKept⟩ := hLasting task List.mem_cons_self
  have hAll := hTended.tasks
  rw [hTasks] at hAll
  exact
    { tasks := hAll.2
      manned := by
        rw [settled_exec_fd ret hQueue]
        exact hTended.manned
      reported := fun hSome => cb_exec_ne_none (hTended.reported hSome) hStays hKept }

theorem tended_step {base : List UInt8} {s next : StreamSession Unit}
    {action : SessionAction} (hInv : s.SendInv base) (hAttentive : s.Attentive e)
    (hTended : s.Tended e) (hFlow : s.SendsFlow action)
    (hStep : step (stateless split) s action = some next) :
    Tended next (s.endAfter e room next action) := by
  cases stepped hStep with
  | call call =>
      refine Tended.end (e := e) ?_ rfl
      cases call with
      | postSendTask data =>
          refine hTended.request [] rfl ?_
          show fdTasks (s.ioQueue ++ [SessionTask.send data]) = _
          rw [fdTasks_append]
          rfl
      | start => exact hFlow.elim
      | stop => exact hFlow.elim
  | execTask hIdle hQueue =>
      rename_i faults ret task tasks
      obtain ⟨rfl, -⟩ := hFlow
      have hReported : (s.endAfter e room
          ({ s with ioQueue := tasks }.exec {} ret task)
          (.execTask {} ret)).reported = e.reported := by
        simp only [endAfter]
        split <;> rfl
      refine Tended.end ?_ hReported
      cases task with
      | fd task => exact hTended.execFd hAttentive.lasting hQueue ret
      | send data => exact hTended.execSend hQueue ret
      | erase =>
          have hTasks : fdTasks s.ioQueue = fdTasks tasks := by
            rw [hQueue, fdTasks_erase_cons]
          rw [exec, if_pos hInv.serverAlive]
          exact hTended.request [] rfl (by rw [hTasks]; exact (List.append_nil _).symm)
  | dispatch hIdle hInstalled hReturns =>
      exact
        { tasks := hTended.tasks
          manned := hTended.manned
          reported := fun hSome => absurd rfl hSome }
  | perform hPending =>
      rename_i effect effects
      refine Tended.end (e := e) ?_ rfl
      have hSilent := hInv.silent
      rw [hPending] at hSilent
      cases effect with
      | updateEvent types modes =>
          refine hTended.request [⟨types, modes⟩] rfl ?_
          show fdTasks (s.ioQueue ++ [SessionTask.fd (.enableFd types modes)]) = _
          rw [fdTasks_append]
          rfl
      | onFragment fragment =>
          exact hTended.request [] rfl (List.append_nil _).symm
      | onError errno => cases hSilent
      | onDisconnect => cases hSilent
  | destroyServer hIdle => exact hFlow.elim

end StreamSession

/-! ## Clients -/

namespace StreamClient

variable {split : List UInt8 → Int} {e : SocketEnd} {room : Bool}

/-- The client's stream socket is looked after, and so is what was reported for it. -/
structure Tended (c : StreamClient Unit) (e : SocketEnd) : Prop where
  tasks : TendedBy c.streamSlot (streamTasks c.ioQueue)
  reported : e.reported ≠ none → c.streamSlot.event.cb ≠ none

theorem tended_make {e : SocketEnd} (hNone : e.reported = none) :
    Tended (make ()) e where
  tasks := ⟨tended_unknown, fun hArmed => absurd rfl hArmed⟩
  reported := fun hSome => absurd hNone hSome

/-- More tasks behind those of the queue. -/
theorem Tended.more {c c' : StreamClient Unit} (hTended : c.Tended e)
    {later : List (FdTask StreamCb)} (hSlot : c'.streamSlot = c.streamSlot)
    (hQueue : streamTasks c'.ioQueue = streamTasks c.ioQueue ++ later)
    (hLater : TendedBy c.settled later) : c'.Tended e where
  tasks := by
    rw [hSlot, hQueue]
    exact hTended.tasks.append hLater
  reported := by
    rw [hSlot]
    exact hTended.reported

theorem Tended.end {c : StreamClient Unit} {e' : SocketEnd} (hTended : c.Tended e)
    (hReported : e'.reported = e.reported) : c.Tended e' :=
  { hTended with reported := hReported ▸ hTended.reported }

/-- Tasks that do not concern the stream socket. -/
theorem Tended.others {c c' : StreamClient Unit} (hTended : c.Tended e)
    (hSlot : c'.streamSlot = c.streamSlot)
    (hQueue : streamTasks c'.ioQueue = streamTasks c.ioQueue) : c'.Tended e where
  tasks := by
    rw [hSlot, hQueue]
    exact hTended.tasks
  reported := by
    rw [hSlot]
    exact hTended.reported

/-- The entry the queued tasks lead to is looked after. -/
theorem Tended.settled {c : StreamClient Unit} (hTended : c.Tended e) :
    Net.Tended c.settled := by
  have hTasks := hTended.tasks
  rw [StreamClient.settled]
  generalize streamTasks c.ioQueue = tasks at hTasks
  generalize c.streamSlot = slot at hTasks
  induction tasks generalizing slot with
  | nil => exact hTasks
  | cons task tasks ih => exact ih _ hTasks.2

theorem Tended.install {c : StreamClient Unit} (hTended : c.Tended e)
    (types : EventType) (modes : EventMode) (cb : StreamCb) :
    TendedBy c.settled [.enableFdCb types modes cb] :=
  ⟨hTended.settled, hTended.settled.enableFdCb types modes cb⟩

/-- A connected client has its handler once the queue is drained. -/
theorem Attentive.manned {base : List UInt8} {c : StreamClient Unit}
    (hAttentive : c.Attentive e) (hInv : c.SendInv base)
    (hConnected : c.connected = .kConnected) : Manned c.settled where
  registered := hInv.registered
  installed := by
    rw [hAttentive.installed hConnected]
    exact Option.some_ne_none _

theorem Tended.execStream {c : StreamClient Unit} {task : FdTask StreamCb}
    {tasks : List ClientTask} (hTended : c.Tended e)
    (hLasting : Lasting (streamTasks c.ioQueue))
    (hQueue : c.ioQueue = .stream task :: tasks) (ret : SendRet) :
    Tended ({ c with ioQueue := tasks }.exec {} ret (.stream task)) e := by
  have hTasks : streamTasks c.ioQueue = task :: streamTasks tasks := by
    rw [hQueue, streamTasks_stream_cons]
  rw [hTasks] at hLasting
  obtain ⟨hStays, hKept⟩ := hLasting task List.mem_cons_self
  have hAll := hTended.tasks
  rw [hTasks] at hAll
  exact
    { tasks := hAll.2
      reported := fun hSome => cb_exec_ne_none (hTended.reported hSome) hStays hKept }

theorem Tended.execSend {base : List UInt8} {c : StreamClient Unit}
    {data : List UInt8} {tasks : List ClientTask} (hTended : c.Tended e)
    (hAttentive : c.Attentive e) (hInv : c.SendInv base)
    (hQueue : c.ioQueue = .send data :: tasks) (ret : SendRet) :
    Tended ({ c with ioQueue := tasks }.execSend ret data) e := by
  have hTasks : streamTasks c.ioQueue = streamTasks tasks := by
    rw [hQueue, streamTasks_send_cons]
  unfold StreamClient.execSend
  split_ifs with hQueues
  · exact hTended.others rfl hTasks.symm
  · rw [not_or, not_not, not_not] at hQueues
    have hManned := hAttentive.manned hInv hQueues.2
    have hRequests : TendedBy c.settled
        ((c.conn.sendNow ret data).requests.map ChannelInfo.enableFd) :=
      hManned.tendedBy (lasting_requests _)
    refine hTended.more rfl ?_ hRequests
    show streamTasks (tasks ++ _) = _
    rw [streamTasks_append, streamTasks_map_request, hTasks]

/-- The end of the attempt installs the handler, unless it was installed before. -/
theorem Tended.succeed {c : StreamClient Unit} (hTended : c.Tended e) (attempt : Nat) :
    Tended ((c.succeed attempt).post [.timer .disableFd]).start e := by
  have hTimer : streamTasks (c.ioQueue ++ [ClientTask.timer .disableFd]) =
      streamTasks c.ioQueue := by
    rw [streamTasks_append]
    exact List.append_nil _
  unfold StreamClient.start
  split_ifs with hStarted
  · exact hTended.others rfl hTimer
  · refine hTended.more rfl ?_ (hTended.install (startTypes c.conn.sendBuf.empty)
      EventMode.kDefault .handler)
    show streamTasks ((c.ioQueue ++ [ClientTask.timer .disableFd]) ++ _) = _
    rw [streamTasks_append, hTimer]
    rfl

theorem tended_step {base : List UInt8} {c next : StreamClient Unit}
    {action : ClientAction} (hInv : c.SendInv base) (hAttentive : c.Attentive e)
    (hTended : c.Tended e) (hFlow : c.SendsFlow action)
    (hStep : step (stateless split) c action = some next) :
    Tended next (c.endAfter e room next action) := by
  cases stepped hStep with
  | call call =>
      refine Tended.end (e := e) ?_ rfl
      cases call with
      | postSendTask data =>
          refine hTended.others rfl ?_
          show streamTasks (c.ioQueue ++ [ClientTask.send data]) = _
          rw [streamTasks_append]
          exact List.append_nil _
      | connect ret timeoutMs =>
          obtain rfl : ret = .error EINPROGRESS := hFlow
          have hConnects := c.connects (.error EINPROGRESS) timeoutMs
          simp only [StreamClient.call]
          generalize c.connect (.error EINPROGRESS) timeoutMs = next at hConnects
          cases hConnects with
          | ignored _ hBusy => exact hTended
          | fails hFree hErrno => exact absurd rfl hErrno
          | detects hFree =>
              refine hTended.more rfl ?_ (hTended.install kWrite EventMode.kDefault
                (.socketCb (c.attempts + 1)))
              exact streamTasks_append _ _
      | connectReturns => exact hFlow.elim
      | start => exact hFlow.elim
      | stop => exact hFlow.elim
  | execTask hIdle hQueue =>
      rename_i faults ret task tasks
      obtain ⟨rfl, -⟩ := hFlow
      have hReported : (c.endAfter e room
          ({ c with ioQueue := tasks }.exec {} ret task)
          (.execTask {} ret)).reported = e.reported := by
        simp only [endAfter]
        split <;> rfl
      refine Tended.end ?_ hReported
      cases task with
      | stream task => exact hTended.execStream hAttentive.lasting hQueue ret
      | timer task => exact hTended.others rfl (by rw [hQueue]; rfl)
      | resetTimer timeoutMs => exact hTended.others rfl (by rw [hQueue]; rfl)
      | send data => exact hTended.execSend hAttentive hInv hQueue ret
  | socketCb hIdle hInstalled =>
      rename_i fuel inv attempt
      have hNoError : inv.soError = 0 := by
        simpa [SendsFlow, hInstalled] using hFlow
      have hDone : Tended c (e.exchange (c.traffic.sentSince c.traffic)
          (c.traffic.readSince c.traffic) room).dispatched :=
        { hTended with reported := fun hSome => absurd rfl hSome }
      simp only [socketCb, hNoError, ne_eq, not_true, if_false, endAfter]
      split
      · exact (hDone.succeed attempt).end rfl
      · exact hDone
  | handler hIdle hInstalled hReturns =>
      exact { tasks := hTended.tasks, reported := fun hSome => absurd rfl hSome }
  | perform hPending =>
      rename_i effect effects
      refine Tended.end (e := e) ?_ rfl
      have hSilent := hInv.silent
      rw [hPending] at hSilent
      have hConnected : c.connected = .kConnected := by
        by_contra hNot
        rw [hAttentive.idle hNot] at hPending
        cases hPending
      cases effect with
      | updateEvent types modes =>
          refine hTended.more rfl ?_ ((hAttentive.manned hInv hConnected).tendedBy
            (lasting_requests [⟨types, modes⟩]))
          exact streamTasks_append _ _
      | onFragment fragment => exact hTended.others rfl rfl
      | onError errno => cases hSilent
      | onDisconnect => cases hSilent
  | timerExpires hIdle hInstalled =>
      rename_i attempt
      have hConnected : c.connected = .kConnected := hFlow
      refine Tended.end (e := e) ?_ rfl
      rw [timerCb, if_pos hConnected]
      refine hTended.others rfl ?_
      show streamTasks (c.ioQueue ++ [ClientTask.timer .disableFd]) = _
      rw [streamTasks_append]
      exact List.append_nil _

/-- Only room that was reported ends the attempt with a connection. -/
theorem connected_ne_kConnected_step {c next : StreamClient Unit}
    {action : ClientAction} (hFlow : c.SendsFlow action)
    (hServed : c.Served e room action)
    (hStep : step (stateless split) c action = some next)
    (hTold : waitsFor e.reported EPOLLOUT = false)
    (hNot : c.connected ≠ .kConnected) : next.connected ≠ .kConnected := by
  cases stepped hStep with
  | call call =>
      cases call with
      | postSendTask data => exact hNot
      | connect ret timeoutMs =>
          obtain rfl : ret = .error EINPROGRESS := hFlow
          have hConnects := c.connects (.error EINPROGRESS) timeoutMs
          simp only [StreamClient.call]
          generalize c.connect (.error EINPROGRESS) timeoutMs = next at hConnects
          cases hConnects with
          | ignored _ hBusy => exact hNot
          | fails hFree hErrno => exact absurd rfl hErrno
          | detects hFree => exact fun hEq => by cases hEq
      | connectReturns => exact hFlow.elim
      | start => exact hFlow.elim
      | stop => exact hFlow.elim
  | execTask hIdle hQueue =>
      rw [connected_exec]
      exact hNot
  | socketCb hIdle hInstalled =>
      obtain ⟨events, hReported, -, hWrite⟩ := SocketEnd.Serves.events hServed
      rw [hReported] at hTold
      rw [socketCb, if_neg (by rw [hWrite]; exact Bool.not_eq_true _ ▸ hTold)]
      exact hNot
  | handler hIdle hInstalled hReturns => exact hNot
  | perform hPending =>
      rename_i effect effects
      cases effect <;> exact hNot
  | timerExpires hIdle hInstalled => exact absurd hFlow hNot

end StreamClient

/-! ## Both ends -/

namespace Connection

variable {split : List UInt8 → Int}

/-- Both descriptors are looked after, and nobody takes the connection for established
before it is. -/
structure Tended (s : Connection) : Prop where
  client : s.client.Tended s.clientEnd
  session : s.session.Tended s.sessionEnd
  full : s.established = false → s.clientEnd.writable = false
  untold : s.established = false → waitsFor s.clientEnd.reported EPOLLOUT = false
  unconnected : s.established = false → s.client.connected ≠ .kConnected

theorem tended_start : Tended start where
  client := StreamClient.tended_make rfl
  session := StreamSession.tended_accepted rfl
  full := fun _ => rfl
  untold := fun _ => rfl
  unconnected := fun _ hEq => by cases hEq

/-- What a client's step leaves of its end: room is not made, and nothing is
reported. -/
theorem clientEndAfter_le (c next : StreamClient Unit) (e : SocketEnd) (room : Bool)
    (action : ClientAction) :
    (e.writable = false → (c.endAfter e room next action).writable = false) ∧
    (waitsFor e.reported EPOLLOUT = false →
      waitsFor (c.endAfter e room next action).reported EPOLLOUT = false) := by
  have hRoom (hFull : e.writable = false) : (e.writable && room) = false := by
    rw [hFull, Bool.false_and]
  cases action with
  | call call => exact ⟨hRoom, id⟩
  | execTask faults ret =>
      simp only [StreamClient.endAfter]
      split <;> exact ⟨hRoom, id⟩
  | dispatch fuel inv => exact ⟨hRoom, fun _ => rfl⟩
  | perform => exact ⟨hRoom, id⟩
  | timerExpires => exact ⟨hRoom, id⟩

theorem tended_step (s : Connection) (action : ConnectionAction) (next : Connection)
    (hCoherent : Coherent split s) (hWatchful : Watchful s) (hTended : Tended s)
    (hStep : step split s action = some next) : Tended next := by
  cases stepped hStep with
  | client hFlow hServed hClient =>
      rename_i action room next
      have hEnd := clientEndAfter_le s.client next s.clientEnd room action
      exact
        { client := StreamClient.tended_step hCoherent.client hWatchful.client
            hTended.client hFlow hClient
          session := hTended.session
          full := fun hNot => hEnd.1 (hTended.full hNot)
          untold := fun hNot => hEnd.2 (hTended.untold hNot)
          unconnected := fun hNot => StreamClient.connected_ne_kConnected_step hFlow
            hServed hClient (hTended.untold hNot) (hTended.unconnected hNot) }
  | session hAccepted hFlow hServed hSession =>
      exact
        { hTended with
          session := StreamSession.tended_step hCoherent.session hWatchful.session
            hTended.session hFlow hSession }
  | establish hNot hConnecting =>
      exact
        { client := hTended.client.end rfl
          session := hTended.session
          full := fun hEq => by cases hEq
          untold := fun hEq => by cases hEq
          unconnected := fun hEq => by cases hEq }
  | accept hEstablished hNot => exact { hTended with }
  | carryToSession hSome hCount =>
      exact
        { hTended with
          client := hTended.client.end rfl
          session := hTended.session.end rfl }
  | carryToClient hSome hCount =>
      exact
        { hTended with
          client := hTended.client.end rfl
          session := hTended.session.end rfl }
  | clientRoom hEstablished hFull =>
      have hNever (hNot : s.established = false) : False := by
        rw [hNot] at hEstablished
        cases hEstablished
      exact
        { client := hTended.client.end rfl
          session := hTended.session
          full := fun hNot => (hNever hNot).elim
          untold := fun hNot => (hNever hNot).elim
          unconnected := fun hNot => (hNever hNot).elim }
  | sessionRoom hFull =>
      exact { hTended with session := hTended.session.end rfl }
  | clientWait hIdle hReady hNone =>
      exact
        { hTended with
          client :=
            { hTended.client with
              reported := fun hSome => (hTended.client.tasks.first
                (SocketEnd.reported_report hSome)).installed }
          full := hTended.full
          untold := fun hNot => SocketEnd.waitsFor_reported (hTended.full hNot) }
  | sessionWait hIdle hReady hNone =>
      exact
        { hTended with
          session :=
            { hTended.session with
              reported := fun hSome => (hTended.session.tasks.first
                (SocketEnd.reported_report hSome)).installed } }
  | clientHeavy hConsume => exact { hTended with }
  | sessionHeavy hConsume => exact { hTended with }

/-- All that holds of a connection between two steps. -/
structure Orderly (split : List UInt8 → Int) (s : Connection) : Prop where
  coherent : Coherent split s
  watchful : Watchful s
  tended : Tended s

theorem orderly_start (hBounded : BoundedSplit (stateless split)) :
    Orderly split start where
  coherent := coherent_start hBounded
  watchful := watchful_start
  tended := tended_start

theorem orderly_step (hBounded : BoundedSplit (stateless split))
    (hStable : PrefixStable split) (s : Connection) (action : ConnectionAction)
    (next : Connection) (hOrderly : Orderly split s)
    (hStep : step split s action = some next) : Orderly split next where
  coherent := coherent_step hBounded hStable s action next hOrderly.coherent hStep
  watchful := watchful_step s action next ⟨hOrderly.coherent, hOrderly.watchful⟩ hStep
  tended := tended_step s action next hOrderly.coherent hOrderly.watchful
    hOrderly.tended hStep

theorem orderly_of_run (hBounded : BoundedSplit (stateless split))
    (hStable : PrefixStable split) {actions : List ConnectionAction}
    {s : Connection} (hRun : run (step split) start actions = some s) :
    Orderly split s :=
  run_keeps (orderly_step hBounded hStable) (orderly_start hBounded) hRun

end Connection
end Net
end KZEvent
