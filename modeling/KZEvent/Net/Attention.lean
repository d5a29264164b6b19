import KZEvent.Net.InOrder

/-!
# Endpoints that miss nothing

The epoll set is edge triggered, so a descriptor that is not put on the ready list at
the right moment is never dispatched again, and its connection stalls with bytes in
the inbox or in the send buffer.  Here is why that does not happen: between two
invocations an endpoint is `Attentive`, which is to say that input it waits for, and
room it needs, have been noticed or will be by a task that arms the descriptor anew.

A session waits for input from the start.  A client waits for the end of its attempt
first, and the step that ends it is the one that installs the handler.
-/

namespace KZEvent
namespace Net

open KZEvent.Core Foundation EventType SocketEnd

/-! ## What both endpoints share -/

section Shared

variable {e : SocketEnd} {inv : Invocation} {room : Bool}
  {interest : Option EpollEvents} {conn : StreamConn} {h : HandlerState}

theorem SocketEnd.Serves.events {pending : Nat} (hServes : e.Serves inv pending room) :
    ∃ events, e.reported = some events ∧
      hasFlag inv.types kRead = hasFlag events EPOLLIN ∧
      hasFlag inv.types kWrite = hasFlag events EPOLLOUT := by
  obtain ⟨events, hReported, hTypes⟩ := Option.map_eq_some_iff.mp hServes.mask
  refine ⟨events, hReported, ?_, ?_⟩
  · rw [← hTypes, hasFlag_localToKz_kRead]
  · rw [← hTypes, hasFlag_localToKz_kWrite]

/-- A clean invocation reads all input it was told of, and sends until nothing is
left to send or there is no room. -/
theorem SocketEnd.Alert.handler {verdict : Invocation → SocketVerdict}
    {frames : List (List UInt8)} {arming arming' : Prop} {sent : List UInt8}
    {count : Nat} (hAlert : Alert interest (conn.sendBuf.live ≠ []) arming e)
    (hServes : e.Serves inv conn.sendBuf.live.length room)
    (hOutcome : HandlerOutcome verdict inv conn frames h)
    (hSpec : CleanSpec conn h) (hClean : inv.Clean conn.sendBuf.live.length)
    (hCount : count = inv.readBytes.length) (hArming : arming → arming') :
    Alert interest (h.conn.sendBuf.live ≠ []) arming'
      (e.exchange sent count room).dispatched := by
  obtain ⟨events, hReported, hRead, hWrite⟩ := hServes.events
  refine hAlert.dispatched hReported ?_ ?_ ?_ hArming
  · intro hTold
    rw [hTold] at hRead
    left
    rw [hCount, Invocation.readBytes, if_pos hRead, hServes.reads hRead,
      List.drop_length]
  · intro hTold hLeft
    rw [hTold] at hWrite
    left
    rcases hClean.sendEnd with hDone | hAgain
    · exact absurd (hOutcome.drained hDone) hLeft
    · rw [Invocation.sendEnd, if_pos hWrite] at hAgain
      exact hServes.room hWrite hAgain
  · intro _ hLeft
    left
    -- what is left was there before
    intro hNil
    have hNothing := hSpec.conserved
    rw [hNil] at hNothing
    exact hLeft (List.append_eq_nil_iff.mp hNothing).2

/-- A direct send either takes all or asks for the write event. -/
theorem sendNow_done {ret : SendRet} {data : List UInt8} (hFine : ret.Fine)
    (hEmpty : conn.sendBuf.live = []) (hSilent : (conn.sendNow ret data).requests = []) :
    (conn.sendNow ret data).conn.sendBuf.live = [] := by
  rcases hFine with hSuccess | hAgain
  · by_cases hAll : ret.count = data.length
    · simp only [StreamConn.sendNow, hSuccess, hAll, if_true, hEmpty]
    · simp [StreamConn.sendNow, hSuccess, hAll, StreamConn.enqueueAndWait] at hSilent
  · simp [StreamConn.sendNow, hAgain, StreamConn.enqueueAndWait] at hSilent

end Shared

section Tasks

variable {Cb : Type*} {slot : FdSlot Cb}

/-- No task takes the descriptor out of the epoll set. -/
def Lasting (tasks : List (FdTask Cb)) : Prop :=
  ∀ task ∈ tasks, task ≠ .disableFd ∧ task ≠ .unregisterFd

/-- Some task arms the descriptor. -/
def ArmedBy (tasks : List (FdTask Cb)) : Prop :=
  ∃ task ∈ tasks, task.arms = true

theorem Lasting.append {tasks later : List (FdTask Cb)} (hTasks : Lasting tasks)
    (hLater : Lasting later) : Lasting (tasks ++ later) := by
  intro task hMem
  rcases List.mem_append.mp hMem with hMem | hMem
  · exact hTasks task hMem
  · exact hLater task hMem

/-- A task that arms the descriptor leaves it in the set. -/
theorem lasts_of_arms {task : FdTask Cb} (hArms : task.arms = true) :
    task ≠ .disableFd ∧ task ≠ .unregisterFd := by
  constructor
  · rintro rfl
    cases hArms
  · rintro rfl
    cases hArms

theorem lasting_requests (requests : List ChannelInfo) :
    Lasting (requests.map ChannelInfo.enableFd : List (FdTask Cb)) := by
  intro task hMem
  obtain ⟨channel, -, rfl⟩ := List.mem_map.mp hMem
  exact lasts_of_arms rfl

theorem Lasting.eq_registerFd {tasks : List (FdTask Cb)} {task : FdTask Cb}
    (hLasting : Lasting tasks) (hMem : task ∈ tasks) (hCalm : ¬ task.arms = true) :
    task = .registerFd := by
  obtain ⟨hStays, hKept⟩ := hLasting task hMem
  cases task with
  | registerFd => rfl
  | unregisterFd => exact absurd rfl hKept
  | enableFdCb types modes cb => exact absurd rfl hCalm
  | enableFd types modes => exact absurd rfl hCalm
  | disableFd => exact absurd rfl hStays

/-- Tasks that do not arm the descriptor leave interest and callback alone. -/
theorem Lasting.drain_calm {tasks : List (FdTask Cb)} (hLasting : Lasting tasks)
    (hCalm : ¬ ArmedBy tasks) (slot : FdSlot Cb) :
    (slot.drain tasks).interest = slot.interest ∧
      (slot.drain tasks).event.cb = slot.event.cb := by
  induction tasks generalizing slot with
  | nil => exact ⟨rfl, rfl⟩
  | cons task tasks ih =>
      have hFirst : ¬ task.arms = true := fun hArms =>
        hCalm ⟨task, List.mem_cons_self, hArms⟩
      have hRest : ¬ ArmedBy tasks := fun ⟨other, hMem, hArms⟩ =>
        hCalm ⟨other, List.mem_cons_of_mem _ hMem, hArms⟩
      have hLater : Lasting tasks := fun other hMem =>
        hLasting other (List.mem_cons_of_mem _ hMem)
      obtain rfl := hLasting.eq_registerFd List.mem_cons_self hFirst
      obtain ⟨hInterest, hCb⟩ := ih hLater hRest (slot.exec {} .registerFd)
      exact ⟨hInterest, hCb⟩

theorem armedBy_append_left {tasks later : List (FdTask Cb)}
    (hArmed : ArmedBy tasks) : ArmedBy (tasks ++ later) := by
  obtain ⟨task, hMem, hArms⟩ := hArmed
  exact ⟨task, List.mem_append_left _ hMem, hArms⟩

theorem armedBy_append_requests {tasks : List (FdTask Cb)}
    {requests : List ChannelInfo} (hSome : requests ≠ []) :
    ArmedBy (tasks ++ requests.map ChannelInfo.enableFd) := by
  obtain ⟨channel, rest, rfl⟩ := List.exists_cons_of_ne_nil hSome
  exact ⟨channel.enableFd, by simp, rfl⟩

theorem armedBy_of_cons {task : FdTask Cb} {tasks : List (FdTask Cb)}
    (hCalm : ¬ task.arms = true) (hArmed : ArmedBy (task :: tasks)) :
    ArmedBy tasks := by
  obtain ⟨other, hMem, hArms⟩ := hArmed
  rcases List.mem_cons.mp hMem with rfl | hMem
  · exact absurd hArms hCalm
  · exact ⟨other, hMem, hArms⟩

end Tasks

/-! ## Sessions -/

namespace StreamSession

variable {split : List UInt8 → Int} {e : SocketEnd} {room : Bool}

/-- A task that arms the descriptor is queued or about to be posted. -/
def Arming (s : StreamSession Unit) : Prop :=
  ArmedBy (fdTasks s.ioQueue) ∨ requestsOf s.pending ≠ []

structure Attentive (s : StreamSession Unit) (e : SocketEnd) : Prop where
  lasting : Lasting (fdTasks s.ioQueue)
  alert : Alert s.slot.interest (s.conn.sendBuf.live ≠ []) s.Arming e

theorem attentive_accepted (e : SocketEnd) : Attentive (accepted ()) e where
  lasting := by
    intro task hMem
    simp only [accepted, start, post, List.singleton_append, fdTasks_fd_cons,
      List.mem_cons] at hMem
    rcases hMem with rfl | rfl | hMem
    · simp
    · exact lasts_of_arms rfl
    · cases hMem
  alert := alert_of_none

theorem Attentive.exchange {s : StreamSession Unit} (hAttentive : s.Attentive e)
    (sent : List UInt8) (count : Nat) (room : Bool) :
    Attentive s (e.exchange sent count room) :=
  { hAttentive with alert := hAttentive.alert.exchange sent count room }

theorem Attentive.execSend {s : StreamSession Unit} {ret : SendRet}
    {data : List UInt8} {tasks : List SessionTask} (hAttentive : s.Attentive e)
    (hAlive : s.serverAlive = true) (hFine : ret.Fine)
    (hQueue : s.ioQueue = .send data :: tasks) (sent : List UInt8) (count : Nat) :
    Attentive ({ s with ioQueue := tasks }.execSend ret data)
      (e.exchange sent count room) := by
  have hTasks : fdTasks s.ioQueue = fdTasks tasks := by
    rw [hQueue, fdTasks_send_cons]
  have hLasting : Lasting (fdTasks tasks) := hTasks ▸ hAttentive.lasting
  have hArming : s.Arming → ArmedBy (fdTasks tasks) ∨ requestsOf s.pending ≠ [] := by
    rw [Arming, hTasks]
    exact id
  have hAlert := hAttentive.alert.exchange sent count room
  rw [StreamSession.execSend, if_pos hAlive]
  by_cases hEmpty : s.conn.sendBuf.empty = true
  · have hNil := (LiveBuffer.empty_iff s.conn.sendBuf).mp hEmpty
    rw [if_pos hEmpty]
    refine { lasting := ?_, alert := ?_ }
    · show Lasting (fdTasks (tasks ++ _))
      rw [fdTasks_append, fdTasks_map_request]
      exact hLasting.append (lasting_requests _)
    · by_cases hSilent : (s.conn.sendNow ret data).requests = []
      · refine hAlert.imp (fun hLeft => ?_) fun hArmed => ?_
        · exact absurd (sendNow_done hFine hNil hSilent) hLeft
        · refine (hArming hArmed).imp_left fun hTask => ?_
          show ArmedBy (fdTasks (tasks ++ _))
          rw [fdTasks_append]
          exact armedBy_append_left hTask
      · refine alert_of_arming (.inl ?_)
        show ArmedBy (fdTasks (tasks ++ _))
        rw [fdTasks_append, fdTasks_map_request]
        exact armedBy_append_requests hSilent
  · rw [if_neg hEmpty]
    refine { lasting := hLasting, alert := hAlert.imp (fun _ => .inl ?_) hArming }
    -- the buffer was not empty before
    exact fun hNil => hEmpty ((LiveBuffer.empty_iff s.conn.sendBuf).mpr hNil)

theorem Attentive.execFd {s : StreamSession Unit} {task : FdTask Unit}
    {tasks : List SessionTask} {ret : SendRet} (hAttentive : s.Attentive e)
    (hQueue : s.ioQueue = .fd task :: tasks) :
    Attentive ({ s with ioQueue := tasks }.exec {} ret (.fd task))
      (if s.armsNext then e.rearm (s.slot.exec {} task).interest else e) := by
  have hTasks : fdTasks s.ioQueue = task :: fdTasks tasks := by
    rw [hQueue, fdTasks_fd_cons]
  have hAll := hAttentive.lasting
  rw [hTasks] at hAll
  have hLasting : Lasting (fdTasks tasks) := fun other hMem =>
    hAll other (List.mem_cons_of_mem _ hMem)
  have hArms : s.armsNext = task.arms := by rw [armsNext, hQueue]
  rw [hArms]
  by_cases hTask : task.arms = true
  · rw [if_pos hTask]
    exact { lasting := hLasting, alert := alert_rearm _ _ _ _ }
  · rw [if_neg hTask]
    obtain rfl := hAll.eq_registerFd List.mem_cons_self hTask
    refine { lasting := hLasting, alert := hAttentive.alert.imp .inl fun hArmed => ?_ }
    rw [Arming, hTasks] at hArmed
    exact hArmed.imp_left (armedBy_of_cons hTask)

theorem Attentive.perform {s : StreamSession Unit} {effect : Effect}
    {effects : List Effect} (hAttentive : s.Attentive e)
    (hSilent : noticesOf s.pending = []) (hPending : s.pending = effect :: effects) :
    Attentive ({ s with pending := effects }.perform effect) e := by
  cases effect with
  | updateEvent types modes =>
      refine { lasting := ?_, alert := alert_of_arming (.inl ?_) }
      · show Lasting (fdTasks (s.ioQueue ++ [SessionTask.fd (.enableFd types modes)]))
        rw [fdTasks_append]
        exact hAttentive.lasting.append (lasting_requests [⟨types, modes⟩])
      · show ArmedBy (fdTasks (s.ioQueue ++ [SessionTask.fd (.enableFd types modes)]))
        rw [fdTasks_append]
        exact ⟨.enableFd types modes, by simp, rfl⟩
  | onFragment fragment =>
      refine { lasting := hAttentive.lasting
               alert := hAttentive.alert.imp .inl fun hArmed => ?_ }
      rw [Arming, hPending] at hArmed
      exact hArmed
  | onError errno =>
      rw [hPending] at hSilent
      cases hSilent
  | onDisconnect =>
      rw [hPending] at hSilent
      cases hSilent

theorem attentive_step {base : List UInt8} {s next : StreamSession Unit}
    {action : SessionAction}
    (hInv : s.SendInv base) (hAttentive : s.Attentive e)
    (hFlow : s.SendsFlow action) (hServed : s.Served e room action)
    (hStep : step (stateless split) s action = some next) :
    Attentive next (s.endAfter e room next action) := by
  have hGrows := grows_step hStep
  cases stepped hStep with
  | call call =>
      cases call with
      | postSendTask data =>
          have hTasks : fdTasks (s.ioQueue ++ [SessionTask.send data]) =
              fdTasks s.ioQueue := by
            rw [fdTasks_append]
            exact List.append_nil _
          refine { lasting := ?_, alert := ?_ }
          · show Lasting (fdTasks (s.ioQueue ++ [SessionTask.send data]))
            rw [hTasks]
            exact hAttentive.lasting
          · refine (hAttentive.alert.exchange _ _ _).imp .inl fun hArmed => ?_
            show ArmedBy (fdTasks (s.ioQueue ++ [SessionTask.send data])) ∨ _
            rw [hTasks]
            exact hArmed
      | start => exact hFlow.elim
      | stop => exact hFlow.elim
  | execTask hIdle hQueue =>
      rename_i faults ret task tasks
      obtain ⟨rfl, hFine⟩ := hFlow
      simp only [endAfter]
      cases task with
      | fd task =>
          exact (hAttentive.exchange _ _ room).execFd hQueue
      | send data =>
          have hCalm : s.armsNext = false := by rw [armsNext, hQueue]
          rw [if_neg (by simp [hCalm])]
          exact hAttentive.execSend hInv.serverAlive hFine hQueue _ _
      | erase =>
          have hCalm : s.armsNext = false := by rw [armsNext, hQueue]
          have hTasks : fdTasks s.ioQueue = fdTasks tasks := by
            rw [hQueue, fdTasks_erase_cons]
          rw [if_neg (by simp [hCalm]), exec, if_pos hInv.serverAlive]
          refine { lasting := ?_, alert := ?_ }
          · show Lasting (fdTasks tasks)
            exact hTasks ▸ hAttentive.lasting
          · refine (hAttentive.alert.exchange _ _ _).imp .inl fun hArmed => ?_
            rw [Arming, hTasks] at hArmed
            exact hArmed
  | dispatch hIdle hInstalled hReturns =>
      rename_i fuel inv callback h
      have hClean : inv.Clean s.conn.sendBuf.live.length := hFlow
      rw [handler, if_pos hInv.serverAlive] at hReturns
      obtain ⟨frames, hOutcome⟩ := streamHandler_outcome hReturns
      have hSpec := hOutcome.clean hClean
        (verdict_of_soError_eq_zero hClean.soError)
      have hCount := hGrows.readSince_eq
      rw [readBy, if_pos hInv.serverAlive] at hCount
      refine { lasting := hAttentive.lasting, alert := ?_ }
      refine hAttentive.alert.handler hServed hOutcome hSpec hClean hCount
        fun hArmed => ?_
      rcases hArmed with hTask | hRequest
      · exact .inl hTask
      · rw [hIdle] at hRequest
        exact absurd rfl hRequest
  | perform hPending =>
      exact (hAttentive.exchange _ _ room).perform hInv.silent hPending
  | destroyServer hIdle => exact hFlow.elim

end StreamSession

/-! ## Clients -/

namespace StreamClient

variable {split : List UInt8 → Int} {e : SocketEnd} {room : Bool}

/-- A task that arms the descriptor is queued or about to be posted. -/
def Arming (c : StreamClient Unit) : Prop :=
  ArmedBy (streamTasks c.ioQueue) ∨ requestsOf c.pending ≠ []

/-- A task that installs the handler or asks for input. -/
def Reads : FdTask StreamCb → Prop
  | .enableFdCb types _ cb => hasFlag types kRead = true ∨ cb = .handler
  | .enableFd types _ => hasFlag types kRead = true
  | .registerFd | .unregisterFd | .disableFd => False

/-- Input is asked for by the handler, which comes with the connection; the detection
before it asks for room. -/
structure Attentive (c : StreamClient Unit) (e : SocketEnd) : Prop where
  lasting : Lasting (streamTasks c.ioQueue)
  reading : ∀ task ∈ streamTasks c.ioQueue, Reads task → c.connected = .kConnected
  handling : c.streamSlot.event.cb = some .handler ∨
    waitsFor c.streamSlot.interest EPOLLIN = true → c.connected = .kConnected
  installed : c.connected = .kConnected → c.settled.event.cb = some .handler
  detecting : c.connected = .kConnecting →
    waitsFor c.settled.interest EPOLLOUT = true
  idle : c.connected ≠ .kConnected → c.pending = []
  alert : Alert c.streamSlot.interest
    (c.conn.sendBuf.live ≠ [] ∨ c.connected ≠ .kConnected) c.Arming e

theorem attentive_make (e : SocketEnd) : Attentive (make ()) e where
  lasting := by
    intro task hMem
    simp only [make, streamTasks_stream_cons, streamTasks_timer_cons,
      streamTasks_nil, List.mem_singleton] at hMem
    simp [hMem]
  reading := by
    intro task hMem hReads
    simp only [make, streamTasks_stream_cons, streamTasks_timer_cons,
      streamTasks_nil, List.mem_singleton] at hMem
    rw [hMem] at hReads
    exact hReads.elim
  handling := by
    rintro (hCb | hWaits)
    · cases hCb
    · cases hWaits
  installed := fun hConnected => by cases hConnected
  detecting := fun hConnecting => by cases hConnecting
  idle := fun _ => rfl
  alert := alert_of_none

theorem Attentive.exchange {c : StreamClient Unit} (hAttentive : c.Attentive e)
    (sent : List UInt8) (count : Nat) (room : Bool) :
    Attentive c (e.exchange sent count room) :=
  { hAttentive with alert := hAttentive.alert.exchange sent count room }

/-- Tasks that do not concern the stream socket. -/
theorem Attentive.post {c : StreamClient Unit} {tasks : List ClientTask}
    (hAttentive : c.Attentive e) (hTasks : streamTasks tasks = []) :
    Attentive (c.post tasks) e := by
  have hSame : streamTasks (c.post tasks).ioQueue = streamTasks c.ioQueue := by
    show streamTasks (c.ioQueue ++ tasks) = _
    rw [streamTasks_append, hTasks, List.append_nil]
  have hSettled : (c.post tasks).settled = c.settled := by
    rw [settled_post, hTasks, FdSlot.drain_nil]
  refine
    { lasting := ?_, reading := ?_, handling := hAttentive.handling
      installed := ?_, detecting := ?_, idle := hAttentive.idle, alert := ?_ }
  · rw [hSame]
    exact hAttentive.lasting
  · rw [hSame]
    exact hAttentive.reading
  · rw [hSettled]
    exact hAttentive.installed
  · rw [hSettled]
    exact hAttentive.detecting
  · refine hAttentive.alert.imp .inl fun hArmed => ?_
    rw [Arming, hSame]
    exact hArmed

/-- A task that does not concern the stream socket is executed. -/
theorem Attentive.pop {c : StreamClient Unit} {task : ClientTask}
    {tasks : List ClientTask} (hAttentive : c.Attentive e)
    (hQueue : c.ioQueue = task :: tasks)
    (hOther : streamTasks (task :: tasks) = streamTasks tasks) :
    Attentive { c with ioQueue := tasks } e := by
  have hSame : streamTasks c.ioQueue = streamTasks tasks := by rw [hQueue, hOther]
  have hSettled := settled_pop hQueue hOther
  refine
    { lasting := hSame ▸ hAttentive.lasting, reading := hSame ▸ hAttentive.reading
      handling := hAttentive.handling, installed := ?_, detecting := ?_
      idle := hAttentive.idle, alert := ?_ }
  · rw [hSettled]
    exact hAttentive.installed
  · rw [hSettled]
    exact hAttentive.detecting
  · refine hAttentive.alert.imp .inl fun hArmed => ?_
    rw [Arming, hSame] at hArmed
    exact hArmed

/-- `connect` installs the detection. -/
theorem Attentive.detect {base : List UInt8} {c : StreamClient Unit}
    (hAttentive : c.Attentive e) (hInv : c.SendInv base) (ret : ConnectRet)
    (timeoutMs : Nat) (hFree : c.connected = .kDisconnected) :
    Attentive ((c.claim ret).detect timeoutMs) e := by
  let install : FdTask StreamCb :=
    .enableFdCb kWrite EventMode.kDefault (.socketCb (c.attempts + 1))
  have hNot : c.connected ≠ .kConnected := by
    rw [hFree]
    exact fun hEq => by cases hEq
  have hTasks : streamTasks ((c.claim ret).detect timeoutMs).ioQueue =
      streamTasks c.ioQueue ++ [install] := streamTasks_append _ _
  have hSettled : ((c.claim ret).detect timeoutMs).settled =
      c.settled.drain [install] := settled_detect _ timeoutMs
  refine
    { lasting := ?_, reading := ?_, handling := ?_, installed := ?_
      detecting := ?_, idle := fun _ => hAttentive.idle hNot, alert := ?_ }
  · rw [hTasks]
    refine hAttentive.lasting.append fun task hMem => ?_
    rw [List.mem_singleton.mp hMem]
    exact lasts_of_arms rfl
  · intro task hMem hReads
    rw [hTasks] at hMem
    rcases List.mem_append.mp hMem with hOld | hNew
    · exact absurd (hAttentive.reading task hOld hReads) hNot
    · rw [List.mem_singleton.mp hNew] at hReads
      rcases hReads with hRead | hHandler
      · exact absurd hRead (by decide)
      · cases hHandler
  · exact fun hReads => absurd (hAttentive.handling hReads) hNot
  · exact fun hConnected => by cases hConnected
  · intro _
    rw [hSettled, FdSlot.drain_cons, FdSlot.drain_nil,
      FdSlot.exec_enableFdCb_ok hInv.registered]
    show hasFlag (epollInterest kWrite EventMode.kDefault) EPOLLOUT = true
    rw [hasFlag_EPOLLOUT]
    decide
  · refine alert_of_arming (.inl ?_)
    rw [hTasks]
    exact ⟨install, by simp, rfl⟩

/-- The end of the attempt: the handler is installed, unless it was before. -/
theorem Attentive.succeed {base : List UInt8} {c : StreamClient Unit}
    (hAttentive : c.Attentive e) (hInv : c.SendInv base) (attempt : Nat)
    (hInstalled : c.streamSlot.event.cb ≠ some .handler) (e' : SocketEnd) :
    Attentive ((c.succeed attempt).post [.timer .disableFd]).start e' := by
  have hTimer : ((c.succeed attempt).post [.timer .disableFd]).settled =
      c.settled := by
    rw [settled_post]
    rfl
  by_cases hStarted : c.started = true
  · have hConnected : c.connected = .kConnected := by
      by_contra hNot
      rw [hInv.notStarted hNot] at hStarted
      cases hStarted
    have hSame : ((c.succeed attempt).post [.timer .disableFd]).start =
        (c.succeed attempt).post [.timer .disableFd] := if_pos hStarted
    have hTasks : streamTasks ((c.succeed attempt).post
        [.timer .disableFd]).ioQueue = streamTasks c.ioQueue := by
      show streamTasks (c.ioQueue ++ [ClientTask.timer .disableFd]) = _
      rw [streamTasks_append, streamTasks_timer_cons, streamTasks_nil,
        List.append_nil]
    rw [hSame]
    refine
      { lasting := hTasks ▸ hAttentive.lasting, reading := fun _ _ _ => rfl
        handling := fun _ => rfl, installed := fun _ => ?_
        detecting := fun hConnecting => by cases hConnecting
        idle := fun hNot => absurd rfl hNot, alert := alert_of_arming (.inl ?_) }
    · rw [hTimer]
      exact hAttentive.installed hConnected
    · -- The handler is to be installed, so its task is still queued.
      rw [hTasks]
      by_contra hCalm
      have hCb := (hAttentive.lasting.drain_calm hCalm c.streamSlot).2
      have hSettled := hAttentive.installed hConnected
      rw [settled, hCb] at hSettled
      exact hInstalled hSettled
  · have hStart : ((c.succeed attempt).post [.timer .disableFd]).start =
        ({ (c.succeed attempt).post [.timer .disableFd] with started := true }).install
          c.conn.sendBuf.empty := if_neg hStarted
    let install : FdTask StreamCb :=
      .enableFdCb (startTypes c.conn.sendBuf.empty) EventMode.kDefault .handler
    have hTasks : streamTasks (({ (c.succeed attempt).post
        [.timer .disableFd] with started := true }).install
          c.conn.sendBuf.empty).ioQueue = streamTasks c.ioQueue ++ [install] := by
      show streamTasks ((c.ioQueue ++ [ClientTask.timer .disableFd]) ++
        [ClientTask.stream install]) = _
      rw [streamTasks_append, streamTasks_append, streamTasks_timer_cons,
        streamTasks_nil, List.append_nil]
      rfl
    rw [hStart]
    refine
      { lasting := ?_, reading := fun _ _ _ => rfl, handling := fun _ => rfl
        installed := fun _ => ?_
        detecting := fun hConnecting => by cases hConnecting
        idle := fun hNot => absurd rfl hNot, alert := alert_of_arming (.inl ?_) }
    · rw [hTasks]
      refine hAttentive.lasting.append fun task hMem => ?_
      rw [List.mem_singleton.mp hMem]
      exact lasts_of_arms rfl
    · have hRegistered : ({ (c.succeed attempt).post [.timer .disableFd] with
          started := true } : StreamClient Unit).settled.event.inRegister = true := by
        have hKept := hInv.registered
        rw [← hTimer] at hKept
        exact hKept
      rw [settled_install, FdSlot.drain_cons, FdSlot.drain_nil,
        FdSlot.exec_enableFdCb_ok hRegistered]
    · rw [hTasks]
      exact ⟨install, by simp, rfl⟩

/-- What an `enable_fd` leaves behind: nothing new, or what it was asked for. -/
theorem handling_exec {slot : FdSlot StreamCb} {task : FdTask StreamCb}
    {connected : Prop}
    (hLasts : task ≠ .disableFd ∧ task ≠ .unregisterFd)
    (hReads : Reads task → connected)
    (hHandling : slot.event.cb = some .handler ∨
      waitsFor slot.interest EPOLLIN = true → connected) :
    (slot.exec {} task).event.cb = some .handler ∨
      waitsFor (slot.exec {} task).interest EPOLLIN = true → connected := by
  cases task with
  | registerFd => exact hHandling
  | unregisterFd => exact absurd rfl hLasts.2
  | disableFd => exact absurd rfl hLasts.1
  | enableFdCb types modes cb =>
      by_cases hRegistered : slot.event.inRegister = true
      · rw [FdSlot.exec_enableFdCb_ok hRegistered]
        rintro (hCb | hWaits)
        · exact hReads (.inr (Option.some.inj hCb))
        · refine hReads (.inl ?_)
          rw [← hasFlag_EPOLLIN types modes]
          exact hWaits
      · have hSame : slot.exec {} (.enableFdCb types modes cb) = slot :=
          if_neg hRegistered
        rw [hSame]
        exact hHandling
  | enableFd types modes =>
      by_cases hRegistered : slot.event.inRegister = true
      · rw [FdSlot.exec_enableFd_ok hRegistered]
        rintro (hCb | hWaits)
        · exact hHandling (.inl hCb)
        · refine hReads ?_
          show hasFlag types kRead = true
          rw [← hasFlag_EPOLLIN types modes]
          exact hWaits
      · have hSame : slot.exec {} (.enableFd types modes) = slot :=
          if_neg hRegistered
        rw [hSame]
        exact hHandling

theorem Attentive.execStream {c : StreamClient Unit} {task : FdTask StreamCb}
    {tasks : List ClientTask} {ret : SendRet} (hAttentive : c.Attentive e)
    (hQueue : c.ioQueue = .stream task :: tasks) :
    Attentive ({ c with ioQueue := tasks }.exec {} ret (.stream task))
      (if c.armsNext then e.rearm (c.streamSlot.exec {} task).interest else e) := by
  have hTasks : streamTasks c.ioQueue = task :: streamTasks tasks := by
    rw [hQueue, streamTasks_stream_cons]
  have hAll := hAttentive.lasting
  have hAllReads := hAttentive.reading
  rw [hTasks] at hAll hAllReads
  have hLasting : Lasting (streamTasks tasks) := fun other hMem =>
    hAll other (List.mem_cons_of_mem _ hMem)
  have hSettled := settled_exec_stream ret hQueue
  have hArms : c.armsNext = task.arms := by rw [armsNext, hQueue]
  refine
    { lasting := hLasting
      reading := fun other hMem => hAllReads other (List.mem_cons_of_mem _ hMem)
      handling := handling_exec (hAll task List.mem_cons_self)
        (hAllReads task List.mem_cons_self) hAttentive.handling
      installed := ?_, detecting := ?_, idle := hAttentive.idle, alert := ?_ }
  · rw [hSettled]
    exact hAttentive.installed
  · rw [hSettled]
    exact hAttentive.detecting
  · rw [hArms]
    by_cases hTask : task.arms = true
    · rw [if_pos hTask]
      exact alert_rearm _ _ _ _
    · rw [if_neg hTask]
      obtain rfl := hAll.eq_registerFd List.mem_cons_self hTask
      refine hAttentive.alert.imp .inl fun hArmed => ?_
      rw [Arming, hTasks] at hArmed
      exact hArmed.imp_left (armedBy_of_cons hTask)

/-- Requests behind the handler. -/
theorem Attentive.request {c c' : StreamClient Unit} (hAttentive : c.Attentive e)
    (requests : List ChannelInfo)
    (hRegistered : c.settled.event.inRegister = true)
    (hConnected : c.connected = .kConnected)
    (hSlot : c'.streamSlot = c.streamSlot) (hSame : c'.connected = c.connected)
    (hQueue : streamTasks c'.ioQueue =
      streamTasks c.ioQueue ++ requests.map ChannelInfo.enableFd)
    (hAlert : Alert c.streamSlot.interest
      (c'.conn.sendBuf.live ≠ [] ∨ c'.connected ≠ .kConnected) c'.Arming e) :
    c'.Attentive e := by
  have hConnected' : c'.connected = .kConnected := hSame.trans hConnected
  have hSettled : c'.settled =
      c.settled.drain (requests.map ChannelInfo.enableFd) := by
    rw [settled, hSlot, hQueue, FdSlot.drain_append]
    rfl
  refine
    { lasting := ?_, reading := fun _ _ _ => hConnected'
      handling := fun _ => hConnected', installed := fun _ => ?_
      detecting := fun hConnecting => ?_
      idle := fun hNot => absurd hConnected' hNot, alert := ?_ }
  · rw [hQueue]
    exact hAttentive.lasting.append (lasting_requests requests)
  · rw [hSettled]
    exact (FdSlot.drain_map_enableFd_cb hRegistered requests _ _).trans
      (hAttentive.installed hConnected)
  · rw [hConnected'] at hConnecting
    cases hConnecting
  · rw [hSlot]
    exact hAlert

theorem Attentive.execSend {base : List UInt8} {c : StreamClient Unit}
    {ret : SendRet} {data : List UInt8} {tasks : List ClientTask}
    (hAttentive : c.Attentive e) (hInv : c.SendInv base) (hFine : ret.Fine)
    (hQueue : c.ioQueue = .send data :: tasks) :
    Attentive ({ c with ioQueue := tasks }.execSend ret data) e := by
  have hPopped := hAttentive.pop hQueue (streamTasks_send_cons data tasks)
  have hSettled := settled_pop hQueue (streamTasks_send_cons data tasks)
  unfold StreamClient.execSend
  split_ifs with hQueues
  · refine { hPopped with alert := hPopped.alert.imp (fun _ => .inl ?_) id }
    -- the buffer was not empty, or there was no connection
    refine hQueues.imp_left fun hNotEmpty hNil => ?_
    exact hNotEmpty ((LiveBuffer.empty_iff c.conn.sendBuf).mpr hNil)
  · rw [not_or, not_not, not_not] at hQueues
    obtain ⟨hEmpty, hConnected⟩ := hQueues
    have hNil : c.conn.sendBuf.live = [] :=
      (LiveBuffer.empty_iff c.conn.sendBuf).mp hEmpty
    refine hPopped.request (c.conn.sendNow ret data).requests ?_ hConnected rfl rfl
      ?_ ?_
    · rw [hSettled]
      exact hInv.registered
    · show streamTasks (tasks ++ _) = _
      rw [streamTasks_append, streamTasks_map_request]
    · by_cases hSilent : (c.conn.sendNow ret data).requests = []
      · refine hPopped.alert.imp (fun hLeft => ?_) fun hArmed => ?_
        · rcases hLeft with hLeft | hNot
          · exact absurd (sendNow_done hFine hNil hSilent) hLeft
          · exact absurd hConnected hNot
        · refine hArmed.imp_left fun hTask => ?_
          show ArmedBy (streamTasks (tasks ++ _))
          rw [streamTasks_append]
          exact armedBy_append_left hTask
      · refine alert_of_arming (.inl ?_)
        show ArmedBy (streamTasks (tasks ++ _))
        rw [streamTasks_append, streamTasks_map_request]
        exact armedBy_append_requests hSilent

theorem Attentive.perform {base : List UInt8} {c : StreamClient Unit}
    {effect : Effect} {effects : List Effect} (hAttentive : c.Attentive e)
    (hInv : c.SendInv base) (hPending : c.pending = effect :: effects) :
    Attentive ({ c with pending := effects }.perform effect) e := by
  have hSilent := hInv.silent
  rw [hPending] at hSilent
  have hConnected : c.connected = .kConnected := by
    by_contra hNot
    rw [hAttentive.idle hNot] at hPending
    cases hPending
  cases effect with
  | updateEvent types modes =>
      have hTasks : streamTasks
          (c.ioQueue ++ [ClientTask.stream (.enableFd types modes)]) =
            streamTasks c.ioQueue ++
              [(⟨types, modes⟩ : ChannelInfo)].map ChannelInfo.enableFd :=
        streamTasks_append _ _
      refine hAttentive.request [⟨types, modes⟩] hInv.registered hConnected rfl rfl
        hTasks (alert_of_arming (.inl ?_))
      show ArmedBy (streamTasks
        (c.ioQueue ++ [ClientTask.stream (.enableFd types modes)]))
      rw [hTasks]
      exact armedBy_append_requests (List.cons_ne_nil _ _)
  | onFragment fragment =>
      refine
        { lasting := hAttentive.lasting, reading := hAttentive.reading
          handling := hAttentive.handling, installed := hAttentive.installed
          detecting := hAttentive.detecting
          idle := fun hNot => absurd hConnected hNot
          alert := hAttentive.alert.imp .inl fun hArmed => ?_ }
      rw [Arming, hPending] at hArmed
      exact hArmed
  | onError errno => cases hSilent
  | onDisconnect => cases hSilent

/-- The detection is told of something that is not the end of the attempt. -/
theorem Attentive.ignore {c : StreamClient Unit} {events : EpollEvents}
    {sent : List UInt8} {count : Nat} (hAttentive : c.Attentive e)
    (hReported : e.reported = some events)
    (hInstalled : c.streamSlot.event.cb ≠ some .handler)
    (hTold : hasFlag events EPOLLOUT = false) :
    Attentive c (e.exchange sent count room).dispatched := by
  by_cases hConnected : c.connected = .kConnected
  · -- the handler is to be installed
    refine { hAttentive with alert := alert_of_arming (.inl ?_) }
    by_contra hCalm
    have hCb := (hAttentive.lasting.drain_calm hCalm c.streamSlot).2
    have hSettled := hAttentive.installed hConnected
    rw [settled, hCb] at hSettled
    exact hInstalled hSettled
  · have hNoInput : waitsFor c.streamSlot.interest EPOLLIN = true → False :=
      fun hWaits => hConnected (hAttentive.handling (.inr hWaits))
    refine
      { hAttentive with
        alert := { reads := fun _ hWaits => (hNoInput hWaits).elim, writes := ?_ } }
    intro hBusy hRoom hWaits
    have hBefore : e.writable = true := by
      simp only [dispatched, SocketEnd.exchange, Bool.and_eq_true] at hRoom
      exact hRoom.1
    rcases hAttentive.alert.writes hBusy hBefore hWaits with
      (hReady | hReport) | hArmed
    · exact .inl (.inl hReady)
    · rw [hReported] at hReport
      exact absurd (hTold.symm.trans hReport) (by simp)
    · exact .inr hArmed

theorem attentive_step {base : List UInt8} {c next : StreamClient Unit}
    {action : ClientAction}
    (hInv : c.SendInv base) (hAttentive : c.Attentive e)
    (hFlow : c.SendsFlow action) (hServed : c.Served e room action)
    (hStep : step (stateless split) c action = some next) :
    Attentive next (c.endAfter e room next action) := by
  have hGrows := grows_step hStep
  cases stepped hStep with
  | call call =>
      have hMoved := hAttentive.exchange
        (c.traffic.sentSince (c.call call).traffic)
        (c.traffic.readSince (c.call call).traffic) room
      cases call with
      | postSendTask data => exact hMoved.post rfl
      | connect ret timeoutMs =>
          obtain rfl : ret = .error EINPROGRESS := hFlow
          have hConnects := c.connects (.error EINPROGRESS) timeoutMs
          simp only [StreamClient.call, endAfter] at hMoved ⊢
          generalize c.connect (.error EINPROGRESS) timeoutMs = next at hConnects hMoved
          cases hConnects with
          | ignored _ hBusy => exact hMoved
          | fails hFree hErrno => exact absurd rfl hErrno
          | detects hFree => exact hMoved.detect hInv _ _ hFree
      | connectReturns => exact hFlow.elim
      | start => exact hFlow.elim
      | stop => exact hFlow.elim
  | execTask hIdle hQueue =>
      rename_i faults ret task tasks
      obtain ⟨rfl, hFine⟩ := hFlow
      simp only [endAfter]
      have hMoved := hAttentive.exchange
        (c.traffic.sentSince
          (({ c with ioQueue := tasks } : StreamClient Unit).exec {} ret task).traffic)
        (c.traffic.readSince
          (({ c with ioQueue := tasks } : StreamClient Unit).exec {} ret task).traffic)
        room
      cases task with
      | stream task => exact hMoved.execStream hQueue
      | timer task =>
          have hCalm : c.armsNext = false := by rw [armsNext, hQueue]
          rw [if_neg (by simp [hCalm])]
          have hPopped := hMoved.pop hQueue (streamTasks_timer_cons task tasks)
          exact { hPopped with }
      | resetTimer timeoutMs =>
          have hCalm : c.armsNext = false := by rw [armsNext, hQueue]
          rw [if_neg (by simp [hCalm])]
          exact hMoved.pop hQueue (streamTasks_resetTimer_cons timeoutMs tasks)
      | send data =>
          have hCalm : c.armsNext = false := by rw [armsNext, hQueue]
          rw [if_neg (by simp [hCalm])]
          exact hMoved.execSend hInv hFine hQueue
  | socketCb hIdle hInstalled =>
      rename_i fuel inv attempt
      have hNoError : inv.soError = 0 := by
        simpa [SendsFlow, hInstalled] using hFlow
      have hNotHandler : c.streamSlot.event.cb ≠ some .handler := by
        rw [hInstalled]
        exact fun hEq => by cases hEq
      obtain ⟨events, hReported, -, hWrite⟩ := SocketEnd.Serves.events hServed
      simp only [socketCb, hNoError, ne_eq, not_true, if_false, endAfter]
      by_cases hTold : hasFlag inv.types kWrite = true
      · rw [if_pos hTold]
        exact hAttentive.succeed hInv attempt hNotHandler _
      · rw [if_neg hTold]
        rw [Bool.not_eq_true, hWrite] at hTold
        exact hAttentive.ignore hReported hNotHandler hTold
  | handler hIdle hInstalled hReturns =>
      rename_i fuel inv callback h
      have hClean : inv.Clean c.conn.sendBuf.live.length := by
        simpa [SendsFlow, hInstalled] using hFlow
      have hConnected := hAttentive.handling (.inl hInstalled)
      obtain ⟨frames, hOutcome⟩ := streamHandler_outcome hReturns
      have hSpec := hOutcome.clean hClean
        (StreamClientSocket.verdict_of_soError_eq_zero hClean.soError)
      have hCount := hGrows.readSince_eq
      rw [readBy, if_pos hInstalled] at hCount
      have hBefore : Alert c.streamSlot.interest (c.conn.sendBuf.live ≠ [])
          c.Arming e := hAttentive.alert.imp (fun hLeft => .inl (.inl hLeft)) id
      have hArming (hArmed : c.Arming) : (c.leave callback h).Arming := by
        rcases hArmed with hTask | hRequest
        · exact .inl hTask
        · rw [hIdle] at hRequest
          exact absurd rfl hRequest
      have hAfter : Alert c.streamSlot.interest (h.conn.sendBuf.live ≠ [])
          (c.leave callback h).Arming
          (c.endAfter e room (c.leave callback h) (.dispatch fuel inv)) :=
        hBefore.handler hServed hOutcome hSpec hClean hCount hArming
      exact
        { lasting := hAttentive.lasting
          reading := hAttentive.reading
          handling := hAttentive.handling
          installed := hAttentive.installed
          detecting := hAttentive.detecting
          idle := fun hNot => absurd hConnected hNot
          alert := hAfter.imp (fun hBusy => .inl
            (hBusy.resolve_right fun hNot => hNot hConnected)) id }
  | perform hPending =>
      exact (hAttentive.exchange _ _ room).perform hInv hPending
  | timerExpires hIdle hInstalled =>
      rename_i attempt
      have hConnected : c.connected = .kConnected := hFlow
      have hTimer : c.timerCb attempt = c.post [.timer .disableFd] := if_pos hConnected
      simp only [endAfter, hTimer]
      exact (hAttentive.exchange _ _ room).post rfl

/-- A client that has once called `connect` is not disconnected again. -/
theorem connected_ne_step {c next : StreamClient Unit} {action : ClientAction}
    (hFlow : c.SendsFlow action)
    (hStep : step (stateless split) c action = some next)
    (hBegun : c.connected ≠ .kDisconnected) : next.connected ≠ .kDisconnected := by
  cases stepped hStep with
  | call call =>
      cases call with
      | postSendTask data => exact hBegun
      | connect ret timeoutMs =>
          have hSame : c.connect ret timeoutMs = c := if_neg hBegun
          rw [StreamClient.call, hSame]
          exact hBegun
      | connectReturns => exact hFlow.elim
      | start => exact hFlow.elim
      | stop => exact hFlow.elim
  | execTask hIdle hQueue =>
      rw [connected_exec]
      exact hBegun
  | socketCb hIdle hInstalled =>
      rename_i fuel inv attempt
      have hNoError : inv.soError = 0 := by
        simpa [SendsFlow, hInstalled] using hFlow
      simp only [socketCb, hNoError, ne_eq, not_true, if_false]
      split
      · rw [connected_start]
        exact fun hEq => by cases hEq
      · exact hBegun
  | handler hIdle hInstalled hReturns => exact hBegun
  | perform hPending =>
      rename_i effect effects
      cases effect <;> exact hBegun
  | timerExpires hIdle hInstalled =>
      have hConnected : c.connected = .kConnected := hFlow
      rw [timerCb, if_pos hConnected]
      exact hBegun

end StreamClient

end Net
end KZEvent
