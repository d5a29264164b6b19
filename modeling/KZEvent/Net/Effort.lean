import KZEvent.Net.Tended

/-!
# What is left to do

A number for what a connection still has to do if nobody asks it for more: a price for
each byte on its stages, for each task and each effect, and for what the kernel has to
report.  A byte pays at each stage for the tasks and reports it may cause later on, a
task pays for the report that `epoll_ctl` may cause, and a report pays for the request
the handler may answer it with.  So whatever is done next, less is left.

The kernel has to cooperate in one point: room for sending may be used up only by
bytes that are taken, or where a send task is refused.  With room that comes and goes a
connection is woken up for ever.
-/

namespace KZEvent
namespace Net

open KZEvent.Core Foundation EventType SocketEnd

/-! ## Prices -/

/-- The price of a report: with `EPOLLOUT` it may be answered with a request that drops
the write event. -/
def reportEffort (events : EpollEvents) : Nat :=
  if hasFlag events EPOLLOUT then 5 else 1

/-- The price of a place on the ready list. -/
def readyEffort (interest : Option EpollEvents) : Nat :=
  if waitsFor interest EPOLLOUT then 6 else 2

def listEffort (interest : Option EpollEvents) : Bool → Nat
  | true => readyEffort interest
  | false => 0

/-- An end without room will be given some. -/
def roomEffort : Bool → Nat
  | true => 0
  | false => 7

/-- The price of a task that arms the descriptor. -/
def armEffort (types : EventType) : Nat :=
  if hasFlag types kWrite then 7 else 3

def FdTask.effort {Cb : Type*} : FdTask Cb → Nat
  | .enableFdCb types _ _ | .enableFd types _ => armEffort types
  | .registerFd | .unregisterFd | .disableFd => 1

def Effect.effort : Effect → Nat
  | updateEvent types _ => armEffort types + 1
  | onFragment _ => 5
  | onError _ | onDisconnect => 1

/-- What the kernel has to do for one end. -/
def SocketEnd.effort (interest : Option EpollEvents) (e : SocketEnd) : Nat :=
  roomEffort e.writable + listEffort interest e.ready +
    e.reported.elim 0 reportEffort + 12 * e.wire.length + 5 * e.inbox.length

def StreamConn.effort (conn : StreamConn) : Nat :=
  19 * conn.sendBuf.live.length + 5 * conn.recvBuf.live.length

/-- The price of a list of effects. -/
def effortOf (effects : List Effect) : Nat :=
  (effects.map Effect.effort).sum

theorem armEffort_le (types : EventType) : armEffort types ≤ 7 := by
  unfold armEffort
  split <;> omega

theorem armEffort_pos (types : EventType) : 0 < armEffort types := by
  unfold armEffort
  split <;> omega

theorem readyEffort_le (interest : Option EpollEvents) : readyEffort interest ≤ 6 := by
  unfold readyEffort
  split <;> omega

theorem readyEffort_lt_armEffort (types : EventType) (modes : EventMode) :
    readyEffort (some (epollInterest types modes)) < armEffort types := by
  have hSame : waitsFor (some (epollInterest types modes)) EPOLLOUT =
      hasFlag types kWrite := hasFlag_EPOLLOUT types modes
  rw [readyEffort, armEffort, hSame]
  split <;> omega

theorem effortOf_cons (effect : Effect) (effects : List Effect) :
    effortOf (effect :: effects) = effect.effort + effortOf effects := by
  rw [effortOf, List.map_cons, List.sum_cons, effortOf]

theorem effortOf_append (effects later : List Effect) :
    effortOf (effects ++ later) = effortOf effects + effortOf later := by
  rw [effortOf, List.map_append, List.sum_append, effortOf, effortOf]

theorem effortOf_fragments (frames : List (List UInt8)) :
    effortOf (frames.map Effect.onFragment) = 5 * frames.length := by
  induction frames with
  | nil => rfl
  | cons frame frames ih =>
      rw [List.map_cons, effortOf_cons, ih, List.length_cons]
      show 5 + 5 * frames.length = _
      omega

/-! ## The kernel -/

namespace SocketEnd

variable (interest : Option EpollEvents) {e : SocketEnd}

theorem listEffort_or_le (ready more : Bool) :
    listEffort interest (ready || more) ≤
      listEffort interest ready + readyEffort interest := by
  cases ready with
  | true => exact Nat.le_add_right _ _
  | false =>
      rw [Bool.false_or, listEffort, Nat.zero_add]
      cases more with
      | true => exact Nat.le_refl _
      | false => exact Nat.zero_le _

theorem effort_depart {count : Nat} (hCount : count ≤ e.wire.length) :
    (e.depart count).effort interest + 12 * count = e.effort interest := by
  have hLength : (e.depart count).wire.length = e.wire.length - count :=
    List.length_drop
  rw [effort, effort, hLength]
  show roomEffort e.writable + listEffort interest e.ready +
    e.reported.elim 0 reportEffort + _ + 5 * e.inbox.length + _ = _
  omega

theorem effort_arrive (bytes : List UInt8) :
    (e.arrive interest bytes).effort interest ≤
      e.effort interest + 5 * bytes.length + 6 := by
  have hPlace := listEffort_or_le interest e.ready (waitsFor interest EPOLLIN)
  have hReady := readyEffort_le interest
  have hLength : (e.arrive interest bytes).inbox.length =
      e.inbox.length + bytes.length := List.length_append
  rw [effort, effort, hLength]
  show roomEffort e.writable +
    listEffort interest (e.ready || waitsFor interest EPOLLIN) +
    e.reported.elim 0 reportEffort + 12 * e.wire.length + _ ≤ _
  omega

/-- Room costs at most the report of it. -/
theorem effort_makeRoom :
    (e.makeRoom interest).effort interest + roomEffort e.writable ≤
      e.effort interest + 6 := by
  have hPlace := listEffort_or_le interest e.ready (waitsFor interest EPOLLOUT)
  have hReady := readyEffort_le interest
  rw [effort, effort]
  show roomEffort true +
    listEffort interest (e.ready || waitsFor interest EPOLLOUT) +
    e.reported.elim 0 reportEffort + 12 * e.wire.length + 5 * e.inbox.length + _ ≤ _
  rw [roomEffort]
  omega

/-- A report is cheaper than the place on the ready list it was made from. -/
theorem reportEffort_poll_lt : reportEffort (e.poll interest) < readyEffort interest := by
  have hAsked : hasFlag (e.poll interest) EPOLLOUT = true →
      waitsFor interest EPOLLOUT = true := by
    intro hPoll
    cases interest with
    | none =>
        have hNothing : e.poll none = 0 := BitVec.and_zero
        rw [hNothing] at hPoll
        exact absurd hPoll (by decide)
    | some events =>
        rw [EPOLLOUT] at hPoll
        rw [poll, hasFlag_and _ _ (by decide), Bool.and_eq_true] at hPoll
        exact hPoll.2
  unfold reportEffort readyEffort
  by_cases hPoll : hasFlag (e.poll interest) EPOLLOUT = true
  · rw [if_pos hPoll, if_pos (hAsked hPoll)]
    omega
  · rw [if_neg hPoll]
    split <;> omega

theorem effort_report_lt (hReady : e.ready = true) (hNone : e.reported = none) :
    (e.report interest).effort interest < e.effort interest := by
  have hLess : reportEffort (e.poll interest) < readyEffort interest :=
    reportEffort_poll_lt interest
  have hReported : (e.report interest).reported.elim 0 reportEffort <
      readyEffort interest := by
    simp only [report]
    split
    · exact Nat.zero_lt_of_lt hLess
    · exact hLess
  rw [effort, effort, hReady, hNone]
  show roomEffort e.writable + 0 + _ + 12 * e.wire.length + 5 * e.inbox.length <
    roomEffort e.writable + readyEffort interest + 0 + _ + _
  omega

/-- Whatever was on the ready list before. -/
theorem effort_rearm_le (interest' : Option EpollEvents) :
    (e.rearm interest').effort interest' ≤ e.effort interest + readyEffort interest' := by
  have hPlace : listEffort interest' (e.rearm interest').ready ≤
      readyEffort interest' := by
    cases (e.rearm interest').ready with
    | true => exact Nat.le_refl _
    | false => exact Nat.zero_le _
  rw [effort, effort]
  show roomEffort e.writable + listEffort interest' (e.rearm interest').ready +
    e.reported.elim 0 reportEffort + 12 * e.wire.length + 5 * e.inbox.length ≤ _
  omega

theorem rearm_none : e.rearm none = e := by
  have hNothing : e.poll none = 0 := BitVec.and_zero
  simp [rearm, hNothing]

/-- Bytes that were read are gone, and bytes that were sent are on the way. -/
theorem effort_exchange (sent : List UInt8) (count : Nat) (room : Bool) :
    (e.exchange sent count room).effort interest + 5 * e.inbox.length +
        roomEffort e.writable =
      e.effort interest + 12 * sent.length + 5 * (e.inbox.length - count) +
        roomEffort (e.writable && room) := by
  have hWire : (e.exchange sent count room).wire.length =
      e.wire.length + sent.length := List.length_append
  have hInbox : (e.exchange sent count room).inbox.length =
      e.inbox.length - count := List.length_drop
  rw [effort, effort, hWire, hInbox]
  show roomEffort (e.writable && room) + listEffort interest e.ready +
    e.reported.elim 0 reportEffort + _ + _ + _ + _ = _
  omega

theorem effort_dispatched {events : EpollEvents} (hReported : e.reported = some events) :
    e.dispatched.effort interest + reportEffort events = e.effort interest := by
  rw [effort, effort, hReported]
  show roomEffort e.writable + listEffort interest e.ready + 0 +
    12 * e.wire.length + 5 * e.inbox.length + _ = _ + _ + reportEffort events + _ + _
  omega

/-- A task of the descriptor is dearer than what `epoll_ctl` has to report. -/
theorem effort_execFd {Cb : Type*} {slot : FdSlot Cb} (hTended : Tended slot)
    {task : FdTask Cb} (hStays : task ≠ .disableFd) (hKept : task ≠ .unregisterFd) :
    (if task.arms then e.rearm (slot.exec {} task).interest else e).effort
        (slot.exec {} task).interest <
      e.effort slot.interest + FdTask.effort task := by
  have hArm (types : EventType) (modes : EventMode) :
      (e.rearm (some (epollInterest types modes))).effort
          (some (epollInterest types modes)) <
        e.effort slot.interest + armEffort types := by
    have hRearm := effort_rearm_le (e := e) slot.interest
      (some (epollInterest types modes))
    have hLess := readyEffort_lt_armEffort types modes
    omega
  -- a descriptor that is not registered is not armed either
  have hIgnored (hNot : ¬ slot.event.inRegister = true) (types : EventType) :
      (e.rearm slot.interest).effort slot.interest <
        e.effort slot.interest + armEffort types := by
    have hUnarmed : slot.interest = none := by
      by_contra hArmed
      exact hNot (hTended hArmed).registered
    have hSome := armEffort_pos types
    rw [hUnarmed, rearm_none]
    omega
  cases task with
  | registerFd => exact Nat.lt_succ_self _
  | unregisterFd => exact absurd rfl hKept
  | enableFdCb types modes cb =>
      by_cases hRegistered : slot.event.inRegister = true
      · rw [FdSlot.exec_enableFdCb_ok hRegistered]
        exact hArm types modes
      · have hSame : slot.exec {} (.enableFdCb types modes cb) = slot :=
          if_neg hRegistered
        rw [hSame]
        exact hIgnored hRegistered types
  | enableFd types modes =>
      by_cases hRegistered : slot.event.inRegister = true
      · rw [FdSlot.exec_enableFd_ok hRegistered]
        exact hArm types modes
      · have hSame : slot.exec {} (.enableFd types modes) = slot := if_neg hRegistered
        rw [hSame]
        exact hIgnored hRegistered types
  | disableFd => exact absurd rfl hStays

end SocketEnd

/-! ## What both endpoints share -/

section Shared

variable {e : SocketEnd} {inv : Invocation} {room : Bool}
  {conn : StreamConn} {h : HandlerState}

theorem Invocation.readBytes_length_le {pending : Nat}
    (hServes : e.Serves inv pending room) : inv.readBytes.length ≤ e.inbox.length := by
  unfold Invocation.readBytes
  split
  · rename_i hTold
    rw [hServes.reads hTold]
  · exact Nat.zero_le _

/-- The report pays for the request that drops the write event. -/
theorem effortOf_earlyEffects_lt (conn : StreamConn)
    {verdict : Invocation → SocketVerdict} {events : EpollEvents}
    (hWrite : hasFlag inv.types kWrite = hasFlag events EPOLLOUT)
    (hQuiet : verdict inv = .quiet) :
    effortOf (inv.earlyEffects verdict conn) < reportEffort events := by
  rw [Invocation.earlyEffects, hQuiet, effortOf_append]
  by_cases hAll : inv.sendEnd conn.sendBuf.live.length = .kSuccess
  · have hTold : hasFlag inv.types kWrite = true := by
      by_contra hNot
      rw [Invocation.sendEnd, if_neg hNot] at hAll
      cases hAll
    have hDropped : hasFlag (conn.channel.eventTypes &&& ~~~kWrite) kWrite = false :=
      hasFlag_andNot_self _ (by decide)
    have hRequest : effortOf [.updateEvent (conn.channel.eventTypes &&& ~~~kWrite)
        conn.channel.eventModes] = 4 := by
      rw [effortOf_cons, Effect.effort, armEffort, hDropped]
      rfl
    rw [if_pos hAll, hRequest, reportEffort, ← hWrite, if_pos hTold]
    exact Nat.lt_succ_self 4
  · rw [if_neg hAll]
    show 0 + 0 < reportEffort events
    unfold reportEffort
    split <;> omega

theorem roomEffort_le_seven (writable : Bool) : roomEffort writable ≤ 7 := by
  cases writable with
  | true => exact Nat.zero_le 7
  | false => exact Nat.le_refl 7

/-- Room that is used up is paid for by the bytes that use it. -/
theorem roomEffort_le {writable : Bool} {sent : List UInt8}
    (hRoom : room = false → writable = true → sent ≠ []) :
    roomEffort (writable && room) ≤ roomEffort writable + 7 * sent.length := by
  cases writable with
  | false => exact Nat.le_add_right _ _
  | true =>
      cases room with
      | true => exact Nat.zero_le _
      | false =>
          have hSome := List.length_pos_iff.mpr (hRoom rfl rfl)
          show 7 ≤ 0 + 7 * sent.length
          omega

/-- A clean invocation leaves less to do. -/
theorem effort_handler_lt (interest : Option EpollEvents)
    {verdict : Invocation → SocketVerdict} {frames : List (List UInt8)}
    (hServes : e.Serves inv conn.sendBuf.live.length room)
    (hOutcome : HandlerOutcome verdict inv conn frames h)
    (hSpec : CleanSpec conn h) (hClean : inv.Clean conn.sendBuf.live.length)
    (hQuiet : verdict inv = .quiet)
    (hFrames : frames.length + h.conn.recvBuf.live.length ≤
      conn.recvBuf.live.length + inv.readBytes.length)
    (hRoom : room = false → e.writable = true → h.accepted ≠ []) :
    (e.exchange h.accepted inv.readBytes.length room).dispatched.effort interest +
        h.conn.effort + effortOf h.effects < e.effort interest + conn.effort := by
  obtain ⟨events, hReported, -, hWrite⟩ := hServes.events
  have hExchange := effort_exchange (e := e) interest h.accepted
    inv.readBytes.length room
  have hDone := effort_dispatched interest
    (e := e.exchange h.accepted inv.readBytes.length room) hReported
  have hRead := Invocation.readBytes_length_le hServes
  have hEarly := effortOf_earlyEffects_lt conn hWrite hQuiet
  have hUsed := roomEffort_le hRoom
  have hSent : h.accepted.length + h.conn.sendBuf.live.length =
      conn.sendBuf.live.length := by
    rw [← List.length_append, hSpec.conserved]
  have hEffects : effortOf h.effects =
      effortOf (inv.earlyEffects verdict conn) + 5 * frames.length := by
    rw [hOutcome.effects, hClean.closes_eq_false hQuiet, effortOf_append,
      effortOf_append, effortOf_fragments]
    rfl
  rw [hEffects, StreamConn.effort, StreamConn.effort]
  omega

/-- A direct send pays for the bytes, for a request, and for the room. -/
theorem effort_sendNow_le {ret : SendRet} (data : List UInt8) (hFine : ret.Fine)
    (hEmpty : conn.sendBuf.live = []) :
    (conn.sendNow ret data).conn.effort + 19 * (conn.sendNow ret data).accepted.length =
      conn.effort + 19 * data.length := by
  have hSpec := sendNow_spec ret data hEmpty
  have hKept := congrArg List.length (hSpec.conserved hFine)
  rw [List.length_append, List.length_append] at hKept
  rw [StreamConn.effort, StreamConn.effort, recvBuf_sendNow]
  omega

theorem effort_enqueue (conn : StreamConn) (data : List UInt8) :
    (conn.enqueue data).effort = conn.effort + 19 * data.length := by
  simp only [StreamConn.effort, StreamConn.enqueue, LiveBuffer.live_insert,
    List.length_append]
  omega

end Shared

section Unmoved

variable (traffic : Traffic)

@[simp]
theorem Traffic.sentSince_self : traffic.sentSince traffic = [] := List.drop_length

@[simp]
theorem Traffic.readSince_self : traffic.readSince traffic = 0 := Nat.sub_self _

@[simp]
theorem Traffic.cutSince_self : traffic.cutSince traffic = [] := List.drop_length

@[simp]
theorem Traffic.sentSince_exchange (received accepted : List UInt8) :
    traffic.sentSince (traffic.exchange received accepted) = accepted :=
  List.drop_left

@[simp]
theorem Traffic.sentSince_sendTask (data accepted : List UInt8) :
    traffic.sentSince (traffic.sendTask data accepted) = accepted :=
  List.drop_left

@[simp]
theorem Traffic.cutSince_deliver (fragment : List UInt8) :
    traffic.cutSince (traffic.deliver fragment) = [fragment] :=
  List.drop_left

end Unmoved

end Net
end KZEvent
