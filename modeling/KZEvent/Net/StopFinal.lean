import KZEvent.Core.Withdrawal
import KZEvent.Net.StreamClient
import KZEvent.Net.StreamSession

/-!
# A stop is final until the next start

`stop` posts a `disable_fd`.  Tasks of `post_send_task` go on being executed
behind it, and a send that leaves bytes over asks for the write event with the
`update_event` that brings no callback; so does the end of a handler invocation
that emptied `send_buf_`, if it comes after the stop: the invocation was going on,
or was dispatched before the `disable_fd` ran.  Such a request puts the descriptor
back into the epoll set.  Without one, it stays out until `start` or `connect` is
called.
-/

namespace KZEvent
namespace Net

open KZEvent.Core Foundation EventType

/-- A direct send leaves nothing over that has to wait for the write event. -/
def SendRet.LeavesNothing (ret : SendRet) (data : List UInt8) : Prop :=
  ret.status ≠ .kTryAgain ∧ (ret.status = .kSuccess → ret.count = data.length)

instance (ret : SendRet) (data : List UInt8) :
    Decidable (ret.LeavesNothing data) :=
  inferInstanceAs (Decidable (_ ∧ _))

theorem requests_sendNow (conn : StreamConn) {ret : SendRet} {data : List UInt8}
    (hAll : ret.LeavesNothing data) : (conn.sendNow ret data).requests = [] := by
  obtain ⟨hAgain, hCount⟩ := hAll
  simp only [StreamConn.sendNow]
  split
  · rename_i hStatus
    rw [if_pos (hCount hStatus)]
  · rename_i hStatus
    exact absurd hStatus hAgain
  · rfl
  · rfl

/-- What a step posts, as far as a `disable_fd` among it is concerned: nothing
asks for events, or there is none. -/
def PostsCleanly {Task Cb : Type*} (fdTask : Task → Option (FdTask Cb))
    (disable : Task) (before after : List Task) : Prop :=
  ∃ base more, after = base ++ more ∧ base.length ≤ before.length ∧
    (NoRequest fdTask more ∨ disable ∉ more)

section PostsCleanly

variable {Task Cb : Type*} {fdTask : Task → Option (FdTask Cb)} {disable : Task}
  {queue more : List Task}

theorem postsCleanly_of_noRequest (hMore : NoRequest fdTask more) :
    PostsCleanly fdTask disable queue (queue ++ more) :=
  ⟨queue, more, rfl, le_rfl, .inl hMore⟩

theorem postsCleanly_of_not_mem (hMore : disable ∉ more) :
    PostsCleanly fdTask disable queue (queue ++ more) :=
  ⟨queue, more, rfl, le_rfl, .inr hMore⟩

theorem postsCleanly_refl : PostsCleanly fdTask disable queue queue :=
  ⟨queue, [], (List.append_nil _).symm, le_rfl, .inl noRequest_nil⟩

theorem postsCleanly_pop {task : Task} :
    PostsCleanly fdTask disable (task :: queue) queue :=
  ⟨queue, [], (List.append_nil _).symm, Nat.le_succ _, .inl noRequest_nil⟩

/-- A `disable_fd` that a step posted takes the descriptor out for good. -/
theorem PostsCleanly.withdrawn {before after : List Task} {slot : FdSlot Cb}
    {position : Nat} (hPosts : PostsCleanly fdTask disable before after)
    (hPosition : before.length ≤ position)
    (hTask : after[position]? = some disable)
    (hDisable : fdTask disable = some .disableFd) :
    Withdrawn fdTask slot after (position + 1) := by
  obtain ⟨base, more, rfl, hBase, hMore⟩ := hPosts
  exact withdrawn_of_getElem? hTask hDisable
    (noRequest_drop (hBase.trans hPosition) hTask hMore)

/-- **Stop rule.**  In a system whose steps post cleanly, and after a stop only
leave the descriptor withdrawn, it is out of the epoll set once the `disable_fd`
of the stop has been executed. -/
theorem inEpoll_of_disabled {State Action : Type*}
    {step : State → Action → Option State} {guard : State → Action → Prop}
    {executes : Action → Bool} {slot : State → FdSlot Cb}
    {queue : State → List Task} (hDisable : fdTask disable = some .disableFd)
    (hSlots : ∀ state action next, (slot state).EpollRegistered →
      step state action = some next → (slot next).EpollRegistered)
    (hPosts : ∀ state action next, step state action = some next →
      PostsCleanly fdTask disable (queue state) (queue next))
    (hLeaves : ∀ state action next, guard state action →
      step state action = some next →
      Leaves fdTask (slot state) (queue state) (executes action) (slot next)
        (queue next))
    {initial state stopped final : State} {before after : List Action}
    {stop : Action} {position : Nat} (hInitial : (slot initial).EpollRegistered)
    (hBefore : run step initial before = some state)
    (hStop : step state stop = some stopped)
    (hPosition : (queue state).length ≤ position)
    (hTask : (queue stopped)[position]? = some disable)
    (hGuard : Guarded step guard stopped after)
    (hRun : run step stopped after = some final)
    (hExecuted : position < after.countP executes) :
    (slot final).event.inEpoll = false := by
  have hSlot : (slot stopped).EpollRegistered :=
    hSlots _ _ _ (run_keeps hSlots hInitial hBefore) hStop
  have hWithdrawn : Withdrawn fdTask (slot stopped) (queue stopped)
      (position + 1) :=
    (hPosts _ _ _ hStop).withdrawn hPosition hTask hDisable
  have hFinal := Withdrawn.run hLeaves hWithdrawn hSlot hGuard hRun
  rw [Nat.sub_eq_zero_of_le hExecuted] at hFinal
  exact hFinal.inEpoll

end PostsCleanly

/-! ## Sessions -/

/-- What a task does to the descriptor of the session. -/
def SessionTask.fdTask : SessionTask → Option (FdTask Unit)
  | .fd task => some task
  | _ => none

def SessionAction.executes : SessionAction → Bool
  | .execTask _ _ => true
  | _ => false

namespace StreamSession

variable {σ : Type*} {onSplit : σ → List UInt8 → Int × σ}
  {s next : StreamSession σ}

/-- A step that calls `start`. -/
def Starts : SessionAction → Prop
  | .call .start => True
  | _ => False

instance (action : SessionAction) : Decidable (Starts action) :=
  match action with
  | .call .start => .isTrue trivial
  | .call .stop | .call (.postSendTask _) | .execTask _ _ | .dispatch _ _
  | .perform | .destroyServer => .isFalse id

/-- A task that asks for nothing when it is executed. -/
def TaskStays (s : StreamSession σ) (faults : TaskFaults) (ret : SendRet) :
    SessionTask → Prop
  | .fd task => faults.Removes task
  | .send data =>
      s.serverAlive = true → s.conn.sendBuf.empty = true →
        ret.LeavesNothing data
  | .erase => True

instance (s : StreamSession σ) (faults : TaskFaults) (ret : SendRet)
    (task : SessionTask) : Decidable (s.TaskStays faults ret task) :=
  match task with
  | .fd _ => inferInstanceAs (Decidable (TaskFaults.Removes _ _))
  | .send _ => inferInstanceAs (Decidable (_ → _ → _))
  | .erase => .isTrue trivial

/-- The condition on a step after `stop`: a direct send leaves nothing over, a
`disable_fd` is not turned down, and no handler invocation performs an
`update_event`.  The last bars every `update_event` performed after the stop, of an
invocation that was going on and of one dispatched before the `disable_fd` ran. -/
def StaysStopped (s : StreamSession σ) : SessionAction → Prop
  | .execTask faults ret => ∀ task ∈ s.ioQueue.head?, s.TaskStays faults ret task
  | .perform => ∀ effect ∈ s.pending.head?, effect.request? = none
  | _ => True

instance (s : StreamSession σ) (action : SessionAction) :
    Decidable (s.StaysStopped action) :=
  match action with
  | .execTask _ _ => inferInstanceAs (Decidable (∀ task ∈ _, _))
  | .perform => inferInstanceAs (Decidable (∀ effect ∈ _, _))
  | .call _ | .dispatch _ _ | .destroyServer => .isTrue trivial

theorem noRequest_stop :
    NoRequest SessionTask.fdTask [.fd .disableFd, .erase] := by
  intro task hMem own hOwn
  simp only [List.mem_cons, List.not_mem_nil, or_false] at hMem
  rcases hMem with rfl | rfl
  · cases hOwn
    rfl
  · cases hOwn

/-- After `stop`, a step that meets the condition and does not start the session
leaves the descriptor withdrawn. -/
theorem leaves {action : SessionAction} (hStarts : ¬ Starts action)
    (hStays : s.StaysStopped action)
    (hStep : step onSplit s action = some next) :
    Leaves SessionTask.fdTask s.slot s.ioQueue action.executes next.slot
      next.ioQueue := by
  cases stepped hStep with
  | call call =>
      cases call with
      | start => exact absurd trivial hStarts
      | stop => exact .posts noRequest_stop
      | postSendTask data =>
          refine .posts ?_
          rw [noRequest_cons]
          exact ⟨fun own hOwn => (by cases hOwn), noRequest_nil⟩
  | execTask hIdle hQueue =>
      rename_i faults ret task tasks
      have hStays : s.TaskStays faults ret task := hStays task (by rw [hQueue]; rfl)
      cases task with
      | fd task =>
          refine .executes hQueue fun own hOwn => ?_
          obtain rfl := Option.some.inj hOwn
          exact hStays
      | send data =>
          simp only [exec, execSend]
          split
          · rename_i hAlive
            split
            · rename_i hEmpty
              rw [requests_sendNow _ (hStays hAlive hEmpty)]
              simpa [post, SessionAction.executes] using Leaves.other hQueue rfl
            · exact .other hQueue rfl
          · exact .other hQueue rfl
      | erase =>
          simp only [exec]
          split <;> exact .other hQueue rfl
  | dispatch hIdle hInstalled hReturns => exact .same
  | perform hPending =>
      rename_i effect effects
      have hStays : effect.request? = none := hStays effect (by rw [hPending]; rfl)
      cases effect with
      | updateEvent types modes => cases hStays
      | onFragment fragment => exact .same
      | onError errno => exact .posts noRequest_stop
      | onDisconnect => exact .posts noRequest_stop
  | destroyServer hIdle => exact .same

theorem postsCleanly {action : SessionAction}
    (hStep : step onSplit s action = some next) :
    PostsCleanly SessionTask.fdTask (.fd .disableFd) s.ioQueue next.ioQueue := by
  cases stepped hStep with
  | call call =>
      cases call with
      | start => exact postsCleanly_of_not_mem (by simp)
      | stop => exact postsCleanly_of_noRequest noRequest_stop
      | postSendTask data => exact postsCleanly_of_not_mem (by simp)
  | execTask hIdle hQueue =>
      rename_i faults ret task tasks
      rw [hQueue]
      cases task with
      | fd task => exact postsCleanly_pop
      | send data =>
          simp only [exec, execSend]
          split
          · split
            · exact ⟨tasks, _, rfl, Nat.le_succ _, .inr (by
                simp [SessionTask.request, ChannelInfo.enableFd])⟩
            · exact postsCleanly_pop
          · exact postsCleanly_pop
      | erase =>
          simp only [exec]
          split <;> exact postsCleanly_pop
  | dispatch hIdle hInstalled hReturns => exact postsCleanly_refl
  | perform hPending =>
      rename_i effect effects
      cases effect with
      | updateEvent types modes => exact postsCleanly_of_not_mem (by simp)
      | onFragment fragment => exact postsCleanly_refl
      | onError errno => exact postsCleanly_of_noRequest noRequest_stop
      | onDisconnect => exact postsCleanly_of_noRequest noRequest_stop
  | destroyServer hIdle => exact postsCleanly_refl

theorem slot_step {action : SessionAction}
    (hStep : step onSplit s action = some next)
    (hSlot : s.slot.EpollRegistered) : next.slot.EpollRegistered := by
  cases stepped hStep with
  | call call => cases call <;> exact hSlot
  | execTask hIdle hQueue =>
      rename_i faults ret task tasks
      cases task with
      | fd task => exact hSlot.exec faults task
      | send data =>
          simp only [exec, execSend]
          split
          · split <;> exact hSlot
          · exact hSlot
      | erase =>
          simp only [exec]
          split <;> exact hSlot
  | dispatch hIdle hInstalled hReturns => exact hSlot
  | perform hPending =>
      rename_i effect effects
      cases effect <;> exact hSlot
  | destroyServer hIdle => exact hSlot

/-- A stop is final until the next start: once the `disable_fd` that a step of a
run posted has been executed, and `start` was not called since that step, the
descriptor is out of the epoll set. -/
def StopFinal (Allowed : StreamSession σ → SessionAction → Prop)
    (onSplit : σ → List UInt8 → Int × σ) (split : σ) : Prop :=
  ∀ before stop position after s stopped final,
    run (step onSplit) (accepted split) before = some s →
    step onSplit s stop = some stopped →
    s.ioQueue.length ≤ position →
    stopped.ioQueue[position]? = some (.fd .disableFd) →
    Guarded (step onSplit) (fun s action => ¬ Starts action ∧ Allowed s action)
      stopped after →
    run (step onSplit) stopped after = some final →
    -- as many tasks were executed as were queued before it, and one more
    position < after.countP SessionAction.executes →
    final.slot.event.inEpoll = false

theorem stopFinal (onSplit : σ → List UInt8 → Int × σ) (split : σ) :
    StopFinal StaysStopped onSplit split := by
  intro before stop position after s stopped final hBefore hStop hPosition hTask
    hGuard hRun
  have hDisable : SessionTask.fdTask (.fd .disableFd) = some .disableFd := rfl
  have hInitial : (accepted split).slot.EpollRegistered :=
    FdSlot.epollRegistered_unknown
  have hLeaves (s : StreamSession σ) (action : SessionAction)
      (next : StreamSession σ) (hStays : ¬ Starts action ∧ s.StaysStopped action)
      (hStep : step onSplit s action = some next) :
      Leaves SessionTask.fdTask s.slot s.ioQueue action.executes next.slot
        next.ioQueue := leaves hStays.1 hStays.2 hStep
  exact inEpoll_of_disabled hDisable
    (fun _ _ _ hSlot hStep => slot_step hStep hSlot)
    (fun _ _ _ hStep => postsCleanly hStep) hLeaves hInitial hBefore hStop
    hPosition hTask hGuard hRun

end StreamSession

/-! ## Clients -/

/-- What a task does to the stream socket of the client. -/
def ClientTask.fdTask : ClientTask → Option (FdTask StreamCb)
  | .stream task => some task
  | _ => none

def ClientAction.executes : ClientAction → Bool
  | .execTask _ _ => true
  | _ => false

namespace StreamClient

variable {σ : Type*} {onSplit : σ → List UInt8 → Int × σ}
  {c next : StreamClient σ}

/-- A step that calls `start` or `connect`; the detection of a connection calls
`start`. -/
def Starts (c : StreamClient σ) : ClientAction → Prop
  | .call .start | .call (.connect _ _) => True
  | .dispatch _ inv =>
      c.streamSlot.event.cb ≠ some .handler ∧ hasFlag inv.types kWrite = true ∧
        inv.soError = 0
  | _ => False

instance (c : StreamClient σ) (action : ClientAction) :
    Decidable (c.Starts action) :=
  match action with
  | .call .start | .call (.connect _ _) => .isTrue trivial
  | .dispatch _ _ => inferInstanceAs (Decidable (_ ∧ _ ∧ _))
  | .call .connectReturns | .call .stop | .call (.postSendTask _) | .execTask _ _
  | .perform | .timerExpires => .isFalse id

/-- A task that asks for nothing of the stream socket when it is executed. -/
def TaskStays (c : StreamClient σ) (faults : TaskFaults) (ret : SendRet) :
    ClientTask → Prop
  | .stream task => faults.Removes task
  | .send data =>
      c.conn.sendBuf.empty = true → c.connected = .kConnected →
        ret.LeavesNothing data
  | .timer _ | .resetTimer _ => True

instance (c : StreamClient σ) (faults : TaskFaults) (ret : SendRet)
    (task : ClientTask) : Decidable (c.TaskStays faults ret task) :=
  match task with
  | .stream _ => inferInstanceAs (Decidable (TaskFaults.Removes _ _))
  | .send _ => inferInstanceAs (Decidable (_ → _ → _))
  | .timer _ | .resetTimer _ => .isTrue trivial

/-- The condition on a step after `stop`, as for a session. -/
def StaysStopped (c : StreamClient σ) : ClientAction → Prop
  | .execTask faults ret => ∀ task ∈ c.ioQueue.head?, c.TaskStays faults ret task
  | .perform => ∀ effect ∈ c.pending.head?, effect.request? = none
  | _ => True

instance (c : StreamClient σ) (action : ClientAction) :
    Decidable (c.StaysStopped action) :=
  match action with
  | .execTask _ _ => inferInstanceAs (Decidable (∀ task ∈ _, _))
  | .perform => inferInstanceAs (Decidable (∀ effect ∈ _, _))
  | .call _ | .dispatch _ _ | .timerExpires => .isTrue trivial

theorem noRequest_timer (task : FdTask Nat) {tasks : List ClientTask}
    (hTasks : NoRequest ClientTask.fdTask tasks) :
    NoRequest ClientTask.fdTask (.timer task :: tasks) :=
  noRequest_cons.mpr ⟨fun own hOwn => (by cases hOwn), hTasks⟩

theorem noRequest_stop :
    NoRequest ClientTask.fdTask [.stream .disableFd, .timer .disableFd] := by
  rw [noRequest_cons]
  refine ⟨fun own hOwn => ?_, noRequest_timer _ noRequest_nil⟩
  cases hOwn
  rfl

/-- `install` posts one task, and `start` that one or none. -/
theorem ioQueue_start (c : StreamClient σ) :
    c.start.ioQueue = c.ioQueue ∨
      ∃ types, c.start.ioQueue =
        c.ioQueue ++ [.stream (.enableFdCb types EventMode.kDefault .handler)] := by
  unfold start
  split
  · exact .inl rfl
  · exact .inr ⟨_, rfl⟩

@[simp]
theorem streamSlot_start (c : StreamClient σ) :
    c.start.streamSlot = c.streamSlot := by
  unfold start
  split <;> rfl

/-- What the callback of the detection posts when it does not call `start`. -/
theorem ioQueue_socketCb (c : StreamClient σ) (attempt : Nat)
    {inv : Invocation}
    (hFails : ¬ (hasFlag inv.types kWrite = true ∧ inv.soError = 0)) :
    ∃ more, (c.socketCb attempt inv).ioQueue = c.ioQueue ++ more ∧
      NoRequest ClientTask.fdTask more := by
  unfold socketCb
  split
  · rename_i hWrite
    split
    · refine ⟨[.timer .disableFd, .stream .disableFd, .timer .disableFd], ?_,
        noRequest_timer _ noRequest_stop⟩
      simp [failAttempt, stop, post, record]
    · rename_i hError
      exact absurd ⟨hWrite, not_not.mp hError⟩ hFails
  · exact ⟨[], (List.append_nil _).symm, noRequest_nil⟩

theorem ioQueue_timerCb (c : StreamClient σ) (attempt : Nat) :
    ∃ more, (c.timerCb attempt).ioQueue = c.ioQueue ++ more ∧
      NoRequest ClientTask.fdTask more := by
  unfold timerCb
  split
  · exact ⟨[.timer .disableFd], rfl, noRequest_timer _ noRequest_nil⟩
  · refine ⟨[.timer .disableFd, .stream .disableFd, .timer .disableFd], ?_,
      noRequest_timer _ noRequest_stop⟩
    simp [failAttempt, stop, post, record]

@[simp]
theorem streamSlot_socketCb (c : StreamClient σ) (attempt : Nat)
    (inv : Invocation) : (c.socketCb attempt inv).streamSlot = c.streamSlot := by
  unfold socketCb
  split
  · split
    · rfl
    · exact streamSlot_start _
  · rfl

@[simp]
theorem streamSlot_timerCb (c : StreamClient σ) (attempt : Nat) :
    (c.timerCb attempt).streamSlot = c.streamSlot := by
  unfold timerCb
  split <;> rfl

/-- Where the table entry of the stream socket can change. -/
theorem streamSlot_call (c : StreamClient σ) (call : ClientCall) :
    (c.call call).streamSlot = c.streamSlot := by
  cases call with
  | connect ret timeoutMs =>
      simp only [StreamClient.call]
      have hConnects := c.connects ret timeoutMs
      generalize c.connect ret timeoutMs = tried at hConnects ⊢
      cases hConnects with
      | ignored _ hBusy => rfl
      | succeeds hFree => exact streamSlot_start _
      | fails hFree hErrno => rfl
      | detects hFree => rfl
  | connectReturns =>
      simp only [StreamClient.call, connectReturns]
      split <;> rfl
  | start => exact streamSlot_start c
  | stop => rfl
  | postSendTask data => rfl

theorem leaves {action : ClientAction} (hStarts : ¬ c.Starts action)
    (hStays : c.StaysStopped action)
    (hStep : step onSplit c action = some next) :
    Leaves ClientTask.fdTask c.streamSlot c.ioQueue action.executes
      next.streamSlot next.ioQueue := by
  cases stepped hStep with
  | call call =>
      cases call with
      | connect ret timeoutMs => exact absurd trivial hStarts
      | connectReturns =>
          simp only [StreamClient.call, connectReturns]
          split <;> exact .same
      | start => exact absurd trivial hStarts
      | stop => exact .posts noRequest_stop
      | postSendTask data =>
          refine .posts ?_
          rw [noRequest_cons]
          exact ⟨fun own hOwn => (by cases hOwn), noRequest_nil⟩
  | execTask hIdle hQueue =>
      rename_i faults ret task tasks
      have hStays : c.TaskStays faults ret task := hStays task (by rw [hQueue]; rfl)
      cases task with
      | stream task =>
          refine .executes hQueue fun own hOwn => ?_
          obtain rfl := Option.some.inj hOwn
          exact hStays
      | timer task => exact .other hQueue rfl
      | resetTimer timeoutMs => exact .other hQueue rfl
      | send data =>
          simp only [exec, execSend]
          split
          · exact .other hQueue rfl
          · rename_i hDirect
            rw [not_or, not_not, not_not] at hDirect
            rw [requests_sendNow _ (hStays hDirect.1 hDirect.2)]
            simpa [post, ClientAction.executes] using Leaves.other hQueue rfl
  | socketCb hIdle hInstalled =>
      rename_i fuel inv attempt
      obtain ⟨more, hQueue, hMore⟩ := c.ioQueue_socketCb attempt
        fun hSucceeds => hStarts ⟨by rw [hInstalled]; simp, hSucceeds⟩
      rw [hQueue, streamSlot_socketCb]
      exact .posts hMore
  | handler hIdle hInstalled hReturns => exact .same
  | perform hPending =>
      rename_i effect effects
      have hStays : effect.request? = none := hStays effect (by rw [hPending]; rfl)
      cases effect with
      | updateEvent types modes => cases hStays
      | onFragment fragment => exact .same
      | onError errno => exact .posts noRequest_stop
      | onDisconnect => exact .posts noRequest_stop
  | timerExpires hIdle hInstalled =>
      rename_i attempt
      obtain ⟨more, hQueue, hMore⟩ := c.ioQueue_timerCb attempt
      rw [hQueue, streamSlot_timerCb]
      exact .posts hMore

theorem postsCleanly_start (c : StreamClient σ) {queue : List ClientTask}
    (hQueue : PostsCleanly ClientTask.fdTask (.stream .disableFd) queue c.ioQueue)
    (hNew : ∃ more, c.ioQueue = queue ++ more ∧ .stream .disableFd ∉ more) :
    PostsCleanly ClientTask.fdTask (.stream .disableFd) queue c.start.ioQueue := by
  rcases c.ioQueue_start with hSame | ⟨types, hPosted⟩
  · rw [hSame]
    exact hQueue
  · obtain ⟨more, hMore, hNotMem⟩ := hNew
    rw [hPosted, hMore, List.append_assoc]
    exact postsCleanly_of_not_mem (by simpa using hNotMem)

theorem postsCleanly {action : ClientAction}
    (hStep : step onSplit c action = some next) :
    PostsCleanly ClientTask.fdTask (.stream .disableFd) c.ioQueue
      next.ioQueue := by
  cases stepped hStep with
  | call call =>
      cases call with
      | connect ret timeoutMs =>
          simp only [StreamClient.call]
          have hConnects := c.connects ret timeoutMs
          generalize c.connect ret timeoutMs = tried at hConnects ⊢
          cases hConnects with
          | ignored _ hBusy => exact postsCleanly_refl
          | succeeds hFree =>
              exact postsCleanly_start _ postsCleanly_refl
                ⟨[], (List.append_nil _).symm, List.not_mem_nil⟩
          | fails hFree hErrno => exact postsCleanly_of_noRequest noRequest_stop
          | detects hFree => exact postsCleanly_of_not_mem (by simp)
      | connectReturns =>
          simp only [StreamClient.call, connectReturns]
          split <;> exact postsCleanly_refl
      | start =>
          exact postsCleanly_start _ postsCleanly_refl
            ⟨[], (List.append_nil _).symm, List.not_mem_nil⟩
      | stop => exact postsCleanly_of_noRequest noRequest_stop
      | postSendTask data => exact postsCleanly_of_not_mem (by simp)
  | execTask hIdle hQueue =>
      rename_i faults ret task tasks
      rw [hQueue]
      cases task with
      | stream task => exact postsCleanly_pop
      | timer task => exact postsCleanly_pop
      | resetTimer timeoutMs => exact postsCleanly_pop
      | send data =>
          simp only [exec, execSend]
          split
          · exact postsCleanly_pop
          · exact ⟨tasks, _, rfl, Nat.le_succ _, .inr (by
              simp [ClientTask.request, ChannelInfo.enableFd])⟩
  | socketCb hIdle hInstalled =>
      rename_i fuel inv attempt
      by_cases hSucceeds : hasFlag inv.types kWrite = true ∧ inv.soError = 0
      · simp only [socketCb, hSucceeds.1, hSucceeds.2, if_true, ne_eq, not_true,
          if_false]
        have hNew : ((c.succeed attempt).post [.timer .disableFd]).ioQueue =
            c.ioQueue ++ [.timer .disableFd] := rfl
        exact postsCleanly_start _ (hNew ▸ postsCleanly_of_not_mem (by simp))
          ⟨_, hNew, by simp⟩
      · obtain ⟨more, hMoreQueue, hMore⟩ := c.ioQueue_socketCb attempt hSucceeds
        rw [hMoreQueue]
        exact postsCleanly_of_noRequest hMore
  | handler hIdle hInstalled hReturns => exact postsCleanly_refl
  | perform hPending =>
      rename_i effect effects
      cases effect with
      | updateEvent types modes => exact postsCleanly_of_not_mem (by simp)
      | onFragment fragment => exact postsCleanly_refl
      | onError errno => exact postsCleanly_of_noRequest noRequest_stop
      | onDisconnect => exact postsCleanly_of_noRequest noRequest_stop
  | timerExpires hIdle hInstalled =>
      rename_i attempt
      obtain ⟨more, hMoreQueue, hMore⟩ := c.ioQueue_timerCb attempt
      rw [hMoreQueue]
      exact postsCleanly_of_noRequest hMore

theorem streamSlot_step {action : ClientAction}
    (hStep : step onSplit c action = some next)
    (hSlot : c.streamSlot.EpollRegistered) :
    next.streamSlot.EpollRegistered := by
  cases stepped hStep with
  | call call => exact (c.streamSlot_call call) ▸ hSlot
  | execTask hIdle hQueue =>
      rename_i faults ret task tasks
      cases task with
      | stream task => exact hSlot.exec faults task
      | timer task => exact hSlot
      | resetTimer timeoutMs => exact hSlot
      | send data =>
          simp only [exec, execSend]
          split <;> exact hSlot
  | socketCb hIdle hInstalled =>
      rw [streamSlot_socketCb]
      exact hSlot
  | handler hIdle hInstalled hReturns => exact hSlot
  | perform hPending =>
      rename_i effect effects
      cases effect <;> exact hSlot
  | timerExpires hIdle hInstalled =>
      rw [streamSlot_timerCb]
      exact hSlot

/-- A stop is final until `start` or `connect` is called, as for a session. -/
def StopFinal (Allowed : StreamClient σ → ClientAction → Prop)
    (onSplit : σ → List UInt8 → Int × σ) (split : σ) : Prop :=
  ∀ before stop position after c stopped final,
    run (step onSplit) (make split) before = some c →
    step onSplit c stop = some stopped →
    c.ioQueue.length ≤ position →
    stopped.ioQueue[position]? = some (.stream .disableFd) →
    Guarded (step onSplit) (fun c action => ¬ c.Starts action ∧ Allowed c action)
      stopped after →
    run (step onSplit) stopped after = some final →
    position < after.countP ClientAction.executes →
    final.streamSlot.event.inEpoll = false

theorem stopFinal (onSplit : σ → List UInt8 → Int × σ) (split : σ) :
    StopFinal StaysStopped onSplit split := by
  intro before stop position after c stopped final hBefore hStop hPosition hTask
    hGuard hRun
  have hDisable : ClientTask.fdTask (.stream .disableFd) = some .disableFd := rfl
  have hInitial : (make split).streamSlot.EpollRegistered :=
    FdSlot.epollRegistered_unknown
  have hLeaves (c : StreamClient σ) (action : ClientAction)
      (next : StreamClient σ) (hStays : ¬ c.Starts action ∧ c.StaysStopped action)
      (hStep : step onSplit c action = some next) :
      Leaves ClientTask.fdTask c.streamSlot c.ioQueue action.executes
        next.streamSlot next.ioQueue := leaves hStays.1 hStays.2 hStep
  exact inEpoll_of_disabled hDisable
    (fun _ _ _ hSlot hStep => streamSlot_step hStep hSlot)
    (fun _ _ _ hStep => postsCleanly hStep) hLeaves hInitial hBefore hStop
    hPosition hTask hGuard hRun

end StreamClient

/-! ## Both -/

/-- **A stop is final until the next start.**  In every run of a session or of a
client: once the `disable_fd` of a stop has been executed, the descriptor is out
of the epoll set until `start` or `connect` is called, if since the stop every
direct send took all its data or failed, no handler invocation performed an
`update_event` (whether it was going on at the stop or was dispatched after it,
before the `disable_fd` ran), and the `EPOLL_CTL_DEL` was not turned down. -/
theorem stop_final {σ : Type*} (onSplit : σ → List UInt8 → Int × σ) (split : σ) :
    StreamSession.StopFinal StreamSession.StaysStopped onSplit split ∧
      StreamClient.StopFinal StreamClient.StaysStopped onSplit split :=
  ⟨StreamSession.stopFinal onSplit split, StreamClient.stopFinal onSplit split⟩

/-- A session that was accepted, or a client that is connected at once, with a
send queued. -/
def sessionSending : List SessionAction :=
  [.execTask {} (.sent 0), .execTask {} (.sent 0), .call (.postSendTask [1])]

def clientSending : List ClientAction :=
  [.call (.connect .success 0), .execTask {} (.sent 0), .execTask {} (.sent 0),
    .execTask {} (.sent 0), .call (.postSendTask [1])]

/-- Both are stopped; the send is executed behind the stop and takes all its
data. -/
theorem stop_final_sent :
    let onSplit : Unit → List UInt8 → Int × Unit := fun () _ => (0, ())
    (∃ s stopped final,
      run (StreamSession.step onSplit) (.accepted ()) sessionSending = some s ∧
      s.step onSplit (.call .stop) = some stopped ∧
      run (StreamSession.step onSplit) stopped
        (List.replicate 3 (.execTask {} (.sent 1))) = some final ∧
      final.slot.event.inEpoll = false) ∧
    ∃ c stopped final,
      run (StreamClient.step onSplit) (.make ()) clientSending = some c ∧
      c.step onSplit (.call .stop) = some stopped ∧
      run (StreamClient.step onSplit) stopped
        (List.replicate 3 (.execTask {} (.sent 1))) = some final ∧
      final.streamSlot.event.inEpoll = false := by
  intro onSplit
  constructor
  · have hOutcome : (run (StreamSession.step onSplit) (.accepted ())
        sessionSending).any (fun s =>
        (s.step onSplit (.call .stop)).any fun stopped =>
          decide (s.ioQueue.length ≤ 1 ∧
            stopped.ioQueue[1]? = some (.fd .disableFd) ∧
            Guarded (StreamSession.step onSplit) (fun s action =>
              ¬ StreamSession.Starts action ∧ s.StaysStopped action) stopped
              (List.replicate 3 (.execTask {} (.sent 1)))) &&
          (run (StreamSession.step onSplit) stopped
            (List.replicate 3 (.execTask {} (.sent 1)))).isSome) = true := by
      decide +kernel
    obtain ⟨s, hBefore, hView⟩ := (Option.any_eq_true _ _).mp hOutcome
    obtain ⟨stopped, hStop, hView⟩ := (Option.any_eq_true _ _).mp hView
    rw [Bool.and_eq_true, decide_eq_true_iff] at hView
    obtain ⟨⟨hPosition, hTask, hGuard⟩, hReturns⟩ := hView
    obtain ⟨final, hRun⟩ := Option.isSome_iff_exists.mp hReturns
    have hFinal := (stop_final onSplit ()).1 _ (.call .stop) 1 _ s stopped final
      hBefore hStop hPosition hTask hGuard hRun (by decide)
    exact ⟨s, stopped, final, hBefore, hStop, hRun, hFinal⟩
  · have hOutcome : (run (StreamClient.step onSplit) (.make ())
        clientSending).any (fun c =>
        (c.step onSplit (.call .stop)).any fun stopped =>
          decide (c.ioQueue.length ≤ 1 ∧
            stopped.ioQueue[1]? = some (.stream .disableFd) ∧
            Guarded (StreamClient.step onSplit) (fun c action =>
              ¬ c.Starts action ∧ c.StaysStopped action) stopped
              (List.replicate 3 (.execTask {} (.sent 1)))) &&
          (run (StreamClient.step onSplit) stopped
            (List.replicate 3 (.execTask {} (.sent 1)))).isSome) = true := by
      decide +kernel
    obtain ⟨c, hBefore, hView⟩ := (Option.any_eq_true _ _).mp hOutcome
    obtain ⟨stopped, hStop, hView⟩ := (Option.any_eq_true _ _).mp hView
    rw [Bool.and_eq_true, decide_eq_true_iff] at hView
    obtain ⟨⟨hPosition, hTask, hGuard⟩, hReturns⟩ := hView
    obtain ⟨final, hRun⟩ := Option.isSome_iff_exists.mp hReturns
    have hFinal := (stop_final onSplit ()).2 _ (.call .stop) 1 _ c stopped final
      hBefore hStop hPosition hTask hGuard hRun (by decide)
    exact ⟨c, stopped, final, hBefore, hStop, hRun, hFinal⟩

/-- Both are stopped; the send is executed behind the stop and gets `EAGAIN`.  It
asks for the write event, and the descriptor is back in the epoll set. -/
theorem stop_not_final :
    let onSplit : Unit → List UInt8 → Int × Unit := fun () _ => (0, ())
    ¬ StreamSession.StopFinal (fun _ _ => True) onSplit () ∧
      ¬ StreamClient.StopFinal (fun _ _ => True) onSplit () := by
  intro onSplit
  constructor
  · intro hFinal
    have hOutcome : (run (StreamSession.step onSplit) (.accepted ())
        sessionSending).any (fun s =>
        (s.step onSplit (.call .stop)).any fun stopped =>
          decide (s.ioQueue.length ≤ 1 ∧
            stopped.ioQueue[1]? = some (.fd .disableFd) ∧
            Guarded (StreamSession.step onSplit) (fun _ action =>
              ¬ StreamSession.Starts action ∧ True) stopped
              (List.replicate 4 (.execTask {} (.error EAGAIN)))) &&
          (run (StreamSession.step onSplit) stopped
            (List.replicate 4 (.execTask {} (.error EAGAIN)))).any
            (·.slot.event.inEpoll)) = true := by
      decide +kernel
    obtain ⟨s, hBefore, hView⟩ := (Option.any_eq_true _ _).mp hOutcome
    obtain ⟨stopped, hStop, hView⟩ := (Option.any_eq_true _ _).mp hView
    rw [Bool.and_eq_true, decide_eq_true_iff] at hView
    obtain ⟨⟨hPosition, hTask, hGuard⟩, hReturns⟩ := hView
    obtain ⟨final, hRun, hIn⟩ := (Option.any_eq_true _ _).mp hReturns
    have hOut := hFinal _ (.call .stop) 1 _ s stopped final hBefore hStop
      hPosition hTask hGuard hRun (by decide)
    rw [hOut] at hIn
    cases hIn
  · intro hFinal
    have hOutcome : (run (StreamClient.step onSplit) (.make ())
        clientSending).any (fun c =>
        (c.step onSplit (.call .stop)).any fun stopped =>
          decide (c.ioQueue.length ≤ 1 ∧
            stopped.ioQueue[1]? = some (.stream .disableFd) ∧
            Guarded (StreamClient.step onSplit) (fun c action =>
              ¬ c.Starts action ∧ True) stopped
              (List.replicate 4 (.execTask {} (.error EAGAIN)))) &&
          (run (StreamClient.step onSplit) stopped
            (List.replicate 4 (.execTask {} (.error EAGAIN)))).any
            (·.streamSlot.event.inEpoll)) = true := by
      decide +kernel
    obtain ⟨c, hBefore, hView⟩ := (Option.any_eq_true _ _).mp hOutcome
    obtain ⟨stopped, hStop, hView⟩ := (Option.any_eq_true _ _).mp hView
    rw [Bool.and_eq_true, decide_eq_true_iff] at hView
    obtain ⟨⟨hPosition, hTask, hGuard⟩, hReturns⟩ := hView
    obtain ⟨final, hRun, hIn⟩ := (Option.any_eq_true _ _).mp hReturns
    have hOut := hFinal _ (.call .stop) 1 _ c stopped final hBefore hStop
      hPosition hTask hGuard hRun (by decide)
    rw [hOut] at hIn
    cases hIn

end Net
end KZEvent
