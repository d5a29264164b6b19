import KZEvent.Net.Rest
import KZEvent.Net.SharedLoop

/-!
# A loop with many clients comes to rest

What is left to do for all clients together is the sum of what is left for each, and the
fragments on the shared heavy queue.  The io thread is never in its own way: a handler
that runs can go on, the first task can be executed when none runs, and with no task and
no handler each connection can do what it could do by itself.
-/

namespace KZEvent
namespace Net

open KZEvent.Core EventType Foundation

/-! ## What is left to do -/

namespace Connection

/-- The connection without the fragments on its heavy queue. -/
def withoutHeavy (c : Connection) : Connection :=
  { c with sessionHeavy := .empty }

theorem effort_eq_withoutHeavy (c : Connection) :
    c.effort = c.withoutHeavy.effort + c.sessionHeavy.cost := by
  have hNone : c.withoutHeavy.sessionHeavy.cost = 0 := rfl
  simp only [effort, hNone]
  show _ = c.client.effort c.clientEnd + c.session.effort c.sessionEnd +
    c.clientHeavy.cost + 0 + acceptEffort c.established c.accepted + _
  omega

/-- A session whose handler does not run can execute its first task. -/
theorem step_execTask_ne_none (split : List UInt8 → Int) {c : Connection}
    {task : SessionTask} {tasks : List SessionTask} (hAccepted : c.accepted = true)
    (hIdle : c.session.pending = []) (hQueue : c.session.ioQueue = task :: tasks) :
    c.step split (.session (.execTask {} (.sent 0)) true) ≠ none := by
  rw [step, if_pos ⟨hAccepted, ⟨rfl, .inl rfl⟩, fun hAgain => by cases hAgain⟩,
    StreamSession.step, hIdle, hQueue]
  exact Option.some_ne_none _

end Connection

namespace SharedLoop

variable {Id : Type*} [DecidableEq Id] {split : List UInt8 → Int}
  {l next : SharedLoop Id}

/-- The price of what is left of all connections, and of the shared heavy queue. -/
def effort [Fintype Id] (l : SharedLoop Id) : Nat :=
  (∑ id, (l.view id).withoutHeavy.effort) + l.heavy.cost

/-- A step nobody has to call for, with a kernel that keeps its room. -/
def Unasked (split : List UInt8 → Int) (l : SharedLoop Id) : SharedAction Id → Prop
  | .link id action => (l.view id).Unasked split action
  | .runTask ret room =>
      match l.tasks with
      | (id, _) :: _ => (l.view id).Unasked split (.session (.execTask {} ret) room)
      | [] => True
  | .heavy _ => True

instance (l : SharedLoop Id) (action : SharedAction Id) :
    Decidable (l.Unasked split action) :=
  match action with
  | .link id action => inferInstanceAs (Decidable ((l.view id).Unasked split action))
  | .runTask ret room =>
      match h : l.tasks with
      | (id, _) :: _ =>
          decidable_of_iff
            ((l.view id).Unasked split (.session (.execTask {} ret) room))
            (by simp only [Unasked, h])
      | [] => .isTrue (by simp only [Unasked, h])
  | .heavy _ => .isTrue trivial

/-- What one connection loses is lost by the loop. -/
theorem Moves.effort_lt [Fintype Id] {id : Id} {own : ConnectionAction}
    (hMoves : Moves split l id own next)
    (hLess : (next.view id).effort < (l.view id).effort) : next.effort < l.effort := by
  obtain ⟨fragments, hHeavy⟩ := hMoves.heavy
  -- What it posts for the heavy thread is paid for once, on the shared queue.
  have hOwn : (next.view id).sessionHeavy.cost =
      (l.view id).sessionHeavy.cost + 4 * fragments.length := by
    show (next.heavy.only id).cost = (l.heavy.only id).cost + _
    rw [hHeavy, DoubleBuffer.only_pushAll, DoubleBuffer.cost_pushAll]
  have hShared : next.heavy.cost = l.heavy.cost + 4 * fragments.length := by
    rw [hHeavy, DoubleBuffer.cost_pushAll, List.length_map]
  have hParts := (l.view id).effort_eq_withoutHeavy
  have hNextParts := (next.view id).effort_eq_withoutHeavy
  have hOthers (other : Id) (hOther : other ≠ id) :
      (next.view other).withoutHeavy.effort = (l.view other).withoutHeavy.effort := by
    rw [hMoves.others other hOther]
  have hSum := sum_add_of_others hOthers
  rw [effort, effort, hShared]
  omega

/-- What holds in every state. -/
structure Sound (split : List UInt8 → Int) (l : SharedLoop Id) : Prop where
  tidy : Tidy l
  orderly : ∀ id, Connection.Orderly split (l.view id)

theorem sound_start (hBounded : BoundedSplit (stateless split)) :
    Sound split (start : SharedLoop Id) where
  tidy := tidy_start
  orderly _ := Connection.orderly_start hBounded

theorem sound_step [Fintype Id] (hBounded : BoundedSplit (stateless split))
    (hStable : PrefixStable split) (l : SharedLoop Id) (action : SharedAction Id)
    (next : SharedLoop Id) (hSound : Sound split l)
    (hStep : SharedLoop.step split l action = some next) : Sound split next where
  tidy := tidy_step hSound.tidy hStep
  orderly id := by
    rcases view_step hSound.tidy hStep id with ⟨own, hView, -⟩ | ⟨hSame, -⟩
    · exact Connection.orderly_step hBounded hStable _ own _ (hSound.orderly id) hView
    · rw [hSame]
      exact hSound.orderly id

theorem sound_of_run [Fintype Id] (hBounded : BoundedSplit (stateless split))
    (hStable : PrefixStable split) {actions : List (SharedAction Id)}
    (hRun : run (SharedLoop.step split) start actions = some l) : Sound split l :=
  run_keeps (sound_step hBounded hStable) (sound_start hBounded) hRun

/-- All clients have called `connect`. -/
def Begun (l : SharedLoop Id) : Prop :=
  ∀ id, (l.links id).client.connected ≠ .kDisconnected

instance [Fintype Id] (l : SharedLoop Id) : Decidable l.Begun :=
  inferInstanceAs (Decidable (∀ id, (l.links id).client.connected ≠ .kDisconnected))

theorem begun_step [Fintype Id] (l : SharedLoop Id) (action : SharedAction Id)
    (next : SharedLoop Id) (hState : Tidy l ∧ Begun l)
    (hStep : SharedLoop.step split l action = some next) : Tidy next ∧ Begun next := by
  refine ⟨tidy_step hState.1 hStep, fun id => ?_⟩
  have hBegun : (l.view id).client.connected ≠ .kDisconnected := hState.2 id
  show (next.view id).client.connected ≠ .kDisconnected
  rcases view_step hState.1 hStep id with ⟨own, hView, -⟩ | ⟨hSame, -⟩
  · have hOne : run (Connection.step split) (l.view id) [own] = some (next.view id) :=
      run_cons_eq_some_iff.mpr ⟨_, hView, rfl⟩
    exact Connection.begun_of_run hBegun hOne
  · rw [hSame]
    exact hBegun

/-- Whatever is done next, less is left. -/
theorem effort_step_lt [Fintype Id] (hBounded : BoundedSplit (stateless split))
    (hSound : Sound split l) {action : SharedAction Id}
    (hUnasked : l.Unasked split action)
    (hStep : SharedLoop.step split l action = some next) : next.effort < l.effort := by
  cases stepped hStep with
  | link hOther hFree hConn =>
      rename_i id action conn
      have hMoves := moves_link hSound.tidy hOther hConn
      exact hMoves.effort_lt
        (Connection.effort_step_lt hBounded (hSound.orderly id) hUnasked hMoves.view)
  | runTask hTasks hFree hConn =>
      rename_i id task tasks ret room conn
      have hMoves := moves_runTask hSound.tidy hTasks hConn
      have hUnasked : (l.view id).Unasked split (.session (.execTask {} ret) room) := by
        simpa only [Unasked, hTasks] using hUnasked
      exact hMoves.effort_lt
        (Connection.effort_step_lt hBounded (hSound.orderly id) hUnasked hMoves.view)
  | heavy hConsume =>
      have hLess := DoubleBuffer.cost_consume_lt hConsume
      exact Nat.add_lt_add_left hLess _

/-! ## Nothing is left to do -/

/-- No step is left that nobody has to call for. -/
def Stuck [Fintype Id] (split : List UInt8 → Int) (l : SharedLoop Id) : Prop :=
  ∀ action, l.Unasked split action → SharedLoop.step split l action = none

/-- Nothing moves in any connection, nor on the heavy thread. -/
structure Quiet (l : SharedLoop Id) : Prop where
  connections : ∀ id, (l.view id).Quiet
  heavy : l.heavy.Done

instance [Fintype Id] (l : SharedLoop Id) : Decidable l.Quiet :=
  decidable_of_iff ((∀ id, (l.view id).Quiet) ∧ l.heavy.Done)
    ⟨fun h => ⟨h.1, h.2⟩, fun h => ⟨h.connections, h.heavy⟩⟩

theorem Stuck.refuses [Fintype Id] (hStuck : l.Stuck split) (action : SharedAction Id)
    (hUnasked : l.Unasked split action)
    (hStep : SharedLoop.step split l action = some next) : False := by
  rw [hStuck action hUnasked] at hStep
  cases hStep

/-- A handler that runs can go on. -/
theorem Stuck.free [Fintype Id] (hStuck : l.Stuck split) (hSound : Sound split l) :
    l.Free := by
  intro id
  cases hPending : (l.links id).session.pending with
  | nil => rfl
  | cons effect effects =>
      have hAccepted : (l.links id).accepted = true := by
        by_contra hNot
        have hUntouched := (hSound.orderly id).watchful.untouched
          (Bool.eq_false_iff.mpr hNot)
        have hIdle : (l.links id).session.pending = [] :=
          congrArg StreamSession.pending hUntouched
        rw [hPending] at hIdle
        cases hIdle
      -- The next effect of the handler waits for nothing.
      have hPerform : StreamSession.step (stateless split) (l.links id).session .perform =
          some ({ (l.links id).session with pending := effects }.perform effect) := by
        rw [StreamSession.step, hPending]
      have hLink := hStuck (.link id (.session .perform true))
        ⟨rfl, StreamSession.keepsRoom_true _ _⟩
      rw [SharedLoop.step, if_pos ⟨rfl, fun hTurns => by cases hTurns⟩,
        Option.map_eq_none_iff, Connection.step, if_pos ⟨hAccepted, trivial, rfl⟩,
        hPerform] at hLink
      cases hLink

/-- When no handler runs, the first task can be executed. -/
theorem Stuck.tasks [Fintype Id] (hStuck : l.Stuck split) (hSound : Sound split l)
    (hFree : l.Free) : l.tasks = [] := by
  cases hTasks : l.tasks with
  | nil => rfl
  | cons first tasks =>
      obtain ⟨id, task⟩ := first
      have hAccepted : (l.links id).accepted = true := by
        by_contra hNot
        have hNone := hSound.tidy.early id (Bool.eq_false_iff.mpr hNot)
        rw [hTasks, ownedBy_cons_same] at hNone
        cases hNone
      -- A kernel that takes nothing keeps its room, so nobody has to be asked.
      have hUnasked : l.Unasked split (.runTask (.sent 0) true) := by
        simp only [Unasked, hTasks]
        exact ⟨rfl, StreamSession.keepsRoom_true _ _⟩
      have hRun := hStuck _ hUnasked
      have hSome := Connection.step_execTask_ne_none split
        (c := (l.links id).behind [task] .empty) hAccepted (hFree id) rfl
      simp only [SharedLoop.step, hTasks, if_pos hFree, Option.map_eq_none_iff] at hRun
      exact absurd hRun hSome

theorem Stuck.heavy [Fintype Id] (hStuck : l.Stuck split) : l.heavy.Done := by
  by_contra hNot
  obtain ⟨action, heavy, hConsume⟩ := DoubleBuffer.exists_consume hNot
  have hNext : SharedLoop.step split l (.heavy action) =
      some { l with heavy := heavy } := by
    rw [SharedLoop.step, hConsume, Option.map_some]
  exact hStuck.refuses (.heavy action) trivial hNext

/-- With no handler, no task and no fragment a connection can do nothing by itself. -/
theorem Stuck.connection [Fintype Id] (hStuck : l.Stuck split) (hSound : Sound split l)
    (id : Id) : (l.view id).Stuck split := by
  have hFree := hStuck.free hSound
  have hTasks := hStuck.tasks hSound hFree
  intro action hUnasked
  -- A step that takes nothing from a queue is a step of the loop; the others find the
  -- queues empty.
  by_cases hOther : action.fromQueue = false
  · have hLink := hStuck (.link id action) hUnasked
    rw [SharedLoop.step, if_pos ⟨hOther, fun _ => hFree⟩, Option.map_eq_none_iff] at hLink
    rw [view, Connection.step_behind (hSound.tidy.heavy id) hOther, hLink,
      Option.map_none]
  · cases action with
    | session action room =>
        cases action with
        | execTask faults ret =>
            by_contra hSome
            obtain ⟨next, hStep⟩ := Option.ne_none_iff_exists'.mp hSome
            have hAccepted := (Connection.accepted_execTask hStep).1
            cases Connection.stepped hStep with
            | session hAccepted' hFlow hServed hSession =>
                cases StreamSession.stepped hSession with
                | execTask hIdle hQueue =>
                    have hQueue : ownedBy id l.tasks ++ (l.links id).session.ioQueue =
                        _ :: _ := hQueue
                    rw [hTasks, hSound.tidy.queue id hAccepted] at hQueue
                    cases hQueue
        | call | dispatch | perform | destroyServer => exact absurd rfl hOther
    | sessionHeavy action =>
        have hDone := hStuck.heavy.only id
        show ((l.heavy.only id).consume action).map _ = none
        rw [hDone.consume_eq_none, Option.map_none]
    | client | establish | accept | carryToSession | carryToClient | clientRoom
    | sessionRoom | clientWait | sessionWait | clientHeavy => exact absurd rfl hOther

/-- A loop that cannot go on is quiet. -/
theorem Stuck.quiet [Fintype Id] (hStuck : l.Stuck split)
    (hBounded : BoundedSplit (stateless split)) (hSound : Sound split l)
    (hBegun : Begun l) : l.Quiet where
  connections id :=
    (hStuck.connection hSound id).quiet hBounded (hSound.orderly id) (hBegun id)
  heavy := hStuck.heavy

theorem Quiet.tasks_eq_nil (hQuiet : l.Quiet) : l.tasks = [] := by
  refine eq_nil_of_ownedBy fun id => ?_
  have hQueue : ownedBy id l.tasks ++ (l.links id).session.ioQueue = [] :=
    (hQuiet.connections id).sessionTasks
  exact (List.append_eq_nil_iff.mp hQueue).1

/-- A quiet loop cannot go on. -/
theorem Quiet.stuck [Fintype Id] (hQuiet : l.Quiet) (hSound : Sound split l) :
    l.Stuck split := by
  intro action hUnasked
  by_contra hSome
  obtain ⟨next, hStep⟩ := Option.ne_none_iff_exists'.mp hSome
  cases stepped hStep with
  | link hOther hFree hConn =>
      rename_i id action conn
      have hView := (moves_link hSound.tidy hOther hConn).view
      have hNone := (hQuiet.connections id).stuck (hSound.orderly id).watchful _ hUnasked
      rw [hView] at hNone
      cases hNone
  | runTask hTasks hFree hConn =>
      rw [hQuiet.tasks_eq_nil] at hTasks
      cases hTasks
  | heavy hConsume =>
      rw [hQuiet.heavy.consume_eq_none] at hConsume
      cases hConsume

/-! ## Nothing more is posted -/

theorem Unasked.posts {action : SharedAction Id} (hUnasked : l.Unasked split action)
    (id : Id) : clientPosts id [action] = [] ∧ sessionPosts id [action] = [] := by
  cases action with
  | link holder action =>
      by_cases hSame : holder = id
      · have hPayload : Connection.clientPosts [action] = [] ∧
            Connection.sessionPosts [action] = [] :=
          Connection.Unasked.payload hUnasked
        simpa [clientPosts, sessionPosts, stepsOf, hSame] using hPayload
      · have hNone : stepsOf id [SharedAction.link holder action] = [] := by
          simp [stepsOf, hSame]
        rw [clientPosts, sessionPosts, hNone]
        exact ⟨rfl, rfl⟩
  | runTask ret room => exact ⟨rfl, rfl⟩
  | heavy action => exact ⟨rfl, rfl⟩

end SharedLoop

end Net
end KZEvent
