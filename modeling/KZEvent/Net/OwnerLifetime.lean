import KZEvent.Net.PostedTasks

/-!
# Owner lifetime

A body should find what it uses alive.  A task that uses the object its
`LifeChecker` watches does, whatever else happens: the wrapper holds the object
until the body returns.  The fragment task of a stream server is the exception.
It is posted through the session, so it is the life of the session that is
checked, and the task itself keeps the session alive; but the body uses the
server.  So the server must not be given up while one of these tasks is queued
or running.
-/

namespace KZEvent
namespace Net
namespace Lifetime

open Foundation

namespace System

/-- The tasks still to be executed, and those that are. -/
def active (s : System) : List Site := s.io.active ++ s.heavy.active

/-- The `shared_ptr`s a step gives up. -/
def released (s : System) : Action → List Object
  | .drop object => [object]
  | .finish thread => (s.thread thread).frameHolds
  | .clear thread => captured (s.thread thread).exe
  | _ => []

/-- No step gives up the last `shared_ptr` to what an active task uses without
checking its life, that is, to a stream server with a fragment task. -/
def KeepsOwners (s : System) (action : Action) : Prop :=
  ∀ site ∈ s.active, ∀ server ∈ site.unchecked?,
    server ∈ s.released action →
      (s.released action).count server < s.roots.count server

/-- What an active task uses without checking its life has an owner. -/
def Owned (s : System) : Prop :=
  ∀ site ∈ s.active, ∀ server ∈ site.unchecked?, server ∈ s.roots

theorem count_roots_setThread (s : System) (t : ThreadState)
    (thread : LoopThread) (object : Object) :
    (s.setThread t thread).roots.count object +
        (s.thread thread).held.count object =
      s.roots.count object + t.held.count object := by
  cases thread <;>
    simp only [roots, setThread, System.thread, List.count_append] <;> omega

theorem count_roots_setThread_le {s : System} {t : ThreadState}
    {thread : LoopThread} {object : Object} {count : Nat}
    (hHeld : (s.thread thread).held.count object ≤
      t.held.count object + count) :
    s.roots.count object ≤ (s.setThread t thread).roots.count object + count := by
  have hCount := count_roots_setThread s t thread object
  omega

/-- The tables of the servers own nothing of what is counted. -/
theorem roots_setThread_sessions (s : System) (sessions : List Object)
    (t : ThreadState) (thread : LoopThread) :
    ({ s with sessions := sessions }.setThread t thread).roots =
      (s.setThread t thread).roots := by
  cases thread <;> rfl

theorem count_held (t : ThreadState) (object : Object) :
    t.held.count object =
      (captured t.buffer).count object + (captured t.exe).count object +
        (captured t.rest).count object + t.frameHolds.count object := by
  simp only [ThreadState.held, List.count_append]

theorem frameHolds_of_none {t : ThreadState} (hFrame : t.frame = none) :
    t.frameHolds = [] := by
  rw [ThreadState.frameHolds, hFrame]
  rfl

/-- A step gives up no other `shared_ptr` than those it is said to release. -/
theorem count_roots_le {s next : System} {action : Action}
    (hStep : s.Stepped action next) (object : Object) :
    s.roots.count object ≤
      next.roots.count object + (s.released action).count object := by
  cases hStep with
  | make factory =>
      simp only [roots, List.count_append, List.count_cons]
      omega
  | accept hFrame hEvent => exact Nat.le_add_right _ _
  | copy hAlive =>
      simp only [roots, List.count_append, List.count_cons]
      omega
  | drop hUser =>
      rename_i dropped
      simp only [roots, released, List.count_append, List.count_erase,
        List.count_singleton]
      omega
  | post hPostable =>
      apply count_roots_setThread_le
      rw [count_held, count_held, captured_append, List.count_append]
      simp only [ThreadState.frameHolds]
      omega
  | swap hExe hRest =>
      apply count_roots_setThread_le
      rw [count_held, count_held, hRest, captured_nil, List.count_nil]
      simp only [ThreadState.frameHolds]
      omega
  | begin hFrame hRest =>
      rename_i thread site rest
      -- The task moves inside its batch, which still owns what it captures.
      have hBatch : (s.thread thread).held.count object =
          (captured (s.thread thread).buffer).count object +
            (captured ((s.thread thread).exe ++ [site])).count object +
            (captured rest).count object := by
        rw [count_held, hRest, frameHolds_of_none hFrame, captured_cons,
          captured_append, captured_cons, captured_nil, List.append_nil,
          List.count_append, List.count_append, List.count_nil]
        omega
      simp only [execute]
      split
      · rw [roots_setThread_sessions]
        apply count_roots_setThread_le
        rw [hBatch, count_held]
        dsimp only
        omega
      · apply count_roots_setThread_le
        rw [hBatch, count_held]
        dsimp only
        omega
  | finish hFrame =>
      rename_i thread frame
      apply count_roots_setThread_le
      rw [count_held, count_held, released]
      dsimp only
      omega
  | clear hFrame hRest =>
      rename_i thread
      apply count_roots_setThread_le
      rw [count_held, count_held, released, captured_nil, List.count_nil]
      simp only [ThreadState.frameHolds]
      omega
  | enter hFrame hAlive =>
      rename_i entered
      have hThread : s.roots.count object ≤ (s.setThread
          { s.io with frame := some (s.start (.event entered)) }
          .io).roots.count object +
          (s.released (.enter entered)).count object := by
        apply count_roots_setThread_le
        rw [count_held, count_held, System.thread, frameHolds_of_none hFrame,
          List.count_nil]
        dsimp only
        omega
      exact hThread

/-! ## Active tasks -/

theorem mem_active {s : System} {site : Site} :
    site ∈ s.active ↔ ∃ thread, site ∈ (s.thread thread).active := by
  rw [active, List.mem_append]
  constructor
  · rintro (hIo | hHeavy)
    · exact ⟨.io, hIo⟩
    · exact ⟨.heavy, hHeavy⟩
  · rintro ⟨thread, hActive⟩
    cases thread with
    | io => exact .inl hActive
    | heavy => exact .inr hActive

theorem mem_active_setThread {s : System} {t : ThreadState}
    {thread : LoopThread} {site : Site}
    (hActive : site ∈ (s.setThread t thread).active) :
    site ∈ s.active ∨ site ∈ t.active := by
  cases thread <;>
    simp only [active, setThread, List.mem_append] at hActive ⊢ <;> tauto

theorem active_setThread_sessions (s : System) (sessions : List Object)
    (t : ThreadState) (thread : LoopThread) :
    ({ s with sessions := sessions }.setThread t thread).active =
      (s.setThread t thread).active := by
  cases thread <;> rfl

theorem mem_threadActive {t : ThreadState} {site : Site} :
    site ∈ t.active ↔ site ∈ t.buffer ∨ site ∈ t.rest ∨
      ∃ frame, t.frame = some frame ∧ frame.body.site? = some site := by
  simp [ThreadState.active, Option.bind_eq_some_iff]

/-- A site that is active once a thread has changed was active before, or is one
that the thread gained. -/
theorem mem_active_setThread_or {s : System} {t : ThreadState}
    {thread : LoopThread} {site : Site} {gained : Prop}
    (hActive : site ∈ (s.setThread t thread).active)
    (hThread : site ∈ t.active →
      site ∈ (s.thread thread).active ∨ gained) :
    site ∈ s.active ∨ gained := by
  rcases mem_active_setThread hActive with hBefore | hSite
  · exact .inl hBefore
  · rcases hThread hSite with hOld | hGained
    · exact .inl (mem_active.mpr ⟨thread, hOld⟩)
    · exact .inr hGained

/-- Only posted tasks become active. -/
theorem mem_active_of_stepped {s next : System} {action : Action}
    (hStep : s.Stepped action next) {site : Site} (hActive : site ∈ next.active) :
    site ∈ s.active ∨ (action = .post site ∧ s.Postable site) := by
  cases hStep with
  | make factory => exact .inl hActive
  | accept hFrame hEvent => exact .inl hActive
  | copy hAlive => exact .inl hActive
  | drop hUser => exact .inl hActive
  | post hPostable =>
      rename_i posted
      refine mem_active_setThread_or hActive fun hSite => ?_
      rw [mem_threadActive] at hSite ⊢
      rcases hSite with hBuffer | hRest
      · rcases List.mem_append.mp hBuffer with hBuffer | hPosted
        · exact .inl (.inl hBuffer)
        · obtain rfl := List.mem_singleton.mp hPosted
          exact .inr ⟨rfl, hPostable⟩
      · exact .inl (.inr hRest)
  | swap hExe hRest =>
      refine mem_active_setThread_or hActive fun hSite => .inl ?_
      rw [mem_threadActive] at hSite ⊢
      rcases hSite with hBuffer | hMoved | hFrame
      · cases hBuffer
      · exact .inl hMoved
      · exact .inr (.inr hFrame)
  | begin hFrame hRest =>
      rename_i thread begun rest
      simp only [execute] at hActive
      split at hActive
      · rw [active_setThread_sessions] at hActive
        refine mem_active_setThread_or hActive fun hSite => .inl ?_
        rw [mem_threadActive] at hSite ⊢
        rw [hRest, List.mem_cons]
        rcases hSite with hBuffer | hLeft | ⟨frame, hStarted, hBegun⟩
        · exact .inl hBuffer
        · exact .inr (.inl (.inr hLeft))
        · obtain rfl := Option.some.inj hStarted
          exact .inr (.inl (.inl (Option.some.inj hBegun).symm))
      · refine mem_active_setThread_or hActive fun hSite => .inl ?_
        rw [mem_threadActive] at hSite ⊢
        rw [hRest, List.mem_cons]
        rcases hSite with hBuffer | hLeft | ⟨frame, hRunning, -⟩
        · exact .inl hBuffer
        · exact .inr (.inl (.inr hLeft))
        · cases hFrame.symm.trans hRunning
  | finish hFrame =>
      rename_i thread frame
      refine mem_active_setThread_or hActive fun hSite => .inl ?_
      rw [mem_threadActive] at hSite ⊢
      rcases hSite with hBuffer | hLeft | ⟨_, hNone, -⟩
      · exact .inl hBuffer
      · exact .inr (.inl hLeft)
      · cases hNone
  | clear hFrame hRest =>
      exact mem_active_setThread_or hActive .inl
  | enter hFrame hAlive =>
      rename_i entered
      have hEntered : site ∈ (s.setThread
          { s.io with frame := some (s.start (.event entered)) } .io).active :=
        hActive
      refine mem_active_setThread_or hEntered fun hSite => .inl ?_
      rw [mem_threadActive] at hSite ⊢
      rcases hSite with hBuffer | hLeft | ⟨frame, hStarted, hEvent⟩
      · exact .inl hBuffer
      · exact .inr (.inl hLeft)
      · obtain rfl := Option.some.inj hStarted
        cases hEvent

/-- A fragment task is posted while the server is locked. -/
theorem unchecked_mem_roots {s : System} {site : Site}
    (hPostable : s.Postable site) {server : Object}
    (hServer : server ∈ site.unchecked?) : server ∈ s.roots := by
  have hHandler {session locked : Object} (hIn : s.InHandler session locked) :
      locked ∈ s.roots := by
    obtain ⟨frame, hFrame, -, hHolds⟩ := hIn
    refine held_subset_roots .io (ThreadState.mem_held.mpr ?_)
    right; right; right
    rw [System.thread, ThreadState.frameHolds, hFrame]
    exact hHolds
  cases site with
  | tcpServerFragment id session =>
      obtain rfl := Option.some.inj (Option.filter_eq_some_iff.mp hServer).1
      exact hHandler hPostable
  | unixServerFragment id session =>
      obtain rfl := Option.some.inj (Option.filter_eq_some_iff.mp hServer).1
      exact hHandler hPostable
  | _ =>
      rw [unchecked?_eq_none (by exact id)] at hServer
      cases hServer

theorem owned_step (s : System) (action : Action) (next : System)
    (hOwned : s.Owned) (hKeeps : s.KeepsOwners action)
    (hStep : step s action = some next) : next.Owned := by
  intro site hActive server hServer
  have hStepped := stepped hStep
  have hCount := count_roots_le hStepped server
  -- Someone owns the server whose `shared_ptr` the step does not give up.
  have hLeft : (s.released action).count server < s.roots.count server := by
    rcases mem_active_of_stepped hStepped hActive with hOld | ⟨rfl, hPostable⟩
    · by_cases hReleased : server ∈ s.released action
      · exact hKeeps site hOld server hServer hReleased
      · rw [List.count_eq_zero_of_not_mem hReleased]
        exact List.count_pos_iff.mpr (hOwned site hOld server hServer)
    · exact List.count_pos_iff.mpr (unchecked_mem_roots hPostable hServer)
  apply List.count_pos_iff.mp
  omega

theorem owned_initial : System.initial.Owned := fun _ hActive => by cases hActive

/-- A body finds alive what its wrapper checked. -/
theorem alive_of_checked {s : System} {thread : LoopThread} {frame : Frame}
    (hFrame : (s.thread thread).frame = some frame) {object : Object}
    (hThis : object ∈ frame.body.rawThis)
    (hChecked : ∀ site, frame.body.site? = some site →
      object ∉ site.unchecked?) : s.Alive object := by
  obtain ⟨body, holds, hKeep⟩ := frame
  have hSame : object = body.lifeChecker := by
    cases body with
    | event entered => exact (Option.some.inj hThis).symm
    | task site =>
        by_contra hOther
        refine hChecked site rfl (Option.filter_eq_some_iff.mpr ⟨hThis, ?_⟩)
        exact decide_eq_true hOther
  rw [hSame]
  exact alive_of_frame hFrame hKeep

/-- A body finds alive what it uses, when what it does not check is owned. -/
theorem Owned.alive {s : System} (hOwned : s.Owned) {thread : LoopThread}
    {frame : Frame} (hFrame : (s.thread thread).frame = some frame)
    {object : Object} (hThis : object ∈ frame.body.rawThis) :
    s.Alive object := by
  -- The invariant speaks about what the wrapper does not check.
  by_cases hUnchecked : ∃ site, frame.body.site? = some site ∧
      object ∈ site.unchecked?
  · obtain ⟨site, hSite, hObject⟩ := hUnchecked
    have hActive : site ∈ s.active := mem_active.mpr
      ⟨thread, mem_threadActive.mpr (.inr (.inr ⟨frame, hFrame, hSite⟩))⟩
    exact .inl (hOwned site hActive object hObject)
  · refine alive_of_checked hFrame hThis fun site hSite hObject => ?_
    exact hUnchecked ⟨site, hSite, hObject⟩

instance (s : System) (action : Action) : Decidable (s.KeepsOwners action) :=
  inferInstanceAs (Decidable (∀ site ∈ s.active, ∀ server ∈ site.unchecked?, _))

end System

/-- **Owner lifetime.**  In every run, the bodies of all posted tasks and
callbacks except the fragment tasks of stream servers find the object they use
alive, as long as they run; in a run whose steps keep to `KeepsOwners`, these
do, too. -/
theorem owner_alive_while_running (actions : List Action) (s : System)
    (hRun : run System.step .initial actions = some s) :
    (∀ thread frame, (s.thread thread).frame = some frame →
      (∀ site, frame.body.site? = some site → ¬ site.IsServerFragment) →
      ∀ object ∈ frame.body.rawThis, s.Alive object) ∧
    (Guarded System.step System.KeepsOwners .initial actions →
      ∀ thread frame, (s.thread thread).frame = some frame →
        ∀ object ∈ frame.body.rawThis, s.Alive object) := by
  constructor
  · intro thread frame hFrame hSite object hThis
    refine System.alive_of_checked hFrame hThis fun site hBody hObject => ?_
    rw [unchecked?_eq_none (hSite site hBody)] at hObject
    cases hObject
  · intro hGuarded thread frame hFrame object hThis
    have hOwned : s.Owned := run_invariant System.owned_step
      System.owned_initial hGuarded hRun
    exact hOwned.alive hFrame hThis

/-- A server accepts a session, whose handler posts a fragment task. -/
def fragmentPosted : List Action :=
  [.make (.makeStreamServer .tcpServer), .enter (.streamServer .tcpServer 0),
    .accept, .finish .io, .enter (.streamSession .tcpServer 0 1),
    .post (.tcpServerFragment 0 1), .finish .io]

/-- The user gives up a copy, and the fragment task finds its server alive. -/
theorem owner_alive_while_running_fragment :
    let actions : List Action :=
      fragmentPosted ++ [.copy (.streamServer .tcpServer 0),
        .drop (.streamServer .tcpServer 0), .swap .heavy, .begin .heavy]
    ∃ s frame, run System.step .initial actions = some s ∧
      s.heavy.frame = some frame ∧
      frame.body.rawThis = some (.streamServer .tcpServer 0) ∧
      ∀ object ∈ frame.body.rawThis, s.Alive object := by
  intro actions
  obtain ⟨hGuarded, hOutcome⟩ :
      Guarded System.step System.KeepsOwners .initial actions ∧
      (run System.step .initial actions).bind (fun s =>
        s.heavy.frame.map fun frame => frame.body.rawThis) =
        some (some (.streamServer .tcpServer 0)) := by
    decide +kernel
  obtain ⟨s, hRun, hView⟩ := Option.bind_eq_some_iff.mp hOutcome
  obtain ⟨frame, hFrame, hThis⟩ := Option.map_eq_some_iff.mp hView
  exact ⟨s, frame, hRun, hFrame, hThis,
    (owner_alive_while_running actions s hRun).2 hGuarded .heavy frame hFrame⟩

/-- The user gives up the server while a fragment task is queued.  The session,
which the task captures, passes the test, and the body uses a server that is
gone. -/
theorem fragment_uses_destroyed_server :
    ∃ s frame, run System.step .initial
        (fragmentPosted ++ [.drop (.streamServer .tcpServer 0), .swap .heavy,
          .begin .heavy]) = some s ∧
      s.heavy.frame = some frame ∧
      frame.body.rawThis = some (.streamServer .tcpServer 0) ∧
      s.Alive (.streamSession .tcpServer 0 1) ∧
      ¬ s.Alive (.streamServer .tcpServer 0) := by
  have hOutcome : (run System.step .initial
      (fragmentPosted ++ [.drop (.streamServer .tcpServer 0), .swap .heavy,
        .begin .heavy])).bind (fun s => s.heavy.frame.map fun frame =>
          (frame.body.rawThis,
            decide (s.Alive (.streamSession .tcpServer 0 1)),
            decide (s.Alive (.streamServer .tcpServer 0)))) =
      some (some (.streamServer .tcpServer 0), true, false) := by
    decide +kernel
  obtain ⟨s, hRun, hView⟩ := Option.bind_eq_some_iff.mp hOutcome
  obtain ⟨frame, hFrame, hSeen⟩ := Option.map_eq_some_iff.mp hView
  obtain ⟨hThis, hSeen⟩ := Prod.mk.inj hSeen
  obtain ⟨hSession, hServer⟩ := Prod.mk.inj hSeen
  exact ⟨s, frame, hRun, hFrame, hThis, of_decide_eq_true hSession,
    of_decide_eq_false hServer⟩

end Lifetime
end Net
end KZEvent
