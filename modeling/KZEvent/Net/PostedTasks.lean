import KZEvent.Foundation.Run

/-!
# Owners and posted tasks

The library posts tasks that use the object they were posted for through a
captured `this`.  Each of them carries a `LifeChecker`, a weak pointer that is
locked before the body runs and held until it returns.  This module models the
objects by what owns them: an object is alive while some `shared_ptr` to it is
left, with the user, in a queue, in a running body, or in the table of sessions
of a server that is alive itself.

A UDP session is no object of this model: nothing uses it through `this`.
-/

namespace KZEvent
namespace Net
namespace Lifetime

open Foundation

/-! ## Objects -/

inductive StreamServerKind
  | tcpServer
  | unixServer
deriving DecidableEq

inductive StreamClientKind
  | tcpClient
  | unixClient
deriving DecidableEq

inductive DgramSocketKind
  | udpNode
  | udpClient
  | udpServer
deriving DecidableEq

/-- An object of the library.  A stream session knows its server, by a weak
pointer. -/
inductive Object
  | streamServer (kind : StreamServerKind) (id : Nat)
  | streamSession (kind : StreamServerKind) (server id : Nat)
  | streamClient (kind : StreamClientKind) (id : Nat)
  | dgramSocket (kind : DgramSocketKind) (id : Nat)
deriving DecidableEq

def Object.id : Object → Nat
  | streamServer _ id => id
  | streamSession _ _ id => id
  | streamClient _ id => id
  | dgramSocket _ id => id

/-- `server_` of a stream session. -/
def Object.server? : Object → Option Object
  | streamSession kind server _ => some (.streamServer kind server)
  | _ => none

/-! ## The tasks the library posts -/

/-- The threads of a loop. -/
inductive LoopThread
  | io
  | heavy
deriving DecidableEq

/-- A posted task: its queue, the object its `LifeChecker` watches, the object
it uses through a captured `this`, the `shared_ptr`s it captures, the weak
pointer its body locks first, and whether it erases the session from the table
of the server. -/
structure LibTask where
  thread : LoopThread
  lifeChecker : Object
  rawThis : Option Object
  captures : List Object := []
  locks : Option Object := none
  erases : Bool := false

/-- A task that uses the object whose life it checks. -/
def ownTask (thread : LoopThread) (object : Object) : LibTask where
  thread := thread
  lifeChecker := object
  rawThis := some object

def DgramSocket.postSendTask (kind : DgramSocketKind) (id : Nat) : LibTask :=
  ownTask .io (.dgramSocket kind id)

def UdpNode.onRead (id : Nat) : LibTask :=
  ownTask .heavy (.dgramSocket .udpNode id)

def UdpClient.onRead (id : Nat) : LibTask :=
  ownTask .heavy (.dgramSocket .udpClient id)

def UdpServer.onRead (id : Nat) : LibTask :=
  ownTask .heavy (.dgramSocket .udpServer id)

def StreamSession.postSendTask (kind : StreamServerKind) (server id : Nat) :
    LibTask :=
  { ownTask .io (.streamSession kind server id) with
    locks := some (.streamServer kind server) }

def StreamSession.stop (kind : StreamServerKind) (server id : Nat) : LibTask :=
  -- `sessions_` belongs to the server, which the body locks.
  { ownTask .io (.streamSession kind server id) with
    locks := some (.streamServer kind server)
    erases := true }

/-- The task is posted through the session, and captures it, but uses the
server. -/
def TcpServer.onFragment (server session : Nat) : LibTask where
  thread := .heavy
  lifeChecker := .streamSession .tcpServer server session
  rawThis := some (.streamServer .tcpServer server)
  captures := [.streamSession .tcpServer server session]

/-- As for a TCP server. -/
def UnixServer.onFragment (server session : Nat) : LibTask where
  thread := .heavy
  lifeChecker := .streamSession .unixServer server session
  rawThis := some (.streamServer .unixServer server)
  captures := [.streamSession .unixServer server session]

def StreamClientSocket.postSendTask (kind : StreamClientKind) (id : Nat) :
    LibTask :=
  ownTask .io (.streamClient kind id)

/-- The task that arms the timer of an attempt. -/
def StreamClientSocket.connect (kind : StreamClientKind) (id : Nat) : LibTask :=
  ownTask .io (.streamClient kind id)

def TcpClient.onFragment (id : Nat) : LibTask :=
  ownTask .heavy (.streamClient .tcpClient id)

def UnixClient.onFragment (id : Nat) : LibTask :=
  ownTask .heavy (.streamClient .unixClient id)

/-- A task of the user, posted through an object of the library. -/
def postHeavyTask (owner : Object) (captures : List Object) : LibTask where
  thread := .heavy
  lifeChecker := owner
  rawThis := none
  captures := captures

/-- The places tasks are posted from. -/
inductive Site
  | dgramSend (kind : DgramSocketKind) (id : Nat)
  | udpNodeRead (id : Nat)
  | udpClientRead (id : Nat)
  | udpServerRead (id : Nat)
  | sessionSend (kind : StreamServerKind) (server id : Nat)
  | sessionStop (kind : StreamServerKind) (server id : Nat)
  | tcpServerFragment (server session : Nat)
  | unixServerFragment (server session : Nat)
  | clientSend (kind : StreamClientKind) (id : Nat)
  | clientConnect (kind : StreamClientKind) (id : Nat)
  | tcpClientFragment (id : Nat)
  | unixClientFragment (id : Nat)
  | user (owner : Object) (captures : List Object)

def Site.task : Site → LibTask
  | dgramSend kind id => DgramSocket.postSendTask kind id
  | udpNodeRead id => UdpNode.onRead id
  | udpClientRead id => UdpClient.onRead id
  | udpServerRead id => UdpServer.onRead id
  | sessionSend kind server id => StreamSession.postSendTask kind server id
  | sessionStop kind server id => StreamSession.stop kind server id
  | tcpServerFragment server session => TcpServer.onFragment server session
  | unixServerFragment server session => UnixServer.onFragment server session
  | clientSend kind id => StreamClientSocket.postSendTask kind id
  | clientConnect kind id => StreamClientSocket.connect kind id
  | tcpClientFragment id => TcpClient.onFragment id
  | unixClientFragment id => UnixClient.onFragment id
  | user owner captures => postHeavyTask owner captures

/-- The fragment task of a stream server. -/
def Site.IsServerFragment : Site → Prop
  | tcpServerFragment _ _ | unixServerFragment _ _ => True
  | _ => False

/-- The object the body uses without checking its life. -/
def Site.unchecked? (site : Site) : Option Object :=
  site.task.rawThis.filter (· ≠ site.task.lifeChecker)

/-- Every body but that of a server's fragment task checks the life of what it
uses. -/
theorem unchecked?_eq_none {site : Site} (hSite : ¬ site.IsServerFragment) :
    site.unchecked? = none := by
  cases site with
  | tcpServerFragment server session => exact absurd trivial hSite
  | unixServerFragment server session => exact absurd trivial hSite
  | _ =>
      simp [Site.unchecked?, Site.task, ownTask, DgramSocket.postSendTask,
        UdpNode.onRead, UdpClient.onRead, UdpServer.onRead,
        StreamSession.postSendTask, StreamSession.stop,
        StreamClientSocket.postSendTask, StreamClientSocket.connect,
        TcpClient.onFragment, UnixClient.onFragment, postHeavyTask]

/-- The `shared_ptr`s a list of tasks captures. -/
def captured (sites : List Site) : List Object :=
  sites.flatMap fun site => site.task.captures

@[simp]
theorem captured_nil : captured [] = [] := rfl

@[simp]
theorem captured_append (sites later : List Site) :
    captured (sites ++ later) = captured sites ++ captured later :=
  List.flatMap_append

@[simp]
theorem captured_cons (site : Site) (sites : List Site) :
    captured (site :: sites) = site.task.captures ++ captured sites :=
  List.flatMap_cons

/-! ## The system -/

/-- What a thread is executing: a posted task, or the callback of an object. -/
inductive Body
  | task (site : Site)
  | event (object : Object)

namespace Body

/-- What is locked before the body runs. -/
def lifeChecker : Body → Object
  | task site => site.task.lifeChecker
  | event object => object

/-- What the body uses through a captured `this`. -/
def rawThis : Body → Option Object
  | task site => site.task.rawThis
  | event object => some object

/-- What the body locks first. -/
def locks : Body → Option Object
  | task site => site.task.locks
  | event object => object.server?

def site? : Body → Option Site
  | task site => some site
  | event _ => none

def event? : Body → Option Object
  | task _ => none
  | event object => some object

end Body

/-- A body at work.  It holds what its wrapper locked. -/
structure Frame where
  body : Body
  holds : List Object
  keepLife : body.lifeChecker ∈ holds

/-- A thread of the loop: the tasks posted to it, the tasks of the current batch
that have been executed or are, and those to come.  The batch is destroyed as a
whole. -/
structure ThreadState where
  buffer : List Site
  exe : List Site
  rest : List Site
  frame : Option Frame

namespace ThreadState

/-- The `shared_ptr`s the running body holds. -/
def frameHolds (t : ThreadState) : List Object :=
  (t.frame.map Frame.holds).getD []

/-- The `shared_ptr`s the tasks and the running body hold. -/
def held (t : ThreadState) : List Object :=
  captured t.buffer ++ captured t.exe ++ captured t.rest ++ t.frameHolds

theorem mem_held {t : ThreadState} {object : Object} :
    object ∈ t.held ↔ object ∈ captured t.buffer ∨ object ∈ captured t.exe ∨
      object ∈ captured t.rest ∨ object ∈ t.frameHolds := by
  simp only [held, List.mem_append, or_assoc]

/-- The tasks still to be executed, and the one that is. -/
def active (t : ThreadState) : List Site :=
  t.buffer ++ t.rest ++ (t.frame.bind fun frame => frame.body.site?).toList

end ThreadState

/-- The `shared_ptr`s of the user, the sessions in the table of their server,
and the two threads.  Objects are numbered as they are made. -/
structure System where
  users : List Object
  sessions : List Object
  io : ThreadState
  heavy : ThreadState
  nextId : Nat

/-- The factories. -/
inductive Factory
  | makeStreamServer (kind : StreamServerKind)
  | makeStreamClient (kind : StreamClientKind)
  | makeDgramSocket (kind : DgramSocketKind)

def Factory.object (id : Nat) : Factory → Object
  | makeStreamServer kind => .streamServer kind id
  | makeStreamClient kind => .streamClient kind id
  | makeDgramSocket kind => .dgramSocket kind id

/-- A step of a run. -/
inductive Action
  | make (factory : Factory)
  | accept
  | copy (object : Object)
  | drop (object : Object)
  | post (site : Site)
  | swap (thread : LoopThread)
  | begin (thread : LoopThread)
  | finish (thread : LoopThread)
  | clear (thread : LoopThread)
  | enter (object : Object)

namespace System

def initial : System where
  users := []
  sessions := []
  io := { buffer := [], exe := [], rest := [], frame := none }
  heavy := { buffer := [], exe := [], rest := [], frame := none }
  nextId := 0

def thread (s : System) : LoopThread → ThreadState
  | .io => s.io
  | .heavy => s.heavy

def setThread (s : System) (t : ThreadState) : LoopThread → System
  | .io => { s with io := t }
  | .heavy => { s with heavy := t }

/-- The `shared_ptr`s outside the tables of the servers. -/
def roots (s : System) : List Object :=
  s.users ++ s.io.held ++ s.heavy.held

/-- Some `shared_ptr` to the object is left.  The table of a server goes with
the server. -/
def Alive (s : System) (object : Object) : Prop :=
  object ∈ s.roots ∨
    (object ∈ s.sessions ∧ ∃ server ∈ s.roots, object.server? = some server)

instance (s : System) (object : Object) : Decidable (s.Alive object) :=
  inferInstanceAs (Decidable (_ ∨ (_ ∧ ∃ server ∈ s.roots, _)))

/-- Lock a weak pointer. -/
def lock (s : System) (object : Option Object) : List Object :=
  object.toList.filter fun object => s.Alive object

/-- Start a body whose `LifeChecker` passed the test. -/
def start (s : System) (body : Body) : Frame where
  body := body
  holds := body.lifeChecker :: s.lock body.locks
  keepLife := List.mem_cons_self

/-- The table of sessions after the body of a task ran; without the server it
erases nothing. -/
def erased (s : System) (task : LibTask) : List Object :=
  if task.erases ∧ s.lock task.locks ≠ [] then
    s.sessions.filter (· ≠ task.lifeChecker)
  else
    s.sessions

/-- The io thread is in the handler of `session`, which has locked `server`. -/
def InHandler (s : System) (session server : Object) : Prop :=
  ∃ frame ∈ s.io.frame, frame.body.event? = some session ∧ server ∈ frame.holds

/-- A task can be posted.  A fragment task of a server is posted by the handler
of the session; the task of `stop` is posted by the destructor of the session
too; everything else needs the object. -/
def Postable (s : System) : Site → Prop
  | .tcpServerFragment server session =>
      s.InHandler (.streamSession .tcpServer server session)
        (.streamServer .tcpServer server)
  | .unixServerFragment server session =>
      s.InHandler (.streamSession .unixServer server session)
        (.streamServer .unixServer server)
  | .sessionStop _ _ _ => True
  | .user owner captures => s.Alive owner ∧ ∀ object ∈ captures, s.Alive object
  | site => s.Alive site.task.lifeChecker

instance (s : System) (session server : Object) :
    Decidable (s.InHandler session server) :=
  match hFrame : s.io.frame with
  | none => .isFalse (by simp [InHandler, hFrame])
  | some frame =>
      decidable_of_iff
        (frame.body.event? = some session ∧ server ∈ frame.holds)
        (by simp [InHandler, hFrame])

instance (s : System) (site : Site) : Decidable (s.Postable site) :=
  match site with
  | .tcpServerFragment _ _ | .unixServerFragment _ _ =>
      inferInstanceAs (Decidable (s.InHandler _ _))
  | .sessionStop _ _ _ => .isTrue trivial
  | .user _ _ => inferInstanceAs (Decidable (_ ∧ _))
  | .dgramSend _ _ | .udpNodeRead _ | .udpClientRead _ | .udpServerRead _
  | .sessionSend _ _ _ | .clientSend _ _ | .clientConnect _ _
  | .tcpClientFragment _ | .unixClientFragment _ =>
      inferInstanceAs (Decidable (s.Alive _))

/-- Put a task into its queue. -/
def enqueue (s : System) (site : Site) : System :=
  let t := s.thread site.task.thread
  s.setThread { t with buffer := t.buffer ++ [site] } site.task.thread

/-- Execute the next task of the batch: unless what its `LifeChecker` watches is
gone, the body starts. -/
def execute (s : System) (thread : LoopThread) (site : Site)
    (rest : List Site) : System :=
  let t := s.thread thread
  let next := { t with exe := t.exe ++ [site], rest := rest }
  if s.Alive site.task.lifeChecker then
    { s with sessions := s.erased site.task }.setThread
      { next with frame := some (s.start (.task site)) } thread
  else
    -- The body is skipped; the task stays in the batch until it is cleared.
    s.setThread next thread

/-- One step.  Callbacks of objects are called on the io thread, between two
batches. -/
def step (s : System) : Action → Option System
  | .make factory =>
      some { s with
        users := factory.object s.nextId :: s.users
        nextId := s.nextId + 1 }
  | .accept =>
      match s.io.frame.bind fun frame => frame.body.event? with
      | some (.streamServer kind server) =>
          -- The table of the server holds the only `shared_ptr`.
          some { s with
            sessions := .streamSession kind server s.nextId :: s.sessions
            nextId := s.nextId + 1 }
      | _ => none
  | .copy object =>
      if s.Alive object then some { s with users := object :: s.users }
      else none
  | .drop object =>
      if object ∈ s.users then some { s with users := s.users.erase object }
      else none
  | .post site => if s.Postable site then some (s.enqueue site) else none
  | .swap thread =>
      let t := s.thread thread
      match t.frame, t.exe, t.rest with
      | none, [], [] =>
          some (s.setThread { t with buffer := [], rest := t.buffer } thread)
      | _, _, _ => none
  | .begin thread =>
      let t := s.thread thread
      match t.frame, t.rest with
      | none, site :: rest => some (s.execute thread site rest)
      | _, _ => none
  | .finish thread =>
      let t := s.thread thread
      match t.frame with
      | some _ => some (s.setThread { t with frame := none } thread)
      | none => none
  | .clear thread =>
      let t := s.thread thread
      match t.frame, t.rest with
      | none, [] => some (s.setThread { t with exe := [] } thread)
      | _, _ => none
  | .enter object =>
      match s.io.frame, s.io.exe, s.io.rest with
      | none, [], [] =>
          -- The wrapper of the callback locks the object as that of a task does.
          if s.Alive object then
            some { s with io := { s.io with frame := some (s.start (.event object)) } }
          else
            none
      | _, _, _ => none

/-- The ways a step can be taken, with their preconditions. -/
inductive Stepped (s : System) : Action → System → Prop
  | make (factory : Factory) :
      Stepped s (.make factory)
        { s with
          users := factory.object s.nextId :: s.users
          nextId := s.nextId + 1 }
  | accept {kind : StreamServerKind} {server : Nat} {frame : Frame}
      (hFrame : s.io.frame = some frame)
      (hEvent : frame.body.event? = some (.streamServer kind server)) :
      Stepped s .accept
        { s with
          sessions := .streamSession kind server s.nextId :: s.sessions
          nextId := s.nextId + 1 }
  | copy {object : Object} (hAlive : s.Alive object) :
      Stepped s (.copy object) { s with users := object :: s.users }
  | drop {object : Object} (hUser : object ∈ s.users) :
      Stepped s (.drop object) { s with users := s.users.erase object }
  | post {site : Site} (hPostable : s.Postable site) :
      Stepped s (.post site) (s.enqueue site)
  | swap {thread : LoopThread} (hExe : (s.thread thread).exe = [])
      (hRest : (s.thread thread).rest = []) :
      Stepped s (.swap thread) (s.setThread
        { s.thread thread with
          buffer := []
          rest := (s.thread thread).buffer } thread)
  | begin {thread : LoopThread} {site : Site} {rest : List Site}
      (hFrame : (s.thread thread).frame = none)
      (hRest : (s.thread thread).rest = site :: rest) :
      Stepped s (.begin thread) (s.execute thread site rest)
  | finish {thread : LoopThread} {frame : Frame}
      (hFrame : (s.thread thread).frame = some frame) :
      Stepped s (.finish thread)
        (s.setThread { s.thread thread with frame := none } thread)
  | clear {thread : LoopThread} (hFrame : (s.thread thread).frame = none)
      (hRest : (s.thread thread).rest = []) :
      Stepped s (.clear thread)
        (s.setThread { s.thread thread with exe := [] } thread)
  | enter {object : Object} (hFrame : s.io.frame = none)
      (hAlive : s.Alive object) :
      Stepped s (.enter object)
        { s with io := { s.io with frame := some (s.start (.event object)) } }

theorem stepped {s next : System} {action : Action}
    (hStep : step s action = some next) : Stepped s action next := by
  cases action with
  | make factory =>
      obtain rfl := Option.some.inj hStep
      exact .make factory
  | accept =>
      simp only [step] at hStep
      split at hStep
      · rename_i kind server hEvent
        obtain ⟨frame, hFrame, hEvent⟩ := Option.bind_eq_some_iff.mp hEvent
        obtain rfl := Option.some.inj hStep
        exact .accept hFrame hEvent
      · cases hStep
  | copy object =>
      simp only [step] at hStep
      split at hStep
      · rename_i hAlive
        obtain rfl := Option.some.inj hStep
        exact .copy hAlive
      · cases hStep
  | drop object =>
      simp only [step] at hStep
      split at hStep
      · rename_i hUser
        obtain rfl := Option.some.inj hStep
        exact .drop hUser
      · cases hStep
  | post site =>
      simp only [step] at hStep
      split at hStep
      · rename_i hPostable
        obtain rfl := Option.some.inj hStep
        exact .post hPostable
      · cases hStep
  | swap thread =>
      simp only [step] at hStep
      split at hStep
      · rename_i hFrame hExe hRest
        obtain rfl := Option.some.inj hStep
        exact .swap hExe hRest
      · cases hStep
  | begin thread =>
      simp only [step] at hStep
      split at hStep
      · rename_i hFrame hRest
        obtain rfl := Option.some.inj hStep
        exact .begin hFrame hRest
      · cases hStep
  | finish thread =>
      simp only [step] at hStep
      split at hStep
      · rename_i hFrame
        obtain rfl := Option.some.inj hStep
        exact .finish hFrame
      · cases hStep
  | clear thread =>
      simp only [step] at hStep
      split at hStep
      · rename_i hFrame hRest
        obtain rfl := Option.some.inj hStep
        exact .clear hFrame hRest
      · cases hStep
  | enter object =>
      simp only [step] at hStep
      split at hStep
      · rename_i hFrame hExe hRest
        split at hStep
        · rename_i hAlive
          obtain rfl := Option.some.inj hStep
          exact .enter hFrame hAlive
        · cases hStep
      · cases hStep

/-! ## Owners, step by step -/

theorem mem_roots {s : System} {object : Object} :
    object ∈ s.roots ↔ object ∈ s.users ∨
      ∃ thread, object ∈ (s.thread thread).held := by
  simp only [roots, List.mem_append]
  constructor
  · rintro ((hUser | hIo) | hHeavy)
    · exact .inl hUser
    · exact .inr ⟨.io, hIo⟩
    · exact .inr ⟨.heavy, hHeavy⟩
  · rintro (hUser | ⟨thread, hHeld⟩)
    · exact .inl (.inl hUser)
    · cases thread with
      | io => exact .inl (.inr hHeld)
      | heavy => exact .inr hHeld

/-- A running body keeps alive what its wrapper locked. -/
theorem alive_of_frame {s : System} {thread : LoopThread} {frame : Frame}
    (hFrame : (s.thread thread).frame = some frame) {object : Object}
    (hHolds : object ∈ frame.holds) : s.Alive object := by
  refine .inl (mem_roots.mpr (.inr ⟨thread, ?_⟩))
  rw [ThreadState.held, ThreadState.frameHolds, hFrame]
  exact List.mem_append_right _ hHolds

theorem alive_of_mem_lock {s : System} {object : Object}
    {weak : Option Object} (hLocked : object ∈ s.lock weak) : s.Alive object := by
  simpa using (List.mem_filter.mp hLocked).2

/-- What a body that starts holds was alive. -/
theorem alive_of_mem_start {s : System} (body : Body) {object : Object}
    (hChecked : s.Alive body.lifeChecker)
    (hHolds : object ∈ (s.start body).holds) : s.Alive object := by
  rcases List.mem_cons.mp hHolds with rfl | hLocked
  · exact hChecked
  · exact alive_of_mem_lock hLocked

theorem mem_roots_setThread {s : System} {t : ThreadState}
    {thread : LoopThread} {object : Object}
    (hRoot : object ∈ (s.setThread t thread).roots) :
    object ∈ s.roots ∨ object ∈ t.held := by
  cases thread <;>
    simp only [roots, setThread, List.mem_append] at hRoot ⊢ <;> tauto

theorem mem_roots_users {s : System} {users : List Object} {nextId : Nat}
    {object : Object}
    (hRoot : object ∈ ({ s with users := users, nextId := nextId } : System).roots) :
    object ∈ users ∨ object ∈ s.roots := by
  simp only [roots, List.mem_append] at hRoot ⊢
  tauto

theorem held_subset_roots {s : System} (thread : LoopThread) :
    (s.thread thread).held ⊆ s.roots :=
  fun _ hHeld => mem_roots.mpr (.inr ⟨thread, hHeld⟩)

/-- The `shared_ptr`s a task captures are copies of ones there are. -/
theorem alive_of_mem_captures {s : System} {site : Site} {object : Object}
    (hPostable : s.Postable site) (hCaptured : object ∈ site.task.captures) :
    s.Alive object := by
  have hHandler {session server : Object} (hIn : s.InHandler session server) :
      s.Alive session := by
    obtain ⟨⟨body, holds, hKeep⟩, hFrame, hEvent, -⟩ := hIn
    cases body with
    | task site => cases hEvent
    | event object =>
        obtain rfl := Option.some.inj hEvent
        have hIo : (s.thread .io).frame = some ⟨.event object, holds, hKeep⟩ :=
          hFrame
        exact alive_of_frame hIo hKeep
  cases site with
  | tcpServerFragment server session =>
      obtain rfl := List.mem_singleton.mp hCaptured
      exact hHandler hPostable
  | unixServerFragment server session =>
      obtain rfl := List.mem_singleton.mp hCaptured
      exact hHandler hPostable
  | user owner captures => exact hPostable.2 object hCaptured
  | _ => cases hCaptured

/-- Who owns an object after a step of a thread owned it before, if what the
thread holds was alive. -/
theorem alive_of_mem_setThread {s before : System} {t : ThreadState}
    {thread : LoopThread} {object : Object} (hSame : before.roots = s.roots)
    (hRoot : object ∈ (before.setThread t thread).roots)
    (hHeld : object ∈ captured t.buffer ∨ object ∈ captured t.exe ∨
      object ∈ captured t.rest ∨ object ∈ t.frameHolds → s.Alive object) :
    s.Alive object := by
  rcases mem_roots_setThread hRoot with hBefore | hMem
  · rw [hSame] at hBefore
    exact .inl hBefore
  · exact hHeld (ThreadState.mem_held.mp hMem)

/-- What a thread holds is alive. -/
theorem alive_of_mem_thread {s : System} {thread : LoopThread} {object : Object}
    (hHeld : object ∈ captured (s.thread thread).buffer ∨
      object ∈ captured (s.thread thread).exe ∨
      object ∈ captured (s.thread thread).rest ∨
      object ∈ (s.thread thread).frameHolds) : s.Alive object :=
  .inl (held_subset_roots thread (ThreadState.mem_held.mpr hHeld))

/-- A thread goes to a frame in which it holds nothing that is not alive. -/
theorem alive_of_mem_setFrame {s : System} {thread : LoopThread}
    {frame? : Option Frame} {object : Object}
    (hRoot : object ∈ (s.setThread
      { s.thread thread with frame := frame? } thread).roots)
    (hFrame : ∀ frame, frame? = some frame → object ∈ frame.holds →
      s.Alive object) : s.Alive object := by
  apply alive_of_mem_setThread rfl hRoot
  rintro (hBuffer | hExecuted | hLeft | hHolds)
  · exact alive_of_mem_thread (.inl hBuffer)
  · exact alive_of_mem_thread (.inr (.inl hExecuted))
  · exact alive_of_mem_thread (.inr (.inr (.inl hLeft)))
  · cases frame? with
    | none => cases hHolds
    | some frame => exact hFrame frame rfl hHolds

/-- A thread goes on to the next task of its batch, and runs it if the check
passes. -/
theorem alive_of_mem_execute {s : System} {thread : LoopThread} {site : Site}
    {rest : List Site} (hFrame : (s.thread thread).frame = none)
    (hRest : (s.thread thread).rest = site :: rest) {object : Object}
    (hRoot : object ∈ (s.execute thread site rest).roots) : s.Alive object := by
  have hBatch (hHeld : object ∈ captured (s.thread thread).buffer ∨
      object ∈ captured ((s.thread thread).exe ++ [site]) ∨
      object ∈ captured rest) : s.Alive object := by
    apply @alive_of_mem_thread s thread object
    simp only [hRest, captured_append, captured_cons, captured_nil,
      List.append_nil, List.mem_append] at hHeld ⊢
    tauto
  simp only [execute] at hRoot
  split at hRoot
  · rename_i hChecked
    have hErased : ({ s with sessions := s.erased site.task } : System).roots =
        s.roots := rfl
    apply alive_of_mem_setThread hErased hRoot
    rintro (hBuffer | hExecuted | hLeft | hHolds)
    · exact hBatch (.inl hBuffer)
    · exact hBatch (.inr (.inl hExecuted))
    · exact hBatch (.inr (.inr hLeft))
    · exact alive_of_mem_start (.task site) hChecked hHolds
  · apply alive_of_mem_setThread rfl hRoot
    rintro (hBuffer | hExecuted | hLeft | hHolds)
    · exact hBatch (.inl hBuffer)
    · exact hBatch (.inr (.inl hExecuted))
    · exact hBatch (.inr (.inr hLeft))
    · rw [ThreadState.frameHolds, hFrame] at hHolds
      cases hHolds

/-- Whoever comes to own an object just made it, or got it while it was
alive. -/
theorem alive_of_mem_roots {s next : System} {action : Action}
    (hStep : s.Stepped action next) {object : Object}
    (hRoot : object ∈ next.roots) :
    s.Alive object ∨ (s.nextId ≤ object.id ∧ object.id < next.nextId) := by
  have hRoots (hOld : object ∈ s.roots) :
      s.Alive object ∨ (s.nextId ≤ object.id ∧ object.id < next.nextId) :=
    .inl (.inl hOld)
  -- One case per step: the new owner was an old one, or copies one.
  cases hStep with
  | make factory =>
      rcases mem_roots_users hRoot with hUser | hRoot
      · rcases List.mem_cons.mp hUser with rfl | hUser
        · have hId : (factory.object s.nextId).id = s.nextId := by
            cases factory <;> rfl
          exact .inr ⟨Nat.le_of_eq hId.symm, by rw [hId]; exact Nat.lt_succ_self _⟩
        · exact hRoots (mem_roots.mpr (.inl hUser))
      · exact hRoots hRoot
  | accept hFrame hEvent => exact hRoots hRoot
  | copy hAlive =>
      rcases mem_roots_users hRoot with hUser | hRoot
      · rcases List.mem_cons.mp hUser with rfl | hUser
        · exact .inl hAlive
        · exact hRoots (mem_roots.mpr (.inl hUser))
      · exact hRoots hRoot
  | drop hUser =>
      rcases mem_roots_users hRoot with hUser | hRoot
      · exact hRoots (mem_roots.mpr (.inl (List.mem_of_mem_erase hUser)))
      · exact hRoots hRoot
  | post hPostable =>
      rename_i site
      left
      apply alive_of_mem_setThread rfl hRoot
      rw [captured_append, List.mem_append]
      rintro ((hBuffer | hPosted) | hRest)
      -- only what the posted task captures is new
      · exact alive_of_mem_thread (.inl hBuffer)
      · simp only [captured_cons, captured_nil, List.append_nil] at hPosted
        exact alive_of_mem_captures hPostable hPosted
      · exact alive_of_mem_thread (.inr hRest)
  | swap hExe hRest =>
      rename_i thread
      left
      apply alive_of_mem_setThread rfl hRoot
      rintro (hBuffer | hExecuted | hMoved | hFrame)
      · cases hBuffer
      · exact alive_of_mem_thread (.inr (.inl hExecuted))
      · exact alive_of_mem_thread (.inl hMoved)
      · exact alive_of_mem_thread (.inr (.inr (.inr hFrame)))
  | begin hFrame hRest => exact .inl (alive_of_mem_execute hFrame hRest hRoot)
  | finish hFrame =>
      left
      apply alive_of_mem_setFrame hRoot
      intro frame hNone
      cases hNone
  | clear hFrame hRest =>
      rename_i thread
      left
      apply alive_of_mem_setThread rfl hRoot
      rintro (hBuffer | hExecuted | hLeft)
      · exact alive_of_mem_thread (.inl hBuffer)
      · cases hExecuted
      · exact alive_of_mem_thread (.inr (.inr hLeft))
  | enter hFrame hAlive =>
      rename_i entered
      have hEntered : object ∈ (s.setThread
          { s.thread .io with frame := some (s.start (.event entered)) }
          .io).roots :=
        hRoot
      left
      apply alive_of_mem_setFrame hEntered
      intro frame hStarted hHolds
      obtain rfl := Option.some.inj hStarted
      exact alive_of_mem_start (.event entered) hAlive hHolds

/-! ## The dead stay dead -/

theorem nextId_le {s next : System} {action : Action}
    (hStep : s.Stepped action next) : s.nextId ≤ next.nextId := by
  cases hStep with
  | make factory => exact Nat.le_succ _
  | accept hFrame hEvent => exact Nat.le_succ _
  | copy hAlive => exact Nat.le_refl _
  | drop hUser => exact Nat.le_refl _
  | enter hFrame hAlive => exact Nat.le_refl _
  | begin hFrame hRest =>
      rename_i thread site rest
      simp only [execute]
      split <;> cases thread <;> exact Nat.le_refl _
  | post hPostable =>
      rename_i site
      simp only [enqueue]
      cases site.task.thread <;> exact Nat.le_refl _
  | swap hExe hRest =>
      rename_i thread
      cases thread <;> exact Nat.le_refl _
  | finish hFrame =>
      rename_i thread frame
      cases thread <;> exact Nat.le_refl _
  | clear hFrame hRest =>
      rename_i thread
      cases thread <;> exact Nat.le_refl _

/-- A session enters the table of its server when it is made. -/
theorem mem_sessions {s next : System} {action : Action}
    (hStep : s.Stepped action next) {object : Object}
    (hMem : object ∈ next.sessions) :
    object ∈ s.sessions ∨
      ∃ kind server, object = .streamSession kind server s.nextId ∧
        s.nextId < next.nextId ∧ s.Alive (.streamServer kind server) := by
  have hSetThread {s' : System} {t : ThreadState} (thread : LoopThread) :
      (s'.setThread t thread).sessions = s'.sessions := by
    cases thread <;> rfl
  cases hStep with
  | accept hFrame hEvent =>
      rename_i kind server frame
      rcases List.mem_cons.mp hMem with rfl | hMem
      · refine .inr ⟨kind, server, rfl, Nat.lt_succ_self _, ?_⟩
        obtain ⟨body, holds, hKeep⟩ := frame
        cases body with
        | task site => cases hEvent
        | event object =>
            obtain rfl := Option.some.inj hEvent
            have hIo : (s.thread .io).frame =
                some ⟨.event (.streamServer kind server), holds, hKeep⟩ := hFrame
            exact alive_of_frame hIo hKeep
      · exact .inl hMem
  | make factory => exact .inl hMem
  | copy hAlive => exact .inl hMem
  | drop hUser => exact .inl hMem
  | enter hFrame hAlive => exact .inl hMem
  | begin hFrame hRest =>
      left
      simp only [execute] at hMem
      split at hMem
      · rw [hSetThread, erased] at hMem
        split at hMem
        · exact (List.mem_filter.mp hMem).1
        · exact hMem
      · rw [hSetThread] at hMem
        exact hMem
  | post hPostable => exact .inl (by rwa [enqueue, hSetThread] at hMem)
  | swap hExe hRest => exact .inl (by rwa [hSetThread] at hMem)
  | finish hFrame => exact .inl (by rwa [hSetThread] at hMem)
  | clear hFrame hRest => exact .inl (by rwa [hSetThread] at hMem)

/-- The numbers given so far cover every object there is. -/
structure Numbered (s : System) : Prop where
  roots : ∀ object ∈ s.roots, object.id < s.nextId
  sessions : ∀ object ∈ s.sessions, object.id < s.nextId ∧
    ∀ server, object.server? = some server → server.id < s.nextId

namespace Numbered

theorem initial : Numbered System.initial where
  roots := fun _ hMem => by cases hMem
  sessions := fun _ hMem => by cases hMem

theorem id_lt {s : System} (hNumbered : Numbered s) {object : Object}
    (hAlive : s.Alive object) : object.id < s.nextId := by
  rcases hAlive with hRoot | ⟨hMem, -⟩
  · exact hNumbered.roots object hRoot
  · exact (hNumbered.sessions object hMem).1

theorem step {s next : System} {action : Action} (hNumbered : Numbered s)
    (hStep : s.Stepped action next) : Numbered next where
  roots := by
    intro object hRoot
    have hGrows := nextId_le hStep
    rcases alive_of_mem_roots hStep hRoot with hAlive | ⟨-, hNew⟩
    · have hOld := hNumbered.id_lt hAlive
      omega
    · exact hNew
  sessions := by
    intro object hMem
    have hGrows := nextId_le hStep
    rcases mem_sessions hStep hMem with
      hOld | ⟨kind, server, rfl, hNew, hServer⟩
    · obtain ⟨hId, hServers⟩ := hNumbered.sessions object hOld
      refine ⟨by omega, fun server hServer => ?_⟩
      have hServerId := hServers server hServer
      omega
    · refine ⟨hNew, fun server' hServer' => ?_⟩
      obtain rfl := Option.some.inj hServer'
      have hServerId := hNumbered.id_lt hServer
      omega

end Numbered

/-- An object whose last `shared_ptr` is gone is not alive again. -/
theorem dead_of_stepped {s next : System} {action : Action}
    (hNumbered : Numbered s) (hStep : s.Stepped action next) {object : Object}
    (hKnown : object.id < s.nextId) (hDead : ¬ s.Alive object) :
    ¬ next.Alive object := by
  rintro (hRoot | ⟨hMem, server, hRoot, hServer⟩)
  · rcases alive_of_mem_roots hStep hRoot with hAlive | ⟨hNew, -⟩
    · exact hDead hAlive
    · omega
  · -- in a table before the step, so its server would have to come back
    rcases mem_sessions hStep hMem with hOld | ⟨kind, server', rfl, hNew, -⟩
    · have hServerId := (hNumbered.sessions object hOld).2 server hServer
      rcases alive_of_mem_roots hStep hRoot with hAlive | ⟨hNewServer, -⟩
      · rcases hAlive with hServerRoot | ⟨-, outer, -, hOuter⟩
        · exact hDead (.inr ⟨hOld, server, hServerRoot, hServer⟩)
        · -- a server is no session
          cases object with
          | streamSession kind server' id =>
              obtain rfl := Option.some.inj hServer
              cases hOuter
          | _ => cases hServer
      · omega
    · exact absurd hKnown (Nat.lt_irrefl _)

theorem numbered_of_run {s : System} {actions : List Action}
    (hRun : run step initial actions = some s) : Numbered s := by
  have hAny : Guarded step (fun _ _ => True) initial actions :=
    guarded_of_forall (fun _ _ => trivial) initial actions
  exact run_invariant (fun _ _ _ hNumbered _ hStep =>
    hNumbered.step (stepped hStep)) Numbered.initial hAny hRun

/-- **The dead stay dead.**  However a run goes on, an object whose last
`shared_ptr` is gone is not alive again. -/
theorem dead_of_run {s later : System} {actions more : List Action}
    (hRun : run step initial actions = some s) {object : Object}
    (hKnown : object.id < s.nextId) (hDead : ¬ s.Alive object)
    (hMore : run step s more = some later) : ¬ later.Alive object := by
  let Inv (s : System) : Prop :=
    Numbered s ∧ object.id < s.nextId ∧ ¬ s.Alive object
  have hStep (s : System) (action : Action) (next : System) (hInv : Inv s)
      (_ : True) (hStep : step s action = some next) : Inv next := by
    obtain ⟨hNumbered, hKnown, hDead⟩ := hInv
    have hStepped := stepped hStep
    exact ⟨hNumbered.step hStepped,
      Nat.lt_of_lt_of_le hKnown (nextId_le hStepped),
      dead_of_stepped hNumbered hStepped hKnown hDead⟩
  have hInit : Inv s := ⟨numbered_of_run hRun, hKnown, hDead⟩
  have hAny : Guarded step (fun _ _ => True) s more :=
    guarded_of_forall (fun _ _ => trivial) s more
  exact (run_invariant hStep hInit hAny hMore).2.2

end System
end Lifetime
end Net
end KZEvent
