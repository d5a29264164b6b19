import KZEvent.Foundation.Run

/-!
# The sessions of a stream server

The io thread accepts connections, puts their sessions into `sessions_` under
their descriptors, runs their callbacks and the tasks they have posted.  Other
threads hold, copy and drop sessions, stop them and may drop the server.  A
session lives as long as `sessions_` of a live server, the io thread or anybody
else has a `shared_ptr` to it; its destructor posts the task that closes the
descriptor.

A session is numbered in the order of creation, which tells it from others with
the same descriptor.  `custody` is a ghost record of the sessions whose
descriptor was accepted and not closed yet; `inserts` and `erasures` are ghost
records of what was done to `sessions_`.
-/

namespace KZEvent
namespace Net

open Foundation

/-- A `StreamSession` with the descriptor of its channel. -/
structure ServerSession where
  id : Nat
  fd : Nat
deriving DecidableEq

/-- What sessions and their channels post to the io queue. -/
inductive ChannelTask
  | registerFd (fd : Nat)
  | enableFd (fd : Nat)
  | disableFd (fd : Nat)
  | erase (poster : ServerSession)
  | unregisterFd (fd : Nat)
deriving DecidableEq

/-- Where the io thread is, and which session it has a `shared_ptr` to. -/
inductive IoFrame
  | idle
  | accepted (session : ServerSession)
  | inserted (session : ServerSession)
  | handling (session : ServerSession)
  | erasing (session : ServerSession)
  | erased (session : ServerSession)
deriving DecidableEq

namespace IoFrame

def session? : IoFrame → Option ServerSession
  | idle => none
  | accepted session => some session
  | inserted session => some session
  | handling session => some session
  | erasing session => some session
  | erased session => some session

/-- The accept loop and a callback of a session have a `shared_ptr` to the
server; the task of `stop` takes one only while it erases. -/
def holdsServer : IoFrame → Bool
  | idle => false
  | accepted _ => true
  | inserted _ => true
  | handling _ => true
  | erasing _ => false
  | erased _ => false

end IoFrame

/-- A call of `sessions_.insert`, and whether it inserted. -/
structure InsertRecord where
  session : ServerSession
  inserted : Bool
deriving DecidableEq

/-- A session that a task of `stop` removed, and the session that posted it. -/
structure EraseRecord where
  poster : ServerSession
  removed : ServerSession
deriving DecidableEq

structure StreamServer where
  opened : List Nat
  alive : Bool
  sessions : List (Nat × ServerSession)
  holders : List ServerSession
  frame : IoFrame
  ioQueue : List ChannelTask
  objects : List ServerSession
  nextId : Nat
  custody : List ServerSession
  inserts : List InsertRecord
  erasures : List EraseRecord

/-- A step of a run. -/
inductive ServerAction
  | accept (fd : Nat)
  | insert
  | dispatch (session : ServerSession)
  | leave
  | share (session : ServerSession)
  | drop (session : ServerSession)
  | update (session : ServerSession)
  | stop (session : ServerSession)
  | destroy (session : ServerSession)
  | destroyServer
  | executeTask (closes : Bool)
  | eraseSession
  | openOther (fd : Nat)
  | closeOther (fd : Nat)

namespace StreamServer

/-- A server whose loop has nothing to do, with the descriptors of others open. -/
def initial (opened : List Nat) : StreamServer where
  opened := opened
  alive := true
  sessions := []
  holders := []
  frame := .idle
  ioQueue := []
  objects := []
  nextId := 0
  custody := []
  inserts := []
  erasures := []

/-- Somebody has a `shared_ptr` to the session. -/
def Held (s : StreamServer) (session : ServerSession) : Prop :=
  session ∈ s.holders ∨ s.frame.session? = some session ∨
    session ∈ s.sessions.map (·.2)

instance (s : StreamServer) (session : ServerSession) :
    Decidable (s.Held session) :=
  inferInstanceAs (Decidable (_ ∨ _ ∨ _))

def post (s : StreamServer) (tasks : List ChannelTask) : StreamServer :=
  { s with ioQueue := s.ioQueue ++ tasks }

/-- A session for the descriptor `fd`: its channel registers the descriptor. -/
def makeSession (s : StreamServer) (fd : Nat) : StreamServer :=
  let session : ServerSession := ⟨s.nextId, fd⟩
  { s with
    opened := fd :: s.opened
    frame := .accepted session
    ioQueue := s.ioQueue ++ [.registerFd fd]
    objects := session :: s.objects
    nextId := s.nextId + 1
    custody := session :: s.custody }

/-- `sessions_.insert`: an entry with the same key stays as it is. -/
def insertSession (s : StreamServer) (session : ServerSession) : StreamServer :=
  if s.sessions.any (fun entry => entry.1 == session.fd) then
    { s with inserts := s.inserts ++ [⟨session, false⟩] }
  else
    { s with
      sessions := (session.fd, session) :: s.sessions
      inserts := s.inserts ++ [⟨session, true⟩] }

/-- `sessions_.erase` of the descriptor of `poster`. -/
def eraseFd (s : StreamServer) (poster : ServerSession) : StreamServer :=
  let removed := s.sessions.filter fun entry => entry.1 == poster.fd
  { s with
    sessions := s.sessions.filter fun entry => !(entry.1 == poster.fd)
    erasures := s.erasures ++
      removed.map fun entry => EraseRecord.mk poster entry.2 }

/-- The task of `unregister_fd` closes the descriptor, unless it finds it
unregistered or `close` fails. -/
def unregister (s : StreamServer) (fd : Nat) (closes : Bool) : StreamServer :=
  if closes then
    { s with
      opened := s.opened.filter (· ≠ fd)
      custody := s.custody.filter (·.fd ≠ fd) }
  else s

/-- The io thread executes a task. -/
def execute (s : StreamServer) (task : ChannelTask) (closes : Bool) :
    StreamServer :=
  match task with
  | .registerFd _ => s
  | .enableFd _ => s
  | .disableFd _ => s
  | .erase poster =>
      -- The wrapper of the task locks the session first.
      if s.Held poster then { s with frame := .erasing poster } else s
  | .unregisterFd fd => s.unregister fd closes

/-- One step.  `accept4` returns a descriptor that is not open, and nobody but
the loop closes the descriptor of a session. -/
def step (s : StreamServer) : ServerAction → Option StreamServer
  | .accept fd =>
      if s.frame = .idle ∧ s.alive = true ∧ fd ∉ s.opened then
        some (s.makeSession fd)
      else none
  | .insert =>
      match s.frame with
      | .accepted session =>
          some
            { (s.insertSession session).post [.enableFd session.fd] with
              frame := .inserted session }
      | _ => none
  | .dispatch session =>
      if s.frame = .idle ∧ s.alive = true ∧ s.Held session then
        some { s with frame := .handling session }
      else none
  | .leave =>
      match s.frame with
      | .inserted _ => some { s with frame := .idle }
      | .handling _ => some { s with frame := .idle }
      | .erased _ => some { s with frame := .idle }
      | _ => none
  | .share session =>
      if s.Held session then
        some { s with holders := session :: s.holders }
      else none
  | .drop session => some { s with holders := s.holders.erase session }
  | .update session =>
      if s.Held session then some (s.post [.enableFd session.fd]) else none
  | .stop session =>
      if s.Held session then
        some (s.post [.disableFd session.fd, .erase session])
      else none
  | .destroy session =>
      if session ∈ s.objects ∧ ¬ s.Held session then
        -- The destructor calls `stop`; then its channel goes.
        some <| ({ s with objects := s.objects.filter (· ≠ session) }).post
          [.disableFd session.fd, .erase session, .unregisterFd session.fd]
      else none
  | .destroyServer =>
      if s.frame.holdsServer then none
      else some { s with alive := false, sessions := [] }
  | .executeTask closes =>
      match s.ioQueue with
      | task :: rest =>
          if s.frame = .idle then
            some ({ s with ioQueue := rest }.execute task closes)
          else none
      | [] => none
  | .eraseSession =>
      match s.frame with
      | .erasing session =>
          if s.alive then
            some { s.eraseFd session with frame := .erased session }
          else some { s with frame := .erased session }
      | _ => none
  | .openOther fd =>
      if fd ∈ s.opened then none else some { s with opened := fd :: s.opened }
  | .closeOther fd =>
      if fd ∈ s.custody.map (·.fd) then none
      else some { s with opened := s.opened.filter (· ≠ fd) }

/-! ## Inversion of a step -/

/-- The ways a step can be taken, with their preconditions. -/
inductive Stepped (s : StreamServer) : ServerAction → StreamServer → Prop
  | accept {fd : Nat} (hFrame : s.frame = .idle) (hAlive : s.alive = true)
      (hFd : fd ∉ s.opened) : Stepped s (.accept fd) (s.makeSession fd)
  | insert {session : ServerSession} (hFrame : s.frame = .accepted session) :
      Stepped s .insert
        { (s.insertSession session).post [.enableFd session.fd] with
          frame := .inserted session }
  | dispatch {session : ServerSession} (hFrame : s.frame = .idle)
      (hAlive : s.alive = true) (hHeld : s.Held session) :
      Stepped s (.dispatch session) { s with frame := .handling session }
  | leave : Stepped s .leave { s with frame := .idle }
  | share {session : ServerSession} (hHeld : s.Held session) :
      Stepped s (.share session) { s with holders := session :: s.holders }
  | drop (session : ServerSession) :
      Stepped s (.drop session) { s with holders := s.holders.erase session }
  | update {session : ServerSession} (hHeld : s.Held session) :
      Stepped s (.update session) (s.post [.enableFd session.fd])
  | stop {session : ServerSession} (hHeld : s.Held session) :
      Stepped s (.stop session)
        (s.post [.disableFd session.fd, .erase session])
  | destroy {session : ServerSession} (hObject : session ∈ s.objects)
      (hFree : ¬ s.Held session) :
      Stepped s (.destroy session)
        (({ s with objects := s.objects.filter (· ≠ session) } :
          StreamServer).post [.disableFd session.fd, .erase session,
            .unregisterFd session.fd])
  | destroyServer (hFree : s.frame.holdsServer = false) :
      Stepped s .destroyServer { s with alive := false, sessions := [] }
  | executeTask {task : ChannelTask} {rest : List ChannelTask} (closes : Bool)
      (hQueue : s.ioQueue = task :: rest) (hFrame : s.frame = .idle) :
      Stepped s (.executeTask closes)
        (({ s with ioQueue := rest } : StreamServer).execute task closes)
  | eraseSession {session : ServerSession} (hFrame : s.frame = .erasing session)
      (hAlive : s.alive = true) :
      Stepped s .eraseSession
        { s.eraseFd session with frame := .erased session }
  | eraseNothing {session : ServerSession} (hFrame : s.frame = .erasing session) :
      Stepped s .eraseSession { s with frame := .erased session }
  | openOther {fd : Nat} (hFd : fd ∉ s.opened) :
      Stepped s (.openOther fd) { s with opened := fd :: s.opened }
  | closeOther {fd : Nat} (hFd : fd ∉ s.custody.map (·.fd)) :
      Stepped s (.closeOther fd)
        { s with opened := s.opened.filter (· ≠ fd) }

theorem stepped {s next : StreamServer} {action : ServerAction}
    (hStep : s.step action = some next) : Stepped s action next := by
  cases action with
  | accept fd =>
      obtain ⟨⟨hFrame, hAlive, hFd⟩, hNext⟩ :=
        Option.ite_none_right_eq_some.mp hStep
      obtain rfl := Option.some.inj hNext
      exact .accept hFrame hAlive hFd
  | insert =>
      simp only [step] at hStep
      split at hStep
      · rename_i session hFrame
        obtain rfl := Option.some.inj hStep
        exact .insert hFrame
      · cases hStep
  | dispatch session =>
      obtain ⟨⟨hFrame, hAlive, hHeld⟩, hNext⟩ :=
        Option.ite_none_right_eq_some.mp hStep
      obtain rfl := Option.some.inj hNext
      exact .dispatch hFrame hAlive hHeld
  | leave =>
      have hNext : next = { s with frame := .idle } := by
        simp only [step] at hStep
        split at hStep
        · exact (Option.some.inj hStep).symm
        · exact (Option.some.inj hStep).symm
        · exact (Option.some.inj hStep).symm
        · cases hStep
      rw [hNext]
      exact .leave
  | share session =>
      obtain ⟨hHeld, hNext⟩ := Option.ite_none_right_eq_some.mp hStep
      obtain rfl := Option.some.inj hNext
      exact .share hHeld
  | drop session =>
      obtain rfl := Option.some.inj hStep
      exact .drop session
  | update session =>
      obtain ⟨hHeld, hNext⟩ := Option.ite_none_right_eq_some.mp hStep
      obtain rfl := Option.some.inj hNext
      exact .update hHeld
  | stop session =>
      obtain ⟨hHeld, hNext⟩ := Option.ite_none_right_eq_some.mp hStep
      obtain rfl := Option.some.inj hNext
      exact .stop hHeld
  | destroy session =>
      obtain ⟨⟨hObject, hFree⟩, hNext⟩ :=
        Option.ite_none_right_eq_some.mp hStep
      obtain rfl := Option.some.inj hNext
      exact .destroy hObject hFree
  | destroyServer =>
      obtain ⟨hHolds, hNext⟩ := Option.ite_none_left_eq_some.mp hStep
      obtain rfl := Option.some.inj hNext
      exact .destroyServer (Bool.eq_false_iff.mpr hHolds)
  | executeTask closes =>
      simp only [step] at hStep
      split at hStep
      · rename_i task rest hQueue
        obtain ⟨hFrame, hNext⟩ := Option.ite_none_right_eq_some.mp hStep
        obtain rfl := Option.some.inj hNext
        exact .executeTask closes hQueue hFrame
      · cases hStep
  | eraseSession =>
      simp only [step] at hStep
      split at hStep
      · rename_i session hFrame
        split at hStep
        · rename_i hAlive
          obtain rfl := Option.some.inj hStep
          exact .eraseSession hFrame hAlive
        · obtain rfl := Option.some.inj hStep
          exact .eraseNothing hFrame
      · cases hStep
  | openOther fd =>
      obtain ⟨hFd, hNext⟩ := Option.ite_none_left_eq_some.mp hStep
      obtain rfl := Option.some.inj hNext
      exact .openOther hFd
  | closeOther fd =>
      obtain ⟨hFd, hNext⟩ := Option.ite_none_left_eq_some.mp hStep
      obtain rfl := Option.some.inj hNext
      exact .closeOther hFd

end StreamServer
end Net
end KZEvent
