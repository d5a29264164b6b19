import KZEvent.Foundation.DoubleBuffer
import KZEvent.Foundation.Run
import KZEvent.Net.AddrKey

/-!
# The UDP server

`UdpServer` keeps a session for each source it has received from.  On the io
thread `on_read` looks the source up in `sessions_`, makes a session where there
is none, and posts a heavy task that hands the datagram to one of the two
callbacks; a scan on a timer erases the sessions whose time stamp is too old.
The heavy thread executes what was posted, together with tasks of the user.

A session is numbered by the datagrams received before the one that made it;
the number stands for the identity of the object.  `history` is a ghost record
of what was received and erased.
-/

namespace KZEvent
namespace Net

open Foundation

inductive UdpCallback
  | newSession
  | read
deriving DecidableEq

/-- `UdpSession`: `source_` and `time_stamp_`, in nanoseconds. -/
structure UdpSession where
  id : Nat
  source : InetAddr
  timeStamp : Nat

/-- The session if it is another one than `id`, and otherwise with a new time
stamp. -/
def UdpSession.stamp (id now : Nat) (session : UdpSession) : UdpSession :=
  if session.id = id then { session with timeStamp := now } else session

@[simp]
theorem UdpSession.stamp_id (id now : Nat) (session : UdpSession) :
    (session.stamp id now).id = session.id := by
  unfold stamp
  split <;> rfl

@[simp]
theorem UdpSession.stamp_source (id now : Nat) (session : UdpSession) :
    (session.stamp id now).source = session.source := by
  unfold stamp
  split <;> rfl

/-- A call of a callback: the session, the data, and the address the kernel gave
for the sender of the data. -/
structure UdpCall where
  callback : UdpCallback
  session : UdpSession
  data : List UInt8
  sender : Sockaddr

/-- The tasks in the heavy queue. -/
inductive HeavyTask
  | call (made : UdpCall)
  | user

def HeavyTask.call? : HeavyTask → Option UdpCall
  | call made => some made
  | user => none

inductive UdpEvent
  | received (source : InetAddr) (data : List UInt8) (time : Nat)
  | erased (gone : List Nat)

/-- A datagram was handed to `on_read`. -/
def UdpEvent.isReceived : UdpEvent → Bool
  | received _ _ _ => true
  | erased _ => false

structure UdpServer where
  family : UInt16
  sessionTimeoutMs : UInt64
  newSessionCb : Bool
  readCb : Bool
  sessions : List (InetAddr × UdpSession)
  heavy : DoubleBuffer HeavyTask
  clock : Nat
  history : List UdpEvent

/-- A step of a run. -/
inductive UdpAction
  | setNewSessionCb (set : Bool)
  | setReadCb (set : Bool)
  | receive (sender : Sockaddr) (data : List UInt8) (now : Nat)
  | scan (now : Nat)
  | postHeavyTask
  | swapHeavy
  | executeHeavy
  | clearHeavy

/-! ## The clock -/

/-- A signed 64-bit number.  Its overflow is not defined in the source; here it
wraps around. -/
def wrapInt64 (value : Int) : Int := value.bmod 18446744073709551616

/-- `std::chrono::milliseconds{ms}`. -/
def milliseconds (ms : UInt64) : Int := wrapInt64 ms.toNat

/-- Milliseconds as a comparison with nanoseconds converts them. -/
def toNanoseconds (ms : Int) : Int := wrapInt64 (ms * 1000000)

namespace UdpServer

/-- `make_udp_server`, of a family and a timeout. -/
def make (family : UInt16) (sessionTimeoutMs : UInt64) : Option UdpServer :=
  if family ≠ AF_INET ∧ family ≠ AF_INET6 then none
  else if sessionTimeoutMs = 0 then none
  else
    some
      { family := family
        sessionTimeoutMs := sessionTimeoutMs
        newSessionCb := false
        readCb := false
        sessions := []
        heavy := .empty
        clock := 0
        history := [] }

variable (std : StdHash) (bucketOf : List UdpEvent → UInt64 → Nat)

/-- `sessions_.find`.  The layout of the buckets may depend on all that happened
to the table. -/
def find (s : UdpServer) (source : InetAddr) : Option (InetAddr × UdpSession) :=
  HashTable.find InetAddr.eq (InetAddr.hash std) (bucketOf s.history) s.sessions
    source

/-- The number of datagrams received. -/
def received (s : UdpServer) : Nat := s.history.countP UdpEvent.isReceived

def post (s : UdpServer) (task : HeavyTask) : UdpServer :=
  { s with heavy := s.heavy.push task }

/-- The time stamp of a session is refreshed. -/
def refresh (s : UdpServer) (id now : Nat) : UdpServer :=
  { s with
    sessions := s.sessions.map fun entry => (entry.1, entry.2.stamp id now) }

def record (s : UdpServer) (event : UdpEvent) : UdpServer :=
  { s with history := s.history ++ [event] }

/-- What `on_read` does for a source without a session. -/
def openSession (s : UdpServer) (sender : Sockaddr) (source : InetAddr)
    (data : List UInt8) (now : Nat) : UdpServer :=
  let session : UdpSession := ⟨s.received, source, now⟩
  let s := { s with sessions := s.sessions ++ [(source, session)] }
  if s.newSessionCb then s.post (.call ⟨.newSession, session, data, sender⟩)
  else s.post (.call ⟨.read, session, data, sender⟩)

/-- What `on_read` does for a source with a session. -/
def readSession (s : UdpServer) (session : UdpSession) (sender : Sockaddr)
    (data : List UInt8) (now : Nat) : UdpServer :=
  if s.readCb then
    (s.refresh session.id now).post
      (.call ⟨.read, { session with timeStamp := now }, data, sender⟩)
  else
    -- The time stamp stays what it was.
    s

def onRead (s : UdpServer) (sender : Sockaddr) (source : InetAddr)
    (data : List UInt8) (now : Nat) : UdpServer :=
  if s.readCb = false ∧ s.newSessionCb = false then s
  else
    match s.find std bucketOf source with
    | none => s.openSession sender source data now
    | some (_, session) => s.readSession session sender data now

/-- `duration > std::chrono::milliseconds{session_timeout_ms_}`. -/
def expired (s : UdpServer) (session : UdpSession) (now : Nat) : Bool :=
  toNanoseconds (milliseconds s.sessionTimeoutMs) <
    (now : Int) - session.timeStamp

/-- The scan on the timer. -/
def scan (s : UdpServer) (now : Nat) : UdpServer :=
  { s with sessions := s.sessions.filter fun entry => !s.expired entry.2 now }

/-- The numbers of the sessions a scan erases. -/
def gone (s : UdpServer) (now : Nat) : List Nat :=
  (s.sessions.filter fun entry => s.expired entry.2 now).map fun entry =>
    entry.2.id

/-- A callback that is not set cannot be called. -/
def callable (s : UdpServer) : HeavyTask → Bool
  | .call made =>
      match made.callback with
      | .newSession => s.newSessionCb
      | .read => s.readCb
  | .user => true

/-- One step.  The clock does not go back, and the kernel gives a sender of the
family of the socket. -/
def step (s : UdpServer) : UdpAction → Option UdpServer
  | .setNewSessionCb set => some { s with newSessionCb := set }
  | .setReadCb set => some { s with readCb := set }
  | .receive sender data now =>
      match InetAddr.makeFromSockaddr (some sender) with
      | some source =>
          if sender.family = s.family ∧ s.clock ≤ now then
            some <| ({ s with clock := now }.onRead std bucketOf sender source
              data now).record (.received source data now)
          else none
      | none => none
  | .scan now =>
      if s.clock ≤ now then
        some <| ({ s with clock := now }.scan now).record (.erased (s.gone now))
      else none
  | .postHeavyTask => some (s.post .user)
  | .swapHeavy =>
      if s.heavy.exe.isEmpty ∧ s.heavy.next = 0 then
        some { s with heavy := s.heavy.swap }
      else none
  | .executeHeavy =>
      match s.heavy.exe[s.heavy.next]? with
      | some task =>
          if s.callable task then
            s.heavy.execute.map fun heavy => { s with heavy := heavy }
          else none
      | none => none
  | .clearHeavy =>
      if s.heavy.execute.isNone then some { s with heavy := s.heavy.clear }
      else none

/-! ## Inversion of a step -/

/-- The entry of `sessions_` with an equal key. -/
def lookup (s : UdpServer) (source : InetAddr) :
    Option (InetAddr × UdpSession) :=
  HashTable.lookup InetAddr.eq s.sessions source

/-- A lookup finds what there is, whatever the hash and the buckets are. -/
theorem find_eq_lookup (s : UdpServer) (source : InetAddr) :
    s.find std bucketOf source = s.lookup source :=
  HashTable.find_eq_lookup (InetAddr.keyLaws std) _ _ _

/-- What `on_read` comes to. -/
inductive Read (s : UdpServer) (sender : Sockaddr) (source : InetAddr)
    (data : List UInt8) (now : Nat) : UdpServer → Prop
  | ignored (hReadCb : s.readCb = false)
      (hIgnored : s.newSessionCb = false ∨ ∃ entry, s.lookup source = some entry) :
      Read s sender source data now s
  | opened {callback : UdpCallback} (hNone : s.lookup source = none)
      (hCallback : (s.newSessionCb = true ∧ callback = .newSession) ∨
        (s.newSessionCb = false ∧ callback = .read)) :
      Read s sender source data now
        ({ s with
            sessions := s.sessions ++
              [(source, UdpSession.mk s.received source now)] }.post
          (.call ⟨callback, ⟨s.received, source, now⟩, data, sender⟩))
  | continued {key : InetAddr} {session : UdpSession}
      (hFound : s.lookup source = some (key, session))
      (hReadCb : s.readCb = true) :
      Read s sender source data now
        ((s.refresh session.id now).post
          (.call ⟨.read, { session with timeStamp := now }, data, sender⟩))

theorem onRead_cases (s : UdpServer) (sender : Sockaddr) (source : InetAddr)
    (data : List UInt8) (now : Nat) :
    Read s sender source data now
      (s.onRead std bucketOf sender source data now) := by
  unfold onRead
  split
  · rename_i hNone
    exact .ignored hNone.1 (.inl hNone.2)
  · rename_i hSome
    split
    · rename_i hLookup
      rw [find_eq_lookup] at hLookup
      simp only [openSession]
      split
      · rename_i hSet
        exact .opened hLookup (.inl ⟨hSet, rfl⟩)
      · rename_i hUnset
        exact .opened hLookup (.inr ⟨Bool.eq_false_iff.mpr hUnset, rfl⟩)
    · rename_i key session hLookup
      rw [find_eq_lookup] at hLookup
      unfold readSession
      split
      · rename_i hSet
        exact .continued hLookup hSet
      · rename_i hUnset
        exact .ignored (Bool.eq_false_iff.mpr hUnset) (.inr ⟨_, hLookup⟩)

/-- The ways a step can be taken, with their preconditions. -/
inductive Stepped (s : UdpServer) : UdpAction → UdpServer → Prop
  | setNewSessionCb (set : Bool) :
      Stepped s (.setNewSessionCb set) { s with newSessionCb := set }
  | setReadCb (set : Bool) :
      Stepped s (.setReadCb set) { s with readCb := set }
  | receive {sender : Sockaddr} {source : InetAddr} {data : List UInt8}
      {now : Nat} {next : UdpServer}
      (hSource : InetAddr.makeFromSockaddr (some sender) = some source)
      (hFamily : sender.family = s.family) (hClock : s.clock ≤ now)
      (hRead : Read { s with clock := now } sender source data now next) :
      Stepped s (.receive sender data now)
        (next.record (.received source data now))
  | scan {now : Nat} (hClock : s.clock ≤ now) :
      Stepped s (.scan now)
        (({ s with clock := now }.scan now).record (.erased (s.gone now)))
  | postHeavyTask : Stepped s .postHeavyTask (s.post .user)
  | swapHeavy (hIdle : s.heavy.Idle) :
      Stepped s .swapHeavy { s with heavy := s.heavy.swap }
  | executeHeavy {heavy : DoubleBuffer HeavyTask}
      (hNext : s.heavy.execute = some heavy) :
      Stepped s .executeHeavy { s with heavy := heavy }
  | clearHeavy (hEnd : s.heavy.execute = none) :
      Stepped s .clearHeavy { s with heavy := s.heavy.clear }

/-- What the factory makes. -/
theorem make_eq_some {family : UInt16} {timeout : UInt64} {made : UdpServer}
    (hMake : make family timeout = some made) :
    (family = AF_INET ∨ family = AF_INET6) ∧
      made = ⟨family, timeout, false, false, [], .empty, 0, []⟩ := by
  unfold make at hMake
  obtain ⟨hFamily, hRest⟩ := Option.ite_none_left_eq_some.mp hMake
  obtain ⟨-, hMade⟩ := Option.ite_none_left_eq_some.mp hRest
  refine ⟨?_, (Option.some.inj hMade).symm⟩
  by_cases hInet : family = AF_INET
  · exact .inl hInet
  · exact .inr (not_not.mp fun hInet6 => hFamily ⟨hInet, hInet6⟩)

variable {std bucketOf}

theorem stepped {s next : UdpServer} {action : UdpAction}
    (hStep : s.step std bucketOf action = some next) :
    Stepped s action next := by
  cases action with
  | setNewSessionCb set =>
      obtain rfl := Option.some.inj hStep
      exact .setNewSessionCb set
  | setReadCb set =>
      obtain rfl := Option.some.inj hStep
      exact .setReadCb set
  | receive sender data now =>
      simp only [step] at hStep
      split at hStep
      · rename_i source hSource
        obtain ⟨⟨hFamily, hClock⟩, hNext⟩ :=
          Option.ite_none_right_eq_some.mp hStep
        obtain rfl := Option.some.inj hNext
        exact .receive hSource hFamily hClock
          (onRead_cases std bucketOf _ sender source data now)
      · cases hStep
  | scan now =>
      obtain ⟨hClock, hNext⟩ := Option.ite_none_right_eq_some.mp hStep
      obtain rfl := Option.some.inj hNext
      exact .scan hClock
  | postHeavyTask =>
      obtain rfl := Option.some.inj hStep
      exact .postHeavyTask
  | swapHeavy =>
      obtain ⟨⟨hExe, hNextZero⟩, hNext⟩ :=
        Option.ite_none_right_eq_some.mp hStep
      obtain rfl := Option.some.inj hNext
      exact .swapHeavy ⟨List.isEmpty_iff.mp hExe, hNextZero⟩
  | executeHeavy =>
      simp only [step] at hStep
      split at hStep
      · obtain ⟨-, hNext⟩ := Option.ite_none_right_eq_some.mp hStep
        obtain ⟨heavy, hHeavy, rfl⟩ := Option.map_eq_some_iff.mp hNext
        exact .executeHeavy hHeavy
      · cases hStep
  | clearHeavy =>
      obtain ⟨hEnd, hNext⟩ := Option.ite_none_right_eq_some.mp hStep
      obtain rfl := Option.some.inj hNext
      exact .clearHeavy (Option.isNone_iff_eq_none.mp hEnd)

end UdpServer
end Net
end KZEvent
