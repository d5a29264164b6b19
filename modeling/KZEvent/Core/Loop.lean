import KZEvent.Core.Executors
import KZEvent.Foundation.Run
import Mathlib.Logic.Function.Basic

/-!
# The lifecycle of the loop

`start` and `stop` taken apart into their steps, next to the two executors and
to any number of posting threads.  A user thread makes one call at a time; the
io thread and the heavy thread make calls from the tasks and callbacks they
execute.

Two threads that join the same thread object at once are undefined behaviour;
here both joins return when the thread has ended.  An assignment to a thread
object that is still joinable ends the program, so that step cannot be taken.
-/

namespace KZEvent
namespace Core

open Foundation

variable {Task : Type*}

/-- Who calls. -/
inductive Thread
  | user
  | io
  | heavy
deriving DecidableEq

/-- What is called. -/
inductive LoopCall
  | start
  | stop
deriving DecidableEq

/-- The next step of `start`. -/
inductive StartPc
  | testIo
  | joinIo
  | resetIo
  | testHeavy
  | joinHeavy
  | resetHeavy
  | exchange
  | spawnIo
  | spawnHeavy
deriving DecidableEq

/-- The next step of `stop`. -/
inductive StopPc
  | exchange
  | testIo
  | wakeIo
  | joinIo
  | testHeavy
  | notifyHeavy
  | joinHeavy
  | reset
deriving DecidableEq

inductive CallPc
  | start (pc : StartPc)
  | stop (pc : StopPc)
deriving DecidableEq

/-- The first step of a call. -/
def LoopCall.first : LoopCall → CallPc
  | .start => .start .testIo
  | .stop => .stop .exchange

/-- A completed `start`: who made it, the state it found, its result. -/
structure StartRecord where
  thread : Thread
  found : ExeState
  result : Bool
deriving DecidableEq

/-- The loop: `exe_state_`, the two executors, and the call each thread is in.
`found` (the state at the beginning of the last call of a thread) and `starts`
are ghost fields. -/
structure Loop (Task : Type*) where
  exeState : ExeState
  io : IoSide Task
  heavy : HeavySide Task
  call : Thread → Option CallPc
  found : Thread → ExeState
  starts : List StartRecord

/-- A step of a posting thread, of an executor, or of a call. -/
inductive LoopAction (Task : Type*)
  | pushIo (task : Task)
  | wakeIo
  | pushHeavy (task : Task)
  | notifyHeavy
  | spuriousWake
  | io (input : IoInput)
  | heavy
  | begin (thread : Thread) (call : LoopCall)
  | advance (thread : Thread)
deriving DecidableEq

namespace Loop

/-- `Loop()`. -/
def initial : Loop Task where
  exeState := .Stopped
  io := .initial
  heavy := .initial
  call := fun _ => none
  found := fun _ => .Stopped
  starts := []

def goto (l : Loop Task) (t : Thread) (pc : CallPc) : Loop Task :=
  { l with call := Function.update l.call t (some pc) }

def returns (l : Loop Task) (t : Thread) : Loop Task :=
  { l with call := Function.update l.call t none }

def startReturns (l : Loop Task) (t : Thread) (result : Bool) : Loop Task :=
  { l.returns t with
    starts := l.starts ++ [{ thread := t, found := l.found t, result := result }] }

def withExeState (l : Loop Task) (exeState : ExeState) : Loop Task :=
  { l with exeState := exeState }

def withIoPc (l : Loop Task) (pc : IoPc) : Loop Task :=
  { l with io := { l.io with pc := pc } }

def withHeavyPc (l : Loop Task) (pc : HeavyPc) : Loop Task :=
  { l with heavy := { l.heavy with pc := pc } }

/-- One step of `start`, called by `t`. -/
def startStep (l : Loop Task) (t : Thread) : StartPc → Option (Loop Task)
  | .testIo =>
      if l.io.pc = .dead then some (l.goto t (.start .testHeavy))
      else if t = .io then some (l.startReturns t false)
      else some (l.goto t (.start .joinIo))
  | .joinIo =>
      if l.io.pc.Ended then some ((l.withIoPc .dead).goto t (.start .resetIo))
      else none
  | .resetIo => some ((l.withExeState .Stopped).goto t (.start .testHeavy))
  | .testHeavy =>
      if l.heavy.pc = .dead then some (l.goto t (.start .exchange))
      else if t = .heavy then some (l.startReturns t false)
      else some (l.goto t (.start .joinHeavy))
  | .joinHeavy =>
      if l.heavy.pc.Ended then
        some ((l.withHeavyPc .dead).goto t (.start .resetHeavy))
      else none
  | .resetHeavy => some ((l.withExeState .Stopped).goto t (.start .exchange))
  | .exchange =>
      if l.exeState = .Stopped then
        some ((l.withExeState .Running).goto t (.start .spawnIo))
      else some (l.startReturns t false)
  | .spawnIo =>
      if l.io.pc = .dead then
        some ((l.withIoPc .test).goto t (.start .spawnHeavy))
      else none
  | .spawnHeavy =>
      if l.heavy.pc = .dead then some ((l.withHeavyPc .test).startReturns t true)
      else none

/-- One step of `stop`, called by `t`. -/
def stopStep (l : Loop Task) (t : Thread) : StopPc → Option (Loop Task)
  | .exchange =>
      if l.exeState = .Running then
        some ((l.withExeState .Stopping).goto t (.stop .testIo))
      else
        -- Only logged: the rest of the function runs all the same.
        some (l.goto t (.stop .testIo))
  | .testIo =>
      if l.io.pc = .dead then some (l.goto t (.stop .testHeavy))
      else if t = .io then some (l.returns t)
      else some (l.goto t (.stop .wakeIo))
  | .wakeIo => some ({ l with io := l.io.wakeIoUp }.goto t (.stop .joinIo))
  | .joinIo =>
      if l.io.pc.Ended then
        some ((l.withIoPc .dead).goto t (.stop .testHeavy))
      else none
  | .testHeavy =>
      if l.heavy.pc = .dead then some (l.goto t (.stop .reset))
      else if t = .heavy then some (l.returns t)
      else some (l.goto t (.stop .notifyHeavy))
  | .notifyHeavy =>
      some ({ l with heavy := l.heavy.wakeHeavyUp }.goto t (.stop .joinHeavy))
  | .joinHeavy =>
      if l.heavy.pc.Ended then
        some ((l.withHeavyPc .dead).goto t (.stop .reset))
      else none
  | .reset => some ((l.withExeState .Stopped).returns t)

/-- The thread is there to make a call. -/
def MayCall (l : Loop Task) : Thread → Prop
  | .user => True
  | .io => l.io.pc.InBody
  | .heavy => l.heavy.pc = .inTask

instance (l : Loop Task) (t : Thread) : Decidable (l.MayCall t) :=
  match t with
  | .user => .isTrue trivial
  | .io => inferInstanceAs (Decidable l.io.pc.InBody)
  | .heavy => inferInstanceAs (Decidable (_ = _))

def step (l : Loop Task) : LoopAction Task → Option (Loop Task)
  | .pushIo task => some { l with io := l.io.push task }
  | .wakeIo => l.io.pushed.map fun io => { l with io := io }
  | .pushHeavy task => (l.heavy.push task).map fun heavy => { l with heavy := heavy }
  | .notifyHeavy => l.heavy.pushed.map fun heavy => { l with heavy := heavy }
  | .spuriousWake =>
      if l.heavy.pc = .blocked then some (l.withHeavyPc .woken) else none
  | .io input =>
      (l.io.step l.exeState (l.call .io).isSome input).map fun io =>
        { l with io := io }
  | .heavy =>
      (l.heavy.step l.exeState (l.call .heavy).isSome).map fun heavy =>
        { l with heavy := heavy }
  | .begin t call =>
      if l.call t = none ∧ l.MayCall t then
        some { l.goto t (call.first) with
          found := Function.update l.found t l.exeState }
      else none
  | .advance t =>
      match l.call t with
      | none => none
      | some (.start pc) => l.startStep t pc
      | some (.stop pc) => l.stopStep t pc

/-- A call, and as many of its steps. -/
def callSteps (t : Thread) (call : LoopCall) (count : Nat) :
    List (LoopAction Task) :=
  .begin t call :: List.replicate count (.advance t)

/-- Steps of the io executor.  Where it waits, `epoll_wait` returns the event of
the eventfd, and no other descriptor is ever ready. -/
def ioSteps (count : Nat) : List (LoopAction Task) :=
  List.replicate count (.io { batch := some [.wake] })

def heavySteps (count : Nat) : List (LoopAction Task) :=
  List.replicate count .heavy

/-! ## What a step can do -/

/-- The ways a call to `start` can take a step, with their preconditions. -/
inductive StartStepped (l : Loop Task) (t : Thread) :
    StartPc → Loop Task → Prop
  | ioNotJoinable (hDead : l.io.pc = .dead) :
      StartStepped l t .testIo (l.goto t (.start .testHeavy))
  | ioSelf (hAlive : l.io.pc ≠ .dead) (hSelf : t = .io) :
      StartStepped l t .testIo (l.startReturns t false)
  | ioJoinable (hAlive : l.io.pc ≠ .dead) (hOther : t ≠ .io) :
      StartStepped l t .testIo (l.goto t (.start .joinIo))
  | joinsIo (hEnded : l.io.pc.Ended) :
      StartStepped l t .joinIo ((l.withIoPc .dead).goto t (.start .resetIo))
  | resetsIo :
      StartStepped l t .resetIo
        ((l.withExeState .Stopped).goto t (.start .testHeavy))
  | heavyNotJoinable (hDead : l.heavy.pc = .dead) :
      StartStepped l t .testHeavy (l.goto t (.start .exchange))
  | heavySelf (hAlive : l.heavy.pc ≠ .dead) (hSelf : t = .heavy) :
      StartStepped l t .testHeavy (l.startReturns t false)
  | heavyJoinable (hAlive : l.heavy.pc ≠ .dead) (hOther : t ≠ .heavy) :
      StartStepped l t .testHeavy (l.goto t (.start .joinHeavy))
  | joinsHeavy (hEnded : l.heavy.pc.Ended) :
      StartStepped l t .joinHeavy
        ((l.withHeavyPc .dead).goto t (.start .resetHeavy))
  | resetsHeavy :
      StartStepped l t .resetHeavy
        ((l.withExeState .Stopped).goto t (.start .exchange))
  | claims (hExe : l.exeState = .Stopped) :
      StartStepped l t .exchange
        ((l.withExeState .Running).goto t (.start .spawnIo))
  | refused (hExe : l.exeState ≠ .Stopped) :
      StartStepped l t .exchange (l.startReturns t false)
  | spawnsIo (hDead : l.io.pc = .dead) :
      StartStepped l t .spawnIo
        ((l.withIoPc .test).goto t (.start .spawnHeavy))
  | spawnsHeavy (hDead : l.heavy.pc = .dead) :
      StartStepped l t .spawnHeavy ((l.withHeavyPc .test).startReturns t true)

theorem startStepped {l next : Loop Task} {t : Thread} {pc : StartPc}
    (hStep : l.startStep t pc = some next) : StartStepped l t pc next := by
  cases pc with
  | testIo =>
      simp only [startStep] at hStep
      split at hStep
      · obtain rfl := Option.some.inj hStep
        exact .ioNotJoinable ‹_›
      · split at hStep <;> obtain rfl := Option.some.inj hStep
        · exact .ioSelf ‹_› ‹_›
        · exact .ioJoinable ‹_› ‹_›
  | joinIo =>
      simp only [startStep] at hStep
      split at hStep
      · obtain rfl := Option.some.inj hStep
        exact .joinsIo ‹_›
      · cases hStep
  | resetIo =>
      obtain rfl := Option.some.inj hStep
      exact .resetsIo
  | testHeavy =>
      simp only [startStep] at hStep
      split at hStep
      · obtain rfl := Option.some.inj hStep
        exact .heavyNotJoinable ‹_›
      · split at hStep <;> obtain rfl := Option.some.inj hStep
        · exact .heavySelf ‹_› ‹_›
        · exact .heavyJoinable ‹_› ‹_›
  | joinHeavy =>
      simp only [startStep] at hStep
      split at hStep
      · obtain rfl := Option.some.inj hStep
        exact .joinsHeavy ‹_›
      · cases hStep
  | resetHeavy =>
      obtain rfl := Option.some.inj hStep
      exact .resetsHeavy
  | exchange =>
      simp only [startStep] at hStep
      split at hStep <;> obtain rfl := Option.some.inj hStep
      · exact .claims ‹_›
      · exact .refused ‹_›
  | spawnIo =>
      simp only [startStep] at hStep
      split at hStep
      · obtain rfl := Option.some.inj hStep
        exact .spawnsIo ‹_›
      · cases hStep
  | spawnHeavy =>
      simp only [startStep] at hStep
      split at hStep
      · obtain rfl := Option.some.inj hStep
        exact .spawnsHeavy ‹_›
      · cases hStep

/-- The ways a call to `stop` can take a step, with their preconditions. -/
inductive StopStepped (l : Loop Task) (t : Thread) : StopPc → Loop Task → Prop
  | requests (hExe : l.exeState = .Running) :
      StopStepped l t .exchange
        ((l.withExeState .Stopping).goto t (.stop .testIo))
  | goesOn (hExe : l.exeState ≠ .Running) :
      StopStepped l t .exchange (l.goto t (.stop .testIo))
  | ioNotJoinable (hDead : l.io.pc = .dead) :
      StopStepped l t .testIo (l.goto t (.stop .testHeavy))
  | ioSelf (hAlive : l.io.pc ≠ .dead) (hSelf : t = .io) :
      StopStepped l t .testIo (l.returns t)
  | ioJoinable (hAlive : l.io.pc ≠ .dead) (hOther : t ≠ .io) :
      StopStepped l t .testIo (l.goto t (.stop .wakeIo))
  | wakesIo :
      StopStepped l t .wakeIo
        ({ l with io := l.io.wakeIoUp }.goto t (.stop .joinIo))
  | joinsIo (hEnded : l.io.pc.Ended) :
      StopStepped l t .joinIo ((l.withIoPc .dead).goto t (.stop .testHeavy))
  | heavyNotJoinable (hDead : l.heavy.pc = .dead) :
      StopStepped l t .testHeavy (l.goto t (.stop .reset))
  | heavySelf (hAlive : l.heavy.pc ≠ .dead) (hSelf : t = .heavy) :
      StopStepped l t .testHeavy (l.returns t)
  | heavyJoinable (hAlive : l.heavy.pc ≠ .dead) (hOther : t ≠ .heavy) :
      StopStepped l t .testHeavy (l.goto t (.stop .notifyHeavy))
  | notifies :
      StopStepped l t .notifyHeavy
        ({ l with heavy := l.heavy.wakeHeavyUp }.goto t (.stop .joinHeavy))
  | joinsHeavy (hEnded : l.heavy.pc.Ended) :
      StopStepped l t .joinHeavy ((l.withHeavyPc .dead).goto t (.stop .reset))
  | resets :
      StopStepped l t .reset ((l.withExeState .Stopped).returns t)

theorem stopStepped {l next : Loop Task} {t : Thread} {pc : StopPc}
    (hStep : l.stopStep t pc = some next) : StopStepped l t pc next := by
  cases pc with
  | exchange =>
      simp only [stopStep] at hStep
      split at hStep <;> obtain rfl := Option.some.inj hStep
      · exact .requests ‹_›
      · exact .goesOn ‹_›
  | testIo =>
      simp only [stopStep] at hStep
      split at hStep
      · obtain rfl := Option.some.inj hStep
        exact .ioNotJoinable ‹_›
      · split at hStep <;> obtain rfl := Option.some.inj hStep
        · exact .ioSelf ‹_› ‹_›
        · exact .ioJoinable ‹_› ‹_›
  | wakeIo =>
      obtain rfl := Option.some.inj hStep
      exact .wakesIo
  | joinIo =>
      simp only [stopStep] at hStep
      split at hStep
      · obtain rfl := Option.some.inj hStep
        exact .joinsIo ‹_›
      · cases hStep
  | testHeavy =>
      simp only [stopStep] at hStep
      split at hStep
      · obtain rfl := Option.some.inj hStep
        exact .heavyNotJoinable ‹_›
      · split at hStep <;> obtain rfl := Option.some.inj hStep
        · exact .heavySelf ‹_› ‹_›
        · exact .heavyJoinable ‹_› ‹_›
  | notifyHeavy =>
      obtain rfl := Option.some.inj hStep
      exact .notifies
  | joinHeavy =>
      simp only [stopStep] at hStep
      split at hStep
      · obtain rfl := Option.some.inj hStep
        exact .joinsHeavy ‹_›
      · cases hStep
  | reset =>
      obtain rfl := Option.some.inj hStep
      exact .resets

/-- The ways a step can be taken, with their preconditions. -/
inductive Stepped (l : Loop Task) : LoopAction Task → Loop Task → Prop
  | pushIo (task : Task) :
      Stepped l (.pushIo task) { l with io := l.io.push task }
  | wakeIo (hPosted : 0 < l.io.posters) :
      Stepped l .wakeIo
        { l with io := { l.io.wakeIoUp with posters := l.io.posters - 1 } }
  | pushHeavy {task : Task} (hFree : ¬ l.heavy.pc.Locked) :
      Stepped l (.pushHeavy task)
        { l with heavy :=
          { l.heavy with
            queue := l.heavy.queue.push task
            posters := l.heavy.posters + 1 } }
  | notifyHeavy (hPosted : 0 < l.heavy.posters) :
      Stepped l .notifyHeavy
        { l with heavy :=
          { l.heavy.wakeHeavyUp with posters := l.heavy.posters - 1 } }
  | spuriousWake (hBlocked : l.heavy.pc = .blocked) :
      Stepped l .spuriousWake (l.withHeavyPc .woken)
  | io {input : IoInput} {io : IoSide Task}
      (hIo : IoSide.Stepped l.exeState (l.call .io).isSome input l.io io) :
      Stepped l (.io input) { l with io := io }
  | heavy {heavy : HeavySide Task}
      (hHeavy : HeavySide.Stepped l.exeState (l.call .heavy).isSome l.heavy heavy) :
      Stepped l .heavy { l with heavy := heavy }
  | begin {t : Thread} {call : LoopCall} (hFree : l.call t = none)
      (hMay : l.MayCall t) :
      Stepped l (.begin t call)
        { l.goto t (call.first) with
          found := Function.update l.found t l.exeState }
  | start {t : Thread} {pc : StartPc} {next : Loop Task}
      (hCall : l.call t = some (.start pc)) (hStart : StartStepped l t pc next) :
      Stepped l (.advance t) next
  | stop {t : Thread} {pc : StopPc} {next : Loop Task}
      (hCall : l.call t = some (.stop pc)) (hStop : StopStepped l t pc next) :
      Stepped l (.advance t) next

theorem stepped {l next : Loop Task} {action : LoopAction Task}
    (hStep : l.step action = some next) : Stepped l action next := by
  cases action with
  | pushIo task =>
      obtain rfl := Option.some.inj hStep
      exact .pushIo task
  | wakeIo =>
      obtain ⟨io, hIo, rfl⟩ := Option.map_eq_some_iff.mp hStep
      unfold IoSide.pushed at hIo
      split at hIo
      · obtain rfl := Option.some.inj hIo
        exact .wakeIo ‹_›
      · cases hIo
  | pushHeavy task =>
      obtain ⟨heavy, hHeavy, rfl⟩ := Option.map_eq_some_iff.mp hStep
      unfold HeavySide.push at hHeavy
      split at hHeavy
      · cases hHeavy
      · obtain rfl := Option.some.inj hHeavy
        exact .pushHeavy ‹_›
  | notifyHeavy =>
      obtain ⟨heavy, hHeavy, rfl⟩ := Option.map_eq_some_iff.mp hStep
      unfold HeavySide.pushed at hHeavy
      split at hHeavy
      · obtain rfl := Option.some.inj hHeavy
        exact .notifyHeavy ‹_›
      · cases hHeavy
  | spuriousWake =>
      simp only [step] at hStep
      split at hStep
      · obtain rfl := Option.some.inj hStep
        exact .spuriousWake ‹_›
      · cases hStep
  | io input =>
      obtain ⟨io, hIo, rfl⟩ := Option.map_eq_some_iff.mp hStep
      exact .io (IoSide.stepped hIo)
  | heavy =>
      obtain ⟨heavy, hHeavy, rfl⟩ := Option.map_eq_some_iff.mp hStep
      exact .heavy (HeavySide.stepped hHeavy)
  | begin t call =>
      simp only [step] at hStep
      split at hStep
      · rename_i hReady
        obtain rfl := Option.some.inj hStep
        exact .begin hReady.1 hReady.2
      · cases hStep
  | advance t =>
      simp only [step] at hStep
      split at hStep
      · cases hStep
      · exact .start ‹_› (startStepped hStep)
      · exact .stop ‹_› (stopStepped hStep)

end Loop
end Core
end KZEvent
