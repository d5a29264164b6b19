import KZEvent.Core.CloseOnce
import KZEvent.Net.InetAddr

/-!
# The factories of channels

A factory gets a descriptor from the kernel and hands it over to a channel before it
does anything else with it.  So it does not close anything itself: when one of the
calls that follow fails, it returns without a value and the destructor of the channel
posts the task that closes the descriptor.  When all succeed the channel is moved into
the value that is returned, and what is destroyed then holds nothing any more.
-/

namespace KZEvent
namespace Net

open KZEvent.Core Foundation

/-- What a factory asks of the kernel for its new descriptor. -/
inductive SetupCall
  | v6Only
  | broadcast
  | reuseAddr
  | bind
  | listen
  | settime
deriving DecidableEq

/-- The calls of a factory behind `socket`, `accept4` or `timerfd_create`, in their
order. -/
abbrev ChannelFactory := List SetupCall

namespace ChannelFactory

def makeDgramChannel (family : UInt16) : ChannelFactory :=
  (if family = AF_INET6 then [.v6Only] else []) ++
    (if family = AF_INET then [.broadcast] else []) ++ [.bind]

def makeStreamSessionChannel : ChannelFactory := []

def makeStreamServerChannel (family : UInt16) : ChannelFactory :=
  [.reuseAddr] ++ (if family = AF_INET6 then [.v6Only] else []) ++ [.bind, .listen]

def makeStreamClientChannel (family : UInt16) : ChannelFactory :=
  (if family = AF_INET6 then [.v6Only] else []) ++ [.bind]

/-- With a timeout of 0 the timer is only registered. -/
def makeTimerChannel (timeoutMs : Nat) : ChannelFactory :=
  if timeoutMs = 0 then [] else [.settime]

/-- The factories of sockets bind, and before that they refuse mapped addresses for
IPv6 and for nothing else. -/
theorem v6Only_before_bind {family : UInt16} {factory : ChannelFactory}
    (hFactory : factory ∈ [makeDgramChannel family, makeStreamServerChannel family,
      makeStreamClientChannel family]) :
    .bind ∈ factory ∧ (List.Sublist [.v6Only, .bind] factory ↔ family = AF_INET6) := by
  by_cases hV6 : family = AF_INET6
  · subst hV6
    revert factory
    decide
  · by_cases hV4 : family = AF_INET
    · subst hV4
      revert factory
      decide
    · simp only [makeDgramChannel, makeStreamServerChannel, makeStreamClientChannel,
        if_neg hV6, if_neg hV4] at hFactory
      simp only [hV6, iff_false]
      revert factory
      decide

end ChannelFactory

/-- Where a factory is: before its first call, with calls left for the descriptor, on
its way out without a value, with the channel moved into the value, or at its end. -/
inductive FactoryPc
  | opening
  | setUp (calls : List SetupCall)
  | failing
  | moved
  | returned (made : Bool)
deriving DecidableEq

/-- A call of a factory, and the loop it makes the channel in.  `index` is where the
local channel stands; `asked` (the calls that were made) and `failed` (whether a call
failed) are ghost fields. -/
structure FactoryCall (Cb : Type*) where
  loop : EventLoop Cb
  index : Nat
  pc : FactoryPc
  asked : List SetupCall
  failed : Bool

/-- A step: the descriptor is opened and handed over, the next call for it, a move or a
destructor on the way out, or a step of the loop meanwhile. -/
inductive FactoryAction (Cb : Type*)
  | openFd (ret : Except Errno Nat)
  | setUp (ret : Option Errno)
  | leave
  | loop (action : EventAction Cb)

namespace FactoryCall

variable {Cb : Type*} {factory : ChannelFactory} {l : EventLoop Cb}
  {s next : FactoryCall Cb}

def begin (l : EventLoop Cb) : FactoryCall Cb where
  loop := l
  index := l.channels.length
  pc := .opening
  asked := []
  failed := false

/-- The steps of the io thread, and what starts and stops the loop.  Calls that
callbacks or other threads make on channels in between are left out. -/
def ofIoThread : EventAction Cb → Bool
  | .wait _ | .io _ | .start | .stop => true
  | _ => false

def step (factory : ChannelFactory) (s : FactoryCall Cb) :
    FactoryAction Cb → Option (FactoryCall Cb)
  | .openFd ret =>
      match s.pc, ret with
      | .opening, .error _ => some { s with pc := .returned false, failed := true }
      | .opening, .ok fd =>
          -- The descriptor belongs to the channel before any call can fail.
          ((s.loop.step (.openFd fd)).bind fun loop => loop.step (.construct fd)).map
            fun loop => { s with loop := loop, pc := .setUp factory }
      | _, _ => none
  | .setUp ret =>
      match s.pc with
      | .setUp (call :: calls) =>
          some { s with
            pc := if ret = none then .setUp calls else .failing
            asked := s.asked ++ [call]
            failed := decide (ret ≠ none) }
      | _ => none
  | .leave =>
      match s.pc with
      | .setUp [] =>
          -- The local channel is moved into the value; its destructor comes next.
          (s.loop.step (.moveConstruct s.index)).map fun loop =>
            { s with loop := loop, pc := .moved }
      | .moved =>
          (s.loop.step (.destroy s.index)).map fun loop =>
            { s with loop := loop, pc := .returned true }
      | .failing =>
          -- Nothing is returned, and only the destructor knows the descriptor.
          (s.loop.step (.destroy s.index)).map fun loop =>
            { s with loop := loop, pc := .returned false }
      | _ => none
  | .loop action =>
      if ofIoThread action then
        (s.loop.step action).map fun loop => { s with loop := loop }
      else none

/-- Every `close` of the loop succeeds. -/
def Admits (s : FactoryCall Cb) : FactoryAction Cb → Prop
  | .loop action => s.loop.AdmitsStep TaskFaults.CloseSucceeds action
  | _ => True

instance (s : FactoryCall Cb) (action : FactoryAction Cb) :
    Decidable (s.Admits action) :=
  match action with
  | .loop action =>
      inferInstanceAs (Decidable (s.loop.AdmitsStep TaskFaults.CloseSucceeds action))
  | .openFd _ | .setUp _ | .leave => .isTrue trivial

/-- The factory has handed a descriptor over to `c`, and `own` are its channels. -/
structure Holding (l loop : EventLoop Cb) (c : LoopChannel) (own : List LoopChannel) :
    Prop where
  channels : loop.channels = l.channels ++ own
  handed : loop.handed = l.handed ++ [c.file]
  valid : ∃ fd, c.validFd = some fd

/-- What there is of the factory in the loop. -/
def Stage (factory : ChannelFactory) (l : EventLoop Cb) (s : FactoryCall Cb) : Prop :=
  match s.pc with
  | .opening =>
      s.loop.channels = l.channels ∧ s.loop.handed = l.handed ∧ s.asked = [] ∧
        s.failed = false
  | .setUp calls =>
      s.asked ++ calls = factory ∧ s.failed = false ∧ ∃ c, Holding l s.loop c [c]
  | .failing => s.failed = true ∧ ∃ c, Holding l s.loop c [c]
  | .moved =>
      s.asked = factory ∧ s.failed = false ∧
        ∃ c, Holding l s.loop c [c.moveConstruct.2, c.moveConstruct.1]
  | .returned true => s.asked = factory ∧ s.failed = false ∧ ∃ c, Holding l s.loop c [c]
  | .returned false => s.failed = true ∧ s.loop.channels = l.channels

/-- What holds in every state of a call. -/
structure Sound (factory : ChannelFactory) (l : EventLoop Cb) (s : FactoryCall Cb) :
    Prop where
  lives : s.loop.Lives
  accounted : s.loop.Accounted
  index : s.index = l.channels.length
  stage : Stage factory l s

theorem sound_begin (hLives : l.Lives) (hAccounted : l.Accounted) :
    Sound factory l (begin l) where
  lives := hLives
  accounted := hAccounted
  index := rfl
  stage := ⟨rfl, rfl, rfl, rfl⟩

/-- What holds in every state of the loop goes on to hold. -/
theorem kept {loop after : EventLoop Cb} (hKept : loop.Lives ∧ loop.Accounted)
    {action : EventAction Cb} (hStep : loop.step action = some after)
    (hAdmits : loop.AdmitsStep TaskFaults.CloseSucceeds action) :
    after.Lives ∧ after.Accounted :=
  ⟨hKept.1.step (fun _ _ hClose => hClose) hAdmits hStep, hKept.2.step hKept.1 hStep⟩

theorem holding_construct {loop opened : EventLoop Cb} {fd : Nat}
    (hChannels : loop.channels = l.channels) (hHanded : loop.handed = l.handed)
    (hOpen : loop.step (.openFd fd) = some opened) {made : EventLoop Cb}
    (hMake : opened.step (.construct fd) = some made) :
    ∃ c, Holding l made c [c] := by
  simp only [EventLoop.step, Option.ite_none_right_eq_some, Option.some.injEq] at hOpen
  obtain ⟨-, rfl⟩ := hOpen
  simp only [EventLoop.step, EventLoop.construct, Function.update_self,
    Option.ite_none_left_eq_some, Option.some.injEq] at hMake
  obtain ⟨-, rfl⟩ := hMake
  refine ⟨.make fd loop.nextFile, ?_, ?_, ⟨fd, rfl⟩⟩
  · exact congrArg (· ++ _) hChannels
  · exact congrArg (· ++ _) hHanded

theorem Holding.move {loop moved : EventLoop Cb} {c : LoopChannel}
    (hHolding : Holding l loop c [c])
    (hMove : loop.step (.moveConstruct l.channels.length) = some moved) :
    Holding l moved c [c.moveConstruct.2, c.moveConstruct.1] := by
  obtain ⟨other, hOther, rfl⟩ := Option.map_eq_some_iff.mp hMove
  rw [hHolding.channels, List.getElem?_concat_length] at hOther
  obtain rfl := Option.some.inj hOther
  refine ⟨?_, hHolding.handed, hHolding.valid⟩
  show loop.channels.set _ _ ++ [_] = _
  rw [hHolding.channels, List.set_append_right _ _ le_rfl, Nat.sub_self,
    List.set_cons_zero, List.append_assoc, List.singleton_append]

/-- The destructor of the first of its channels leaves the others. -/
theorem Holding.destroy {loop left : EventLoop Cb} {c first : LoopChannel}
    {own : List LoopChannel} (hHolding : Holding l loop c (first :: own))
    (hDestroy : loop.step (.destroy l.channels.length) = some left) :
    left.channels = l.channels ++ own ∧ left.handed = l.handed ++ [c.file] := by
  obtain ⟨other, -, rfl⟩ := Option.map_eq_some_iff.mp hDestroy
  refine ⟨?_, ?_⟩
  · show loop.channels.eraseIdx _ = _
    rw [hHolding.channels, List.eraseIdx_append_of_length_le le_rfl, Nat.sub_self,
      List.eraseIdx_cons_zero]
  · show (loop.postFrom other .unregisterFd).handed = _
    rw [EventLoop.postFrom_handed, hHolding.handed]

theorem channels_ofIoThread {action : EventAction Cb} (hIo : ofIoThread action = true)
    {loop after : EventLoop Cb} (hStep : loop.step action = some after) :
    after.channels = loop.channels ∧ after.handed = loop.handed := by
  cases action with
  | io faults =>
      cases EventLoop.ioStep hStep with
      | scanned | woken | dispatched | executed | cleared => exact ⟨rfl, rfl⟩
  | wait batch | start =>
      simp only [EventLoop.step, Option.ite_none_right_eq_some, Option.some.injEq] at hStep
      obtain ⟨-, rfl⟩ := hStep
      exact ⟨rfl, rfl⟩
  | stop =>
      obtain rfl := Option.some.inj hStep
      exact ⟨rfl, rfl⟩
  | openFd | closeFd | construct | moveConstruct | swap | destroy | updateEventCb
  | updateEvent | disableEvent => cases hIo

/-- Steps of the io thread change nothing of what the factory has. -/
theorem Stage.ofIoThread (hStage : Stage factory l s) {loop : EventLoop Cb}
    (hChannels : loop.channels = s.loop.channels)
    (hHanded : loop.handed = s.loop.handed) :
    Stage factory l { s with loop := loop } := by
  have hHolding {c : LoopChannel} {own : List LoopChannel}
      (hHolding : Holding l s.loop c own) : Holding l loop c own :=
    ⟨hChannels.trans hHolding.channels, hHanded.trans hHolding.handed, hHolding.valid⟩
  unfold Stage at hStage ⊢
  cases hPc : s.pc with
  | opening =>
      simp only [hPc] at hStage ⊢
      rw [hChannels, hHanded]
      exact hStage
  | setUp calls | moved =>
      simp only [hPc] at hStage ⊢
      obtain ⟨hAsked, hFailed, c, hOwn⟩ := hStage
      exact ⟨hAsked, hFailed, c, hHolding hOwn⟩
  | failing =>
      simp only [hPc] at hStage ⊢
      obtain ⟨hFailed, c, hOwn⟩ := hStage
      exact ⟨hFailed, c, hHolding hOwn⟩
  | returned made =>
      cases made with
      | false =>
          simp only [hPc] at hStage ⊢
          rw [hChannels]
          exact hStage
      | true =>
          simp only [hPc] at hStage ⊢
          obtain ⟨hAsked, hFailed, c, hOwn⟩ := hStage
          exact ⟨hAsked, hFailed, c, hHolding hOwn⟩

theorem sound_openFd (hSound : Sound factory l s) {ret : Except Errno Nat}
    (hStep : step factory s (.openFd ret) = some next) : Sound factory l next := by
  have hStage := hSound.stage
  simp only [step] at hStep
  split at hStep
  · rename_i errno hPc
    obtain rfl := Option.some.inj hStep
    simp only [Stage, hPc] at hStage
    exact ⟨hSound.lives, hSound.accounted, hSound.index, rfl, hStage.1⟩
  · rename_i fd hPc
    obtain ⟨made, hMade, rfl⟩ := Option.map_eq_some_iff.mp hStep
    obtain ⟨opened, hOpen, hMake⟩ := Option.bind_eq_some_iff.mp hMade
    simp only [Stage, hPc] at hStage
    obtain ⟨hChannels, hHanded, hAsked, hFailed⟩ := hStage
    have hOpened := kept ⟨hSound.lives, hSound.accounted⟩ hOpen trivial
    obtain ⟨hLives, hAccounted⟩ := kept hOpened hMake trivial
    refine ⟨hLives, hAccounted, hSound.index, ?_, hFailed, ?_⟩
    · rw [hAsked, List.nil_append]
    · exact holding_construct hChannels hHanded hOpen hMake
  · cases hStep

theorem sound_setUp (hSound : Sound factory l s) {ret : Option Errno}
    (hStep : step factory s (.setUp ret) = some next) : Sound factory l next := by
  have hStage := hSound.stage
  simp only [step] at hStep
  split at hStep
  · rename_i call calls hPc
    obtain rfl := Option.some.inj hStep
    simp only [Stage, hPc] at hStage
    obtain ⟨hAsked, -, hHolding⟩ := hStage
    refine ⟨hSound.lives, hSound.accounted, hSound.index, ?_⟩
    cases ret with
    | none =>
        refine ⟨?_, rfl, hHolding⟩
        rw [← hAsked, List.append_assoc, List.singleton_append]
    | some errno => exact ⟨rfl, hHolding⟩
  · cases hStep

theorem sound_leave (hSound : Sound factory l s)
    (hStep : step factory s .leave = some next) : Sound factory l next := by
  have hStage := hSound.stage
  have hKept := And.intro hSound.lives hSound.accounted
  simp only [step, hSound.index] at hStep
  split at hStep
  · rename_i hPc
    obtain ⟨loop, hMove, rfl⟩ := Option.map_eq_some_iff.mp hStep
    simp only [Stage, hPc, List.append_nil] at hStage
    obtain ⟨hAsked, hFailed, c, hHolding⟩ := hStage
    obtain ⟨hLives, hAccounted⟩ := kept hKept hMove trivial
    exact ⟨hLives, hAccounted, rfl, hAsked, hFailed, c, hHolding.move hMove⟩
  · rename_i hPc
    obtain ⟨loop, hDestroy, rfl⟩ := Option.map_eq_some_iff.mp hStep
    simp only [Stage, hPc] at hStage
    obtain ⟨hAsked, hFailed, c, hHolding⟩ := hStage
    obtain ⟨hLives, hAccounted⟩ := kept hKept hDestroy trivial
    obtain ⟨hChannels, hHanded⟩ := hHolding.destroy hDestroy
    exact ⟨hLives, hAccounted, rfl, hAsked, hFailed, c.moveConstruct.1,
      hChannels, hHanded, hHolding.valid⟩
  · rename_i hPc
    obtain ⟨loop, hDestroy, rfl⟩ := Option.map_eq_some_iff.mp hStep
    simp only [Stage, hPc] at hStage
    obtain ⟨hFailed, c, hHolding⟩ := hStage
    obtain ⟨hLives, hAccounted⟩ := kept hKept hDestroy trivial
    obtain ⟨hChannels, -⟩ := hHolding.destroy hDestroy
    exact ⟨hLives, hAccounted, rfl, hFailed,
      hChannels.trans (List.append_nil _)⟩
  · cases hStep

theorem sound_step (s : FactoryCall Cb) (action : FactoryAction Cb)
    (next : FactoryCall Cb) (hSound : Sound factory l s) (hAdmits : s.Admits action)
    (hStep : step factory s action = some next) : Sound factory l next := by
  cases action with
  | openFd ret => exact sound_openFd hSound hStep
  | setUp ret => exact sound_setUp hSound hStep
  | leave => exact sound_leave hSound hStep
  | loop action =>
      simp only [step, Option.ite_none_right_eq_some] at hStep
      obtain ⟨hIo, hStep⟩ := hStep
      obtain ⟨loop, hLoop, rfl⟩ := Option.map_eq_some_iff.mp hStep
      obtain ⟨hLives, hAccounted⟩ :=
        kept ⟨hSound.lives, hSound.accounted⟩ hLoop hAdmits
      obtain ⟨hChannels, hHanded⟩ := channels_ofIoThread hIo hLoop
      exact ⟨hLives, hAccounted, hSound.index, hSound.stage.ofIoThread hChannels hHanded⟩

end FactoryCall

/-- **A factory keeps track of its descriptor.**  Whichever factory is called in
whatever state of a loop whose `close` succeeds, whatever the kernel answers, and
whatever the io thread does meanwhile: when it returns, it has a value if and only if
no call failed.  With a value it has made all its calls, and there is one channel more,
which alone was given a descriptor, and that one is open.  Without one there is no
channel more, and a descriptor it was given is going to be closed, or is closed once. -/
theorem factory_keeps_descriptor {Cb : Type*} (factory : ChannelFactory)
    {before : List (EventAction Cb)} {l : EventLoop Cb}
    (hGuard : Guarded EventLoop.step (EventLoop.AdmitsStep TaskFaults.CloseSucceeds)
      EventLoop.initial before)
    (hRun : run EventLoop.step EventLoop.initial before = some l)
    {actions : List (FactoryAction Cb)} {s : FactoryCall Cb}
    (hAdmits : Guarded (FactoryCall.step factory) FactoryCall.Admits (.begin l) actions)
    (hCall : run (FactoryCall.step factory) (.begin l) actions = some s) {made : Bool}
    (hPc : s.pc = .returned made) :
    (made = true ↔ s.failed = false) ∧
    (made = true → s.asked = factory ∧ ∃ c fd,
      s.loop.channels = l.channels ++ [c] ∧ s.loop.handed = l.handed ++ [c.file] ∧
        c.validFd = some fd ∧ s.loop.file fd = some c.file) ∧
    (made = false → s.loop.channels = l.channels ∧
      ∀ file ∈ s.loop.handed, file ∉ l.handed →
        (∃ fd, s.loop.file fd = some file ∧
          ∃ p ∈ s.loop.pending fd, p.task = .unregisterFd) ∨
        s.loop.closed.count file = 1) := by
  obtain ⟨hLives, hAccounted⟩ := EventLoop.accounted_run hGuard hRun
  have hSound := run_invariant FactoryCall.sound_step
    (FactoryCall.sound_begin hLives hAccounted) hAdmits hCall
  have hStage := hSound.stage
  cases made with
  | true =>
      simp only [FactoryCall.Stage, hPc] at hStage
      obtain ⟨hAsked, hFailed, c, hHolding⟩ := hStage
      obtain ⟨fd, hValid⟩ := hHolding.valid
      have hMem : c ∈ s.loop.channels := by
        rw [hHolding.channels]
        exact List.mem_append_right _ (List.mem_singleton_self c)
      obtain ⟨hFile, -⟩ := hSound.lives.file_of_channel hMem hValid
      refine ⟨⟨fun _ => hFailed, fun _ => rfl⟩, fun _ => ⟨hAsked, c, fd, ?_⟩, nofun⟩
      exact ⟨hHolding.channels, hHolding.handed, hValid, hFile⟩
  | false =>
      -- No channel of the factory is left, so what it opened is on its way out.
      simp only [FactoryCall.Stage, hPc] at hStage
      obtain ⟨hFailed, hChannels⟩ := hStage
      refine ⟨⟨nofun, fun hNot => ?_⟩, nofun, fun _ => ⟨hChannels, ?_⟩⟩
      · rw [hFailed] at hNot
        cases hNot
      · intro file hMem hNew
        refine (hSound.lives.held_or_closed hSound.accounted hMem).resolve_left ?_
        rintro ⟨c, hChannel, ⟨fd, hValid⟩, rfl⟩
        rw [hChannels] at hChannel
        exact hNew (hLives.file_of_channel hChannel hValid).2

/-- The port is taken: a datagram channel is not made, and once the io thread has
executed the tasks the descriptor is closed. -/
theorem factory_keeps_descriptor_taken :
    let before : List (EventAction Nat) := [.start]
    let actions : List (FactoryAction Nat) :=
      [.openFd (.ok 5), .setUp none, .loop (.wait [.wake]), .setUp (some 98), .leave,
        .loop (.io {}), .loop (.io {}), .loop (.io {})]
    ∃ l s, run EventLoop.step EventLoop.initial before = some l ∧
      run (FactoryCall.step (.makeDgramChannel AF_INET)) (.begin l) actions = some s ∧
      s.asked = [.broadcast, .bind] ∧ s.loop.channels = l.channels ∧
      s.loop.closed = [0] := by
  intro before actions
  have hOutcome : (run EventLoop.step EventLoop.initial before).any (fun l =>
      decide (Guarded EventLoop.step (EventLoop.AdmitsStep TaskFaults.CloseSucceeds)
        EventLoop.initial before ∧
        Guarded (FactoryCall.step (.makeDgramChannel AF_INET)) FactoryCall.Admits
          (.begin l) actions) &&
      (run (FactoryCall.step (.makeDgramChannel AF_INET)) (.begin l) actions).any
        fun s => decide (s.pc = .returned false ∧ s.asked = [.broadcast, .bind] ∧
          s.loop.closed = [0])) = true := by
    decide +kernel
  obtain ⟨l, hRun, hView⟩ := (Option.any_eq_true _ _).mp hOutcome
  obtain ⟨hFirst, hLater⟩ := Bool.and_eq_true_iff.mp hView
  obtain ⟨hGuard, hAdmits⟩ := of_decide_eq_true hFirst
  obtain ⟨s, hCall, hEnd⟩ := (Option.any_eq_true _ _).mp hLater
  obtain ⟨hPc, hAsked, hClosed⟩ := of_decide_eq_true hEnd
  obtain ⟨-, -, hNone⟩ := factory_keeps_descriptor _ hGuard hRun hAdmits hCall hPc
  exact ⟨l, s, hRun, hCall, hAsked, (hNone rfl).1, hClosed⟩

end Net
end KZEvent
