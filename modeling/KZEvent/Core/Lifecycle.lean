import KZEvent.Core.TaskQueues

/-!
# What the calls of start and stop keep to

Facts about the calls that hold in every run, whoever calls when: what each
thread can be doing inside a call, which executors are gone at which step, and
what `exe_state_` says about the executors.
-/

namespace KZEvent
namespace Core

open Foundation

variable {Task : Type*} {exeState : ExeState} {calling : Bool}

/-! ## What an executor step does to the program counter -/

namespace IoSide

variable {s next : IoSide Task} {input : IoInput}

/-- A step of the io thread: it was alive, not inside a call, and ends or blocks
only as `exe_state_` says. -/
structure PcStep (exeState : ExeState) (calling : Bool) (before after : IoPc) :
    Prop where
  alive : ¬ before.Ended
  free : before.InBody → calling = false
  notDead : after ≠ .dead
  finished : after = .finished → exeState ≠ .Running
  waiting : after = .waiting → exeState = .Running

theorem Stepped.pc (hStep : Stepped exeState calling input s next) :
    PcStep exeState calling s.pc next.pc := by
  cases hStep with
  | enters hPc hExe =>
      constructor <;> simp [hPc, hExe, IoPc.Ended, IoPc.InBody]
  | leaves hPc hExe =>
      constructor <;> simp [hPc, hExe, IoPc.Ended, IoPc.InBody]
  | callbackReturns hPc hFree | taskReturns hPc hFree =>
      constructor <;> simp [hPc, hFree, IoPc.Ended]
  | reads hPc hCounter =>
      constructor <;> simp [hPc, IoPc.Ended, IoPc.InBody]
  | interrupted hPc | delivers hPc | deliversWake hPc | batchEnds hPc
  | findsWake hPc | skips hPc | callsBack hPc | drains hPc | swaps hPc
  | executes hPc | clears hPc =>
      constructor <;> simp [hPc, IoPc.Ended, IoPc.InBody]

end IoSide

namespace HeavySide

variable {s next : HeavySide Task}

/-- A step of the heavy thread: it was alive, not inside a call, and ends or
waits only as `exe_state_` says. -/
structure PcStep (exeState : ExeState) (calling : Bool)
    (before after : HeavyPc) : Prop where
  alive : ¬ before.Ended
  free : before = .inTask → calling = false
  notDead : after ≠ .dead
  finished : after = .finished → exeState ≠ .Running
  window : after = .window → exeState = .Running
  blocked : after = .blocked → before = .window

theorem Stepped.pc (hStep : Stepped exeState calling s next) :
    PcStep exeState calling s.pc next.pc := by
  cases hStep with
  | locks hPc =>
      rcases hPc with hPc | hPc <;> constructor <;> simp [hPc, HeavyPc.Ended]
  | taskReturns hPc hFree =>
      constructor <;> simp [hPc, hFree, HeavyPc.Ended]
  | enters hPc hExe | leaves hPc hExe =>
      constructor <;> simp [hPc, hExe, HeavyPc.Ended]
  | refuses hPc hBuffer hExe =>
      constructor <;> simp [hPc, hExe, HeavyPc.Ended]
  | passes hPc | blocks hPc | swaps hPc | executes hPc | clears hPc =>
      constructor <;> simp [hPc, HeavyPc.Ended]

end HeavySide

namespace CallPc

/-- The steps a thread can be at.  An executor returns from a call where the
call finds out that it would join the executor itself. -/
def Permitted (t : Thread) (pc : CallPc) : Prop :=
  match t with
  | .user => True
  | .io => pc = .start .testIo ∨ pc = .stop .exchange ∨ pc = .stop .testIo
  | .heavy =>
      match pc with
      | .start pc => pc = .testIo ∨ pc = .joinIo ∨ pc = .resetIo ∨ pc = .testHeavy
      | .stop pc =>
          pc = .exchange ∨ pc = .testIo ∨ pc = .wakeIo ∨ pc = .joinIo ∨
            pc = .testHeavy

/-- The call found the io thread not joinable, or joined it. -/
def PastIo : CallPc → Prop
  | .start .testIo | .start .joinIo | .start .spawnHeavy => False
  | .start _ => True
  | .stop .exchange | .stop .testIo | .stop .wakeIo | .stop .joinIo => False
  | .stop _ => True

/-- The call found the heavy thread not joinable, or joined it. -/
def PastHeavy : CallPc → Prop
  | .start .resetHeavy | .start .exchange | .start .spawnIo
  | .start .spawnHeavy => True
  | .start _ => False
  | .stop .reset => True
  | .stop _ => False

/-- `stop` has seen to it that the state is not `Running`. -/
def Requested : CallPc → Prop
  | .start _ => False
  | .stop pc => pc ≠ .exchange

variable {t t' : Thread} {pc : CallPc}

theorem Permitted.ne (hPermitted : pc.Permitted t) (hNot : ¬ pc.Permitted t') :
    t ≠ t' := by
  rintro rfl
  exact hNot hPermitted

/-- The user thread can be wherever the heavy thread can. -/
theorem Permitted.of_ne_io (hHeavy : pc.Permitted .heavy) (hOther : t ≠ .io) :
    pc.Permitted t := by
  cases t with
  | user => trivial
  | io => exact absurd rfl hOther
  | heavy => exact hHeavy

/-- A step that is open to no executor is the user thread's. -/
theorem Permitted.eq_user (hPermitted : pc.Permitted t)
    (hIo : ¬ pc.Permitted .io) (hHeavy : ¬ pc.Permitted .heavy) : t = .user := by
  cases t with
  | user => rfl
  | io => exact absurd hPermitted hIo
  | heavy => exact absurd hPermitted hHeavy

theorem permitted_stop_testIo (t : Thread) : (stop .testIo).Permitted t := by
  cases t with
  | user => trivial
  | io => exact .inr (.inr rfl)
  | heavy => exact .inr (.inl rfl)

end CallPc

namespace Loop

variable {l next : Loop Task} {t : Thread}

/-! ## The calls -/

/-- What holds of a thread that is in a call. -/
structure CallOk (l : Loop Task) (t : Thread) (pc : CallPc) : Prop where
  may : l.MayCall t
  permitted : pc.Permitted t
  pastIo : pc.PastIo → l.io.pc = .dead
  pastHeavy : pc.PastHeavy → l.heavy.pc = .dead
  requested : pc.Requested → l.exeState ≠ .Running
  claimed : pc = .start .spawnIo → l.exeState = .Running

def CallsOk (l : Loop Task) : Prop :=
  ∀ t pc, l.call t = some pc → CallOk l t pc

theorem callsOk_initial : CallsOk (initial : Loop Task) :=
  fun _ _ hCall => by cases hCall

@[simp]
theorem goto_call (l : Loop Task) (t t' : Thread) (pc : CallPc) :
    (l.goto t pc).call t' = if t' = t then some pc else l.call t' :=
  Function.update_apply l.call t (some pc) t'

theorem goto_call_self (l : Loop Task) (t : Thread) (pc : CallPc) :
    (l.goto t pc).call t = some pc := by
  rw [goto_call, if_pos rfl]

/-- Where a call begins, the calls of other threads stay. -/
theorem goto_call_of_call {t t' : Thread} {pc pc' : CallPc}
    (hFree : l.call t = none) (hCall : l.call t' = some pc') :
    (l.goto t pc).call t' = some pc' := by
  have hOther : t' ≠ t := by
    rintro rfl
    rw [hFree] at hCall
    cases hCall
  rw [goto_call, if_neg hOther, hCall]

@[simp]
theorem returns_call (l : Loop Task) (t t' : Thread) :
    (l.returns t).call t' = if t' = t then none else l.call t' :=
  Function.update_apply l.call t none t'

@[simp]
theorem startReturns_call (l : Loop Task) (t t' : Thread) (result : Bool) :
    (l.startReturns t result).call t' = if t' = t then none else l.call t' :=
  Function.update_apply l.call t none t'

/-- Only the program counters and `exe_state_` count. -/
theorem CallOk.of_eq {pc : CallPc} (hOk : CallOk l t pc)
    (hExe : next.exeState = l.exeState) (hIo : next.io.pc = l.io.pc)
    (hHeavy : next.heavy.pc = l.heavy.pc) : CallOk next t pc where
  may := by
    have hMay := hOk.may
    cases t <;> simp only [MayCall, hIo, hHeavy] at hMay ⊢ <;> exact hMay
  permitted := hOk.permitted
  pastIo := by
    rw [hIo]
    exact hOk.pastIo
  pastHeavy := by
    rw [hHeavy]
    exact hOk.pastHeavy
  requested := by
    rw [hExe]
    exact hOk.requested
  claimed := by
    rw [hExe]
    exact hOk.claimed

theorem CallsOk.goto (hCalls : CallsOk l) {pc : CallPc} (hNew : CallOk l t pc) :
    CallsOk (l.goto t pc) := by
  intro t' pc' hCall
  rw [goto_call] at hCall
  split at hCall
  · subst t'
    obtain rfl := Option.some.inj hCall
    exact hNew.of_eq rfl rfl rfl
  · exact (hCalls t' pc' hCall).of_eq rfl rfl rfl

theorem CallsOk.returns (hCalls : CallsOk l) : CallsOk (l.returns t) := by
  intro t' pc' hCall
  rw [returns_call] at hCall
  split at hCall
  · cases hCall
  · exact (hCalls t' pc' hCall).of_eq rfl rfl rfl

theorem CallsOk.startReturns (hCalls : CallsOk l) {result : Bool} :
    CallsOk (l.startReturns t result) := by
  intro t' pc' hCall
  exact (hCalls.returns t' pc' hCall).of_eq rfl rfl rfl

theorem CallOk.ne_io {pc : CallPc} (hOk : CallOk l t pc)
    (hEnded : l.io.pc.Ended) : t ≠ .io := by
  rintro rfl
  have hMay := hOk.may
  rcases hEnded with hPc | hPc <;> simp [MayCall, hPc, IoPc.InBody] at hMay

theorem CallOk.ne_heavy {pc : CallPc} (hOk : CallOk l t pc)
    (hEnded : l.heavy.pc.Ended) : t ≠ .heavy := by
  rintro rfl
  have hMay := hOk.may
  rcases hEnded with hPc | hPc <;> simp [MayCall, hPc] at hMay

/-- Without executors only the user thread is left to call. -/
theorem CallOk.user {pc : CallPc} (hOk : CallOk l t pc) (hIo : l.io.pc.Ended)
    (hHeavy : l.heavy.pc.Ended) : t = .user := by
  cases t with
  | user => rfl
  | io => exact absurd rfl (hOk.ne_io hIo)
  | heavy => exact absurd rfl (hOk.ne_heavy hHeavy)

theorem CallOk.user_of_ne {pc : CallPc} (hOk : CallOk l t pc)
    (hIo : l.io.pc.Ended) (hOther : t ≠ .heavy) : t = .user := by
  cases t with
  | user => rfl
  | io => exact absurd rfl (hOk.ne_io hIo)
  | heavy => exact absurd rfl hOther

theorem CallsOk.joinsIo (hCalls : CallsOk l) (hEnded : l.io.pc.Ended) :
    CallsOk (l.withIoPc .dead) := by
  intro t pc hCall
  have hOk : CallOk l t pc := hCalls t pc hCall
  refine { hOk with may := ?_, pastIo := fun _ => rfl }
  have hMay := hOk.may
  cases t with
  | user => trivial
  | io => exact absurd rfl (hOk.ne_io hEnded)
  | heavy => exact hMay

theorem CallsOk.joinsHeavy (hCalls : CallsOk l) (hEnded : l.heavy.pc.Ended) :
    CallsOk (l.withHeavyPc .dead) := by
  intro t pc hCall
  have hOk : CallOk l t pc := hCalls t pc hCall
  refine { hOk with may := ?_, pastHeavy := fun _ => rfl }
  have hMay := hOk.may
  cases t with
  | user => trivial
  | io => exact hMay
  | heavy => exact absurd rfl (hOk.ne_heavy hEnded)

/-- No thread is about to start the io thread while another one is in a call. -/
theorem CallsOk.not_spawning (hCalls : CallsOk l) {pc pc' : CallPc}
    (hCall : l.call t = some pc) (hPc : pc ≠ .start .spawnIo) {t' : Thread}
    (hCall' : l.call t' = some pc') : pc' ≠ .start .spawnIo := by
  rintro rfl
  have hOk' : CallOk l t' (.start .spawnIo) := hCalls _ _ hCall'
  have hIo : l.io.pc = .dead := hOk'.pastIo trivial
  have hHeavy : l.heavy.pc = .dead := hOk'.pastHeavy trivial
  have hUser : t = .user := (hCalls _ _ hCall).user (.inl hIo) (.inl hHeavy)
  have hUser' : t' = .user := hOk'.user (.inl hIo) (.inl hHeavy)
  subst hUser hUser'
  exact hPc (Option.some.inj (hCall.symm.trans hCall'))

theorem CallsOk.withExeState (hCalls : CallsOk l) {pc : CallPc}
    (hCall : l.call t = some pc) (hPc : pc ≠ .start .spawnIo)
    (exeState : ExeState) (hExe : exeState ≠ .Running) :
    CallsOk (l.withExeState exeState) := by
  intro t' pc' hCall'
  have hOk : CallOk l t' pc' := hCalls t' pc' hCall'
  refine { hOk with requested := fun _ => hExe, claimed := fun hSpawn => ?_ }
  exact absurd hSpawn (hCalls.not_spawning hCall hPc hCall')

/-- Without executors the call of the user thread is the only one. -/
theorem CallsOk.alone (hCalls : CallsOk l) (hIo : l.io.pc.Ended)
    (hHeavy : l.heavy.pc.Ended) {pc : CallPc}
    (hCall : next.call = Function.update l.call .user (some pc))
    (hNew : CallOk next .user pc) : CallsOk next := by
  intro t' pc' hCall'
  rw [hCall, Function.update_apply] at hCall'
  split at hCall'
  · subst t'
    obtain rfl := Option.some.inj hCall'
    exact hNew
  · rename_i hOther
    exact absurd ((hCalls _ _ hCall').user hIo hHeavy) hOther

/-- The io thread cannot be in a call that has to do with the heavy thread. -/
theorem CallsOk.spawnsHeavy (hCalls : CallsOk l) (hDead : l.heavy.pc = .dead) :
    CallsOk ((l.withHeavyPc .test).startReturns .user true) := by
  intro t' pc' hCall'
  rw [startReturns_call] at hCall'
  split at hCall'
  · cases hCall'
  · rename_i hOther
    have hOk : CallOk l t' pc' := hCalls _ _ hCall'
    have hPermitted := hOk.permitted
    cases t' with
    | user => exact absurd rfl hOther
    | heavy => exact absurd rfl (hOk.ne_heavy (.inl hDead))
    | io =>
        refine { hOk with pastHeavy := fun hPast => ?_ }
        rcases hPermitted with rfl | rfl | rfl <;> exact hPast.elim

/-- A call of another thread depends on the heavy executor only by its being
dead. -/
theorem CallOk.withHeavy {t : Thread} {pc : CallPc} {heavy : HeavySide Task}
    (hOk : CallOk l t pc) (hOther : t ≠ .heavy)
    (hPast : pc.PastHeavy → heavy.pc = .dead) :
    CallOk { l with heavy := heavy } t pc := by
  have hMay := hOk.may
  refine { hOk with may := ?_, pastHeavy := hPast }
  cases t with
  | user => trivial
  | io => exact hMay
  | heavy => exact absurd rfl hOther

/-- A blocked thread is in no call. -/
theorem CallsOk.wakes (hCalls : CallsOk l) (hBlocked : l.heavy.pc = .blocked) :
    CallsOk (l.withHeavyPc .woken) := by
  intro t pc hCall
  have hOk : CallOk l t pc := hCalls t pc hCall
  have hPast (hPastHeavy : pc.PastHeavy) : HeavyPc.woken = .dead := by
    rw [hOk.pastHeavy hPastHeavy] at hBlocked
    cases hBlocked
  apply hOk.withHeavy _ hPast
  rintro rfl
  exact absurd (hBlocked.symm.trans hOk.may) nofun

theorem CallsOk.notified (hCalls : CallsOk l) :
    CallsOk { l with heavy := l.heavy.wakeHeavyUp } := by
  rcases (HeavySide.wakeHeavyUp_spec l.heavy).2 with hSame | ⟨hBlocked, hWoken⟩
  · rw [hSame]
    exact hCalls
  · rw [hWoken]
    exact hCalls.wakes hBlocked

theorem CallsOk.startStepped (hCalls : CallsOk l) {pc : StartPc}
    (hCall : l.call t = some (.start pc)) (hStart : StartStepped l t pc next) :
    CallsOk next := by
  have hOk : CallOk l t (.start pc) := hCalls _ _ hCall
  cases hStart with
  | ioSelf hAlive hSelf | heavySelf hAlive hSelf | refused hExe =>
      exact hCalls.startReturns
  | ioNotJoinable hDead =>
      have hNext : (CallPc.start .testHeavy).Permitted t :=
        .of_ne_io (by simp [CallPc.Permitted]) (hOk.ne_io (.inl hDead))
      exact hCalls.goto ⟨hOk.may, hNext, fun _ => hDead, nofun, nofun, nofun⟩
  | ioJoinable hAlive hOther =>
      have hNext : (CallPc.start .joinIo).Permitted t :=
        .of_ne_io (by simp [CallPc.Permitted]) hOther
      exact hCalls.goto ⟨hOk.may, hNext, nofun, nofun, nofun, nofun⟩
  | joinsIo hEnded =>
      have hNext : (CallPc.start .resetIo).Permitted t :=
        .of_ne_io (by simp [CallPc.Permitted]) (hOk.ne_io hEnded)
      have hJoined := hCalls.joinsIo hEnded
      exact hJoined.goto ⟨(hJoined _ _ hCall).may, hNext, fun _ => rfl, nofun,
        nofun, nofun⟩
  | resetsIo =>
      have hIo : l.io.pc = .dead := hOk.pastIo trivial
      have hNext : (CallPc.start .testHeavy).Permitted t :=
        .of_ne_io (by simp [CallPc.Permitted]) (hOk.ne_io (.inl hIo))
      have hReset := hCalls.withExeState hCall nofun .Stopped nofun
      exact hReset.goto ⟨hOk.may, hNext, fun _ => hIo, nofun, nofun, nofun⟩
  | heavyNotJoinable hDead =>
      have hIo : l.io.pc = .dead := hOk.pastIo trivial
      have hUser : t = .user := hOk.user (.inl hIo) (.inl hDead)
      subst hUser
      exact hCalls.goto ⟨trivial, trivial, fun _ => hIo, fun _ => hDead, nofun,
        nofun⟩
  | heavyJoinable hAlive hOther =>
      have hIo : l.io.pc = .dead := hOk.pastIo trivial
      have hUser : t = .user := hOk.user_of_ne (.inl hIo) hOther
      subst hUser
      exact hCalls.goto ⟨trivial, trivial, fun _ => hIo, nofun, nofun, nofun⟩
  | joinsHeavy hEnded =>
      have hIo : l.io.pc = .dead := hOk.pastIo trivial
      have hUser : t = .user := hOk.user (.inl hIo) hEnded
      have hJoined := hCalls.joinsHeavy hEnded
      subst hUser
      exact hJoined.goto ⟨trivial, trivial, fun _ => hIo, fun _ => rfl, nofun,
        nofun⟩
  | resetsHeavy =>
      have hIo : l.io.pc = .dead := hOk.pastIo trivial
      have hHeavy : l.heavy.pc = .dead := hOk.pastHeavy trivial
      have hUser : t = .user := hOk.user (.inl hIo) (.inl hHeavy)
      have hReset := hCalls.withExeState hCall nofun .Stopped nofun
      subst hUser
      exact hReset.goto ⟨trivial, trivial, fun _ => hIo, fun _ => hHeavy, nofun,
        nofun⟩
  | claims hExe =>
      have hIo : l.io.pc = .dead := hOk.pastIo trivial
      have hHeavy : l.heavy.pc = .dead := hOk.pastHeavy trivial
      have hUser : t = .user := hOk.user (.inl hIo) (.inl hHeavy)
      subst hUser
      exact hCalls.alone (.inl hIo) (.inl hHeavy) rfl
        ⟨trivial, trivial, fun _ => hIo, fun _ => hHeavy, nofun, fun _ => rfl⟩
  | spawnsIo hDead =>
      have hHeavy : l.heavy.pc = .dead := hOk.pastHeavy trivial
      have hUser : t = .user := hOk.user (.inl hDead) (.inl hHeavy)
      subst hUser
      exact hCalls.alone (.inl hDead) (.inl hHeavy) rfl
        ⟨trivial, trivial, nofun, fun _ => hHeavy, nofun, nofun⟩
  | spawnsHeavy hDead =>
      have hUser : t = .user := hOk.permitted.eq_user
        (by simp [CallPc.Permitted]) (by simp [CallPc.Permitted])
      subst hUser
      exact hCalls.spawnsHeavy hDead

theorem CallsOk.stopStepped (hCalls : CallsOk l) {pc : StopPc}
    (hCall : l.call t = some (.stop pc)) (hStop : StopStepped l t pc next) :
    CallsOk next := by
  have hOk : CallOk l t (.stop pc) := hCalls _ _ hCall
  cases hStop with
  | ioSelf hAlive hSelf | heavySelf hAlive hSelf => exact hCalls.returns
  | requests hExe =>
      have hStopping :=
        hCalls.withExeState hCall nofun .Stopping nofun
      exact hStopping.goto ⟨hOk.may, CallPc.permitted_stop_testIo t, nofun,
        nofun, fun _ => nofun, nofun⟩
  | goesOn hExe =>
      exact hCalls.goto ⟨hOk.may, CallPc.permitted_stop_testIo t, nofun, nofun,
        fun _ => hExe, nofun⟩
  | ioNotJoinable hDead =>
      have hNext : (CallPc.stop .testHeavy).Permitted t :=
        .of_ne_io (by simp [CallPc.Permitted]) (hOk.ne_io (.inl hDead))
      have hExe : l.exeState ≠ .Running := hOk.requested nofun
      exact hCalls.goto ⟨hOk.may, hNext, fun _ => hDead, nofun, fun _ => hExe,
        nofun⟩
  | ioJoinable hAlive hOther =>
      have hNext : (CallPc.stop .wakeIo).Permitted t :=
        .of_ne_io (by simp [CallPc.Permitted]) hOther
      have hExe : l.exeState ≠ .Running := hOk.requested nofun
      exact hCalls.goto ⟨hOk.may, hNext, nofun, nofun, fun _ => hExe, nofun⟩
  | wakesIo =>
      have hExe : l.exeState ≠ .Running := hOk.requested nofun
      have hWoken : CallsOk { l with io := l.io.wakeIoUp } :=
        fun t' pc' hCall' => (hCalls t' pc' hCall').of_eq rfl rfl rfl
      have hOther : t ≠ .io := hOk.permitted.ne (by simp [CallPc.Permitted])
      have hNext : (CallPc.stop .joinIo).Permitted t :=
        .of_ne_io (by simp [CallPc.Permitted]) hOther
      exact hWoken.goto ⟨hOk.may, hNext, nofun, nofun, fun _ => hExe, nofun⟩
  | joinsIo hEnded =>
      have hNext : (CallPc.stop .testHeavy).Permitted t :=
        .of_ne_io (by simp [CallPc.Permitted]) (hOk.ne_io hEnded)
      have hExe : l.exeState ≠ .Running := hOk.requested nofun
      have hJoined := hCalls.joinsIo hEnded
      exact hJoined.goto ⟨(hJoined _ _ hCall).may, hNext, fun _ => rfl, nofun,
        fun _ => hExe, nofun⟩
  | heavyNotJoinable hDead =>
      have hIo : l.io.pc = .dead := hOk.pastIo trivial
      have hExe : l.exeState ≠ .Running := hOk.requested nofun
      have hUser : t = .user := hOk.user (.inl hIo) (.inl hDead)
      subst hUser
      exact hCalls.goto ⟨trivial, trivial, fun _ => hIo, fun _ => hDead,
        fun _ => hExe, nofun⟩
  | heavyJoinable hAlive hOther =>
      have hIo : l.io.pc = .dead := hOk.pastIo trivial
      have hExe : l.exeState ≠ .Running := hOk.requested nofun
      have hUser : t = .user := hOk.user_of_ne (.inl hIo) hOther
      subst hUser
      exact hCalls.goto ⟨trivial, trivial, fun _ => hIo, nofun, fun _ => hExe,
        nofun⟩
  | notifies =>
      have hIo : l.io.pc = .dead := hOk.pastIo trivial
      have hExe : l.exeState ≠ .Running := hOk.requested nofun
      have hUser : t = .user := hOk.permitted.eq_user
        (by simp [CallPc.Permitted]) (by simp [CallPc.Permitted])
      subst hUser
      exact hCalls.notified.goto ⟨trivial, trivial, fun _ => hIo, nofun,
        fun _ => hExe, nofun⟩
  | joinsHeavy hEnded =>
      have hIo : l.io.pc = .dead := hOk.pastIo trivial
      have hExe : l.exeState ≠ .Running := hOk.requested nofun
      have hUser : t = .user := hOk.user (.inl hIo) hEnded
      have hJoined := hCalls.joinsHeavy hEnded
      subst hUser
      exact hJoined.goto ⟨trivial, trivial, fun _ => hIo, fun _ => rfl,
        fun _ => hExe, nofun⟩
  | resets =>
      exact (hCalls.withExeState hCall nofun .Stopped nofun).returns

/-- A step of the io thread is not taken inside a call of that thread. -/
theorem CallsOk.ioStepped (hCalls : CallsOk l) {io : IoSide Task}
    (hPc : IoSide.PcStep l.exeState (l.call .io).isSome l.io.pc io.pc) :
    CallsOk { l with io := io } := by
  intro t pc hCall
  have hOk : CallOk l t pc := hCalls t pc hCall
  have hPast (hPastIo : pc.PastIo) : io.pc = .dead :=
    absurd (.inl (hOk.pastIo hPastIo)) hPc.alive
  refine { hOk with may := ?_, pastIo := hPast }
  have hMay := hOk.may
  cases t with
  | user => trivial
  | heavy => exact hMay
  | io =>
      have hFree := hPc.free hMay
      rw [show l.call .io = some pc from hCall] at hFree
      cases hFree

theorem CallsOk.heavyStepped (hCalls : CallsOk l) {heavy : HeavySide Task}
    (hPc : HeavySide.PcStep l.exeState (l.call .heavy).isSome l.heavy.pc
      heavy.pc) :
    CallsOk { l with heavy := heavy } := by
  intro t pc hCall
  have hOk : CallOk l t pc := hCalls t pc hCall
  have hPast (hPastHeavy : pc.PastHeavy) : heavy.pc = .dead :=
    absurd (.inl (hOk.pastHeavy hPastHeavy)) hPc.alive
  apply hOk.withHeavy _ hPast
  rintro rfl
  have hFree := hPc.free hOk.may
  rw [show l.call .heavy = some pc from hCall] at hFree
  cases hFree

theorem CallsOk.begin (hCalls : CallsOk l) (hMay : l.MayCall t)
    (call : LoopCall) :
    CallsOk { l.goto t call.first with
      found := Function.update l.found t l.exeState } := by
  have hNew : CallOk l t call.first := by
    cases call with
    | start =>
        refine ⟨hMay, ?_, nofun, nofun, nofun, nofun⟩
        cases t <;> simp [CallPc.Permitted, LoopCall.first]
    | stop =>
        refine ⟨hMay, ?_, nofun, nofun, fun hPast => absurd rfl hPast, nofun⟩
        cases t <;> simp [CallPc.Permitted, LoopCall.first]
  exact fun t' pc hCall => (hCalls.goto hNew t' pc hCall).of_eq rfl rfl rfl

theorem CallsOk.step {action : LoopAction Task} (hCalls : CallsOk l)
    (hStep : Stepped l action next) : CallsOk next := by
  cases hStep with
  | pushIo task | wakeIo hPosted | pushHeavy hFree =>
      exact fun t pc hCall => (hCalls t pc hCall).of_eq rfl rfl rfl
  | notifyHeavy hPosted =>
      exact fun t pc hCall => (hCalls.notified t pc hCall).of_eq rfl rfl rfl
  | spuriousWake hBlocked => exact hCalls.wakes hBlocked
  | io hIo => exact hCalls.ioStepped hIo.pc
  | heavy hHeavy => exact hCalls.heavyStepped hHeavy.pc
  | begin hFree hMay => exact hCalls.begin hMay _
  | start hCall hStart => exact hCalls.startStepped hCall hStart
  | stop hCall hStop => exact hCalls.stopStepped hCall hStop

/-! ## Frames -/

theorem StartStepped.call_eq {pc : StartPc} (hStart : StartStepped l t pc next)
    {t' : Thread} (hOther : t' ≠ t) : next.call t' = l.call t' := by
  cases hStart <;> simp [hOther] <;> rfl

theorem StopStepped.call_eq {pc : StopPc} (hStop : StopStepped l t pc next)
    {t' : Thread} (hOther : t' ≠ t) : next.call t' = l.call t' := by
  cases hStop <;> simp [hOther] <;> rfl

/-- Only a thread's own steps change the call it is in. -/
theorem Stepped.call_eq {action : LoopAction Task}
    (hStep : Stepped l action next) (hBegin : ∀ call, action ≠ .begin t call)
    (hAdvance : action ≠ .advance t) : next.call t = l.call t := by
  cases hStep with
  | begin hFree hMay =>
      rename_i t' call
      have hOther : t ≠ t' := by
        rintro rfl
        exact hBegin call rfl
      exact Function.update_of_ne hOther _ _
  | start hCall hStart =>
      exact hStart.call_eq fun hSame => hAdvance (by rw [hSame])
  | stop hCall hStop =>
      exact hStop.call_eq fun hSame => hAdvance (by rw [hSame])
  | _ => rfl

end Loop

/-- The heavy thread is blocked, or has decided to block. -/
def HeavyPc.Waits (pc : HeavyPc) : Prop := pc = window ∨ pc = blocked

namespace Loop

variable {l next : Loop Task}

/-- The heavy thread decides to wait only in the state `Running`. -/
theorem Stepped.waits {action : LoopAction Task} (hStep : Stepped l action next)
    (hWaits : next.heavy.pc.Waits) :
    l.heavy.pc.Waits ∨ l.exeState = .Running := by
  have hNotify {pc : HeavyPc} (hPc : pc.Waits)
      (hWoken : pc = l.heavy.wakeHeavyUp.pc) : l.heavy.pc.Waits := by
    rcases (HeavySide.wakeHeavyUp_spec l.heavy).2 with hSame | ⟨hBlocked, -⟩
    · rwa [hWoken, hSame] at hPc
    · exact .inr hBlocked
  cases hStep with
  | notifyHeavy hPosted => exact .inl (hNotify hWaits rfl)
  | spuriousWake hBlocked => exact .inl (.inr hBlocked)
  | heavy hHeavy =>
      rcases hWaits with hWindow | hBlocked
      · exact .inr (hHeavy.pc.window hWindow)
      · exact .inl (.inl (hHeavy.pc.blocked hBlocked))
  | start hCall hStart =>
      cases hStart with
      | joinsHeavy hEnded | spawnsHeavy hDead =>
          rcases hWaits with hPc | hPc <;> cases hPc
      | _ => exact .inl hWaits
  | stop hCall hStop =>
      cases hStop with
      | joinsHeavy hEnded => rcases hWaits with hPc | hPc <;> cases hPc
      | notifies => exact .inl (hNotify hWaits rfl)
      | _ => exact .inl hWaits
  | _ => exact .inl hWaits

end Loop
end Core
end KZEvent
