import KZEvent.Net.StreamClient

/-!
# The outcome of a connect attempt

An attempt in progress should have one outcome, a start or an error.  The
socket and the timer callback race, and cancelling the loser is only a posted
`disable_fd`.  The timer callback looks at `connected_` before it acts, but only
for success, and the socket callback does not look at all.  So the law needs the
loser not to be called once the attempt has failed, and neither of them once the
next attempt has begun.
-/

namespace KZEvent
namespace Net

open KZEvent.Core Foundation EventType

variable {σ : Type*}

/-! ## Reading the log -/

def ClientEvent.isErrorOf (attempt : Nat) : ClientEvent → Bool
  | attemptError number _ _ => number == attempt
  | _ => false

/-- The calls of `on_error` for an attempt. -/
def errorsOf (attempt : Nat) (log : List ClientEvent) : Nat :=
  log.countP (ClientEvent.isErrorOf attempt)

/-- The attempt was taken for successful, and `start` was called for it. -/
def establishedBy (attempt : Nat) (log : List ClientEvent) : Bool :=
  log.any fun event => event == .established attempt

/-- Every attempt that stayed in progress has at most one outcome: its errors,
and its success. -/
def OneOutcome (log : List ClientEvent) : Prop :=
  ∀ attempt, .attempt attempt (.error EINPROGRESS) ∈ log →
    errorsOf attempt log + (establishedBy attempt log).toNat ≤ 1

namespace StreamClient

/-- The socket callback is called only for the current attempt, not after it
failed, and not with an error after it succeeded; the timer callback is called
only when the client is connected or for the current attempt before its end. -/
def DecidesOnce (c : StreamClient σ) : ClientAction → Prop
  | .dispatch _ inv =>
      ∀ attempt ∈ c.streamSlot.event.cb.bind fun
          | .socketCb attempt => some attempt
          | .handler => none,
        hasFlag inv.types kWrite = true →
          attempt = c.attempts ∧ c.connected ≠ .kDisconnected ∧
          (c.connected = .kConnected → inv.soError = 0)
  | .timerExpires => c.connected = .kConnected ∨
      (c.connected = .kConnecting ∧ c.timerSlot.event.cb = some c.attempts)
  | _ => True

instance (c : StreamClient σ) (action : ClientAction) :
    Decidable (c.DecidesOnce action) :=
  match action with
  | .dispatch _ _ => inferInstanceAs (Decidable (∀ attempt ∈ _, _))
  | .timerExpires => inferInstanceAs (Decidable (_ ∨ _))
  | .call _ | .execTask _ _ | .perform => .isTrue trivial

/-- While the current attempt is in progress it has no outcome, once it is
connected it has no error, and later attempts have left no trace. -/
structure OutcomeInv (attempts : Nat) (connected : ConnectState)
    (log : List ClientEvent) : Prop where
  once : OneOutcome log
  fresh : ∀ attempt, attempts < attempt →
    errorsOf attempt log = 0 ∧ establishedBy attempt log = false ∧
      ∀ ret, .attempt attempt ret ∉ log
  connecting : connected = .kConnecting →
    .attempt attempts (.error EINPROGRESS) ∈ log →
    errorsOf attempts log = 0 ∧ establishedBy attempts log = false
  connected : connected = .kConnected →
    .attempt attempts (.error EINPROGRESS) ∈ log → errorsOf attempts log = 0

namespace OutcomeInv

variable {attempts : Nat} {connected : ConnectState} {log : List ClientEvent}

theorem nil : OutcomeInv 0 .kDisconnected [] where
  once := fun _ hMem => by cases hMem
  fresh := fun _ _ => ⟨rfl, rfl, fun _ hMem => by cases hMem⟩
  connecting := fun hConnecting => by cases hConnecting
  connected := fun hConnected => by cases hConnected

/-- `connected_` is reset. -/
theorem reset (hInv : OutcomeInv attempts connected log) :
    OutcomeInv attempts .kDisconnected log where
  once := hInv.once
  fresh := hInv.fresh
  connecting := fun hConnecting => by cases hConnecting
  connected := fun hConnected => by cases hConnected

/-- An event that is no outcome and begins no attempt. -/
theorem other (hInv : OutcomeInv attempts connected log) (event : ClientEvent)
    (hError : ∀ attempt, event.isErrorOf attempt = false)
    (hEstablished : ∀ attempt, event ≠ .established attempt)
    (hAttempt : ∀ attempt ret, event ≠ .attempt attempt ret) :
    OutcomeInv attempts connected (event :: log) := by
  have hErrors (attempt : Nat) :
      errorsOf attempt (event :: log) = errorsOf attempt log :=
    List.countP_cons_of_neg (by simp [hError attempt])
  have hSame (attempt : Nat) :
      establishedBy attempt (event :: log) = establishedBy attempt log := by
    simp [establishedBy, hEstablished attempt]
  have hMem (attempt : Nat) (ret : ConnectRet) :
      .attempt attempt ret ∈ event :: log ↔ .attempt attempt ret ∈ log := by
    simp [(hAttempt attempt ret).symm]
  constructor
  · simpa only [OneOutcome, hErrors, hSame, hMem] using hInv.once
  · simpa only [hErrors, hSame, hMem] using hInv.fresh
  · simpa only [hErrors, hSame, hMem] using hInv.connecting
  · simpa only [hErrors, hMem] using hInv.connected

theorem stopped (hInv : OutcomeInv attempts connected log) :
    OutcomeInv attempts connected (.stopped :: log) :=
  hInv.other .stopped (fun _ => rfl) (fun _ => by simp) fun _ _ => by simp

/-- A new attempt begins. -/
theorem attempt (hInv : OutcomeInv attempts connected log) (ret : ConnectRet)
    (next : ConnectState) :
    OutcomeInv (attempts + 1) next (.attempt (attempts + 1) ret :: log) := by
  have hErrors (attempt : Nat) :
      errorsOf attempt (.attempt (attempts + 1) ret :: log) =
        errorsOf attempt log :=
    List.countP_cons_of_neg (by simp [ClientEvent.isErrorOf])
  have hSame (attempt : Nat) :
      establishedBy attempt (.attempt (attempts + 1) ret :: log) =
        establishedBy attempt log := by
    simp [establishedBy]
  obtain ⟨hNoError, hNotYet, -⟩ := hInv.fresh (attempts + 1) (Nat.lt_succ_self _)
  constructor
  · intro attempt hMem
    rw [hErrors, hSame]
    rcases List.mem_cons.mp hMem with hNew | hOld
    · -- The number is fresh, so the log holds no outcome for it.
      obtain ⟨rfl, -⟩ := ClientEvent.attempt.inj hNew
      rw [hNoError, hNotYet]
      exact Nat.zero_le 1
    · exact hInv.once attempt hOld
  · intro attempt hLater
    obtain ⟨hZero, hNone, hAbsent⟩ := hInv.fresh attempt (by omega)
    refine ⟨by rw [hErrors, hZero], by rw [hSame, hNone], fun ret' hMem => ?_⟩
    rcases List.mem_cons.mp hMem with hNew | hOld
    · obtain ⟨rfl, -⟩ := ClientEvent.attempt.inj hNew
      exact Nat.lt_irrefl _ hLater
    · exact hAbsent ret' hOld
  · intro _ _
    rw [hErrors, hSame]
    exact ⟨hNoError, hNotYet⟩
  · intro _ _
    rw [hErrors]
    exact hNoError

/-- The current attempt succeeds, or is seen to have succeeded once more. -/
theorem established (hInv : OutcomeInv attempts connected log)
    (hPending : connected ≠ .kDisconnected) :
    OutcomeInv attempts .kConnected (.established attempts :: log) := by
  have hErrors (attempt : Nat) :
      errorsOf attempt (.established attempts :: log) = errorsOf attempt log :=
    List.countP_cons_of_neg (by simp [ClientEvent.isErrorOf])
  have hMem (attempt : Nat) (ret : ConnectRet) :
      .attempt attempt ret ∈ ClientEvent.established attempts :: log ↔
        .attempt attempt ret ∈ log := by
    simp
  have hOthers (attempt : Nat) (hNe : attempt ≠ attempts) :
      establishedBy attempt (.established attempts :: log) =
        establishedBy attempt log := by
    simp [establishedBy, hNe.symm]
  have hNoError (hStarted : .attempt attempts (.error EINPROGRESS) ∈ log) :
      errorsOf attempts log = 0 := by
    cases hState : connected with
    | kDisconnected => exact absurd hState hPending
    | kConnecting => exact (hInv.connecting hState hStarted).1
    | kConnected => exact hInv.connected hState hStarted
  constructor
  · intro attempt hStarted
    rw [hMem] at hStarted
    rw [hErrors]
    by_cases hCurrent : attempt = attempts
    · subst hCurrent
      rw [hNoError hStarted, Nat.zero_add]
      exact Bool.toNat_le _
    · rw [hOthers attempt hCurrent]
      exact hInv.once attempt hStarted
  · intro attempt hLater
    obtain ⟨hZero, hNone, hAbsent⟩ := hInv.fresh attempt hLater
    refine ⟨by rw [hErrors, hZero], ?_, fun ret => ?_⟩
    · rw [hOthers attempt (by omega), hNone]
    · rw [hMem]
      exact hAbsent ret
  · exact fun hConnecting => by cases hConnecting
  · intro _ hStarted
    rw [hMem] at hStarted
    rw [hErrors]
    exact hNoError hStarted

/-- The current attempt fails.  It had no outcome before, unless it did not stay
in progress. -/
theorem failed (hInv : OutcomeInv attempts connected log)
    (hUndecided : .attempt attempts (.error EINPROGRESS) ∈ log →
      errorsOf attempts log = 0 ∧ establishedBy attempts log = false)
    (errno : Errno) (seen : ConnectState) (next : ConnectState)
    (hNext : .attempt attempts (.error EINPROGRESS) ∈ log →
      next = .kDisconnected) :
    OutcomeInv attempts next (.attemptError attempts errno seen :: log) := by
  have hSame (attempt : Nat) :
      establishedBy attempt (.attemptError attempts errno seen :: log) =
        establishedBy attempt log := by
    simp [establishedBy]
  have hMem (attempt : Nat) (ret : ConnectRet) :
      .attempt attempt ret ∈ ClientEvent.attemptError attempts errno seen :: log ↔
        .attempt attempt ret ∈ log := by
    simp
  have hOthers (attempt : Nat) (hNe : attempt ≠ attempts) :
      errorsOf attempt (.attemptError attempts errno seen :: log) =
        errorsOf attempt log :=
    List.countP_cons_of_neg (by simp [ClientEvent.isErrorOf, hNe.symm])
  have hOne : errorsOf attempts (.attemptError attempts errno seen :: log) =
      errorsOf attempts log + 1 :=
    List.countP_cons_of_pos (by simp [ClientEvent.isErrorOf])
  constructor
  · intro attempt hStarted
    rw [hMem] at hStarted
    rw [hSame]
    by_cases hCurrent : attempt = attempts
    · subst hCurrent
      obtain ⟨hZero, hNone⟩ := hUndecided hStarted
      rw [hOne, hZero, hNone]
      exact Nat.le_refl 1
    · rw [hOthers attempt hCurrent]
      exact hInv.once attempt hStarted
  · intro attempt hLater
    obtain ⟨hZero, hNone, hAbsent⟩ := hInv.fresh attempt hLater
    refine ⟨?_, by rw [hSame, hNone], fun ret => ?_⟩
    · rw [hOthers attempt (by omega), hZero]
    · rw [hMem]
      exact hAbsent ret
  · intro hConnecting hStarted
    rw [hMem] at hStarted
    rw [hNext hStarted] at hConnecting
    cases hConnecting
  · intro hConnected hStarted
    rw [hMem] at hStarted
    rw [hNext hStarted] at hConnected
    cases hConnected

end OutcomeInv

def AttemptInv (c : StreamClient σ) : Prop :=
  OutcomeInv c.attempts c.connected c.log

theorem attemptInv_connect {c : StreamClient σ} (ret : ConnectRet)
    (timeoutMs : Nat) (hInv : AttemptInv c) :
    AttemptInv (c.connect ret timeoutMs) := by
  have hConnects := c.connects ret timeoutMs
  generalize c.connect ret timeoutMs = next at hConnects ⊢
  cases hConnects with
  | ignored _ hBusy => exact hInv
  | succeeds hFree =>
      have hBegun := OutcomeInv.attempt hInv .success .kConnecting
      rw [AttemptInv, connected_start, log_start, attempts_start]
      exact hBegun.established (by decide)
  | fails hFree hErrno =>
      rename_i errno
      have hBegun := OutcomeInv.attempt hInv (.error errno) .kConnecting
      -- An attempt that failed at once never was in progress.
      have hAbsent : .attempt (c.attempts + 1) (.error EINPROGRESS) ∉
          ClientEvent.attempt (c.attempts + 1) (.error errno) :: c.log := by
        intro hMem
        rcases List.mem_cons.mp hMem with hNew | hOld
        · obtain ⟨-, hRet⟩ := ClientEvent.attempt.inj hNew
          exact hErrno (ConnectRet.error.inj hRet).symm
        · exact (OutcomeInv.fresh hInv _ (Nat.lt_succ_self _)).2.2 _ hOld
      have hFailed := hBegun.failed (fun hMem => absurd hMem hAbsent) errno
        .kConnecting .kConnecting fun hMem => absurd hMem hAbsent
      exact hFailed.stopped
  | detects hFree => exact OutcomeInv.attempt hInv _ .kConnecting

theorem attemptInv_step {onSplit : σ → List UInt8 → Int × σ}
    (c : StreamClient σ) (action : ClientAction) (next : StreamClient σ)
    (hInv : AttemptInv c) (hOnce : c.DecidesOnce action)
    (hStep : step onSplit c action = some next) : AttemptInv next := by
  cases stepped hStep with
  | call call =>
      cases call with
      | connect ret timeoutMs => exact attemptInv_connect ret timeoutMs hInv
      | connectReturns =>
          simp only [StreamClient.call, connectReturns]
          split
          · exact hInv
          · exact OutcomeInv.reset hInv
      | start =>
          rw [StreamClient.call, AttemptInv, connected_start, log_start,
            attempts_start]
          exact hInv
      | stop => exact OutcomeInv.stopped hInv
      | postSendTask data => exact hInv
  | execTask hIdle hQueue =>
      rw [AttemptInv, connected_exec, log_exec, attempts_exec]
      exact hInv
  | socketCb hIdle hInstalled =>
      rename_i fuel inv attempt
      unfold socketCb
      split
      · rename_i hWrite
        obtain ⟨rfl, hPending, hNoError⟩ :=
          hOnce attempt (by simp [hInstalled]) hWrite
        split
        · rename_i hError
          -- An error after the success, or after a failure, is ruled out.
          have hConnecting : c.connected = .kConnecting := by
            cases hState : c.connected with
            | kDisconnected => exact absurd hState hPending
            | kConnecting => rfl
            | kConnected => exact absurd (hNoError hState) hError
          have hFailed := OutcomeInv.failed hInv
            (OutcomeInv.connecting hInv hConnecting) inv.soError .kDisconnected
            .kDisconnected fun _ => rfl
          exact hFailed.stopped
        · rw [AttemptInv, connected_start, log_start, attempts_start]
          exact OutcomeInv.established hInv hPending
      · exact hInv
  | handler hIdle hInstalled hReturns => exact hInv
  | perform hPending =>
      rename_i effect effects
      cases effect with
      | updateEvent types modes => exact hInv
      | onFragment fragment => exact hInv
      | onError errno =>
          have hError := OutcomeInv.other hInv
            (.streamError errno c.connected) (fun _ => rfl)
            (fun _ => by simp) fun _ _ => by simp
          exact hError.stopped
      | onDisconnect =>
          have hDisconnect := OutcomeInv.other hInv
            (.disconnect c.connected) (fun _ => rfl)
            (fun _ => by simp) fun _ _ => by simp
          exact hDisconnect.stopped
  | timerExpires hIdle hInstalled =>
      rename_i attempt
      unfold timerCb
      rcases hOnce with hConnected | ⟨hConnecting, hCurrent⟩
      · rw [if_pos hConnected]
        exact hInv
      · obtain rfl : attempt = c.attempts := by
          rw [hInstalled] at hCurrent
          exact Option.some.inj hCurrent
        rw [if_neg (by simp [hConnecting])]
        have hFailed := OutcomeInv.failed hInv
          (OutcomeInv.connecting hInv hConnecting) ETIMEDOUT .kDisconnected
          .kDisconnected fun _ => rfl
        exact hFailed.stopped

end StreamClient

/-- **One outcome per connect attempt.**  In every run of a client whose steps
keep to `DecidesOnce`, an attempt that stayed in progress has at most one
outcome. -/
theorem connect_attempt_one_outcome (onSplit : σ → List UInt8 → Int × σ)
    (split : σ) (actions : List ClientAction) (c : StreamClient σ)
    (hGuarded : Guarded (StreamClient.step onSplit) StreamClient.DecidesOnce
      (.make split) actions)
    (hRun : run (StreamClient.step onSplit) (.make split) actions = some c) :
    OneOutcome c.log := by
  have hInit : (StreamClient.make split).AttemptInv :=
    StreamClient.OutcomeInv.nil
  have hInv : c.AttemptInv :=
    run_invariant StreamClient.attemptInv_step hInit hGuarded hRun
  exact hInv.once

/-- A call of `connect` and the tasks up to the installation of both its
callbacks. -/
def detecting : List ClientAction :=
  [.call (.connect (.error EINPROGRESS) 1000), .execTask {} (.sent 0),
    .execTask {} (.sent 0), .execTask {} (.sent 0), .execTask {} (.sent 0),
    .execTask {} (.sent 0)]

/-- The attempt succeeds, and the expiry of the timer in the same batch only
takes the timer away. -/
theorem connect_attempt_one_outcome_success :
    let onSplit : Unit → List UInt8 → Int × Unit := stateless fun _ => 0
    let actions : List ClientAction :=
      detecting ++ [.dispatch 0 ⟨kWrite, [], [], 0⟩, .timerExpires]
    ∃ c, run (StreamClient.step onSplit) (.make ()) actions = some c ∧
      c.connected = .kConnected ∧ OneOutcome c.log := by
  intro onSplit actions
  obtain ⟨hGuarded, hOutcome⟩ :
      Guarded (StreamClient.step onSplit) StreamClient.DecidesOnce (.make ())
        actions ∧
      (run (StreamClient.step onSplit) (.make ()) actions).map
        (fun c => c.connected) = some .kConnected := by
    decide +kernel
  obtain ⟨c, hRun, hConnected⟩ := Option.map_eq_some_iff.mp hOutcome
  exact ⟨c, hRun, hConnected,
    connect_attempt_one_outcome onSplit () actions c hGuarded hRun⟩

/-- The timer expires first in the batch: the attempt has failed with
`ETIMEDOUT` and is established all the same. -/
theorem connect_attempt_two_outcomes :
    let onSplit : Unit → List UInt8 → Int × Unit := stateless fun _ => 0
    ∃ c, run (StreamClient.step onSplit) (.make ())
        (detecting ++ [.timerExpires, .dispatch 0 ⟨kWrite, [], [], 0⟩]) = some c ∧
      c.log = [.established 1, .stopped,
        .attemptError 1 ETIMEDOUT .kDisconnected,
        .attempt 1 (.error EINPROGRESS)] ∧
      c.connected = .kConnected ∧ c.started = true ∧ ¬ OneOutcome c.log := by
  intro onSplit
  have hOutcome : (run (StreamClient.step onSplit) (.make ())
      (detecting ++ [.timerExpires, .dispatch 0 ⟨kWrite, [], [], 0⟩])).map
      (fun c => (c.log, c.connected, c.started)) =
      some ([.established 1, .stopped,
        .attemptError 1 ETIMEDOUT .kDisconnected,
        .attempt 1 (.error EINPROGRESS)], .kConnected, true) := by
    decide +kernel
  obtain ⟨c, hRun, hView⟩ := Option.map_eq_some_iff.mp hOutcome
  obtain ⟨hLog, hView⟩ := Prod.mk.inj hView
  obtain ⟨hConnected, hStarted⟩ := Prod.mk.inj hView
  refine ⟨c, hRun, hLog, hConnected, hStarted, ?_⟩
  rw [hLog]
  intro hOnce
  have hTwo := hOnce 1 (by simp)
  exact absurd hTwo (by decide)

end Net
end KZEvent
