import KZEvent.Timers.TimerIds

/-!
# What a timer hands over, over a whole run
-/

namespace KZEvent
namespace Timers

open Foundation

universe u

variable {Cb Owner : Type u} {impl : TimerQueue Cb Owner}

namespace Timer

variable {t next : Timer impl}

/-- What holds in every state of a run with few posts. -/
structure Sound (t : Timer impl) : Prop where
  ordered : Ordered t
  issued : Issued t
  queued : Queued t
  handed : Handed t

theorem sound_initial (impl : TimerQueue Cb Owner) (now : Int) :
    Sound (initial impl now) where
  ordered := ordered_initial impl now
  issued := issued_initial impl now
  queued := queued_initial impl now
  handed := handed_initial impl now

theorem Sound.change (hSound : Sound t)
    (hChange : Change Chrono.exact PostAllowed t next) : Sound next where
  ordered := hSound.ordered.change hChange
  issued := hSound.issued.change hChange
  queued := hSound.queued.change hSound.issued hChange
  handed := hSound.handed.change hSound.queued hSound.issued hChange

theorem sound_run {now : Int} {actions : List (TimerAction Cb Owner)}
    (hGuard : Guarded (step Chrono.exact) PostAllowed (initial impl now) actions)
    (hRun : run (step Chrono.exact) (initial impl now) actions = some t) :
    Sound t :=
  run_changes (fun _ _ hSound hChange => hSound.change hChange)
    (sound_initial impl now) hGuard hRun

/-- Items of which no two are `a` contain it at most once. -/
theorem count_le_one_of_pairwise {items : List Nat} {a : Nat}
    (hApart : items.Pairwise fun first later => first = a → later ≠ a) :
    items.count a ≤ 1 := by
  induction items with
  | nil => exact Nat.zero_le 1
  | cons item items ih =>
      rw [List.pairwise_cons] at hApart
      by_cases hSame : item = a
      · have hNone : a ∉ items := fun hMem => hApart.1 a hMem hSame rfl
        rw [hSame, List.count_cons_self, List.count_eq_zero_of_not_mem hNone]
      · rw [List.count_cons_of_ne hSame]
        exact ih hApart.2

/-- A once task is handed over at most once. -/
theorem Sound.once (hSound : Sound t) {cb : Cb} {owner : Owner}
    {timeoutMs timerId : Nat} (hOnce : .postOnce cb owner timeoutMs timerId ∈ t.ran) :
    (t.dispatched.map (·.unit.timerId)).count timerId ≤ 1 := by
  refine count_le_one_of_pairwise (List.pairwise_map.mpr ?_)
  apply hSound.handed.once.imp_of_mem
  rintro d later hMem - hApart rfl
  have hMade := hSound.handed.made d hMem
  exact hApart ((hSound.issued.once_iff hMade).1 hOnce)

/-- A repeated task that was not cancelled has exactly one unit in the queue. -/
theorem Sound.repeated (hSound : Sound t) {cb : Cb} {owner : Owner}
    {timeoutMs timerId : Nat}
    (hRepeat : .postRepeat cb owner timeoutMs timerId ∈ t.ran)
    (hAlive : .cancel timerId ∉ t.ran) :
    (t.units.map (·.timerId)).count timerId = 1 :=
  Multiset.count_eq_one_of_mem hSound.queued.nodup
    (hSound.queued.repeats cb owner timeoutMs timerId hRepeat hAlive)

/-- Executing a cancel stops the unit that is queued under the id. -/
theorem Sound.stops (hSound : Sound t) {timerId : Nat} {input : IoInput}
    (hTask : t.tasks.head? = some (.cancel timerId))
    (hUnit : ∃ unit ∈ t.units, unit.timerId = timerId)
    (hStep : step Chrono.exact t (.runTask input) = some next) :
    Stopped timerId next := by
  simp only [step] at hStep
  split at hStep
  · cases hStep
  · rename_i task tasks hTasks
    rw [hTasks] at hTask
    obtain rfl := Option.some.inj hTask
    obtain rfl := Option.some.inj hStep
    obtain ⟨unit, hMem, rfl⟩ := hUnit
    obtain ⟨post, hPost, now, hMade⟩ := hSound.queued.made unit hMem
    exact ⟨⟨post, List.mem_append_left _ hPost, postId_of_unit hMade⟩,
      .inl (Finset.mem_insert_self _ _)⟩

/-- After that, the unit is not handed over. -/
theorem Sound.never_again (hSound : Sound t) {timerId : Nat}
    (hStopped : Stopped timerId t) {actions : List (TimerAction Cb Owner)}
    (hGuard : Guarded (step Chrono.exact) PostAllowed t actions)
    (hRun : run (step Chrono.exact) t actions = some next) :
    ∃ later, next.dispatched = t.dispatched ++ later ∧
      ∀ d ∈ later, d.unit.timerId ≠ timerId := by
  have hChange (s s' : Timer impl)
      (hInv : Sound s ∧ Stopped timerId s ∧
        ∃ later, s.dispatched = t.dispatched ++ later ∧
          ∀ d ∈ later, d.unit.timerId ≠ timerId)
      (hChange : Change Chrono.exact PostAllowed s s') :
      Sound s' ∧ Stopped timerId s' ∧
        ∃ later, s'.dispatched = t.dispatched ++ later ∧
          ∀ d ∈ later, d.unit.timerId ≠ timerId := by
    obtain ⟨hSound, hStopped, later, hLater, hOthers⟩ := hInv
    obtain ⟨hStopped', more, hMore, hMoreOthers⟩ :=
      hStopped.change hSound.queued hSound.issued hChange
    refine ⟨hSound.change hChange, hStopped', later ++ more, ?_, ?_⟩
    · rw [hMore, hLater, List.append_assoc]
    · intro d hMem
      rcases List.mem_append.mp hMem with hMem | hMem
      · exact hOthers d hMem
      · exact hMoreOthers d hMem
  have hStart : ∃ later, t.dispatched = t.dispatched ++ later ∧
      ∀ d ∈ later, d.unit.timerId ≠ timerId := ⟨[], (List.append_nil _).symm, nofun⟩
  exact (run_changes hChange ⟨hSound, hStopped, hStart⟩ hGuard hRun).2.2

/-- **What a timer hands over.**  In every run with fewer than `2 ^ 64 - 1` posts,
whatever the wake-ups and the clock do: a unit is handed over only when its time
stamp is past; the stamps of what was handed over never decrease; a once task is
handed over at most once; a repeated task that was not cancelled has exactly one
unit in the queue; and once a cancel of a queued unit was executed, that id is
never handed over again. -/
theorem dispatch_safe {start : Int} {actions : List (TimerAction Cb Owner)}
    (hGuard : Guarded (step Chrono.exact) PostAllowed (initial impl start) actions)
    (hRun : run (step Chrono.exact) (initial impl start) actions = some t) :
    (∀ d ∈ t.dispatched, d.unit.timeStamp ≤ d.now ∧ d.now ≤ t.now) ∧
      (t.dispatched.map (·.unit.timeStamp)).Pairwise (· ≤ ·) ∧
      (∀ cb owner timeoutMs timerId, .postOnce cb owner timeoutMs timerId ∈ t.ran →
        (t.dispatched.map (·.unit.timerId)).count timerId ≤ 1) ∧
      (∀ cb owner timeoutMs timerId,
        .postRepeat cb owner timeoutMs timerId ∈ t.ran → .cancel timerId ∉ t.ran →
          (t.units.map (·.timerId)).count timerId = 1) ∧
      ∀ timerId input next more final, t.tasks.head? = some (.cancel timerId) →
        (∃ unit ∈ t.units, unit.timerId = timerId) →
        step Chrono.exact t (.runTask input) = some next →
        Guarded (step Chrono.exact) PostAllowed next more →
        run (step Chrono.exact) next more = some final →
          ∃ later, final.dispatched = next.dispatched ++ later ∧
            ∀ d ∈ later, d.unit.timerId ≠ timerId := by
  have hSound := sound_run hGuard hRun
  refine ⟨hSound.ordered.due, hSound.ordered.order,
    fun _ _ _ _ hOnce => hSound.once hOnce,
    fun _ _ _ _ hRepeat hAlive => hSound.repeated hRepeat hAlive, ?_⟩
  intro timerId input next more final hTask hUnit hStep hGuard hRun
  have hOne : run (step Chrono.exact) t [.runTask input] = some next :=
    run_cons_eq_some_iff.mpr ⟨next, hStep, rfl⟩
  have hAllowed : Guarded (step Chrono.exact) PostAllowed t [.runTask input] :=
    ⟨trivial, fun _ _ => trivial⟩
  have hNext : Sound next :=
    run_changes (fun _ _ hSound hChange => hSound.change hChange) hSound hAllowed hOne
  exact hNext.never_again (hSound.stops hTask hUnit hStep) hGuard hRun

/-- A repeated task and a once task are due at one wake-up, late; then the
repeated one is cancelled, and its unit is dropped when it is due again. -/
theorem dispatch_safe_cancelled :
    let impl : TimerQueue Nat Unit := PriorityQueue.ofList TimerUnit.timeStamp
    let input : IoInput := { fuel := 4 }
    let actions : List (TimerAction Nat Unit) :=
      [.postRepeatTask 1 () 10, .postOnceTask 2 () 15, .post 0, .post 0,
        .runTask input, .runTask input, .passes 20000000, .fire, .wake input,
        .cancelTask 1, .post 0]
    ∃ t next final, run (step Chrono.exact) (initial impl 0) actions = some t ∧
      t.dispatched.map (·.unit.timerId) = [1, 2] ∧
      (t.dispatched.map (·.unit.timerId)).count 2 ≤ 1 ∧
      (t.units.map (·.timerId)).count 1 = 1 ∧
      step Chrono.exact t (.runTask input) = some next ∧
      run (step Chrono.exact) next [.passes 20000000, .fire, .wake input] =
        some final ∧
      ∃ later, final.dispatched = next.dispatched ++ later ∧
        ∀ d ∈ later, d.unit.timerId ≠ 1 := by
  intro impl input actions
  let more : List (TimerAction Nat Unit) := [.passes 20000000, .fire, .wake input]
  have hRuns : Guarded (step Chrono.exact) PostAllowed (initial impl 0) actions ∧
      (run (step Chrono.exact) (initial impl 0) actions).any (fun t =>
        t.dispatched.map (·.unit.timerId) = [1, 2] ∧
          .postOnce 2 () 15 2 ∈ t.ran ∧ .postRepeat 1 () 10 1 ∈ t.ran ∧
          .cancel 1 ∉ t.ran ∧ t.tasks.head? = some (.cancel 1) ∧
          1 ∈ t.units.map (·.timerId) ∧
          (step Chrono.exact t (.runTask input)).any (fun next =>
            Guarded (step Chrono.exact) PostAllowed next more ∧
              (run (step Chrono.exact) next more).isSome) = true) = true := by
    decide +kernel
  obtain ⟨t, hRun, hReached⟩ := (Option.any_eq_true _ _).mp hRuns.2
  obtain ⟨hIds, hOnce, hRepeat, hAlive, hTask, hUnit, hNext⟩ :=
    of_decide_eq_true hReached
  obtain ⟨next, hStep, hMore⟩ := (Option.any_eq_true _ _).mp hNext
  obtain ⟨hGuard, hFinal⟩ := of_decide_eq_true hMore
  obtain ⟨final, hFinal⟩ := Option.isSome_iff_exists.mp hFinal
  obtain ⟨-, -, hAtMostOnce, hOneUnit, hStops⟩ := dispatch_safe hRuns.1 hRun
  exact ⟨t, next, final, hRun, hIds, hAtMostOnce _ _ _ _ hOnce,
    hOneUnit _ _ _ _ hRepeat hAlive, hStep, hFinal,
    hStops 1 input next more final hTask (Multiset.mem_map.mp hUnit) hStep hGuard hFinal⟩

end Timer
end Timers
end KZEvent
