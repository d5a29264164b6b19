import KZEvent.Foundation.Places
import KZEvent.Timers.DueOrder
import Mathlib.Data.List.Pairwise
import Mathlib.Data.Multiset.MapFold
import Mathlib.Data.Multiset.ZeroCons

/-!
# Ids of timers

Every post takes an id of its own, as long as the counter does not overflow.  The
id is in a call, in a posted task, or in an executed one; and the unit of an
executed one is queued, dropped after a cancel, or handed over for good.  A unit
that is repeated goes back into the queue under the same id.
-/

namespace KZEvent
namespace Timers

open Foundation

universe u

variable {Cb Owner : Type u} {impl : TimerQueue Cb Owner}

namespace Timer

variable {t next : Timer impl}

/-- There are fewer than `2 ^ 64 - 1` posts, and repeated timers have an
interval. -/
def PostAllowed (t : Timer impl) : TimerAction Cb Owner → Prop
  | .postOnceTask _ _ _ => t.posts + 1 < 2 ^ 64 - 1
  | .postRepeatTask _ _ timeoutMs => 0 < timeoutMs ∧ t.posts + 1 < 2 ^ 64 - 1
  | _ => True

instance (t : Timer impl) (action : TimerAction Cb Owner) :
    Decidable (t.PostAllowed action) :=
  match action with
  | .postOnceTask _ _ _ => inferInstanceAs (Decidable (_ < _))
  | .postRepeatTask _ _ _ => inferInstanceAs (Decidable (_ ∧ _))
  | .cancelTask _ | .post _ | .passes _ | .fire | .runTask _ | .wake _ =>
      .isTrue trivial

theorem nextId_of_few {count : Nat} (hFew : count + 1 < 2 ^ 64 - 1) :
    nextId count = count + 1 := by
  have hMod : (count + 1) % 2 ^ 64 = count + 1 := Nat.mod_eq_of_lt (by omega)
  unfold nextId
  dsimp only
  rw [hMod, if_neg (by omega)]

/-! ## Posts -/

/-- All tasks there ever were: not posted yet, queued, or executed. -/
def allTasks (t : Timer impl) : List (TimerTask Cb Owner) :=
  t.calls ++ t.tasks ++ t.ran

/-- Two tasks that do not post under one id. -/
def Distinct (task other : TimerTask Cb Owner) : Prop :=
  ∀ timerId, task.postId = some timerId → other.postId ≠ some timerId

instance distinct_symm : @Std.Symm (TimerTask Cb Owner) Distinct :=
  ⟨fun _ _ hDistinct timerId hOther hTask => hDistinct timerId hTask hOther⟩

/-- The ids are those of the posts, and no two posts share one. -/
structure Issued (t : Timer impl) : Prop where
  counter : t.timerIdStart = t.posts
  distinct : t.allTasks.Pairwise Distinct
  le : ∀ task ∈ t.allTasks, ∀ timerId, task.postId = some timerId →
    timerId ≤ t.posts
  interval : ∀ cb owner timeoutMs timerId,
    .postRepeat cb owner timeoutMs timerId ∈ t.allTasks → 0 < timeoutMs

theorem issued_initial (impl : TimerQueue Cb Owner) (now : Int) :
    Issued (initial impl now) :=
  ⟨rfl, .nil, nofun, nofun⟩

/-- Tasks move along. -/
theorem Issued.of_perm (hIssued : Issued t)
    (hCounter : next.timerIdStart = t.timerIdStart) (hPosts : next.posts = t.posts)
    (hPerm : next.allTasks.Perm t.allTasks) : Issued next := by
  refine ⟨?_, ?_, fun task hTask => ?_, fun cb owner timeoutMs timerId hTask => ?_⟩
  · rw [hCounter, hPosts]
    exact hIssued.counter
  · exact (hPerm.pairwise_iff fun hDistinct =>
      distinct_symm.symm _ _ hDistinct).mpr hIssued.distinct
  · rw [hPosts]
    exact hIssued.le task (hPerm.subset hTask)
  · exact hIssued.interval cb owner timeoutMs timerId (hPerm.subset hTask)

/-- There is a new task; if it is a post, its id is new. -/
theorem Issued.cons (hIssued : Issued t) (task : TimerTask Cb Owner)
    (hCounter : next.timerIdStart = next.posts) (hPosts : t.posts ≤ next.posts)
    (hPerm : next.allTasks.Perm (task :: t.allTasks))
    (hNew : ∀ timerId, task.postId = some timerId →
      t.posts < timerId ∧ timerId ≤ next.posts)
    (hInterval : ∀ cb owner timeoutMs timerId,
      task = .postRepeat cb owner timeoutMs timerId → 0 < timeoutMs) :
    Issued next := by
  have hCases {other : TimerTask Cb Owner} (hOther : other ∈ next.allTasks) :
      other = task ∨ other ∈ t.allTasks := List.mem_cons.mp (hPerm.subset hOther)
  refine ⟨hCounter, ?_, fun other hOther timerId hId => ?_,
    fun cb owner timeoutMs timerId hOther => ?_⟩
  · refine (hPerm.pairwise_iff fun hDistinct => distinct_symm.symm _ _ hDistinct).mpr
      (List.pairwise_cons.mpr ⟨?_, hIssued.distinct⟩)
    intro other hOther timerId hId hSame
    have hOld := hIssued.le other hOther timerId hSame
    have hLater := (hNew timerId hId).1
    omega
  · rcases hCases hOther with rfl | hOther
    · exact (hNew timerId hId).2
    · exact (hIssued.le other hOther timerId hId).trans hPosts
  · rcases hCases hOther with hTask | hOther
    · exact hInterval cb owner timeoutMs timerId hTask.symm
    · exact hIssued.interval cb owner timeoutMs timerId hOther

theorem allTasks_call (t : Timer impl) (task : Nat → TimerTask Cb Owner) :
    (t.call task).allTasks.Perm (task (nextId t.timerIdStart) :: t.allTasks) := by
  show (t.calls ++ [_] ++ t.tasks ++ t.ran).Perm (_ :: (t.calls ++ t.tasks ++ t.ran))
  simp only [List.append_assoc, List.singleton_append]
  exact List.perm_middle

theorem Issued.call (hIssued : Issued t) (hFew : t.posts + 1 < 2 ^ 64 - 1)
    {task : Nat → TimerTask Cb Owner}
    (hId : ∀ timerId, (task timerId).postId = some timerId)
    (hInterval : ∀ cb owner timeoutMs timerId timerId',
      task timerId' = .postRepeat cb owner timeoutMs timerId → 0 < timeoutMs) :
    Issued (t.call task) := by
  have hNext : nextId t.timerIdStart = t.posts + 1 := by
    rw [hIssued.counter]
    exact nextId_of_few hFew
  refine hIssued.cons _ hNext (Nat.le_succ _) (t.allTasks_call task) ?_ ?_
  · intro timerId hSome
    rw [hId, hNext] at hSome
    obtain rfl := Option.some.inj hSome
    exact ⟨Nat.lt_succ_self _, le_rfl⟩
  · intro cb owner timeoutMs timerId hTask
    exact hInterval cb owner timeoutMs timerId _ hTask

/-- A task that is executed goes behind the executed ones. -/
theorem allTasks_run {task : TimerTask Cb Owner} {tasks : List (TimerTask Cb Owner)}
    (hTasks : t.tasks = task :: tasks) :
    (t.calls ++ tasks ++ (t.ran ++ [task])).Perm t.allTasks := by
  unfold allTasks
  rw [hTasks]
  simp only [List.append_assoc]
  apply List.Perm.append_left _
  rw [← List.append_assoc]
  exact List.perm_append_singleton _ _

theorem Issued.change (hIssued : Issued t)
    (hChange : Change Chrono.exact PostAllowed t next) : Issued next := by
  cases hChange with
  | quiet hQuiet =>
      apply hIssued.of_perm hQuiet.timerIdStart hQuiet.posts
      rw [allTasks, hQuiet.calls, hQuiet.tasks, hQuiet.ran]
      exact .refl _
  | postsOnce cb owner timeoutMs hGuard =>
      exact hIssued.call hGuard (fun _ => rfl) nofun
  | postsRepeat cb owner timeoutMs hGuard =>
      refine hIssued.call hGuard.2 (fun _ => rfl) ?_
      intro _ _ _ _ _ hTask
      injection hTask with _ _ hTimeout
      exact hTimeout ▸ hGuard.1
  | asks timerId =>
      refine hIssued.cons (.cancel timerId) hIssued.counter le_rfl ?_ nofun nofun
      show (t.calls ++ [_] ++ t.tasks ++ t.ran).Perm (_ :: (t.calls ++ t.tasks ++ t.ran))
      simp only [List.append_assoc, List.singleton_append]
      exact List.perm_middle
  | posts hTask =>
      refine hIssued.of_perm rfl rfl ?_
      apply List.Perm.append_right _
      rw [← List.append_assoc]
      apply (List.perm_append_singleton _ _).trans
      exact (perm_set hTask).1.symm.append_right t.tasks
  | queues hTasks hUnit => exact hIssued.of_perm rfl rfl (allTasks_run hTasks)
  | cancels hTasks hGuard => exact hIssued.of_perm rfl rfl (allTasks_run hTasks)
  | drops | repeats | ends => exact hIssued.of_perm rfl rfl (.refl _)

/-- The executed post under an id is the only one. -/
theorem Issued.unique (hIssued : Issued t) {task other : TimerTask Cb Owner}
    {timerId : Nat} (hTask : task ∈ t.ran) (hOther : other ∈ t.ran)
    (hId : task.postId = some timerId) (hSame : other.postId = some timerId) :
    task = other := by
  by_contra hDifferent
  exact hIssued.distinct.forall (List.mem_append_right _ hTask)
    (List.mem_append_right _ hOther) hDifferent timerId hId hSame

/-- A post that is still queued has an id that no executed one has. -/
theorem Issued.fresh (hIssued : Issued t) {task other : TimerTask Cb Owner}
    {tasks : List (TimerTask Cb Owner)} {timerId : Nat}
    (hTasks : t.tasks = task :: tasks) (hId : task.postId = some timerId)
    (hOther : other ∈ t.ran) : other.postId ≠ some timerId := by
  have hApart := (List.pairwise_append.mp hIssued.distinct).2.2
  have hQueued : task ∈ t.calls ++ t.tasks := by
    rw [hTasks]
    exact List.mem_append_right _ List.mem_cons_self
  exact hApart task hQueued other hOther timerId hId

/-! ## Units in the queue -/

/-- The ids of the queued units. -/
def queuedIds (t : Timer impl) : Multiset Nat := t.units.map (·.timerId)

/-- The unit is what an executed task queued, or its repetition. -/
def Made (t : Timer impl) (unit : TimerUnit Cb Owner) : Prop :=
  ∃ task ∈ t.ran, ∃ now, task.unit Chrono.exact now = some unit

theorem postId_of_unit {task : TimerTask Cb Owner} {now : Int}
    {unit : TimerUnit Cb Owner} (hUnit : task.unit Chrono.exact now = some unit) :
    task.postId = some unit.timerId := by
  cases task with
  | postOnce | postRepeat =>
      obtain rfl := Option.some.inj hUnit
      rfl
  | cancel timerId => cases hUnit

/-- A unit without an interval belongs to `post_once_task`. -/
theorem Issued.once_iff (hIssued : Issued t) {cb : Cb} {owner : Owner}
    {timeoutMs : Nat} {unit : TimerUnit Cb Owner} (hMade : t.Made unit) :
    (.postOnce cb owner timeoutMs unit.timerId ∈ t.ran → unit.repeatInterval = 0) ∧
      (.postRepeat cb owner timeoutMs unit.timerId ∈ t.ran →
        unit.repeatInterval ≠ 0) := by
  obtain ⟨task, hTask, now, hUnit⟩ := hMade
  have hId := postId_of_unit hUnit
  constructor
  · intro hOnce
    obtain rfl := hIssued.unique hTask hOnce hId rfl
    exact (congrArg TimerUnit.repeatInterval (Option.some.inj hUnit)).symm
  · intro hRepeat hZero
    obtain rfl := hIssued.unique hTask hRepeat hId rfl
    have hInterval := hIssued.interval _ _ _ _ (List.mem_append_right _ hRepeat)
    have hSame : (timeoutMs : Int) * 1000000 = unit.repeatInterval :=
      congrArg TimerUnit.repeatInterval (Option.some.inj hUnit)
    omega

theorem Made.mono {unit : TimerUnit Cb Owner} (hMade : t.Made unit)
    (hRan : ∀ task ∈ t.ran, task ∈ next.ran) : next.Made unit := by
  obtain ⟨task, hTask, hUnit⟩ := hMade
  exact ⟨task, hRan task hTask, hUnit⟩

theorem queuedIds_pop {unit : TimerUnit Cb Owner} {rest : impl.Queue}
    (hPop : impl.pop t.timerQueue = some (unit, rest)) :
    t.queuedIds = unit.timerId ::ₘ (impl.items rest).map (·.timerId) := by
  rw [queuedIds, units_pop hPop, Multiset.map_cons]

theorem queuedIds_push (queue : impl.Queue) (unit : TimerUnit Cb Owner) :
    (impl.items (impl.push queue unit)).map (·.timerId) =
      unit.timerId ::ₘ (impl.items queue).map (·.timerId) := by
  rw [impl.items_push, Multiset.map_cons]

/-- A unit that goes back into the queue keeps its id. -/
theorem queuedIds_returns {unit : TimerUnit Cb Owner} {rest : impl.Queue}
    (hPop : impl.pop t.timerQueue = some (unit, rest)) (timeStamp : Int) :
    (impl.items (impl.push rest { unit with timeStamp := timeStamp })).map
      (·.timerId) = t.queuedIds := by
  rw [queuedIds_push, queuedIds_pop hPop]

/-- What is queued: each id at most once, made by an executed task; and a repeated
one as long as it was not cancelled. -/
structure Queued (t : Timer impl) : Prop where
  nodup : t.queuedIds.Nodup
  made : ∀ unit ∈ t.units, t.Made unit
  deleted : ∀ timerId ∈ t.deleteTimerIds, .cancel timerId ∈ t.ran
  repeats : ∀ cb owner timeoutMs timerId,
    .postRepeat cb owner timeoutMs timerId ∈ t.ran →
      .cancel timerId ∉ t.ran → timerId ∈ t.queuedIds

theorem queued_initial (impl : TimerQueue Cb Owner) (now : Int) :
    Queued (initial impl now) := by
  have hUnits : (initial impl now).units = 0 := impl.items_empty
  refine ⟨?_, ?_, nofun, nofun⟩
  · rw [queuedIds, hUnits]
    exact Multiset.nodup_zero
  · rw [hUnits]
    exact fun _ hUnit => absurd hUnit (Multiset.notMem_zero _)

/-- The popped unit was the only one with its id. -/
theorem Queued.gone_of_pop (hQueued : Queued t) {unit : TimerUnit Cb Owner}
    {rest : impl.Queue} (hPop : impl.pop t.timerQueue = some (unit, rest)) :
    unit.timerId ∉ (impl.items rest).map (·.timerId) := by
  have hNodup := hQueued.nodup
  rw [queuedIds_pop hPop, Multiset.nodup_cons] at hNodup
  exact hNodup.1

/-- Neither the queue nor the cancelled ids nor the executed tasks change. -/
theorem Queued.of_same (hQueued : Queued t) (hUnits : next.units = t.units)
    (hDeleted : next.deleteTimerIds = t.deleteTimerIds) (hRan : next.ran = t.ran) :
    Queued next := by
  refine ⟨?_, ?_, ?_, ?_⟩
  · rw [queuedIds, hUnits]
    exact hQueued.nodup
  · rw [hUnits]
    exact fun unit hUnit => (hQueued.made unit hUnit).mono (fun _ hTask => hRan ▸ hTask)
  · rw [hDeleted, hRan]
    exact hQueued.deleted
  · rw [queuedIds, hUnits, hRan]
    exact hQueued.repeats

theorem Queued.queues (hQueued : Queued t) (hIssued : Issued t)
    {task : TimerTask Cb Owner} {tasks : List (TimerTask Cb Owner)}
    {unit : TimerUnit Cb Owner} (hTasks : t.tasks = task :: tasks)
    (hUnit : task.unit Chrono.exact t.now = some unit) :
    Queued { t with
      timerQueue := impl.push t.timerQueue unit
      tasks := tasks
      ran := t.ran ++ [task] } := by
  have hId := postId_of_unit hUnit
  have hUnits : impl.items (impl.push t.timerQueue unit) = unit ::ₘ t.units :=
    impl.items_push _ _
  have hRan : ∀ other ∈ t.ran, other ∈ t.ran ++ [task] := fun _ hOther =>
    List.mem_append_left _ hOther
  have hFresh : unit.timerId ∉ t.queuedIds := by
    intro hMem
    obtain ⟨old, hOld, hSame⟩ := Multiset.mem_map.mp hMem
    obtain ⟨other, hOther, now, hMade⟩ := hQueued.made old hOld
    exact hIssued.fresh hTasks hId hOther (hSame ▸ postId_of_unit hMade)
  refine ⟨?_, fun other hOther => ?_, fun timerId hDeleted => ?_,
    fun cb owner timeoutMs timerId hRepeat hAlive => ?_⟩
  · show ((impl.items (impl.push t.timerQueue unit)).map _).Nodup
    rw [queuedIds_push]
    exact Multiset.nodup_cons.mpr ⟨hFresh, hQueued.nodup⟩
  · have hOther : other ∈ unit ::ₘ t.units := hUnits ▸ hOther
    rcases Multiset.mem_cons.mp hOther with rfl | hOther
    · exact ⟨task, List.mem_append_right _ List.mem_cons_self, t.now, hUnit⟩
    · exact (hQueued.made other hOther).mono hRan
  · exact hRan _ (hQueued.deleted timerId hDeleted)
  · show timerId ∈ (impl.items (impl.push t.timerQueue unit)).map _
    rw [queuedIds_push, Multiset.mem_cons]
    rcases List.mem_append.mp hRepeat with hRepeat | hRepeat
    · exact .inr (hQueued.repeats cb owner timeoutMs timerId hRepeat
        (fun hCancel => hAlive (hRan _ hCancel)))
    · obtain rfl := List.mem_singleton.mp hRepeat
      exact .inl (Option.some.inj hId)

theorem Queued.cancels (hQueued : Queued t) {timerId : Nat}
    (tasks : List (TimerTask Cb Owner)) :
    Queued { t with
      deleteTimerIds := insert timerId t.deleteTimerIds
      tasks := tasks
      ran := t.ran ++ [.cancel timerId] } := by
  have hRan : ∀ other ∈ t.ran, other ∈ t.ran ++ [.cancel timerId] := fun _ hOther =>
    List.mem_append_left _ hOther
  refine ⟨hQueued.nodup, fun other hOther => (hQueued.made other hOther).mono hRan,
    fun other hDeleted => ?_, fun cb owner timeoutMs other hRepeat hAlive => ?_⟩
  · rcases Finset.mem_insert.mp hDeleted with rfl | hDeleted
    · exact List.mem_append_right _ List.mem_cons_self
    · exact hRan _ (hQueued.deleted other hDeleted)
  · rcases List.mem_append.mp hRepeat with hRepeat | hRepeat
    · exact hQueued.repeats cb owner timeoutMs other hRepeat
        (fun hCancel => hAlive (hRan _ hCancel))
    · cases List.mem_singleton.mp hRepeat

/-- A unit leaves the queue: it was cancelled, or it is not repeated. -/
theorem Queued.leaves (hQueued : Queued t) {unit : TimerUnit Cb Owner}
    {rest : impl.Queue} (hPop : impl.pop t.timerQueue = some (unit, rest))
    (hUnits : next.units = impl.items rest)
    (hDeleted : ∀ timerId ∈ next.deleteTimerIds, timerId ∈ t.deleteTimerIds)
    (hRan : next.ran = t.ran)
    (hLeaves : ∀ cb owner timeoutMs,
      .postRepeat cb owner timeoutMs unit.timerId ∈ t.ran →
        .cancel unit.timerId ∈ t.ran) : Queued next := by
  have hIds := queuedIds_pop hPop
  refine ⟨?_, fun other hOther => ?_, fun timerId hMem => ?_,
    fun cb owner timeoutMs timerId hRepeat hAlive => ?_⟩
  · have hNodup := hQueued.nodup
    rw [hIds, Multiset.nodup_cons] at hNodup
    rw [queuedIds, hUnits]
    exact hNodup.2
  · rw [hUnits] at hOther
    exact (hQueued.made other (mem_units_of_pop hPop hOther)).mono
      (fun _ hTask => hRan ▸ hTask)
  · rw [hRan]
    exact hQueued.deleted timerId (hDeleted timerId hMem)
  · rw [hRan] at hRepeat hAlive
    have hMem := hQueued.repeats cb owner timeoutMs timerId hRepeat hAlive
    rw [hIds, Multiset.mem_cons] at hMem
    rw [queuedIds, hUnits]
    apply hMem.resolve_left
    rintro rfl
    exact hAlive (hLeaves cb owner timeoutMs hRepeat)

/-- A unit goes back into the queue under its id. -/
theorem Queued.returns (hQueued : Queued t) {unit : TimerUnit Cb Owner}
    {rest : impl.Queue} (hPop : impl.pop t.timerQueue = some (unit, rest))
    (hRepeats : unit.repeatInterval ≠ 0)
    (dispatched : List (Dispatched Cb Owner)) :
    Queued { t with
      timerQueue := impl.push rest
        { unit with timeStamp := Chrono.exact.add t.now unit.repeatInterval }
      dispatched := dispatched } := by
  have hIds := queuedIds_returns hPop (Chrono.exact.add t.now unit.repeatInterval)
  refine ⟨?_, fun other hOther => ?_, hQueued.deleted,
    fun cb owner timeoutMs timerId hRepeat hAlive => ?_⟩
  · show ((impl.items (impl.push rest _)).map _).Nodup
    rw [hIds]
    exact hQueued.nodup
  · have hOther : other ∈ impl.items (impl.push rest _) := hOther
    rw [impl.items_push] at hOther
    rcases Multiset.mem_cons.mp hOther with rfl | hOther
    · obtain ⟨task, hTask, now, hUnit⟩ := hQueued.made unit (popped_mem_units hPop)
      refine ⟨task, hTask, t.now, ?_⟩
      cases task with
      | postOnce cb owner timeoutMs timerId =>
          obtain rfl := Option.some.inj hUnit
          exact absurd rfl hRepeats
      | postRepeat cb owner timeoutMs timerId =>
          obtain rfl := Option.some.inj hUnit
          rfl
      | cancel timerId => cases hUnit
    · exact hQueued.made other (mem_units_of_pop hPop hOther)
  · show timerId ∈ (impl.items (impl.push rest _)).map _
    rw [hIds]
    exact hQueued.repeats cb owner timeoutMs timerId hRepeat hAlive

theorem Queued.change (hQueued : Queued t) (hIssued : Issued t)
    (hChange : Change Chrono.exact PostAllowed t next) : Queued next := by
  cases hChange with
  | quiet hQuiet =>
      exact hQueued.of_same (congrArg impl.items hQuiet.timerQueue)
        hQuiet.deleteTimerIds hQuiet.ran
  | postsOnce | postsRepeat | asks | posts => exact hQueued.of_same rfl rfl rfl
  | queues hTasks hUnit => exact hQueued.queues hIssued hTasks hUnit
  | cancels hTasks hGuard => exact hQueued.cancels _
  | drops hPop hDeleted =>
      exact hQueued.leaves hPop rfl (fun _ hMem => Finset.mem_of_mem_erase hMem) rfl
        (fun _ _ _ _ => hQueued.deleted _ hDeleted)
  | repeats hPop hDue hNow hAlive hRepeats => exact hQueued.returns hPop hRepeats _
  | ends hPop hDue hNow hAlive hOnce =>
      refine hQueued.leaves hPop rfl (fun _ hMem => hMem) rfl ?_
      intro cb owner timeoutMs hRepeat
      have hMade := hQueued.made _ (popped_mem_units hPop)
      exact absurd hOnce ((hIssued.once_iff hMade).2 hRepeat)

/-! ## What was handed over -/

/-- What was handed over was made by an executed task, and a unit without an
interval is neither queued nor handed over again. -/
structure Handed (t : Timer impl) : Prop where
  made : ∀ d ∈ t.dispatched, t.Made d.unit
  gone : ∀ d ∈ t.dispatched, d.unit.repeatInterval = 0 →
    d.unit.timerId ∉ t.queuedIds
  once : t.dispatched.Pairwise fun d later =>
    d.unit.repeatInterval = 0 → later.unit.timerId ≠ d.unit.timerId

theorem handed_initial (impl : TimerQueue Cb Owner) (now : Int) :
    Handed (initial impl now) :=
  ⟨nofun, nofun, .nil⟩

/-- Nothing is handed over, and no id comes back into the queue. -/
theorem Handed.of_queued (hHanded : Handed t)
    (hDispatched : next.dispatched = t.dispatched)
    (hRan : ∀ task ∈ t.ran, task ∈ next.ran)
    (hQueued : ∀ d ∈ t.dispatched, d.unit.timerId ∈ next.queuedIds →
      d.unit.timerId ∈ t.queuedIds) : Handed next := by
  refine ⟨fun d hMem => ?_, fun d hMem hOnce hBack => ?_, ?_⟩
  · rw [hDispatched] at hMem
    exact (hHanded.made d hMem).mono hRan
  · rw [hDispatched] at hMem
    exact hHanded.gone d hMem hOnce (hQueued d hMem hBack)
  · rw [hDispatched]
    exact hHanded.once

/-- A unit is handed over; it goes back into the queue if it has an interval. -/
theorem Handed.hands (hHanded : Handed t) {unit : TimerUnit Cb Owner} {now : Int}
    (hDispatched : next.dispatched = t.dispatched ++ [{ unit := unit, now := now }])
    (hRan : next.ran = t.ran) (hMade : t.Made unit)
    (hUnit : unit.timerId ∈ t.queuedIds)
    (hQueued : ∀ timerId ∈ next.queuedIds, timerId ∈ t.queuedIds)
    (hGone : unit.repeatInterval = 0 → unit.timerId ∉ next.queuedIds) :
    Handed next := by
  refine ⟨fun d hMem => ?_, fun d hMem hOnce hBack => ?_, ?_⟩
  · rw [hDispatched] at hMem
    have hRan : ∀ task ∈ t.ran, task ∈ next.ran := fun _ hTask => hRan ▸ hTask
    rcases List.mem_append.mp hMem with hMem | hMem
    · exact (hHanded.made d hMem).mono hRan
    · rw [List.mem_singleton.mp hMem]
      exact hMade.mono hRan
  · rw [hDispatched] at hMem
    rcases List.mem_append.mp hMem with hMem | hMem
    · exact hHanded.gone d hMem hOnce (hQueued _ hBack)
    · rw [List.mem_singleton.mp hMem] at hOnce hBack
      exact hGone hOnce hBack
  · rw [hDispatched, List.pairwise_append]
    refine ⟨hHanded.once, List.pairwise_singleton _ _, fun d hMem last hLast hOnce => ?_⟩
    rw [List.mem_singleton.mp hLast]
    intro hSame
    exact hHanded.gone d hMem hOnce (hSame ▸ hUnit)

theorem Handed.change (hHanded : Handed t) (hQueued : Queued t) (hIssued : Issued t)
    (hChange : Change Chrono.exact PostAllowed t next) : Handed next := by
  cases hChange with
  | quiet hQuiet =>
      refine hHanded.of_queued hQuiet.dispatched (fun _ hTask => hQuiet.ran ▸ hTask) ?_
      intro d _ hMem
      rw [queuedIds, units, hQuiet.timerQueue] at hMem
      exact hMem
  | postsOnce | postsRepeat | asks | posts =>
      exact hHanded.of_queued rfl (fun _ hTask => hTask) (fun _ _ hMem => hMem)
  | cancels hTasks hGuard =>
      exact hHanded.of_queued rfl (fun _ hTask => List.mem_append_left _ hTask)
        (fun _ _ hMem => hMem)
  | queues hTasks hUnit =>
      refine hHanded.of_queued rfl (fun _ hTask => List.mem_append_left _ hTask) ?_
      intro d hMem hBack
      have hBack : d.unit.timerId ∈ (impl.items (impl.push t.timerQueue _)).map _ :=
        hBack
      rw [queuedIds_push, Multiset.mem_cons] at hBack
      refine hBack.resolve_left fun hSame => ?_
      -- The new unit has an id that no executed task has.
      obtain ⟨other, hOther, now, hMade⟩ := hHanded.made d hMem
      exact hIssued.fresh hTasks (postId_of_unit hUnit) hOther
        (hSame ▸ postId_of_unit hMade)
  | drops hPop hDeleted =>
      refine hHanded.of_queued rfl (fun _ hTask => hTask) ?_
      intro d _ hBack
      rw [queuedIds_pop hPop]
      exact Multiset.mem_cons_of_mem hBack
  | repeats hPop hDue hNow hAlive hRepeats =>
      refine hHanded.hands rfl rfl (hQueued.made _ (popped_mem_units hPop)) ?_ ?_
        (fun hOnce => absurd hOnce hRepeats)
      · rw [queuedIds_pop hPop]
        exact Multiset.mem_cons_self _ _
      · intro timerId hMem
        rw [← queuedIds_returns hPop]
        exact hMem
  | ends hPop hDue hNow hAlive hOnce =>
      have hIds := queuedIds_pop hPop
      refine hHanded.hands rfl rfl (hQueued.made _ (popped_mem_units hPop)) ?_ ?_ ?_
      · rw [hIds]
        exact Multiset.mem_cons_self _ _
      · intro timerId hMem
        rw [hIds]
        exact Multiset.mem_cons_of_mem hMem
      · exact fun _ => hQueued.gone_of_pop hPop

/-! ## Cancelled while queued -/

/-- The post under `timerId` was executed; its unit is gone, or it will be dropped
when it is due. -/
structure Stopped (timerId : Nat) (t : Timer impl) : Prop where
  ran : ∃ task ∈ t.ran, task.postId = some timerId
  dropped : timerId ∈ t.deleteTimerIds ∨ timerId ∉ t.queuedIds

/-- What is handed over from now on is not the stopped unit. -/
theorem Stopped.change {timerId : Nat} (hStopped : Stopped timerId t)
    (hQueued : Queued t) (hIssued : Issued t)
    (hChange : Change Chrono.exact PostAllowed t next) :
    Stopped timerId next ∧ ∃ later, next.dispatched = t.dispatched ++ later ∧
      ∀ d ∈ later, d.unit.timerId ≠ timerId := by
  have hNothing (hDispatched : next.dispatched = t.dispatched) :
      ∃ later, next.dispatched = t.dispatched ++ later ∧
        ∀ d ∈ later, d.unit.timerId ≠ timerId :=
    ⟨[], by rw [hDispatched, List.append_nil], nofun⟩
  obtain ⟨⟨post, hPost, hId⟩, hDropped⟩ := hStopped
  have hOther {unit : TimerUnit Cb Owner} {rest : impl.Queue}
      (hPop : impl.pop t.timerQueue = some (unit, rest))
      (hAlive : unit.timerId ∉ t.deleteTimerIds) : unit.timerId ≠ timerId := by
    rintro rfl
    rcases hDropped with hDeleted | hGone
    · exact hAlive hDeleted
    · rw [queuedIds_pop hPop] at hGone
      exact hGone (Multiset.mem_cons_self _ _)
  cases hChange with
  | quiet hQuiet =>
      refine ⟨⟨⟨post, hQuiet.ran ▸ hPost, hId⟩, ?_⟩, hNothing hQuiet.dispatched⟩
      rw [hQuiet.deleteTimerIds, queuedIds, units, hQuiet.timerQueue]
      exact hDropped
  | postsOnce | postsRepeat | asks | posts =>
      exact ⟨⟨⟨post, hPost, hId⟩, hDropped⟩, hNothing rfl⟩
  | cancels hTasks hGuard =>
      exact ⟨⟨⟨post, List.mem_append_left _ hPost, hId⟩,
        hDropped.imp_left Finset.mem_insert_of_mem⟩, hNothing rfl⟩
  | queues hTasks hUnit =>
      refine ⟨⟨⟨post, List.mem_append_left _ hPost, hId⟩, ?_⟩, hNothing rfl⟩
      refine hDropped.imp_right fun hGone hBack => hGone ?_
      have hBack : timerId ∈ (impl.items (impl.push t.timerQueue _)).map _ := hBack
      rw [queuedIds_push, Multiset.mem_cons] at hBack
      apply hBack.resolve_left
      rintro rfl
      exact hIssued.fresh hTasks (postId_of_unit hUnit) hPost hId
  | drops hPop hDeleted =>
      rename_i unit rest
      refine ⟨⟨⟨post, hPost, hId⟩, ?_⟩, hNothing rfl⟩
      by_cases hSame : timerId = unit.timerId
      · subst hSame
        exact .inr (hQueued.gone_of_pop hPop)
      · apply hDropped.imp (Finset.mem_erase_of_ne_of_mem hSame)
        intro hGone hBack
        rw [queuedIds_pop hPop] at hGone
        exact hGone (Multiset.mem_cons_of_mem hBack)
  | repeats hPop hDue hNow hAlive hRepeats =>
      refine ⟨⟨⟨post, hPost, hId⟩, hDropped.imp_right fun hGone hBack => hGone ?_⟩,
        _, rfl, List.forall_mem_singleton.mpr (hOther hPop hAlive)⟩
      rw [← queuedIds_returns hPop]
      exact hBack
  | ends hPop hDue hNow hAlive hOnce =>
      refine ⟨⟨⟨post, hPost, hId⟩, hDropped.imp_right fun hGone hBack => hGone ?_⟩,
        _, rfl, List.forall_mem_singleton.mpr (hOther hPop hAlive)⟩
      rw [queuedIds_pop hPop]
      exact Multiset.mem_cons_of_mem hBack

end Timer
end Timers
end KZEvent
