import KZEvent.Core.EventLoopRun

/-!
# The interest a channel remembers

`update_event` keeps the types and modes it asked for in the channel, and the
sockets compute their next request from them.  The descriptor and the loop move
from one channel to another, but what is remembered does not move with them, so
it belongs to the descriptor only as long as nothing was remembered when the
descriptor moved, or the same was remembered on both sides.
-/

namespace KZEvent
namespace Core

open Foundation

variable {Cb : Type*}

namespace LoopChannel

/-- `get_event_info`. -/
def getEventInfo (c : LoopChannel) : EventType × EventMode :=
  (c.eventTypes, c.eventModes)

/-- What a new channel remembers. -/
def kDefaultInfo : EventType × EventMode :=
  (EventType.kDefault, EventMode.kDefault)

/-- The open file under the descriptor of a valid channel. -/
def heldFile (c : LoopChannel) : Option Nat :=
  c.validFd.map fun _ => c.file

@[simp]
theorem heldFile_make (fd file : Nat) : (make fd file).heldFile = some file := rfl

@[simp]
theorem heldFile_moveConstruct (other : LoopChannel) :
    other.moveConstruct.1.heldFile = other.heldFile ∧
      other.moveConstruct.2.heldFile = none := ⟨rfl, rfl⟩

@[simp]
theorem heldFile_swap (a b : LoopChannel) :
    (a.swap b).1.heldFile = b.heldFile ∧ (a.swap b).2.heldFile = a.heldFile :=
  ⟨rfl, rfl⟩

end LoopChannel

open LoopChannel

/-- The loop, and as a ghost field the types and modes of the last
`update_event` that was issued for each open file. -/
structure TrackedLoop (Cb : Type*) where
  loop : EventLoop Cb
  issued : Nat → EventType × EventMode

namespace TrackedLoop

def initial : TrackedLoop Cb where
  loop := .initial
  issued := fun _ => kDefaultInfo

/-- An `update_event` of a channel; an invalid channel issues nothing. -/
def issue (t : TrackedLoop Cb) (index : Nat) (info : EventType × EventMode) :
    Nat → EventType × EventMode :=
  match (t.loop.channels[index]?).bind heldFile with
  | some file => Function.update t.issued file info
  | none => t.issued

def step (t : TrackedLoop Cb) (action : EventAction Cb) :
    Option (TrackedLoop Cb) :=
  (t.loop.step action).map fun loop =>
    { loop := loop
      issued := match action with
        | .updateEventCb index types modes _ | .updateEvent index types modes =>
            t.issue index (types, modes)
        | _ => t.issued }

/-- What the valid channels remember is what was last issued for what they hold,
and a request computed from it changes nothing but `kWrite`. -/
structure CacheBelongs (t : TrackedLoop Cb) : Prop where
  info : ∀ c ∈ t.loop.channels, ∀ file ∈ c.heldFile,
    c.getEventInfo = t.issued file
  masks : ∀ c ∈ t.loop.channels, ∀ file ∈ c.heldFile, ∀ bit, bit ≠ 1 →
    (c.eventTypes ||| EventType.kWrite).getLsbD bit =
        (t.issued file).1.getLsbD bit ∧
      (c.eventTypes &&& ~~~EventType.kWrite).getLsbD bit =
        (t.issued file).1.getLsbD bit

/-- The condition on a step: a channel that remembers anything is not moved from,
and channels that are swapped or assigned remember the same. -/
def KeepsCache (t : TrackedLoop Cb) : EventAction Cb → Prop
  | .moveConstruct index =>
      ∀ c ∈ t.loop.channels[index]?, c.heldFile ≠ none →
        c.getEventInfo = kDefaultInfo
  | .swap first second =>
      ∀ a ∈ t.loop.channels[first]?, ∀ b ∈ t.loop.channels[second]?,
        a.heldFile ≠ none ∨ b.heldFile ≠ none → a.getEventInfo = b.getEventInfo
  | _ => True

instance (t : TrackedLoop Cb) (action : EventAction Cb) :
    Decidable (t.KeepsCache action) :=
  match action with
  | .moveConstruct _ => inferInstanceAs (Decidable (∀ c ∈ _, _))
  | .swap _ _ => inferInstanceAs (Decidable (∀ a ∈ _, ∀ b ∈ _, _))
  | .openFd _ | .closeFd _ | .construct _ | .destroy _ | .updateEventCb _ _ _ _
  | .updateEvent _ _ _ | .disableEvent _ | .start | .stop | .wait _ | .io _ =>
      .isTrue trivial

/-! ## Channels up to their order -/

variable {channels channels' : List LoopChannel}
  {issued : Nat → EventType × EventMode}

/-- What is remembered belongs to what the channels hold. -/
def Belongs (issued : Nat → EventType × EventMode)
    (channels : List LoopChannel) : Prop :=
  ∀ c ∈ channels, ∀ file ∈ c.heldFile, c.getEventInfo = issued file

theorem belongs_perm (hPerm : channels.Perm channels') :
    Belongs issued channels ↔ Belongs issued channels' :=
  forall_congr' fun _ => imp_congr_left hPerm.mem_iff

theorem belongs_cons (c : LoopChannel) :
    Belongs issued (c :: channels) ↔
      (∀ file ∈ c.heldFile, c.getEventInfo = issued file) ∧
        Belongs issued channels :=
  List.forall_mem_cons

theorem getLsbD_kWrite {bit : Nat} (hBit : bit ≠ 1) :
    EventType.kWrite.getLsbD bit = false := by
  rw [EventType.kWrite, BitVec.getLsbD_twoPow]
  simp [Ne.symm hBit]

/-- The bits of the mask follow from what is remembered. -/
theorem cacheBelongs_iff (t : TrackedLoop Cb) :
    t.CacheBelongs ↔ Belongs t.issued t.loop.channels := by
  refine ⟨fun hCache => hCache.info, fun hInfo => ⟨hInfo, ?_⟩⟩
  intro c hMem file hFile bit hBit
  have hTypes : c.eventTypes = (t.issued file).1 :=
    congrArg Prod.fst (hInfo c hMem file hFile)
  have hWrite := getLsbD_kWrite hBit
  constructor
  · rw [BitVec.getLsbD_or, hWrite, Bool.or_false, hTypes]
  · by_cases hBound : bit < 32
    · rw [BitVec.getLsbD_and, BitVec.getLsbD_not, hWrite, hTypes]
      simp [hBound]
    · rw [BitVec.getLsbD_of_ge _ _ (not_lt.mp hBound),
        BitVec.getLsbD_of_ge _ _ (not_lt.mp hBound)]

/-! ## What a step does to the channels -/

/-- A step, by what becomes of the channels and of what was issued. -/
inductive Changed (t next : TrackedLoop Cb) : EventAction Cb → Prop
  | same {action : EventAction Cb} (hKeeps : t.KeepsCache action)
      (hChannels : next.loop.channels = t.loop.channels)
      (hHanded : next.loop.handed = t.loop.handed)
      (hIssued : next.issued = t.issued) : Changed t next action
  | constructed {fd file : Nat} (hFresh : file ∉ t.loop.handed)
      (hChannels : next.loop.channels = t.loop.channels ++ [.make fd file])
      (hHanded : next.loop.handed = t.loop.handed ++ [file])
      (hIssued : next.issued = t.issued) : Changed t next (.construct fd)
  | updated {action : EventAction Cb} {c c' : LoopChannel}
      {rest : List LoopChannel} {file : Nat} (hKeeps : t.KeepsCache action)
      (hBefore : t.loop.channels.Perm (c :: rest))
      (hAfter : next.loop.channels.Perm (c' :: rest))
      (hHolds : c.heldFile = some file) (hKept : c'.heldFile = some file)
      (hHanded : next.loop.handed = t.loop.handed)
      (hIssued : next.issued = Function.update t.issued file c'.getEventInfo) :
      Changed t next action
  | moved {index : Nat} {other : LoopChannel} {rest : List LoopChannel}
      (hOther : t.loop.channels[index]? = some other)
      (hBefore : t.loop.channels.Perm (other :: rest))
      (hAfter : next.loop.channels.Perm
        (other.moveConstruct.1 :: other.moveConstruct.2 :: rest))
      (hHanded : next.loop.handed = t.loop.handed)
      (hIssued : next.issued = t.issued) : Changed t next (.moveConstruct index)
  | swapped {first second : Nat} {a b : LoopChannel} {rest : List LoopChannel}
      (hFirst : t.loop.channels[first]? = some a)
      (hSecond : t.loop.channels[second]? = some b)
      (hBefore : t.loop.channels.Perm (a :: b :: rest))
      (hAfter : next.loop.channels.Perm ((a.swap b).1 :: (a.swap b).2 :: rest))
      (hHanded : next.loop.handed = t.loop.handed)
      (hIssued : next.issued = t.issued) : Changed t next (.swap first second)
  | destroyed {index : Nat} {c : LoopChannel}
      (hBefore : t.loop.channels.Perm (c :: next.loop.channels))
      (hHanded : next.loop.handed = t.loop.handed)
      (hIssued : next.issued = t.issued) : Changed t next (.destroy index)

variable {t next : TrackedLoop Cb}

/-- The io thread changes no channel. -/
theorem channels_io {s next : EventLoop Cb} {faults : TaskFaults}
    (hIo : EventLoop.IoStep s faults next) :
    next.channels = s.channels ∧ next.handed = s.handed := by
  cases hIo <;> exact ⟨rfl, rfl⟩

theorem changed_update {action : EventAction Cb} {index : Nat}
    {types : EventType} {modes : EventMode} {task : FdTask Cb}
    {loop : EventLoop Cb} (hKeeps : t.KeepsCache action)
    (hLoop : t.loop.update index types modes task = some loop)
    (hNext : next = ⟨loop, t.issue index (types, modes)⟩) :
    Changed t next action := by
  obtain ⟨c, hChannel, rfl⟩ := Option.map_eq_some_iff.mp hLoop
  subst hNext
  cases hValid : c.validFd with
  | none =>
      have hHeld : c.heldFile = none := by rw [heldFile, hValid]; rfl
      refine .same hKeeps rfl rfl ?_
      show t.issue index (types, modes) = t.issued
      rw [issue, hChannel, Option.bind_some, hHeld]
  | some fd =>
      have hHeld : c.heldFile = some c.file := by rw [heldFile, hValid]; rfl
      obtain ⟨hBefore, hSet⟩ := perm_set hChannel
      have hAfter := hSet { c with eventTypes := types, eventModes := modes }
      refine .updated hKeeps hBefore hAfter hHeld hHeld rfl ?_
      show t.issue index (types, modes) = _
      rw [issue, hChannel, Option.bind_some, hHeld]
      rfl

theorem changed_swap {first second : Nat} {loop : EventLoop Cb}
    (hLoop : t.loop.swap first second = some loop) :
    Changed t ⟨loop, t.issued⟩ (.swap first second) := by
  unfold EventLoop.swap at hLoop
  split at hLoop
  · rename_i a b hFirst hSecond
    split at hLoop
    · rename_i hSame
      subst hSame
      obtain rfl := Option.some.inj hLoop
      refine .same ?_ rfl rfl rfl
      -- A channel is swapped with itself.
      intro a' hA b' hB _
      rw [Option.mem_def.mp hA] at hB
      exact congrArg getEventInfo (Option.some.inj hB)
    · rename_i hNe
      obtain rfl := Option.some.inj hLoop
      obtain ⟨rest, hBefore, hSet⟩ := perm_set_set hNe hFirst hSecond
      exact .swapped hFirst hSecond hBefore (hSet _ _) rfl rfl
  · cases hLoop

theorem changed {action : EventAction Cb} (hStep : t.step action = some next) :
    Changed t next action := by
  obtain ⟨loop, hLoop, rfl⟩ := Option.map_eq_some_iff.mp hStep
  cases action with
  | openFd fd | start | wait batch =>
      simp only [EventLoop.step] at hLoop
      split at hLoop
      · obtain rfl := Option.some.inj hLoop
        exact .same trivial rfl rfl rfl
      · cases hLoop
  | closeFd fd =>
      simp only [EventLoop.step] at hLoop
      split at hLoop
      · cases hLoop
      · split at hLoop
        · cases hLoop
        · obtain rfl := Option.some.inj hLoop
          exact .same trivial rfl rfl rfl
  | construct fd =>
      simp only [EventLoop.step, EventLoop.construct] at hLoop
      split at hLoop
      · cases hLoop
      · split at hLoop
        · cases hLoop
        · rename_i hFresh
          obtain rfl := Option.some.inj hLoop
          exact .constructed hFresh rfl rfl rfl
  | moveConstruct index =>
      obtain ⟨other, hOther, rfl⟩ := Option.map_eq_some_iff.mp hLoop
      obtain ⟨hBefore, hSet⟩ := perm_set hOther
      refine .moved hOther hBefore ?_ rfl rfl
      exact List.perm_append_comm.trans ((hSet _).cons _)
  | swap first second => exact changed_swap hLoop
  | destroy index =>
      obtain ⟨c, hChannel, rfl⟩ := Option.map_eq_some_iff.mp hLoop
      have hBefore := (perm_set hChannel).1
      exact .destroyed hBefore (t.loop.postFrom_handed c .unregisterFd) rfl
  | updateEventCb index types modes cb => exact changed_update trivial hLoop rfl
  | updateEvent index types modes => exact changed_update trivial hLoop rfl
  | disableEvent index =>
      obtain ⟨c, hChannel, rfl⟩ := Option.map_eq_some_iff.mp hLoop
      exact .same trivial (t.loop.postFrom_channels c .disableFd)
        (t.loop.postFrom_handed c .disableFd) rfl
  | stop =>
      obtain rfl := Option.some.inj hLoop
      exact .same trivial rfl rfl rfl
  | io faults =>
      obtain ⟨hChannels, hHanded⟩ := channels_io (EventLoop.ioStep hLoop)
      exact .same trivial hChannels hHanded rfl

/-! ## Who holds what -/

/-- No two channels hold one file, what they hold was handed over, and nothing
was issued for a file before. -/
structure Custody (t : TrackedLoop Cb) : Prop where
  exclusive : (t.loop.channels.filterMap heldFile).Nodup
  handed : ∀ file ∈ t.loop.channels.filterMap heldFile, file ∈ t.loop.handed
  fresh : ∀ file, file ∉ t.loop.handed → t.issued file = kDefaultInfo

theorem custody_initial : Custody (initial : TrackedLoop Cb) where
  exclusive := List.nodup_nil
  handed _ hMem := by cases hMem
  fresh _ _ := rfl

theorem cacheBelongs_initial : CacheBelongs (initial : TrackedLoop Cb) :=
  (cacheBelongs_iff _).mpr fun _ hMem => by cases hMem

/-- What is held may be held by other channels, or not any more. -/
theorem Custody.of_subperm (hCustody : Custody t)
    (hHeld : (next.loop.channels.filterMap heldFile).Subperm
      (t.loop.channels.filterMap heldFile))
    (hHanded : next.loop.handed = t.loop.handed)
    (hIssued : ∀ file, file ∉ t.loop.handed → next.issued file = t.issued file) :
    Custody next where
  exclusive := by
    obtain ⟨files, hPerm, hSublist⟩ := hHeld
    exact hPerm.nodup_iff.mp (hSublist.nodup hCustody.exclusive)
  handed file hMem := hHanded ▸ hCustody.handed file (hHeld.subset hMem)
  fresh file hMem := by
    rw [hHanded] at hMem
    exact (hIssued file hMem).trans (hCustody.fresh file hMem)

theorem Custody.change {action : EventAction Cb} (hCustody : Custody t)
    (hChanged : Changed t next action) : Custody next := by
  cases hChanged with
  | same hKeeps hChannels hHanded hIssued =>
      exact hCustody.of_subperm (hChannels ▸ .refl _) hHanded
        fun _ _ => congrFun hIssued _
  | constructed hFresh hChannels hHanded hIssued =>
      rename_i fd file
      have hHeld : next.loop.channels.filterMap heldFile =
          t.loop.channels.filterMap heldFile ++ [file] := by
        rw [hChannels, List.filterMap_append]
        rfl
      refine ⟨?_, ?_, ?_⟩
      · rw [hHeld]
        refine hCustody.exclusive.append (List.nodup_singleton _) ?_
        rintro held hMem hNew
        obtain rfl := List.mem_singleton.mp hNew
        exact hFresh (hCustody.handed held hMem)
      · rw [hHeld, hHanded]
        intro held hMem
        rcases List.mem_append.mp hMem with hMem | hMem
        · exact List.mem_append_left _ (hCustody.handed held hMem)
        · exact List.mem_append_right _ hMem
      · intro other hMem
        rw [hHanded] at hMem
        rw [hIssued]
        exact hCustody.fresh other fun hOld => hMem (List.mem_append_left _ hOld)
  | updated hKeeps hBefore hAfter hHolds hKept hHanded hIssued =>
      rename_i c c' rest file
      have hHeld : (c' :: rest).filterMap heldFile = (c :: rest).filterMap heldFile := by
        simp only [List.filterMap_cons, hHolds, hKept]
      refine hCustody.of_subperm ?_ hHanded ?_
      · have hPerm := (hAfter.filterMap heldFile).trans
          (hHeld ▸ (hBefore.filterMap heldFile).symm)
        exact hPerm.subperm
      · intro other hMem
        have hFile : file ∈ t.loop.channels.filterMap heldFile :=
          (hBefore.filterMap heldFile).symm.subset (by simp [hHolds])
        rw [hIssued, Function.update_of_ne]
        rintro rfl
        exact hMem (hCustody.handed other hFile)
  | moved hOther hBefore hAfter hHanded hIssued =>
      refine hCustody.of_subperm ?_ hHanded fun _ _ => congrFun hIssued _
      have hHeld := hAfter.filterMap heldFile
      simp only [List.filterMap_cons, heldFile_moveConstruct] at hHeld
      exact (hHeld.trans (hBefore.filterMap heldFile).symm).subperm
  | swapped hFirst hSecond hBefore hAfter hHanded hIssued =>
      refine hCustody.of_subperm ?_ hHanded fun _ _ => congrFun hIssued _
      rename_i a b rest
      have hPerm : ([(a.swap b).1, (a.swap b).2].filterMap heldFile).Perm
          ([a, b].filterMap heldFile) := by
        simp only [List.filterMap_cons, heldFile_swap]
        cases a.heldFile <;> cases b.heldFile
        all_goals first | rfl | exact .swap _ _ _
      have hHeld := hPerm.append_right (rest.filterMap heldFile)
      rw [← List.filterMap_append, ← List.filterMap_append] at hHeld
      exact ((hAfter.filterMap heldFile).trans
        (hHeld.trans (hBefore.filterMap heldFile).symm)).subperm
  | destroyed hBefore hHanded hIssued =>
      refine hCustody.of_subperm ?_ hHanded fun _ _ => congrFun hIssued _
      rename_i c
      have hSublist :=
        (List.sublist_cons_self c next.loop.channels).filterMap heldFile
      exact hSublist.subperm.trans (hBefore.filterMap heldFile).symm.subperm

/-! ## The condition is exact -/

/-- A step keeps what is remembered with what is held exactly if it meets the
condition. -/
theorem Changed.keepsCache_iff {action : EventAction Cb} (hCustody : Custody t)
    (hCache : t.CacheBelongs) (hChanged : Changed t next action) :
    t.KeepsCache action ↔ next.CacheBelongs := by
  rw [cacheBelongs_iff] at hCache ⊢
  cases hChanged with
  | same hKeeps hChannels hHanded hIssued =>
      rw [hChannels, hIssued]
      exact iff_of_true hKeeps hCache
  | constructed hFresh hChannels hHanded hIssued =>
      refine iff_of_true trivial ?_
      rename_i fd file
      rw [hChannels, hIssued, belongs_perm List.perm_append_comm,
        List.singleton_append, belongs_cons]
      refine ⟨?_, hCache⟩
      rintro held hMem
      obtain rfl : file = held := Option.some.inj hMem
      exact (hCustody.fresh file hFresh).symm
  | updated hKeeps hBefore hAfter hHolds hKept hHanded hIssued =>
      refine iff_of_true hKeeps ?_
      rename_i c c' rest file
      have hExclusive := hCustody.exclusive
      rw [(hBefore.filterMap heldFile).nodup_iff,
        List.filterMap_cons_some hHolds, List.nodup_cons] at hExclusive
      rw [belongs_perm hBefore, belongs_cons] at hCache
      rw [belongs_perm hAfter, belongs_cons, hIssued]
      constructor
      · rintro held hMem
        obtain rfl : file = held := Option.some.inj (hKept.symm.trans hMem)
        rw [Function.update_self]
      · intro d hMem held hHeld
        -- The updated file is held by no other channel.
        have hNe : held ≠ file := by
          rintro rfl
          exact hExclusive.1 (List.mem_filterMap.mpr ⟨d, hMem, hHeld⟩)
        rw [Function.update_of_ne hNe]
        exact hCache.2 d hMem held hHeld
  | moved hOther hBefore hAfter hHanded hIssued =>
      rename_i index other rest
      rw [belongs_perm hBefore, belongs_cons] at hCache
      rw [belongs_perm hAfter, belongs_cons, belongs_cons, hIssued]
      simp only [heldFile_moveConstruct]
      constructor
      · intro hKeeps
        refine ⟨?_, fun held hMem => (by cases hMem), hCache.2⟩
        intro held hMem
        rw [← hCache.1 held hMem]
        exact (hKeeps other hOther (Option.ne_none_iff_exists'.mpr ⟨held, hMem⟩)).symm
      · rintro ⟨hNew, -, -⟩ c hC hValid
        obtain rfl := Option.some.inj (hOther.symm.trans hC)
        obtain ⟨held, hMem⟩ := Option.ne_none_iff_exists'.mp hValid
        exact (hCache.1 held hMem).trans (hNew held hMem).symm
  | swapped hFirst hSecond hBefore hAfter hHanded hIssued =>
      rename_i first second a b rest
      rw [belongs_perm hBefore, belongs_cons, belongs_cons] at hCache
      rw [belongs_perm hAfter, belongs_cons, belongs_cons, hIssued]
      simp only [heldFile_swap]
      constructor
      · intro hKeeps
        have hSame := hKeeps a hFirst b hSecond
        refine ⟨?_, ?_, hCache.2.2⟩
        · intro held hMem
          rw [← hCache.2.1 held hMem]
          exact hSame (.inr (Option.ne_none_iff_exists'.mpr ⟨held, hMem⟩))
        · intro held hMem
          rw [← hCache.1 held hMem]
          exact (hSame (.inl (Option.ne_none_iff_exists'.mpr ⟨held, hMem⟩))).symm
      · rintro ⟨hLeft, hRight, -⟩ a' hA b' hB hValid
        obtain rfl := Option.some.inj (hFirst.symm.trans hA)
        obtain rfl := Option.some.inj (hSecond.symm.trans hB)
        rcases hValid with hValid | hValid
        · obtain ⟨held, hMem⟩ := Option.ne_none_iff_exists'.mp hValid
          exact (hCache.1 held hMem).trans (hRight held hMem).symm
        · obtain ⟨held, hMem⟩ := Option.ne_none_iff_exists'.mp hValid
          exact (hLeft held hMem).trans (hCache.2.1 held hMem).symm
  | destroyed hBefore hHanded hIssued =>
      rw [belongs_perm hBefore, belongs_cons] at hCache
      rw [hIssued]
      exact iff_of_true trivial hCache.2

/-- **The remembered interest belongs to the descriptor, exactly.**  In every run
of the loop and its channels: what the valid channels remember is what was last
issued for what they hold, in every state reached, if and only if no step moves a
descriptor away from a channel that remembers anything, or between two that do
not remember the same. -/
theorem cachedInterest_iff {actions : List (EventAction Cb)}
    (hRun : run step initial actions = some t) :
    Guarded step KeepsCache initial actions ↔
      ∀ earlier later reached, actions = earlier ++ later →
        run step initial earlier = some reached → reached.CacheBelongs := by
  have hStep (t : TrackedLoop Cb) (action : EventAction Cb)
      (next : TrackedLoop Cb) (hInv : Custody t ∧ t.CacheBelongs)
      (hNext : t.step action = some next) :
      t.KeepsCache action ↔ Custody next ∧ next.CacheBelongs := by
    have hChanged := changed hNext
    rw [hChanged.keepsCache_iff hInv.1 hInv.2]
    exact (and_iff_right (hInv.1.change hChanged)).symm
  have hCustody {earlier : List (EventAction Cb)} {reached : TrackedLoop Cb}
      (hReached : run step initial earlier = some reached) : Custody reached :=
    run_keeps (fun _ _ _ hInv hNext => hInv.change (changed hNext))
      custody_initial hReached
  rw [guarded_iff_forall_states hStep ⟨custody_initial, cacheBelongs_initial⟩ hRun]
  constructor
  · intro hStates earlier later reached hSplit hReached
    exact (hStates earlier later reached hSplit hReached).2
  · intro hStates earlier later reached hSplit hReached
    exact ⟨hCustody hReached, hStates earlier later reached hSplit hReached⟩

/-- A new channel is moved from before its first request, as in the sockets, and
the one it was moved to asks for `kRead` and is then disabled. -/
theorem cachedInterest_iff_moved :
    let actions : List (EventAction Nat) :=
      [.openFd 3, .construct 3, .moveConstruct 0,
        .updateEventCb 1 EventType.kRead EventMode.kDefault 7, .disableEvent 1]
    ∃ t, run step initial actions = some t ∧
      ∀ earlier later reached, actions = earlier ++ later →
        run step initial earlier = some reached → reached.CacheBelongs := by
  intro actions
  have hOutcome : Guarded step KeepsCache initial actions ∧
      (run step initial actions).isSome = true := by decide +kernel
  obtain ⟨t, hRun⟩ := Option.isSome_iff_exists.mp hOutcome.2
  exact ⟨t, hRun, (cachedInterest_iff hRun).mp hOutcome.1⟩

/-- A channel that asked for `kRead` is moved from: the new channel remembers
nothing, and asking for `kWrite` in addition drops `kRead`. -/
theorem cachedInterest_lost :
    let actions : List (EventAction Nat) :=
      [.openFd 3, .construct 3,
        .updateEventCb 0 EventType.kRead EventMode.kDefault 7, .moveConstruct 0]
    ∃ t c, run step initial actions = some t ∧ t.loop.channels[1]? = some c ∧
      c.validFd = some 3 ∧ c.getEventInfo = kDefaultInfo ∧
      t.issued c.file = (EventType.kRead, EventMode.kDefault) ∧
      c.eventTypes ||| EventType.kWrite = EventType.kWrite ∧
      ¬ t.CacheBelongs := by
  intro actions
  have hOutcome : (run step initial actions).any (fun t =>
      (t.loop.channels[1]?).any fun c =>
        decide (c.validFd = some 3 ∧ c.getEventInfo = kDefaultInfo ∧
          t.issued c.file = (EventType.kRead, EventMode.kDefault) ∧
          c.eventTypes ||| EventType.kWrite = EventType.kWrite)) = true := by
    decide +kernel
  obtain ⟨t, hRun, hView⟩ := (Option.any_eq_true _ _).mp hOutcome
  obtain ⟨c, hChannel, hView⟩ := (Option.any_eq_true _ _).mp hView
  obtain ⟨hFd, hInfo, hIssued, hMask⟩ := of_decide_eq_true hView
  refine ⟨t, c, hRun, hChannel, hFd, hInfo, hIssued, hMask, fun hCache => ?_⟩
  have hHeld : c.file ∈ c.heldFile := by rw [heldFile, hFd]; rfl
  have hSame := hCache.info c (List.mem_of_getElem? hChannel) c.file hHeld
  rw [hInfo, hIssued] at hSame
  exact absurd hSame (by decide)

end TrackedLoop
end Core
end KZEvent
