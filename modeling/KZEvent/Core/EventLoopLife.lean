import KZEvent.Core.DescriptorLife
import KZEvent.Foundation.Places

/-!
# The loop as many descriptors

Each step of the loop is a step in the life of every descriptor, mostly the one
that changes nothing.  What is left to keep up for the loop as a whole is small:
files have numbers of their own, the queue of the executor is empty outside the
execution of tasks, and the events of a batch are within the table.
-/

namespace KZEvent
namespace Core

open Foundation

variable {Cb : Type*} {Admits : TaskFaults → FdTask Cb → Prop}

/-! ## Who holds a descriptor -/

namespace LoopChannel

/-- What a channel holds: a valid descriptor, and the file under it. -/
def key (c : LoopChannel) : Option Nat × Nat := (c.validFd, c.file)

end LoopChannel

/-- The files of the channels that hold `fd`. -/
def holders (channels : List LoopChannel) (fd : Nat) : List Nat :=
  ((channels.map LoopChannel.key).filter (·.1 = some fd)).map (·.2)

theorem mem_holders {channels : List LoopChannel} {fd file : Nat} :
    file ∈ holders channels fd ↔
      ∃ c ∈ channels, c.validFd = some fd ∧ c.file = file := by
  simp [holders, LoopChannel.key, and_assoc]

theorem holders_perm {channels channels' : List LoopChannel}
    (hPerm : (channels.map LoopChannel.key).Perm (channels'.map LoopChannel.key))
    (fd : Nat) : (holders channels fd).Perm (holders channels' fd) :=
  (hPerm.filter _).map _

theorem holders_append (channels : List LoopChannel) (c : LoopChannel)
    (fd : Nat) : holders (channels ++ [c]) fd =
      holders channels fd ++ if c.validFd = some fd then [c.file] else [] := by
  simp only [holders, List.map_append, List.filter_append, List.map_cons,
    List.map_nil, LoopChannel.key]
  split <;> simp_all

theorem holders_cons (c : LoopChannel) (channels : List LoopChannel)
    (fd : Nat) : holders (c :: channels) fd =
      (if c.validFd = some fd then [c.file] else []) ++ holders channels fd := by
  simp only [holders, List.map_cons, LoopChannel.key, List.filter_cons]
  split <;> simp_all

theorem holders_set_of_key {channels : List LoopChannel} {index : Nat}
    {c c' : LoopChannel} (hChannel : channels[index]? = some c)
    (hKey : c'.key = c.key) (fd : Nat) :
    holders (channels.set index c') fd = holders channels fd := by
  have hSame : (channels.set index c').map LoopChannel.key =
      channels.map LoopChannel.key := by
    obtain ⟨hIndex, rfl⟩ := List.getElem?_eq_some_iff.mp hChannel
    have hBound : index < (channels.map LoopChannel.key).length := by simpa
    have hOld : channels[index].key = (channels.map LoopChannel.key)[index] := by
      rw [List.getElem_map]
    rw [List.map_set, hKey, hOld, List.set_getElem_self]
  rw [holders, hSame, holders]

/-- Taking a channel out takes its hold away. -/
theorem holders_eraseIdx {channels : List LoopChannel} {index : Nat}
    {c : LoopChannel} (hChannel : channels[index]? = some c) (fd : Nat) :
    (holders channels fd).Perm
      ((if c.validFd = some fd then [c.file] else []) ++
        holders (channels.eraseIdx index) fd) := by
  rw [← holders_cons]
  exact holders_perm ((perm_set hChannel).1.map _) fd

theorem holders_moveConstruct {channels : List LoopChannel} {index : Nat}
    {other : LoopChannel} (hChannel : channels[index]? = some other) (fd : Nat) :
    (holders (channels.set index other.moveConstruct.2 ++
      [other.moveConstruct.1]) fd).Perm (holders channels fd) := by
  have hLeft : other.moveConstruct.2.validFd = none := rfl
  have hMoved : other.moveConstruct.1.key = other.key := rfl
  have hSet := (perm_set hChannel).2 other.moveConstruct.2
  rw [holders_append]
  apply List.perm_append_comm.trans
  refine ((holders_perm (hSet.map _) fd).append_left _).trans ?_
  rw [holders_cons, hLeft]
  have hKey := Prod.mk.inj hMoved
  rw [hKey.1, hKey.2]
  simpa using (holders_eraseIdx hChannel fd).symm

theorem holders_swap {channels : List LoopChannel} {first second : Nat}
    {a b : LoopChannel} (hFirst : channels[first]? = some a)
    (hSecond : channels[second]? = some b) (fd : Nat) :
    (holders ((channels.set first (a.swap b).1).set second (a.swap b).2) fd).Perm
      (holders channels fd) := by
  obtain ⟨hIndex, rfl⟩ := List.getElem?_eq_some_iff.mp hFirst
  obtain ⟨hIndex', rfl⟩ := List.getElem?_eq_some_iff.mp hSecond
  refine holders_perm ?_ fd
  have hBound : first < (channels.map LoopChannel.key).length := by simpa
  have hBound' : second < (channels.map LoopChannel.key).length := by simpa
  have hLeft : (channels[first].swap channels[second]).1.key =
      (channels.map LoopChannel.key)[second] := by
    rw [List.getElem_map]
    rfl
  have hRight : (channels[first].swap channels[second]).2.key =
      (channels.map LoopChannel.key)[first] := by
    rw [List.getElem_map]
    rfl
  rw [List.map_set, List.map_set, hLeft, hRight]
  exact List.set_set_perm _ _

namespace EventLoop

variable {s next : EventLoop Cb}

/-! ## What a post leaves alone -/

@[simp]
theorem postFrom_file (s : EventLoop Cb) (c : LoopChannel) (task : FdTask Cb) :
    (s.postFrom c task).file = s.file := by
  unfold postFrom
  split <;> rfl

@[simp]
theorem postFrom_nextFile (s : EventLoop Cb) (c : LoopChannel)
    (task : FdTask Cb) : (s.postFrom c task).nextFile = s.nextFile := by
  unfold postFrom
  split <;> rfl

@[simp]
theorem postFrom_handed (s : EventLoop Cb) (c : LoopChannel)
    (task : FdTask Cb) : (s.postFrom c task).handed = s.handed := by
  unfold postFrom
  split <;> rfl

@[simp]
theorem postFrom_channels (s : EventLoop Cb) (c : LoopChannel)
    (task : FdTask Cb) : (s.postFrom c task).channels = s.channels := by
  unfold postFrom
  split <;> rfl

/-! ## The view of a descriptor -/

/-- The queued tasks for `fd`, the first one first. -/
def pending (s : EventLoop Cb) (fd : Nat) : List (Posted Cb) :=
  (s.queue.rest ++ s.queue.buffer).filter (·.fd = fd)

/-- What there is of `fd` in the loop. -/
def view (s : EventLoop Cb) (fd : Nat) : FdView Cb where
  file := s.file fd
  handed := (s.file fd).any (· ∈ s.handed)
  holders := holders s.channels fd
  tasks := s.pending fd
  slot := s.slot fd
  log := s.log.filter (·.posted.fd = fd)

/-- The task the io thread executes next. -/
def nextTask (s : EventLoop Cb) : Option (Posted Cb) :=
  match s.pc with
  | .tasks _ => s.queue.exe[s.queue.next]?
  | _ => none

/-- What holds for the loop as a whole. -/
structure Whole (s : EventLoop Cb) : Prop where
  fileLt : ∀ fd file, s.file fd = some file → file < s.nextFile
  fileInj : ∀ fd fd' file, s.file fd = some file → s.file fd' = some file →
    fd = fd'
  handedLt : ∀ file ∈ s.handed, file < s.nextFile
  idle : (∀ events, s.pc ≠ .tasks events) → s.queue.Idle

theorem whole_initial : Whole (initial : EventLoop Cb) where
  fileLt _ _ hFile := by cases hFile
  fileInj _ _ _ hFile := by cases hFile
  handedLt _ hMem := by cases hMem
  idle _ := DoubleBuffer.idle_empty

theorem pending_post (s : EventLoop Cb) (fd file : Nat) (task : FdTask Cb)
    (fd' : Nat) : (s.post fd file task).pending fd' =
      s.pending fd' ++ if fd = fd' then [⟨fd, file, task⟩] else [] := by
  show (s.queue.rest ++ (s.queue.buffer ++ [_])).filter _ = _
  rw [← List.append_assoc, List.filter_append, List.filter_singleton]
  simp [pending]

/-- What the steps of the channels and of the queue can change. -/
theorem view_eq (hEvents : next.events = s.events)
    (hInterest : next.interest = s.interest) (hFile : next.file = s.file)
    (hHanded : next.handed = s.handed) (hLog : next.log = s.log) (fd : Nat) :
    next.view fd = { s.view fd with
      holders := holders next.channels fd
      tasks := next.pending fd } := by
  simp only [view, slot, hEvents, hInterest, hFile, hHanded, hLog]

/-! ## The steps of the channels -/

/-- A change of the channels that moves descriptors about. -/
theorem step_moves {channels : List LoopChannel} {fd : Nat}
    (hPerm : (holders channels fd).Perm (holders s.channels fd)) :
    FdView.Step Admits fd (s.view fd) (view { s with channels := channels } fd) := by
  rw [view_eq (s := s) rfl rfl rfl rfl rfl]
  exact .moves hPerm

theorem step_construct (hWhole : Whole s) {fd : Nat}
    (hStep : s.construct fd = some next) (fd' : Nat) :
    FdView.Step Admits fd' (s.view fd') (next.view fd') := by
  unfold construct at hStep
  split at hStep
  · cases hStep
  rename_i file hFile
  split at hStep
  · cases hStep
  rename_i hRaw
  obtain rfl := Option.some.inj hStep
  have hHolders := holders_append s.channels (.make fd file) fd'
  have hTasks := s.pending_post fd file .registerFd fd'
  have hValid : (LoopChannel.make fd file).validFd = some fd := rfl
  rw [hValid] at hHolders
  by_cases hSame : fd = fd'
  · subst hSame
    rw [if_pos rfl] at hHolders hTasks
    have hView : view { s.post fd file .registerFd with
          channels := s.channels ++ [.make fd file]
          handed := s.handed ++ [file] } fd =
        { s.view fd with
          handed := true
          holders := (s.view fd).holders ++ [file]
          tasks := (s.view fd).tasks ++ [⟨fd, file, .registerFd⟩] } := by
      ext1
      · rfl
      · show (s.file fd).any (· ∈ s.handed ++ [file]) = true
        simp [hFile]
      · exact hHolders
      · exact hTasks
      · rfl
      · rfl
    rw [hView]
    exact .constructs hFile (by simp [view, hFile, hRaw])
  · rw [if_neg (by simpa using hSame), List.append_nil] at hHolders
    rw [if_neg hSame, List.append_nil] at hTasks
    have hView : view { s.post fd file .registerFd with
          channels := s.channels ++ [.make fd file]
          handed := s.handed ++ [file] } fd' = s.view fd' := by
      ext1
      · rfl
      · show (s.file fd').any (· ∈ s.handed ++ [file]) =
          (s.file fd').any (· ∈ s.handed)
        cases hFile' : s.file fd' with
        | none => rfl
        | some file' =>
            have hOther : file' ≠ file := by
              rintro rfl
              exact hSame (hWhole.fileInj _ _ _ hFile hFile')
            simp [hOther]
      · exact hHolders
      · exact hTasks
      · rfl
      · rfl
    rw [hView]
    exact .same _

theorem step_moveConstruct {index : Nat}
    (hStep : s.moveConstruct index = some next) (fd : Nat) :
    FdView.Step Admits fd (s.view fd) (next.view fd) := by
  obtain ⟨other, hOther, rfl⟩ := Option.map_eq_some_iff.mp hStep
  exact step_moves (holders_moveConstruct hOther fd)

theorem step_swap {first second : Nat} (hStep : s.swap first second = some next)
    (fd : Nat) : FdView.Step Admits fd (s.view fd) (next.view fd) := by
  unfold swap at hStep
  split at hStep
  · rename_i a b hFirst hSecond
    split at hStep
    · obtain rfl := Option.some.inj hStep
      exact .same _
    · obtain rfl := Option.some.inj hStep
      exact step_moves (holders_swap hFirst hSecond fd)
  · cases hStep

/-- The holder of a descriptor is listed. -/
theorem holder_mem {index fd : Nat} {c : LoopChannel}
    (hChannel : s.channels[index]? = some c) (hValid : c.validFd = some fd) :
    c.file ∈ (s.view fd).holders := by
  have hPerm := holders_eraseIdx hChannel fd
  rw [if_pos hValid] at hPerm
  exact hPerm.symm.subset (List.mem_append_left _ (List.mem_singleton_self _))

/-- A valid channel posts a plain task, and may remember types and modes. -/
theorem step_posts {index fd : Nat} {c : LoopChannel} {task : FdTask Cb}
    (c' : LoopChannel) (hChannel : s.channels[index]? = some c)
    (hValid : c.validFd = some fd)
    (hPlain : task.Plain) (hKey : c'.key = c.key) (fd' : Nat) :
    FdView.Step Admits fd' (s.view fd')
      (view { s.post fd c.file task with channels := s.channels.set index c' }
        fd') := by
  have hHolders := holders_set_of_key hChannel hKey fd'
  have hTasks := s.pending_post fd c.file task fd'
  rw [view_eq (s := s) rfl rfl rfl rfl rfl]
  by_cases hSame : fd = fd'
  · subst hSame
    rw [if_pos rfl] at hTasks
    have hView : ({ s.view fd with
          holders := holders (s.channels.set index c') fd
          tasks := (s.post fd c.file task).pending fd } : FdView Cb) =
        { s.view fd with tasks := (s.view fd).tasks ++ [⟨fd, c.file, task⟩] } := by
      rw [hHolders, hTasks]
      rfl
    show FdView.Step Admits fd _ { s.view fd with
          holders := holders (s.channels.set index c') fd
          tasks := (s.post fd c.file task).pending fd }
    rw [hView]
    exact .posts (holder_mem hChannel hValid) hPlain
  · rw [if_neg hSame, List.append_nil] at hTasks
    show FdView.Step Admits fd' _ { s.view fd' with
          holders := holders (s.channels.set index c') fd'
          tasks := (s.post fd c.file task).pending fd' }
    rw [hHolders, hTasks]
    exact .same _

theorem step_update {index : Nat} {types : EventType} {modes : EventMode}
    {task : FdTask Cb} (hPlain : task.Plain)
    (hStep : s.update index types modes task = some next) (fd : Nat) :
    FdView.Step Admits fd (s.view fd) (next.view fd) := by
  obtain ⟨c, hChannel, rfl⟩ := Option.map_eq_some_iff.mp hStep
  split
  · exact .same _
  · exact step_posts { c with eventTypes := types, eventModes := modes } hChannel
      ‹_› hPlain rfl fd

theorem step_disableEvent {index : Nat}
    (hStep : s.disableEvent index = some next) (fd : Nat) :
    FdView.Step Admits fd (s.view fd) (next.view fd) := by
  obtain ⟨c, hChannel, rfl⟩ := Option.map_eq_some_iff.mp hStep
  unfold postFrom
  split
  · rename_i fd' hValid
    have hSame : s.channels.set index c = s.channels := by
      obtain ⟨hIndex, rfl⟩ := List.getElem?_eq_some_iff.mp hChannel
      exact List.set_getElem_self hIndex
    have hPlain : (FdTask.disableFd : FdTask Cb).Plain := trivial
    have hPosts : FdView.Step Admits fd _ _ :=
      step_posts c hChannel hValid hPlain rfl fd
    rw [hSame] at hPosts
    exact hPosts
  · exact .same _

theorem step_destroy {index : Nat} (hStep : s.destroy index = some next)
    (fd : Nat) : FdView.Step Admits fd (s.view fd) (next.view fd) := by
  obtain ⟨c, hChannel, rfl⟩ := Option.map_eq_some_iff.mp hStep
  have hPerm := holders_eraseIdx hChannel fd
  unfold postFrom
  split
  · rename_i fd' hValid
    rw [hValid] at hPerm
    have hTasks := s.pending_post fd' c.file .unregisterFd fd
    rw [view_eq (s := s) rfl rfl rfl rfl rfl]
    by_cases hSame : fd' = fd
    · subst hSame
      rw [if_pos rfl] at hPerm hTasks
      show FdView.Step Admits fd' _ { s.view fd' with
          holders := holders (s.channels.eraseIdx index) fd'
          tasks := (s.post fd' c.file .unregisterFd).pending fd' }
      rw [hTasks]
      exact .destroys hPerm
    · rw [if_neg (by simpa using hSame), List.nil_append] at hPerm
      rw [if_neg hSame, List.append_nil] at hTasks
      show FdView.Step Admits fd _ { s.view fd with
          holders := holders (s.channels.eraseIdx index) fd
          tasks := (s.post fd' c.file .unregisterFd).pending fd }
      rw [hTasks]
      exact .moves hPerm.symm
  · rename_i hInvalid
    rw [if_neg (by simp [hInvalid]), List.nil_append] at hPerm
    exact step_moves hPerm.symm

end EventLoop
end Core
end KZEvent
