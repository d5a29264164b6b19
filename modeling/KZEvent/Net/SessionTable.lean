import KZEvent.Net.StreamServer
import Mathlib.Data.List.Nodup

/-!
# The session table under reuse of descriptors

A descriptor is closed only after its session is destroyed, and a session is not
destroyed while it is in the table.  So `accept4` returns no descriptor under
which the table has an entry, and an erase task that still finds its session
alive finds no other one under its descriptor.
-/

namespace KZEvent
namespace Net

open Foundation

/-- The descriptor a task is going to close. -/
def ChannelTask.closing? : ChannelTask → Option Nat
  | unregisterFd fd => some fd
  | _ => none

namespace StreamServer

variable {s next : StreamServer}

/-- The descriptors that tasks in the queue are going to close. -/
def closing (s : StreamServer) : List Nat :=
  s.ioQueue.filterMap ChannelTask.closing?

/-! ## The invariant -/

/-- Sessions, descriptors and the table go together.  A descriptor in custody is
open; it is going to be closed once at most, and not before its session is
destroyed. -/
structure Sound (s : StreamServer) : Prop where
  held_object : ∀ session, s.Held session → session ∈ s.objects
  object_custody : ∀ session ∈ s.objects, session ∈ s.custody
  custody_fd : (s.custody.map (·.fd)).Nodup
  custody_open : ∀ session ∈ s.custody, session.fd ∈ s.opened
  closing_custody : ∀ fd ∈ s.closing,
    ∃ session ∈ s.custody, session.fd = fd ∧ session ∉ s.objects
  closing_once : s.closing.Nodup
  key_eq : ∀ entry ∈ s.sessions, entry.1 = entry.2.fd
  new_key : ∀ session, s.frame = .accepted session →
    ∀ entry ∈ s.sessions, entry.1 ≠ session.fd

theorem sound_initial (opened : List Nat) : (initial opened).Sound where
  held_object := by
    rintro session (hMem | hFrame | hMem)
    · cases hMem
    · cases hFrame
    · cases hMem
  object_custody := fun _ hMem => by cases hMem
  custody_fd := List.nodup_nil
  custody_open := fun _ hMem => by cases hMem
  closing_custody := fun _ hMem => by cases hMem
  closing_once := List.nodup_nil
  key_eq := fun _ hMem => by cases hMem
  new_key := fun _ hFrame => by cases hFrame

/-- The io thread has a `shared_ptr` to the session of its frame. -/
theorem held_of_frame {frame : IoFrame} {session : ServerSession}
    (hFrame : s.frame = frame) (hSession : frame.session? = some session) :
    s.Held session := by
  refine .inr (.inl ?_)
  rw [hFrame]
  exact hSession

namespace Sound

/-- A descriptor has one session in custody. -/
theorem eq_of_fd (hSound : s.Sound) {left right : ServerSession}
    (hLeft : left ∈ s.custody) (hRight : right ∈ s.custody)
    (hFd : left.fd = right.fd) : left = right :=
  List.inj_on_of_nodup_map hSound.custody_fd hLeft hRight hFd

theorem entry_held {entry : Nat × ServerSession} (hMem : entry ∈ s.sessions) :
    s.Held entry.2 :=
  .inr (.inr (List.mem_map_of_mem hMem))

theorem entry_custody (hSound : s.Sound) {entry : Nat × ServerSession}
    (hMem : entry ∈ s.sessions) : entry.2 ∈ s.custody :=
  hSound.object_custody _ (hSound.held_object _ (entry_held hMem))

/-- What only lets go of sessions keeps the invariant. -/
theorem of_less (hSound : s.Sound) (hObjects : next.objects = s.objects)
    (hCustody : next.custody = s.custody) (hOpened : next.opened = s.opened)
    (hClosing : next.closing = s.closing)
    (hHeld : ∀ session, next.Held session → s.Held session)
    (hEntries : ∀ entry ∈ next.sessions, entry ∈ s.sessions)
    (hFrame : ∀ session, next.frame = .accepted session →
      s.frame = .accepted session) : next.Sound where
  held_object := by
    intro session hNext
    rw [hObjects]
    exact hSound.held_object session (hHeld session hNext)
  object_custody := by
    rw [hObjects, hCustody]
    exact hSound.object_custody
  custody_fd := by
    rw [hCustody]
    exact hSound.custody_fd
  custody_open := by
    rw [hCustody, hOpened]
    exact hSound.custody_open
  closing_custody := by
    rw [hClosing, hCustody, hObjects]
    exact hSound.closing_custody
  closing_once := by
    rw [hClosing]
    exact hSound.closing_once
  key_eq := fun entry hMem => hSound.key_eq entry (hEntries entry hMem)
  new_key := fun session hNext entry hMem =>
    hSound.new_key session (hFrame session hNext) entry (hEntries entry hMem)

end Sound

theorem closing_post (s : StreamServer) (tasks : List ChannelTask) :
    (s.post tasks).closing =
      s.closing ++ tasks.filterMap ChannelTask.closing? :=
  List.filterMap_append

/-- Tasks that close nothing are posted. -/
theorem Sound.posted (hSound : s.Sound) {tasks : List ChannelTask}
    (hTasks : tasks.filterMap ChannelTask.closing? = []) :
    (s.post tasks).Sound := by
  refine hSound.of_less rfl rfl rfl ?_ (fun _ => id) (fun _ => id) fun _ => id
  rw [closing_post, hTasks, List.append_nil]

/-- The io thread goes to a frame in which it has no session that nobody had. -/
theorem Sound.moved (hSound : s.Sound) {frame : IoFrame}
    (hSession : ∀ session, frame.session? = some session → s.Held session)
    (hNew : ∀ session, frame ≠ .accepted session) :
    ({ s with frame := frame } : StreamServer).Sound := by
  refine hSound.of_less rfl rfl rfl rfl ?_ (fun _ => id)
    fun session hFrame => absurd hFrame (hNew session)
  rintro session (hHolder | hFrame | hEntry)
  · exact .inl hHolder
  · exact hSession session hFrame
  · exact .inr (.inr hEntry)

/-! ## A session begins and ends -/

/-- `accept4` returns a descriptor that is open nowhere. -/
theorem Sound.accepted (hSound : s.Sound) {fd : Nat} (hFd : fd ∉ s.opened) :
    (s.makeSession fd).Sound := by
  have hOther (session : ServerSession) (hMem : session ∈ s.custody) :
      session.fd ≠ fd := fun hSame => hFd (hSame ▸ hSound.custody_open _ hMem)
  have hClosing : (s.makeSession fd).closing = s.closing := by
    show (s.post [.registerFd fd]).closing = _
    rw [closing_post]
    exact List.append_nil _
  exact
    { held_object := by
        rintro session (hHolder | hFrame | hEntry)
        · exact List.mem_cons_of_mem _ (hSound.held_object _ (.inl hHolder))
        · obtain rfl := Option.some.inj hFrame
          exact List.mem_cons_self
        · exact List.mem_cons_of_mem _
            (hSound.held_object _ (.inr (.inr hEntry)))
      object_custody := by
        intro session hMem
        rcases List.mem_cons.mp hMem with rfl | hOld
        · exact List.mem_cons_self
        · exact List.mem_cons_of_mem _ (hSound.object_custody _ hOld)
      custody_fd := by
        refine List.nodup_cons.mpr ⟨?_, hSound.custody_fd⟩
        intro hMem
        obtain ⟨session, hCustody, hSame⟩ := List.mem_map.mp hMem
        exact hOther session hCustody hSame
      custody_open := by
        intro session hMem
        rcases List.mem_cons.mp hMem with rfl | hOld
        · exact List.mem_cons_self
        · exact List.mem_cons_of_mem _ (hSound.custody_open _ hOld)
      closing_custody := by
        rw [hClosing]
        intro other hMem
        obtain ⟨session, hCustody, hSame, hGone⟩ :=
          hSound.closing_custody other hMem
        refine ⟨session, List.mem_cons_of_mem _ hCustody, hSame, ?_⟩
        intro hObject
        rcases List.mem_cons.mp hObject with rfl | hOld
        · exact hOther _ hCustody rfl
        · exact hGone hOld
      closing_once := by
        rw [hClosing]
        exact hSound.closing_once
      key_eq := hSound.key_eq
      new_key := by
        intro session hFrame entry hMem hSame
        obtain rfl := IoFrame.accepted.inj hFrame
        rw [hSound.key_eq entry hMem] at hSame
        exact hOther entry.2 (hSound.entry_custody hMem) hSame }

/-- There is no entry under the descriptor of a new session. -/
theorem Sound.insertSession_eq (hSound : s.Sound) {session : ServerSession}
    (hFrame : s.frame = .accepted session) :
    s.insertSession session =
      { s with
        sessions := (session.fd, session) :: s.sessions
        inserts := s.inserts ++ [⟨session, true⟩] } := by
  refine if_neg fun hAny => ?_
  obtain ⟨entry, hMem, hKey⟩ := List.any_eq_true.mp hAny
  exact hSound.new_key session hFrame entry hMem (eq_of_beq hKey)

/-- The new session is put into the table. -/
theorem Sound.inserted (hSound : s.Sound) {session : ServerSession}
    (hFrame : s.frame = .accepted session) :
    ({ (s.insertSession session).post [.enableFd session.fd] with
        frame := .inserted session } : StreamServer).Sound := by
  rw [hSound.insertSession_eq hFrame]
  have hNew : s.Held session := held_of_frame hFrame rfl
  have hTable : ({ s with
      sessions := (session.fd, session) :: s.sessions
      frame := .inserted session
      inserts := s.inserts ++ [⟨session, true⟩] } : StreamServer).Sound :=
    { hSound with
      held_object := by
        rintro other (hHolder | hSame | hEntry)
        · exact hSound.held_object other (.inl hHolder)
        · obtain rfl := Option.some.inj hSame
          exact hSound.held_object _ hNew
        · rcases List.mem_cons.mp hEntry with rfl | hOld
          · exact hSound.held_object _ hNew
          · exact hSound.held_object other (.inr (.inr hOld))
      key_eq := by
        intro entry hMem
        rcases List.mem_cons.mp hMem with rfl | hOld
        · rfl
        · exact hSound.key_eq entry hOld
      new_key := fun other hOther => by cases hOther }
  exact hTable.posted rfl

/-- A session nobody has is destroyed, and its channel with it. -/
theorem Sound.destroyed (hSound : s.Sound) {session : ServerSession}
    (hObject : session ∈ s.objects) (hFree : ¬ s.Held session) :
    (({ s with objects := s.objects.filter (· ≠ session) } : StreamServer).post
      [.disableFd session.fd, .erase session, .unregisterFd session.fd]).Sound := by
  have hCustody : session ∈ s.custody := hSound.object_custody session hObject
  have hClosing : (({ s with objects := s.objects.filter (· ≠ session) } :
      StreamServer).post [.disableFd session.fd, .erase session,
        .unregisterFd session.fd]).closing = s.closing ++ [session.fd] :=
    closing_post _ _
  exact
    { hSound with
      held_object := by
        intro other hHeld
        have hOther : s.Held other := hHeld
        refine List.mem_filter.mpr ⟨hSound.held_object other hOther, ?_⟩
        exact decide_eq_true fun hSame => hFree (hSame ▸ hOther)
      object_custody := fun other hMem =>
        hSound.object_custody other (List.mem_of_mem_filter hMem)
      closing_custody := by
        rw [hClosing]
        intro fd hMem
        rcases List.mem_append.mp hMem with hOld | hNew
        · obtain ⟨other, hOther, hFd, hGone⟩ := hSound.closing_custody fd hOld
          exact ⟨other, hOther, hFd,
            fun hKept => hGone (List.mem_of_mem_filter hKept)⟩
        · obtain rfl := List.mem_singleton.mp hNew
          refine ⟨session, hCustody, rfl, fun hKept => ?_⟩
          exact of_decide_eq_true (List.mem_filter.mp hKept).2 rfl
      closing_once := by
        rw [hClosing]
        refine List.nodup_append.mpr
          ⟨hSound.closing_once, List.nodup_singleton _, ?_⟩
        rintro fd hOld _ hNew rfl
        obtain rfl := List.mem_singleton.mp hNew
        -- Another session would have the descriptor.
        obtain ⟨other, hOther, hFd, hGone⟩ := hSound.closing_custody _ hOld
        exact hGone (hSound.eq_of_fd hOther hCustody hFd ▸ hObject) }

/-- The loop closes the descriptor of a destroyed session, or fails to. -/
theorem Sound.unregistered (hSound : s.Sound) {fd : Nat}
    {rest : List ChannelTask} (hQueue : s.ioQueue = .unregisterFd fd :: rest)
    (closes : Bool) :
    (({ s with ioQueue := rest } : StreamServer).unregister fd closes).Sound := by
  have hClosing : s.closing =
      fd :: ({ s with ioQueue := rest } : StreamServer).closing := by
    rw [closing, hQueue]
    rfl
  have hOnce := hSound.closing_once
  rw [hClosing, List.nodup_cons] at hOnce
  have hRest : ({ s with ioQueue := rest } : StreamServer).Sound :=
    { hSound with
      closing_custody := fun other hMem => by
        refine hSound.closing_custody other ?_
        rw [hClosing]
        exact List.mem_cons_of_mem _ hMem
      closing_once := hOnce.2 }
  cases closes with
  | false => exact hRest
  | true =>
      obtain ⟨owner, hOwner, hFd, hGone⟩ := hSound.closing_custody fd (by
        rw [hClosing]
        exact List.mem_cons_self)
      exact
        { hRest with
          object_custody := by
            intro session hMem
            have hCustody := hSound.object_custody session hMem
            refine List.mem_filter.mpr ⟨hCustody, decide_eq_true fun hSame => ?_⟩
            have hIt := hSound.eq_of_fd hCustody hOwner (hSame.trans hFd.symm)
            exact hGone (hIt ▸ hMem)
          custody_fd := hSound.custody_fd.sublist (List.filter_sublist.map _)
          custody_open := by
            intro session hMem
            obtain ⟨hCustody, hOther⟩ := List.mem_filter.mp hMem
            exact List.mem_filter.mpr ⟨hSound.custody_open session hCustody, hOther⟩
          closing_custody := by
            intro other hMem
            obtain ⟨session, hCustody, rfl, hDead⟩ :=
              hRest.closing_custody other hMem
            refine ⟨session, List.mem_filter.mpr ⟨hCustody, ?_⟩, rfl, hDead⟩
            exact decide_eq_true fun hSame => hOnce.1 (hSame ▸ hMem) }

/-! ## Steps and runs -/

theorem Sound.executed (hSound : s.Sound) {task : ChannelTask}
    {rest : List ChannelTask} (hQueue : s.ioQueue = task :: rest)
    (closes : Bool) :
    (({ s with ioQueue := rest } : StreamServer).execute task closes).Sound := by
  have hPopped (hTask : task.closing? = none) :
      ({ s with ioQueue := rest } : StreamServer).Sound := by
    refine hSound.of_less rfl rfl rfl ?_ (fun _ => id) (fun _ => id) fun _ => id
    rw [closing, closing, hQueue, List.filterMap_cons_none hTask]
  cases task with
  | registerFd => exact hPopped rfl
  | enableFd => exact hPopped rfl
  | disableFd => exact hPopped rfl
  | erase poster =>
      simp only [execute]
      split
      · rename_i hHeld
        refine (hPopped rfl).moved ?_ fun _ hSame => by cases hSame
        intro session hSame
        exact Option.some.inj hSame ▸ hHeld
      · exact hPopped rfl
  | unregisterFd fd => exact hSound.unregistered hQueue closes

theorem Sound.step {action : ServerAction} (hSound : s.Sound)
    (hStep : Stepped s action next) : next.Sound := by
  cases hStep with
  | accept hFrame hAlive hFd => exact hSound.accepted hFd
  | insert hFrame => exact hSound.inserted hFrame
  | dispatch hFrame hAlive hHeld =>
      refine hSound.moved ?_ fun _ hSame => by cases hSame
      intro session hSame
      exact Option.some.inj hSame ▸ hHeld
  | leave =>
      refine hSound.moved ?_ fun _ hSame => by cases hSame
      intro session hSame
      cases hSame
  | share hHeld =>
      refine hSound.of_less rfl rfl rfl rfl ?_ (fun _ => id) fun _ => id
      rintro session (hHolder | hFrame | hEntry)
      · rcases List.mem_cons.mp hHolder with rfl | hOld
        · exact hHeld
        · exact .inl hOld
      · exact .inr (.inl hFrame)
      · exact .inr (.inr hEntry)
  | drop session =>
      refine hSound.of_less rfl rfl rfl rfl ?_ (fun _ => id) fun _ => id
      rintro other (hHolder | hRest)
      · exact .inl (List.mem_of_mem_erase hHolder)
      · exact .inr hRest
  | update => exact hSound.posted rfl
  | stop => exact hSound.posted rfl
  | destroy hObject hFree => exact hSound.destroyed hObject hFree
  | destroyServer hFree =>
      refine hSound.of_less rfl rfl rfl rfl ?_
        (fun _ hMem => by cases hMem) fun _ => id
      rintro session (hHolder | hFrame | hEntry)
      · exact .inl hHolder
      · exact .inr (.inl hFrame)
      · cases hEntry
  | executeTask closes hQueue hFrame => exact hSound.executed hQueue closes
  | @eraseSession session hFrame hAlive =>
      have hKept (entry : Nat × ServerSession)
          (hMem : entry ∈ (s.eraseFd session).sessions) : entry ∈ s.sessions :=
        List.mem_of_mem_filter hMem
      refine hSound.of_less rfl rfl rfl rfl ?_ hKept
        fun _ hSame => by cases hSame
      rintro other (hHolder | hSame | hEntry)
      · exact .inl hHolder
      · exact held_of_frame hFrame hSame
      · obtain ⟨entry, hMem, rfl⟩ := List.mem_map.mp hEntry
        exact Sound.entry_held (hKept entry hMem)
  | eraseNothing hFrame =>
      refine hSound.moved ?_ fun _ hSame => by cases hSame
      intro other hSame
      exact held_of_frame hFrame hSame
  | openOther hFd =>
      exact
        { hSound with
          custody_open := fun session hMem =>
            List.mem_cons_of_mem _ (hSound.custody_open session hMem) }
  | closeOther hFd =>
      exact
        { hSound with
          custody_open := by
            intro session hMem
            refine List.mem_filter.mpr ⟨hSound.custody_open session hMem, ?_⟩
            exact decide_eq_true fun hSame =>
              hFd (hSame ▸ List.mem_map_of_mem hMem) }

/-- What was done to the table was right. -/
structure Recorded (s : StreamServer) : Prop where
  inserts : ∀ record ∈ s.inserts, record.inserted = true
  erasures : ∀ record ∈ s.erasures, record.removed = record.poster

theorem recorded_initial (opened : List Nat) : (initial opened).Recorded where
  inserts := fun _ hMem => by cases hMem
  erasures := fun _ hMem => by cases hMem

/-- A task removes nothing from the table by itself. -/
theorem execute_records (s : StreamServer) (task : ChannelTask) (closes : Bool) :
    (s.execute task closes).inserts = s.inserts ∧
      (s.execute task closes).erasures = s.erasures := by
  cases task with
  | registerFd => exact ⟨rfl, rfl⟩
  | enableFd => exact ⟨rfl, rfl⟩
  | disableFd => exact ⟨rfl, rfl⟩
  | erase poster =>
      simp only [execute]
      split <;> exact ⟨rfl, rfl⟩
  | unregisterFd fd => cases closes <;> exact ⟨rfl, rfl⟩

/-- A session that is alive is the only one under its descriptor. -/
theorem Sound.removed_eq (hSound : s.Sound) {poster : ServerSession}
    (hHeld : s.Held poster) {entry : Nat × ServerSession}
    (hMem : entry ∈ s.sessions) (hKey : entry.1 = poster.fd) :
    entry.2 = poster := by
  have hPoster := hSound.object_custody _ (hSound.held_object _ hHeld)
  refine hSound.eq_of_fd (hSound.entry_custody hMem) hPoster ?_
  rw [← hSound.key_eq entry hMem, hKey]

theorem Recorded.step {action : ServerAction} (hRecorded : s.Recorded)
    (hSound : s.Sound) (hStep : Stepped s action next) : next.Recorded := by
  cases hStep with
  | @insert session hFrame =>
      refine ⟨?_, ?_⟩
      · show ∀ record ∈ (s.insertSession session).inserts, _
        rw [hSound.insertSession_eq hFrame]
        intro record hMem
        rcases List.mem_append.mp hMem with hOld | hNew
        · exact hRecorded.inserts record hOld
        · obtain rfl := List.mem_singleton.mp hNew
          rfl
      · show ∀ record ∈ (s.insertSession session).erasures, _
        rw [hSound.insertSession_eq hFrame]
        exact hRecorded.erasures
  | @eraseSession session hFrame hAlive =>
      refine ⟨hRecorded.inserts, fun record hMem => ?_⟩
      rcases List.mem_append.mp hMem with hOld | hNew
      · exact hRecorded.erasures record hOld
      · obtain ⟨entry, hEntry, rfl⟩ := List.mem_map.mp hNew
        obtain ⟨hTable, hKey⟩ := List.mem_filter.mp hEntry
        exact hSound.removed_eq (held_of_frame hFrame rfl) hTable
          (eq_of_beq hKey)
  | @executeTask task rest closes hQueue hFrame =>
      obtain ⟨hInserts, hErasures⟩ :=
        execute_records { s with ioQueue := rest } task closes
      refine ⟨?_, ?_⟩
      · rw [hInserts]
        exact hRecorded.inserts
      · rw [hErasures]
        exact hRecorded.erasures
  | accept => exact { hRecorded with }
  | dispatch => exact { hRecorded with }
  | leave => exact { hRecorded with }
  | share => exact { hRecorded with }
  | drop => exact { hRecorded with }
  | update => exact { hRecorded with }
  | stop => exact { hRecorded with }
  | destroy => exact { hRecorded with }
  | destroyServer => exact { hRecorded with }
  | eraseNothing => exact { hRecorded with }
  | openOther => exact { hRecorded with }
  | closeOther => exact { hRecorded with }

/-- **Integrity of the session table.**  However connections are accepted,
sessions held, stopped and dropped, tasks executed and descriptors used again:
the accept loop has inserted every session it made, every key is the descriptor
of its session, and a task of `stop` has removed no session but the one that
posted it. -/
theorem session_table_integrity {opened : List Nat} {s : StreamServer}
    {actions : List ServerAction}
    (hRun : run StreamServer.step (initial opened) actions = some s) :
    (∀ record ∈ s.inserts, record.inserted = true) ∧
      (∀ entry ∈ s.sessions, entry.1 = entry.2.fd) ∧
      ∀ record ∈ s.erasures, record.removed = record.poster := by
  let Inv (s : StreamServer) : Prop := s.Sound ∧ s.Recorded
  have hStep (s : StreamServer) (action : ServerAction) (next : StreamServer)
      (hInv : Inv s) (hStep : s.step action = some next) : Inv next := by
    obtain ⟨hSound, hRecorded⟩ := hInv
    exact ⟨hSound.step (stepped hStep), hRecorded.step hSound (stepped hStep)⟩
  have hInit : Inv (initial opened) :=
    ⟨sound_initial opened, recorded_initial opened⟩
  obtain ⟨hSound, hRecorded⟩ := run_keeps hStep hInit hRun
  exact ⟨hRecorded.inserts, hSound.key_eq, hRecorded.erasures⟩

/-- A user holds the session of descriptor `5` and stops it twice.  The second
task finds it alive and no longer in the table; then it is destroyed, and the
descriptor is closed and accepted again. -/
theorem session_table_integrity_reused :
    let execute : ServerAction := .executeTask true
    let first : ServerSession := ⟨0, 5⟩
    let actions : List ServerAction :=
      [.accept 5, .insert, .leave, .share first, .stop first, .stop first,
        execute, execute, execute, execute, .eraseSession, .leave, execute,
        execute, .eraseSession, .leave, .drop first, .destroy first, execute,
        execute, execute, .accept 5, .insert]
    ∃ s, run StreamServer.step (initial [3, 4]) actions = some s ∧
      s.sessions = [(5, ⟨1, 5⟩)] ∧ s.erasures = [⟨first, first⟩] ∧
      s.inserts.length = 2 ∧ ∀ record ∈ s.inserts, record.inserted = true := by
  intro execute first actions
  have hOutcome : (run StreamServer.step (initial [3, 4]) actions).any
      (fun s => decide (s.sessions = [(5, ⟨1, 5⟩)] ∧
        s.erasures = [⟨first, first⟩] ∧ s.inserts.length = 2)) = true := by
    decide +kernel
  obtain ⟨s, hRun, hView⟩ := (Option.any_eq_true _ _).mp hOutcome
  obtain ⟨hSessions, hErasures, hInserts⟩ := of_decide_eq_true hView
  exact ⟨s, hRun, hSessions, hErasures, hInserts,
    (session_table_integrity hRun).1⟩

end StreamServer
end Net
end KZEvent
