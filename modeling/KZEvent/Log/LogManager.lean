import KZEvent.Foundation.Run
import Mathlib.Data.List.Nodup
import Mathlib.Logic.Function.Basic

/-!
# Rotation of the log files

`LogManager::write` counts the records of the file it has open and opens the next
file when `kMaxLines` are in it.  A file is named by the second in which it is
opened, and a name that exists already is appended to while the count starts from
zero.  So a file keeps to the bound exactly if its name was not used before; what
is written is in some file in any case, in the order of the calls.

`write_mtx_` makes a sequence of the calls of all threads.
-/

namespace KZEvent
namespace Log

open Foundation

inductive Level
  | kInfo
  | kError
  | kFatal
deriving DecidableEq, Repr

def levelToString : Level → String
  | .kInfo => "INFO "
  | .kError => "ERROR"
  | .kFatal => "FATAL"

/-- `std::tm`, as far as `put_time` reads it: years from 1900, months from zero. -/
structure Tm where
  tmYear : Int
  tmMon : Nat
  tmMday : Nat
  tmHour : Nat
  tmMin : Nat
  tmSec : Nat
deriving DecidableEq, Repr

def twoDigits (value : Nat) : String :=
  if value < 10 then "0" ++ toString value else toString value

/-- `%Y-%m-%d`. -/
def putDate (tm : Tm) : String :=
  toString (tm.tmYear + 1900) ++ "-" ++ twoDigits (tm.tmMon + 1) ++ "-" ++
    twoDigits tm.tmMday

/-- `%H:%M:%S`, or `%H-%M-%S`. -/
def putTime (tm : Tm) (separator : String) : String :=
  twoDigits tm.tmHour ++ separator ++ twoDigits tm.tmMin ++ separator ++
    twoDigits tm.tmSec

/-- The name of a file in `log_dir_`. -/
def fileName (tm : Tm) : String :=
  "kz_log_" ++ putDate tm ++ "_" ++ putTime tm "-" ++ ".txt"

/-- `system_clock::to_time_t`: nanoseconds to seconds. -/
def toTimeT (now : Int) : Int := now.tdiv 1000000000

/-- A call of `write`, with what its environment answers: the clock when a file is
opened and when the record is stamped, and whether `open` succeeds. -/
structure WriteCall where
  level : Level
  payload : String
  threadId : Nat
  openedAt : Int
  opens : Bool
  stampedAt : Int
deriving DecidableEq, Repr

def kMaxLines : Nat := 5000

/-- The manager.  `files` holds the records each file received from it, `opened`
the names it opened, in the order of their first use, and `placed` every record
with the file it went to, if one was open. -/
structure LogManager where
  logFile : Option String
  currentLineCount : Nat
  files : String → List String
  opened : List String
  placed : List (Option String × String)

namespace LogManager

def initial : LogManager where
  logFile := none
  currentLineCount := 0
  files := fun _ => []
  opened := []
  placed := []

/-- `!log_file_.is_open() || current_line_count_ >= kMaxLines`. -/
def NeedsFile (m : LogManager) : Prop :=
  m.logFile = none ∨ kMaxLines ≤ m.currentLineCount

instance (m : LogManager) : Decidable m.NeedsFile :=
  inferInstanceAs (Decidable (_ ∨ _))

/-- What is put into the stream goes to the file, if one is open; it is counted in
any case. -/
def append (m : LogManager) (record : String) : LogManager :=
  match m.logFile with
  | some name =>
      { m with
        files := Function.update m.files name (m.files name ++ [record])
        currentLineCount := m.currentLineCount + 1
        placed := m.placed ++ [(some name, record)] }
  | none =>
      { m with
        currentLineCount := m.currentLineCount + 1
        placed := m.placed ++ [(none, record)] }

section Clock

-- `localtime_r`, in the time zone of the process.
variable (localtime : Int → Tm)

/-- The record of a call. -/
def line (call : WriteCall) : String :=
  let tm := localtime (toTimeT call.stampedAt)
  "[" ++ putDate tm ++ " " ++ putTime tm ":" ++ "] " ++
    "[" ++ levelToString call.level ++ "] " ++
    "[TID:" ++ toString call.threadId ++ "] " ++ call.payload ++ "\n"

/-- The name under which a call opens a file, if it does. -/
def nameFor (call : WriteCall) : String :=
  fileName (localtime (toTimeT call.openedAt))

def newLogFile (m : LogManager) (call : WriteCall) : LogManager :=
  let name := nameFor localtime call
  if call.opens then
    { m with
      logFile := some name
      currentLineCount := 0
      opened := if name ∈ m.opened then m.opened else m.opened ++ [name] }
  else
    { m with
      logFile := none
      currentLineCount := 0 }

/-- The file is changed where that is needed. -/
def rotate (m : LogManager) (call : WriteCall) : LogManager :=
  if m.NeedsFile then newLogFile localtime m call else m

def write (m : LogManager) (call : WriteCall) : LogManager :=
  (rotate localtime m call).append (line localtime call)

def step (m : LogManager) (call : WriteCall) : Option LogManager :=
  some (write localtime m call)

/-- A file that is opened has a name not used before. -/
def OpensFresh (m : LogManager) (call : WriteCall) : Prop :=
  m.NeedsFile → nameFor localtime call ∉ m.opened

instance (m : LogManager) (call : WriteCall) :
    Decidable (OpensFresh localtime m call) :=
  inferInstanceAs (Decidable (_ → _))

end Clock

/-- The bound on the files. -/
def Bounded (m : LogManager) : Prop :=
  ∀ name, (m.files name).length ≤ kMaxLines

/-- Each file has the records placed in it, in the order in which they were
written. -/
def Placed (m : LogManager) : Prop :=
  ∀ name, m.files name =
    (m.placed.filter fun entry => entry.1 = some name).map Prod.snd

/-- No record is lost: each of them is in one of the files. -/
structure Kept (m : LogManager) (records : List String) : Prop where
  all : m.placed.map Prod.snd = records
  stored : ∀ entry ∈ m.placed, entry.1 ≠ none
  inFile : m.Placed

/-- What is promised of a log with these records.  Read one after the other, the
files give the records in their order. -/
structure Rotated (m : LogManager) (records : List String) : Prop where
  bounded : m.Bounded
  kept : m.Kept records
  ordered : m.opened.flatMap m.files = records

/-- The invariant of a run in which each file gets a name of its own. -/
structure Rotating (m : LogManager) : Prop where
  /-- The open file is the last one, and the count is that of its records. -/
  current : ∀ name, m.logFile = some name →
    ∃ front, m.opened = front ++ [name] ∧
      (m.files name).length = m.currentLineCount
  /-- The files before it are full. -/
  full : ∀ name ∈ m.opened, m.logFile ≠ some name →
    (m.files name).length = kMaxLines
  fresh : ∀ name, name ∉ m.opened → m.files name = []
  nodup : m.opened.Nodup
  counted : m.currentLineCount ≤ kMaxLines
  ordered : m.opened.flatMap m.files = m.placed.map Prod.snd

section

variable {localtime : Int → Tm} {m : LogManager} {call : WriteCall}
  {name record : String}

/-! ## One call -/

theorem append_of_open (hOpen : m.logFile = some name) (record : String) :
    m.append record =
      { m with
        files := Function.update m.files name (m.files name ++ [record])
        currentLineCount := m.currentLineCount + 1
        placed := m.placed ++ [(some name, record)] } := by
  simp only [append, hOpen]

theorem append_files_of_open (hOpen : m.logFile = some name) (record : String) :
    (m.append record).files =
      Function.update m.files name (m.files name ++ [record]) := by
  rw [append_of_open hOpen]

@[simp]
theorem append_logFile (m : LogManager) (record : String) :
    (m.append record).logFile = m.logFile := by
  unfold append
  split <;> rfl

@[simp]
theorem append_opened (m : LogManager) (record : String) :
    (m.append record).opened = m.opened := by
  unfold append
  split <;> rfl

@[simp]
theorem append_currentLineCount (m : LogManager) (record : String) :
    (m.append record).currentLineCount = m.currentLineCount + 1 := by
  unfold append
  split <;> rfl

theorem append_placed (m : LogManager) (record : String) :
    (m.append record).placed = m.placed ++ [(m.logFile, record)] := by
  unfold append
  split <;> simp_all

theorem newLogFile_of_opens (hOpens : call.opens = true) :
    newLogFile localtime m call =
      { m with
        logFile := some (nameFor localtime call)
        currentLineCount := 0
        opened := if nameFor localtime call ∈ m.opened then m.opened
          else m.opened ++ [nameFor localtime call] } := if_pos hOpens

@[simp]
theorem rotate_files (m : LogManager) (call : WriteCall) :
    (rotate localtime m call).files = m.files := by
  unfold rotate newLogFile
  split
  · split <;> rfl
  · rfl

@[simp]
theorem rotate_placed (m : LogManager) (call : WriteCall) :
    (rotate localtime m call).placed = m.placed := by
  unfold rotate newLogFile
  split
  · split <;> rfl
  · rfl

theorem rotate_of_not_needsFile (hOpen : ¬ m.NeedsFile) :
    rotate localtime m call = m := if_neg hOpen

variable (localtime) in
theorem rotate_of_needsFile (hNeeds : m.NeedsFile) (hOpens : call.opens = true) :
    (rotate localtime m call).logFile = some (nameFor localtime call) := by
  rw [rotate, if_pos hNeeds, newLogFile_of_opens hOpens]

variable (localtime) in
/-- Where `open` succeeds, a file is open when the record is written. -/
theorem exists_open (m : LogManager) (hOpens : call.opens = true) :
    ∃ name, (rotate localtime m call).logFile = some name := by
  by_cases hNeeds : m.NeedsFile
  · exact ⟨_, rotate_of_needsFile localtime hNeeds hOpens⟩
  · rw [rotate_of_not_needsFile hNeeds]
    simp only [NeedsFile, not_or] at hNeeds
    exact Option.ne_none_iff_exists'.mp hNeeds.1

/-- The open file has room for the record. -/
theorem rotate_currentLineCount_lt (m : LogManager) (call : WriteCall) :
    (rotate localtime m call).currentLineCount < kMaxLines := by
  by_cases hNeeds : m.NeedsFile
  · rw [rotate, if_pos hNeeds, newLogFile]
    split <;> exact (show 0 < kMaxLines by decide)
  · rw [rotate_of_not_needsFile hNeeds]
    simp only [NeedsFile, not_or, Nat.not_le] at hNeeds
    exact hNeeds.2

/-! ## Nothing is lost -/

theorem Placed.append (hPlaced : m.Placed) (record : String) :
    (m.append record).Placed := by
  intro other
  rw [append_placed, List.filter_append, List.map_append, ← hPlaced other]
  cases hFile : m.logFile with
  | none => simp [LogManager.append, hFile]
  | some name =>
      rw [append_files_of_open hFile]
      by_cases hOther : name = other
      · subst hOther
        simp
      · simp [hOther, Function.update_of_ne (Ne.symm hOther)]

theorem Placed.write (hPlaced : m.Placed) (call : WriteCall) :
    (write localtime m call).Placed := by
  have hRotated : (rotate localtime m call).Placed := by
    simpa only [Placed, rotate_files, rotate_placed] using hPlaced
  exact hRotated.append _

variable (localtime) in
/-- A call adds its record behind those before. -/
theorem write_placed (m : LogManager) (hOpens : call.opens = true) :
    ∃ name, (write localtime m call).placed =
      m.placed ++ [(some name, line localtime call)] := by
  obtain ⟨name, hName⟩ := exists_open localtime m hOpens
  exact ⟨name, by rw [write, append_placed, hName, rotate_placed]⟩

theorem Kept.write {records : List String} (hKept : m.Kept records)
    (hOpens : call.opens = true) :
    (write localtime m call).Kept (records ++ [line localtime call]) := by
  obtain ⟨name, hName⟩ := write_placed localtime m hOpens
  constructor
  case all => rw [hName, List.map_append, hKept.all]; rfl
  case stored =>
    rw [hName]
    simpa [or_imp, forall_and] using hKept.stored
  case inFile => exact hKept.inFile.write call

/-- Every run in which files can be opened keeps all records. -/
theorem kept_of_run {records : List String} {calls : List WriteCall}
    {final : LogManager} (hKept : m.Kept records)
    (hOpens : ∀ call ∈ calls, call.opens = true)
    (hRun : run (step localtime) m calls = some final) :
    final.Kept (records ++ calls.map (line localtime)) := by
  induction calls generalizing m records with
  | nil =>
      obtain rfl : m = final := by simpa using hRun
      simpa using hKept
  | cons call calls ih =>
      obtain ⟨hFirst, hRest⟩ := List.forall_mem_cons.mp hOpens
      obtain ⟨next, hNext, hLater⟩ := run_cons_eq_some_iff.mp hRun
      obtain rfl := Option.some.inj hNext
      simpa using ih (hKept.write hFirst) hRest hLater

theorem kept_initial : initial.Kept [] where
  all := rfl
  stored := fun _ hMem => by cases hMem
  inFile := fun _ => rfl

/-! ## The invariant -/

theorem rotating_initial : initial.Rotating where
  current := fun _ hOpen => by cases hOpen
  full := fun _ hMem => by cases hMem
  fresh := fun _ _ => rfl
  nodup := List.nodup_nil
  counted := Nat.zero_le _
  ordered := rfl

/-- When a file is opened, all those before are full. -/
theorem Rotating.full_of_needsFile (hRotating : m.Rotating)
    (hNeeds : m.NeedsFile) (hOpened : name ∈ m.opened) :
    (m.files name).length = kMaxLines := by
  by_cases hCurrent : m.logFile = some name
  · obtain ⟨front, -, hCount⟩ := hRotating.current name hCurrent
    have hFull : kMaxLines ≤ m.currentLineCount :=
      hNeeds.resolve_left (by rw [hCurrent]; exact Option.some_ne_none name)
    have hCounted := hRotating.counted
    omega
  · exact hRotating.full name hOpened hCurrent

theorem Rotating.newLogFile (hRotating : m.Rotating) (hNeeds : m.NeedsFile)
    (hOpens : call.opens = true) (hFresh : nameFor localtime call ∉ m.opened) :
    (newLogFile localtime m call).Rotating := by
  have hEmpty := hRotating.fresh _ hFresh
  rw [newLogFile_of_opens hOpens, if_neg hFresh]
  generalize nameFor localtime call = name at hFresh hEmpty ⊢
  constructor
  case current =>
    intro other hOther
    obtain rfl := Option.some.inj hOther
    exact ⟨m.opened, rfl, congrArg List.length hEmpty⟩
  case full =>
    intro other hMem hOther
    have hBefore : other ∈ m.opened := by
      rcases List.mem_append.mp hMem with hBefore | hLast
      · exact hBefore
      · exact absurd (congrArg some (List.mem_singleton.mp hLast).symm) hOther
    exact hRotating.full_of_needsFile hNeeds hBefore
  case fresh =>
    intro other hOther
    exact hRotating.fresh other fun hMem => hOther (List.mem_append_left _ hMem)
  case nodup =>
    show (m.opened ++ [name]).Nodup
    rw [← List.concat_eq_append]
    exact hRotating.nodup.concat hFresh
  case counted => exact Nat.zero_le _
  case ordered =>
    show (m.opened ++ [name]).flatMap m.files = m.placed.map Prod.snd
    rw [List.flatMap_append, List.flatMap_singleton, hEmpty, List.append_nil]
    exact hRotating.ordered

theorem Rotating.append (hRotating : m.Rotating) (hOpen : m.logFile = some name)
    (hRoom : m.currentLineCount < kMaxLines) (record : String) :
    (m.append record).Rotating := by
  obtain ⟨front, hOpened, hCount⟩ := hRotating.current name hOpen
  have hNodup : (front ++ [name]).Nodup := hOpened ▸ hRotating.nodup
  have hFront : name ∉ front := by
    rw [← List.concat_eq_append, List.nodup_concat] at hNodup
    exact hNodup.1
  have hSelf : (m.append record).files name = m.files name ++ [record] := by
    rw [append_files_of_open hOpen, Function.update_self]
  have hOther {other : String} (hNe : other ≠ name) :
      (m.append record).files other = m.files other := by
    rw [append_files_of_open hOpen, Function.update_of_ne hNe]
  constructor
  case current =>
    intro other hCurrent
    rw [append_logFile, hOpen] at hCurrent
    obtain rfl := Option.some.inj hCurrent
    refine ⟨front, by rw [append_opened, hOpened], ?_⟩
    rw [hSelf, List.length_append, hCount, append_currentLineCount]
    rfl
  case full =>
    intro other hMem hCurrent
    rw [append_logFile] at hCurrent
    rw [append_opened] at hMem
    have hNe : other ≠ name := by
      rintro rfl
      exact hCurrent hOpen
    rw [hOther hNe]
    exact hRotating.full other hMem hCurrent
  case fresh =>
    intro other hMem
    rw [append_opened] at hMem
    have hNe : other ≠ name := by
      rintro rfl
      exact hMem (by rw [hOpened]; exact List.mem_append_right _ (.head _))
    rw [hOther hNe]
    exact hRotating.fresh other hMem
  case nodup => rw [append_opened]; exact hRotating.nodup
  case counted => rw [append_currentLineCount]; exact hRoom
  case ordered =>
    have hBefore : front.flatMap (m.append record).files =
        front.flatMap m.files := by
      apply List.flatMap_congr
      intro other hMem
      exact hOther fun hSame => hFront (hSame ▸ hMem)
    have hOrdered := hRotating.ordered
    rw [hOpened, List.flatMap_append, List.flatMap_singleton] at hOrdered
    rw [append_opened, hOpened, List.flatMap_append, List.flatMap_singleton,
      hBefore, hSelf, append_placed, List.map_append, ← hOrdered,
      List.append_assoc]
    rfl

/-- A call that opens no file, or one with a new name, keeps the invariant. -/
theorem Rotating.write (hRotating : m.Rotating) (hOpens : call.opens = true)
    (hFresh : OpensFresh localtime m call) :
    (write localtime m call).Rotating := by
  have hRotate : (rotate localtime m call).Rotating := by
    by_cases hNeeds : m.NeedsFile
    · rw [rotate, if_pos hNeeds]
      exact hRotating.newLogFile hNeeds hOpens (hFresh hNeeds)
    · rwa [rotate_of_not_needsFile hNeeds]
  obtain ⟨name, hName⟩ := exists_open localtime m hOpens
  exact hRotate.append hName (rotate_currentLineCount_lt m call) _

/-- A call that opens a file under a name used before puts one record too many
into it. -/
theorem Rotating.write_reopened (hRotating : m.Rotating)
    (hOpens : call.opens = true) (hReopens : ¬ OpensFresh localtime m call) :
    ((LogManager.write localtime m call).files (nameFor localtime call)).length =
      kMaxLines + 1 := by
  simp only [OpensFresh, Classical.not_imp, not_not] at hReopens
  obtain ⟨hNeeds, hUsed⟩ := hReopens
  have hOpen := rotate_of_needsFile localtime hNeeds hOpens
  rw [LogManager.write, append_files_of_open hOpen, Function.update_self,
    rotate_files, List.length_append, hRotating.full_of_needsFile hNeeds hUsed]
  rfl

theorem Rotating.bounded (hRotating : m.Rotating) : m.Bounded := by
  intro name
  by_cases hMem : name ∈ m.opened
  · by_cases hCurrent : m.logFile = some name
    · obtain ⟨front, -, hCount⟩ := hRotating.current name hCurrent
      rw [hCount]
      exact hRotating.counted
    · exact Nat.le_of_eq (hRotating.full name hMem hCurrent)
  · rw [hRotating.fresh name hMem]
    exact Nat.zero_le _

/-! ## Runs -/

variable (localtime) in
/-- Every sequence of calls can be performed. -/
theorem exists_run (m : LogManager) (calls : List WriteCall) :
    ∃ final, run (step localtime) m calls = some final := by
  induction calls generalizing m with
  | nil => exact ⟨m, rfl⟩
  | cons call calls ih =>
      obtain ⟨final, hFinal⟩ := ih (LogManager.write localtime m call)
      exact ⟨final, run_cons_eq_some_iff.mpr ⟨_, rfl, hFinal⟩⟩

/-- A run in which each file gets a name of its own keeps the invariant. -/
theorem rotating_of_run {calls : List WriteCall} (hRotating : m.Rotating)
    (hOpens : ∀ call ∈ calls, call.opens = true)
    (hGuard : Guarded (step localtime) (OpensFresh localtime) m calls)
    {final : LogManager} (hRun : run (step localtime) m calls = some final) :
    final.Rotating := by
  have hAllOpen : Guarded (step localtime) (fun _ call => call.opens = true)
      m calls := guarded_of_forall_mem hOpens m
  have hStep (m : LogManager) (call : WriteCall) (next : LogManager)
      (hRotating : m.Rotating)
      (hMeets : OpensFresh localtime m call ∧ call.opens = true)
      (hNext : step localtime m call = some next) : next.Rotating := by
    obtain rfl := Option.some.inj hNext
    exact hRotating.write hMeets.2 hMeets.1
  exact run_invariant hStep hRotating (hGuard.and hAllOpen) hRun

/-- A run that keeps all files to the bound gives each a name of its own. -/
theorem opensFresh_of_run {calls : List WriteCall} (hRotating : m.Rotating)
    (hOpens : ∀ call ∈ calls, call.opens = true) {final : LogManager}
    (hRun : run (step localtime) m calls = some final)
    (hBounded : ∀ earlier later reached, calls = earlier ++ later →
      run (step localtime) m earlier = some reached → reached.Bounded) :
    Guarded (step localtime) (OpensFresh localtime) m calls := by
  have hAllOpen : Guarded (step localtime) (fun _ call => call.opens = true)
      m calls := guarded_of_forall_mem hOpens m
  have hStep (m : LogManager) (call : WriteCall) (next : LogManager)
      (hRotating : m.Rotating) (hOpen : call.opens = true)
      (hNext : step localtime m call = some next) (hBounded : next.Bounded) :
      OpensFresh localtime m call ∧ next.Rotating := by
    obtain rfl := Option.some.inj hNext
    have hFresh : OpensFresh localtime m call := by
      by_contra hReopens
      have hTooMany := hRotating.write_reopened hOpen hReopens
      have hBound := hBounded (nameFor localtime call)
      omega
    exact ⟨hFresh, hRotating.write hOpen hFresh⟩
  exact guarded_of_forall_states hStep hRotating hAllOpen hRun hBounded

variable (localtime call) in
/-- While the open file has room for all of them, equal calls go to it. -/
theorem run_within (count : Nat) (hOpen : m.logFile = some name)
    (hRoom : m.currentLineCount + count ≤ kMaxLines) :
    ∃ final, run (step localtime) m (List.replicate count call) = some final ∧
      Guarded (step localtime) (OpensFresh localtime) m
        (List.replicate count call) ∧
      final.logFile = some name ∧ final.opened = m.opened ∧
      final.currentLineCount = m.currentLineCount + count := by
  induction count generalizing m with
  | zero => exact ⟨m, rfl, trivial, hOpen, rfl, rfl⟩
  | succ count ih =>
      have hKeeps : ¬ m.NeedsFile := by
        simp only [NeedsFile, hOpen, reduceCtorEq, false_or]
        omega
      have hWrite : LogManager.write localtime m call =
          m.append (line localtime call) := by
        rw [LogManager.write, rotate_of_not_needsFile hKeeps]
      have hStillOpen : (m.append (line localtime call)).logFile = some name := by
        rw [append_logFile, hOpen]
      have hStillRoom : (m.append (line localtime call)).currentLineCount + count ≤
          kMaxLines := by
        rw [append_currentLineCount]
        omega
      obtain ⟨final, hRun, hGuard, hLast, hOpened, hCount⟩ :=
        ih hStillOpen hStillRoom
      rw [append_opened] at hOpened
      rw [append_currentLineCount] at hCount
      refine ⟨final, run_cons_eq_some_iff.mpr ⟨_, congrArg some hWrite, hRun⟩,
        ⟨fun hNeeds => absurd hNeeds hKeeps, ?_⟩, hLast, hOpened, by omega⟩
      intro next hNext
      obtain rfl := Option.some.inj hNext
      rwa [hWrite]

variable (localtime) in
/-- A file filled within one second. -/
theorem exists_full (hOpens : call.opens = true) :
    ∃ final, run (step localtime) initial (List.replicate kMaxLines call) =
        some final ∧
      Guarded (step localtime) (OpensFresh localtime) initial
        (List.replicate kMaxLines call) ∧
      final.opened = [nameFor localtime call] ∧ final.NeedsFile := by
  have hFirst : LogManager.write localtime initial call =
      (newLogFile localtime initial call).append (line localtime call) := rfl
  have hName : (LogManager.write localtime initial call).logFile =
      some (nameFor localtime call) := by
    rw [hFirst, append_logFile, newLogFile_of_opens hOpens]
  have hCounted : (LogManager.write localtime initial call).currentLineCount = 1 := by
    rw [hFirst, append_currentLineCount, newLogFile_of_opens hOpens]
  have hOpened : (LogManager.write localtime initial call).opened =
      [nameFor localtime call] := by
    rw [hFirst, append_opened, newLogFile_of_opens hOpens]
    rfl
  obtain ⟨final, hRun, hGuard, -, hLater, hCount⟩ :=
    run_within localtime call 4999 hName (by rw [hCounted]; decide)
  have hSplit : List.replicate kMaxLines call =
      call :: List.replicate 4999 call := rfl
  rw [hSplit]
  refine ⟨final, run_cons_eq_some_iff.mpr ⟨_, rfl, hRun⟩,
    ⟨fun _ hMem => (by cases hMem), ?_⟩, hLater.trans hOpened, .inr ?_⟩
  · intro next hNext
    obtain rfl := Option.some.inj hNext
    exact hGuard
  · rw [hCount, hCounted]
    decide

end

/-! ## The law -/

/-- **Rotation.**  For every sequence of writes whose files can be opened, at any
times: every record is kept, each file has its own in the order of the calls; and
in every state on the way no file has more than `kMaxLines` records and the files
one after the other give all records in their order, if and only if every file is
opened under a name not used before. -/
theorem rotation_bound_iff (localtime : Int → Tm) (calls : List WriteCall)
    (hOpens : ∀ call ∈ calls, call.opens = true) :
    ∃ final, run (step localtime) initial calls = some final ∧
      final.Kept (calls.map (line localtime)) ∧
      (Guarded (step localtime) (OpensFresh localtime) initial calls ↔
        ∀ earlier later reached, calls = earlier ++ later →
          run (step localtime) initial earlier = some reached →
          reached.Rotated (earlier.map (line localtime))) := by
  obtain ⟨final, hRun⟩ := exists_run localtime initial calls
  refine ⟨final, hRun, kept_of_run kept_initial hOpens hRun, ?_, ?_⟩
  · intro hGuard earlier later reached hSplit hReached
    subst hSplit
    have hOpens : ∀ call ∈ earlier, call.opens = true :=
      fun call hMem => hOpens call (List.mem_append_left _ hMem)
    have hRotating : reached.Rotating :=
      rotating_of_run rotating_initial hOpens hGuard.left hReached
    have hKept : reached.Kept (earlier.map (line localtime)) :=
      kept_of_run kept_initial hOpens hReached
    exact ⟨hRotating.bounded, hKept, hRotating.ordered.trans hKept.all⟩
  · intro hStates
    exact opensFresh_of_run rotating_initial hOpens hRun
      fun earlier later reached hSplit hReached =>
        (hStates earlier later reached hSplit hReached).bounded

/-- The calendar of the first day of 1970, in UTC. -/
def firstDay (seconds : Int) : Tm where
  tmYear := 70
  tmMon := 0
  tmMday := 1
  tmHour := (seconds / 3600).toNat
  tmMin := (seconds / 60 % 60).toNat
  tmSec := (seconds % 60).toNat

def infoAt (now : Int) : WriteCall where
  level := .kInfo
  payload := "ready"
  threadId := 1
  openedAt := now
  opens := true
  stampedAt := now

/-- A file filled within the first second, and a record in the next second. -/
theorem rotation_bound_iff_next_second :
    ∃ final, run (step firstDay) initial
        (List.replicate kMaxLines (infoAt 0) ++ [infoAt 1000000000]) = some final ∧
      final.Bounded ∧
      final.opened.flatMap final.files =
        (List.replicate kMaxLines (infoAt 0) ++ [infoAt 1000000000]).map
          (line firstDay) := by
  have hOpens : ∀ call ∈ List.replicate kMaxLines (infoAt 0) ++ [infoAt 1000000000],
      call.opens = true := by
    intro call hMem
    rcases List.mem_append.mp hMem with hFirst | hLast
    · rw [List.eq_of_mem_replicate hFirst]
      rfl
    · rw [List.mem_singleton.mp hLast]
      rfl
  obtain ⟨final, hRun, -, hIff⟩ := rotation_bound_iff firstDay _ hOpens
  obtain ⟨full, hFull, hGuard, hOpened, -⟩ :=
    exists_full firstDay (show (infoAt 0).opens = true from rfl)
  have hLast : Guarded (step firstDay) (OpensFresh firstDay) full
      [infoAt 1000000000] := by
    refine ⟨fun _ => ?_, fun _ _ => trivial⟩
    rw [hOpened]
    decide
  have hRotated := hIff.mp (hGuard.append hFull hLast) _ [] final
    (List.append_nil _).symm hRun
  exact ⟨final, hRun, hRotated.bounded, hRotated.ordered⟩

/-- `kMaxLines + 1` writes within one second: the file is opened a second time
under its name, and gets one record too many. -/
theorem rotation_bound_exceeded :
    ∃ final, run (step firstDay) initial
        (List.replicate kMaxLines (infoAt 0) ++ [infoAt 999999999]) = some final ∧
      (final.files "kz_log_1970-01-01_00-00-00.txt").length = 5001 ∧
      ¬ final.Bounded := by
  obtain ⟨full, hFull, hGuard, hOpened, hNeeds⟩ :=
    exists_full firstDay (show (infoAt 0).opens = true from rfl)
  have hReopens : ¬ OpensFresh firstDay full (infoAt 999999999) := by
    intro hFresh
    have hNew := hFresh hNeeds
    rw [hOpened] at hNew
    exact absurd hNew (by decide)
  have hOpens : ∀ call ∈ List.replicate kMaxLines (infoAt 0), call.opens = true := by
    intro call hMem
    rw [List.eq_of_mem_replicate hMem]
    rfl
  have hRotating : full.Rotating :=
    rotating_of_run rotating_initial hOpens hGuard hFull
  have hName : nameFor firstDay (infoAt 999999999) =
      "kz_log_1970-01-01_00-00-00.txt" := by decide
  have hTooMany : ((write firstDay full (infoAt 999999999)).files
      "kz_log_1970-01-01_00-00-00.txt").length = 5001 :=
    hName ▸ hRotating.write_reopened rfl hReopens
  refine ⟨write firstDay full (infoAt 999999999),
    run_append_eq_some_iff.mpr ⟨full, hFull, rfl⟩, hTooMany, fun hBounded => ?_⟩
  have hBound := hBounded "kz_log_1970-01-01_00-00-00.txt"
  rw [hTooMany] at hBound
  exact absurd hBound (by decide)

end LogManager
end Log
end KZEvent
