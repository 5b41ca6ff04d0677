import Wms.JobDir.Name

/-! Deliveries to a job directory and the reader that collects them
(`JobDir` in `jobdir.cpp`, `JobDirReader` in `jobdir_reader.cpp`).

A delivery writes a file in `tmp` and renames it into `new`; a read moves the files it
finds in `new` to `old`, one by one, and hands them out when all are moved. Every call of
the operating system is one step, so deliveries of any number of threads and processes
interleave with each other and with the one reader. Calls may fail at any step.
-/

set_option autoImplicit false

namespace Wms.JobDir

open Lib List

inductive Dir where
  | tmp
  | new
  | old
  deriving DecidableEq, Repr

abbrev Path := Dir × Bytes

inductive JobDirError where
  | createFailed (path : Path) (errno : Nat)
  | writeFailed (path : Path) (errno : Nat)
  | renameFailed (path : Path) (errno : Nat)
  deriving DecidableEq, Repr

def noEntry : Nat := 2

def moveFile (source target : Path) (errno : Option Nat) (fs : Files Path) :
    Except JobDirError (Files Path) :=
  match errno, fs.rename source target with
  | some e, _ => .error (.renameFailed source e)
  | none, none => .error (.renameFailed source noEntry)
  | none, some fs' => .ok fs'

/-! ### The reader -/

def leafLess (lhs rhs : Bytes) : Bool := List.lex lhs rhs fun a b => decide (a < b)

def newEntries (fs : Files Path) : List Bytes :=
  (fs.paths.filterMap fun p => if p.1 = .new then some p.2 else none).insertionSort
    fun a b => leafLess b a = false

def setOld (file : Bytes) (errno : Option Nat) (fs : Files Path) : Except JobDirError (Files Path) :=
  moveFile (.new, file) (.old, file) errno fs

/-- The loop of `JobDirReader::read`; `result` is lost when a rename fails. -/
def readLoop (errno : Bytes → Option Nat) :
    List Bytes → List Bytes → Files Path → Except JobDirError (List Bytes) × Files Path
  | [], result, fs => (.ok result, fs)
  | file :: rest, result, fs =>
    match setOld file (errno file) fs with
    | .ok fs' => readLoop errno rest (result ++ [file]) fs'
    | .error e => (.error e, fs)

/-- One call of `read`; `errno` says which renames fail. -/
def read (errno : Bytes → Option Nat) (fs : Files Path) :
    Except JobDirError (List Bytes) × Files Path :=
  readLoop errno (newEntries fs) [] fs

/-- `JobDirItem::value` reads up to the first null byte. -/
def JobDirItem.value (fs : Files Path) (file : Bytes) : Option Bytes :=
  (fs.content? (.old, file)).map (·.takeWhile (· ≠ '\x00'))

/-! ### Deliveries -/

structure Job where
  reading : Ptime
  id : Nat
  tag : Bytes
  contents : Bytes
  deriving DecidableEq

def Job.name (job : Job) : Bytes := fileName job.reading job.id job.tag

inductive Stage where
  | named
  | opened (file : Nat)
  | written
  | returned
  | failed (error : JobDirError)
  deriving DecidableEq

structure Call where
  job : Job
  stage : Stage
  deriving DecidableEq

/-- What goes wrong in a call of the system; a write may fail after some bytes. -/
structure Fault where
  errno : Nat
  written : Nat := 0
  deriving DecidableEq

def Call.advance (c : Call) (fault : Option Fault) (fs : Files Path) : Option (Call × Files Path) :=
  let tmpPath : Path := (.tmp, c.job.name)
  let newPath : Path := (.new, c.job.name)
  match c.stage, fault with
  | .named, none => some (⟨c.job, .opened (fs.create tmpPath).1⟩, (fs.create tmpPath).2)
  | .named, some f => some (⟨c.job, .failed (.createFailed tmpPath f.errno)⟩, fs)
  | .opened i, none => some (⟨c.job, .written⟩, fs.write i c.job.contents)
  | .opened i, some f => some (⟨c.job, .failed (.writeFailed tmpPath f.errno)⟩,
      fs.write i (c.job.contents.take f.written))
  | .written, fault =>
    match moveFile tmpPath newPath (fault.map Fault.errno) fs with
    | .ok fs' => some (⟨c.job, .returned⟩, fs')
    | .error e => some (⟨c.job, .failed e⟩, fs)
  | _, _ => none

/-! ### The directory in use -/

inductive Reader where
  | idle
  | reading (todo result : List Bytes)
  deriving DecidableEq

def Reader.todo : Reader → List Bytes
  | .idle => []
  | .reading todo _ => todo

def Reader.result : Reader → List Bytes
  | .idle => []
  | .reading _ result => result

/-- The files, the deliveries begun so far and the reader. The last two fields record what
reads have returned and which of the returned files their owner has removed. -/
structure World where
  files : Files Path
  calls : List Call
  reader : Reader
  reads : List (List Bytes)
  removed : List Bytes

def World.start : World := ⟨.none Path, [], .idle, [], []⟩

inductive Action where
  | deliver (job : Job)
  | advance (call : Nat) (fault : Option Fault)
  | newEntries
  | setOld (errno : Option Nat)
  | finish
  | remove (file : Bytes)
  deriving DecidableEq

def step (w : World) : Action → Option World
  | .deliver job => some { w with calls := w.calls ++ [⟨job, .named⟩] }
  | .advance n fault => do
    let c ← w.calls[n]?
    let (c', files) ← c.advance fault w.files
    some { w with calls := w.calls.set n c', files }
  | .newEntries => match w.reader with
    | .idle => some { w with reader := .reading (JobDir.newEntries w.files) [] }
    | .reading _ _ => none
  | .setOld errno => match w.reader with
    | .reading (file :: rest) result =>
      match JobDir.setOld file errno w.files with
      | .ok files => some { w with files, reader := .reading rest (result ++ [file]) }
      -- the exception ends the read; what it had moved is handed to nobody
      | .error _ => some { w with reader := .idle }
    | _ => none
  | .finish => match w.reader with
    | .reading [] result => some { w with reader := .idle, reads := w.reads ++ [result] }
    | _ => none
  | .remove file =>
    if file ∈ w.reads.flatten then
      some { w with files := w.files.unlink (.old, file), removed := file :: w.removed }
    else none

structure View where
  file : Dir → Option Nat
  content : Dir → Option Bytes
  listed : Bool
  collected : Nat
  handed : Nat
  removed : Bool

def World.view (w : World) (name : Bytes) : View where
  file d := w.files.file? (d, name)
  content d := w.files.content? (d, name)
  listed := decide (name ∈ w.reader.todo)
  collected := w.reader.result.count name
  handed := w.reads.flatten.count name
  removed := decide (name ∈ w.removed)

/-! ### A read that fails -/

theorem mem_newEntries {fs : Files Path} {file : Bytes} : file ∈ newEntries fs ↔
    (.new, file) ∈ fs.paths := by
  simp [newEntries, mem_insertionSort]

theorem nodup_newEntries (fs : Files Path) : (newEntries fs).Nodup := by
  refine (perm_insertionSort _ _).nodup_iff.mpr ?_
  refine List.Nodup.filterMap ?_ fs.entry.keys_nodup
  rintro ⟨d, a⟩ ⟨d', a'⟩ b first second
  simp only [Option.mem_def, Option.ite_none_right_eq_some, Option.some.injEq] at first second
  rw [first.1, second.1, first.2, second.2]

section Rename

variable {source target : Path} {errno : Option Nat} {fs fs' : Files Path}

theorem moveFile_eq_ok : moveFile source target errno fs = .ok fs' ↔
    errno = none ∧ fs.rename source target = some fs' := by
  unfold moveFile
  split <;> simp_all

theorem moveFile_of_held (target : Path) (held : source ∈ fs.paths) :
    ∃ fs', moveFile source target none fs = .ok fs' ∧ fs.rename source target = some fs' := by
  obtain ⟨i, file⟩ := Files.mem_paths.mp held
  exact ⟨_, moveFile_eq_ok.mpr ⟨rfl, Files.rename_eq_some file⟩, Files.rename_eq_some file⟩

theorem setOld_mem_new {file other : Bytes} (moved : setOld file errno fs = .ok fs') :
    (.new, other) ∈ fs'.paths ↔ (.new, other) ∈ fs.paths ∧ other ≠ file := by
  have renamed := (moveFile_eq_ok.mp moved).2
  rw [Files.mem_paths, Files.mem_paths]
  by_cases same : other = file
  · subst same
    simp [Files.rename_file?_source renamed (by simp)]
  · rw [Files.rename_file?_of_ne renamed (by simp [same]) (by simp)]
    simp [same]

end Rename

section ReadLoop

variable {errno : Bytes → Option Nat} {todo result : List Bytes} {fs : Files Path}

theorem readLoop_ok (result : List Bytes) (fine : ∀ file ∈ todo, errno file = none) (distinct : todo.Nodup)
    (held : ∀ file ∈ todo, (.new, file) ∈ fs.paths) : (readLoop errno todo result fs).1 = .ok
      (result ++ todo) := by
  induction todo generalizing result fs with
  | nil => simp [readLoop]
  | cons file rest ih =>
    obtain ⟨fresh, distinct⟩ := nodup_cons.mp distinct
    obtain ⟨fs', moved, -⟩ := moveFile_of_held (.old, file) (held file (by simp))
    have step : setOld file (errno file) fs = .ok fs' := by
      rw [fine file (by simp)]
      exact moved
    have next := ih (result ++ [file])
      (fun f member => fine f (mem_cons_of_mem _ member)) distinct
      (fun f member => (setOld_mem_new step).mpr ⟨held f (mem_cons_of_mem _ member),
        fun same => fresh (same ▸ member)⟩)
    simpa [readLoop, step] using next

theorem readLoop_error (result : List Bytes) (fs : Files Path)
    (faulty : ∃ file ∈ todo, errno file ≠ none) :
    ∃ e, (readLoop errno todo result fs).1 = .error e := by
  induction todo generalizing result fs with
  | nil => simp at faulty
  | cons file rest ih =>
    unfold readLoop
    cases moved : setOld file (errno file) fs with
    | error e => exact ⟨e, rfl⟩
    | ok fs' =>
      apply ih
      obtain ⟨f, member, fault⟩ := faulty
      rcases mem_cons.mp member with rfl | later
      · exact absurd (moveFile_eq_ok.mp moved).1 fault
      · exact ⟨f, later, fault⟩

theorem readLoop_gone {file : Bytes} (gone : (.new, file) ∉ fs.paths) :
    (.new, file) ∉ (readLoop errno todo result fs).2.paths := by
  induction todo generalizing result fs with
  | nil => exact gone
  | cons first rest ih =>
    unfold readLoop
    cases moved : setOld first (errno first) fs with
    | error e => exact gone
    | ok fs' => exact ih fun back => gone ((setOld_mem_new moved).mp back).1

end ReadLoop

/-- Every file that has left `new` is in the result the caller gets. -/
def Handed (fs fs' : Files Path) (outcome : Except JobDirError (List Bytes)) : Prop :=
  ∀ file, (.new, file) ∈ fs.paths → (.new, file) ∉ fs'.paths →
    ∃ result, outcome = .ok result ∧ file ∈ result

/-- A read loses files exactly when a rename fails after the first one has succeeded. -/
theorem read_hands_moved_iff (errno : Bytes → Option Nat) (fs : Files Path) :
    Handed fs (read errno fs).2 (read errno fs).1 ↔ (∀ file ∈ newEntries fs, errno file = none) ∨
      ∃ first rest, newEntries fs = first :: rest ∧ errno first ≠ none := by
  unfold read
  constructor
  · intro handed
    by_contra! ⟨faulty, first_fine⟩
    obtain ⟨e, failed⟩ := readLoop_error [] fs faulty
    -- the first file has been moved, and the exception has dropped the result
    cases shape : newEntries fs with
    | nil => simp [shape] at faulty
    | cons first rest =>
      have held : (.new, first) ∈ fs.paths := mem_newEntries.mp (by simp [shape])
      obtain ⟨fs', moved, -⟩ := moveFile_of_held (.old, first) held
      have step : setOld first (errno first) fs = .ok fs' := by
        rw [first_fine first rest shape]
        exact moved
      have gone : (.new, first) ∉ (readLoop errno (newEntries fs) [] fs).2.paths := by
        rw [shape]
        simp only [readLoop, step]
        exact readLoop_gone fun back => ((setOld_mem_new step).mp back).2 rfl
      obtain ⟨result, returned, -⟩ := handed first held gone
      rw [failed] at returned
      cases returned
  · rintro (fine | ⟨first, rest, shape, fault⟩) file held gone
    · have returned := readLoop_ok [] fine (nodup_newEntries fs) fun f => mem_newEntries.mp
      exact ⟨newEntries fs, returned, mem_newEntries.mpr held⟩
    · rw [shape] at gone
      cases moved : setOld first (errno first) fs with
      | ok fs' => exact absurd (moveFile_eq_ok.mp moved).1 fault
      | error e => exact absurd held (by simpa [readLoop, moved] using gone)

def twoRequests : Files Path := (((Files.none Path).create (.new, ['a'])).2.create (.new, ['b'])).2

theorem read_loses_moved_file :
    let outcome := read (fun file => if file = ['b'] then some 5 else none) twoRequests
    (.new, ['a']) ∈ twoRequests.paths ∧ (.new, ['a']) ∉ outcome.2.paths ∧
    (.old, ['a']) ∈ outcome.2.paths ∧ outcome.1 = .error (.renameFailed (.new, ['b']) 5) := by
  decide

end Wms.JobDir
