import Mathlib.Data.List.Infix
import Wms.Lib.FileStream

/-! Reading the output of the job wrapper (`JobWrapperOutputParser.cpp`).

The lines are gone through one by one; what the C library reads as a number is given. Two lines
make the output useful, the one with the exit status of the job and the one with that of the
wrapper, but only the first sets the return code.
-/

set_option autoImplicit false

namespace Wms.LogMonitor.JobWrapperOutputParser

open Lib List

def bufsiz : Nat := 8192

inductive Parsed where
  | unknown
  | good
  | abort
  | resubmit
  deriving DecidableEq

def jwErrors : List (String × Parsed) :=
  [("Working directory not writable", .resubmit),
   ("GLOBUS_LOCATION undefined", .resubmit),
   ("/etc/globus-user-env.sh", .resubmit),
   ("not found or unreadable", .abort),
   ("Cannot download", .resubmit),
   ("Cannot upload", .resubmit),
   ("Cannot take shallow resubmission token", .resubmit),
   ("prologue failed", .resubmit),
   ("epilogue failed", .resubmit),
   ("Cannot create directory", .resubmit),
   ("Job killed", .abort),
   ("Job has been terminated", .resubmit),
   ("No *ftp", .resubmit),
   ("Cannot find edg-rm", .resubmit)]

def jobExit : Bytes := "job exit status = ".toList

def jwExit : Bytes := "jw exit status = ".toList

def sequenceCode : Bytes := "Sequence code: ".toList

def lmLogDoneBegin : Bytes := "LM_log_done_begin".toList

def lmLogDoneEnd : Bytes := "LM_log_done_end".toList

/-- What the C library adds: the number that `sscanf` reads with `%d`, and the text of `errno`. -/
structure Libc where
  scan : Bytes → Option Int
  strerror : Bytes

structure State where
  found : Bool
  errors : Bytes
  retcode : Int
  stat : Parsed
  sc : Bytes
  doneReason : Bytes
  firstErrorFound : Bool
  waitingForEndTag : Bool

variable (libc : Libc)

def checkError (buffer : Bytes) (s : State) (error : String × Parsed) : State :=
  if error.1.toList <:+: buffer then
    { s with errors := buffer, stat := error.2, found := true, firstErrorFound := true }
  else s

def checkErrors (buffer : Bytes) (s : State) : State :=
  if s.firstErrorFound then s else jwErrors.foldl (checkError buffer) s

def checkJobExit (buffer : Bytes) (s : State) : State :=
  if jobExit <+: buffer then
    match libc.scan (buffer.drop jobExit.length) with
    | some code =>
      { s with retcode := code, errors := buffer, found := true, stat := if s.firstErrorFound then
        s.stat else .good }
    -- the line counts for nothing else, and the status stays
    | none => { s with retcode := -1 }
  else s

def checkJwExit (buffer : Bytes) (s : State) : State :=
  if jwExit <+: buffer then { s with found := true } else s

def checkSequenceCode (buffer : Bytes) (s : State) : State :=
  if sequenceCode <+: buffer then
    let text := (buffer.drop sequenceCode.length).dropWhile FileStream.isSpace
    { s with sc := (text.takeWhile fun c => !FileStream.isSpace c).take 255 }
  else s

def checkDoneReason (buffer : Bytes) (s : State) : State :=
  if s.waitingForEndTag then
    if lmLogDoneEnd <:+: buffer then { s with waitingForEndTag := false }
    else { s with doneReason := s.doneReason ++ buffer ++ ['\n'] }
  else if lmLogDoneBegin <:+: buffer then { s with waitingForEndTag := true }
  else s

def processLine (s : State) (buffer : Bytes) : State :=
  checkDoneReason buffer (checkSequenceCode buffer (checkJwExit buffer
    (checkJobExit libc buffer (checkErrors buffer s))))

def ioError (s : State) : State :=
  { s with errors := "IO error while reading file: ".toList ++ libc.strerror, found := true, retcode := -1,
           stat := .resubmit }

/-- A line that does not fit the buffer makes the stream fail; one without an end is not looked
at. As a C string a line ends at its first NUL. -/
def parseLoop (rest : Bytes) (s : State) : State :=
  let line := rest.takeWhile (· != '\n')
  if bufsiz - 1 < line.length then ioError libc s
  else if line.length < rest.length then
    parseLoop (rest.drop (line.length + 1)) (processLine libc s (line.takeWhile (· != '\x00')))
  else s
termination_by rest.length
decreasing_by simp only [length_drop]; omega

structure Result where
  errors : Bytes
  retcode : Int
  stat : Parsed
  sc : Bytes
  doneReason : Bytes

def parseStream (file : Option Bytes) (r : Result) : Bool × Result :=
  match file with
  | some content =>
    let s := parseLoop libc content ⟨false, r.errors, r.retcode, r.stat, "NoToken".toList, [],
      false, false⟩
    (s.found, ⟨s.errors, s.retcode, s.stat, s.sc, s.doneReason⟩)
  | none => (false, ⟨"File not available.".toList, -1, .resubmit, "NoToken".toList, []⟩)

structure Files where
  standardOutput : Option Bytes
  maradonaFile : Option Bytes
  useMaradonaFile : Bool

def parseFile (files : Files) (sc doneReason : Bytes) : Result :=
  let (found, r) := parseStream libc files.standardOutput ⟨[], -1, .good, sc, doneReason⟩
  if found then r
  else
    let r := { r with errors := "Standard output does not contain useful data.".toList }
    if files.useMaradonaFile then
      let (found, r) := parseStream libc files.maradonaFile r
      if found then r
      else { r with
        errors := r.errors ++ "Cannot read JobWrapper output, both from Condor and from Maradona. ".toList
        retcode := -1
        stat := .resubmit }
    else { r with retcode := -1, stat := .resubmit }

/-! The lines that are read. -/

def readLines (rest : Bytes) : List Bytes × Bool :=
  let line := rest.takeWhile (· != '\n')
  if bufsiz - 1 < line.length then ([], true)
  else if line.length < rest.length then
    let (lines, overlong) := readLines (rest.drop (line.length + 1))
    (line.takeWhile (· != '\x00') :: lines, overlong)
  else ([], false)
termination_by rest.length
decreasing_by simp only [length_drop]; omega

theorem parseLoop_eq (rest : Bytes) (s : State) : parseLoop libc rest s =
    if (readLines rest).2 then ioError libc ((readLines rest).1.foldl (processLine libc) s)
    else (readLines rest).1.foldl (processLine libc) s := by
  induction rest, s using parseLoop.induct libc with
  | case1 rest s line long =>
    rw [parseLoop, readLines]
    simp [line, long]
  | case2 rest s line short more ih =>
    rw [parseLoop, readLines]
    simpa [line, short, more] using ih
  | case3 rest s line short last =>
    rw [parseLoop, readLines]
    simp [line, short, last]

def Faulty (line : Bytes) : Prop := ∃ error ∈ jwErrors, error.1.toList <:+: line

def reported (line : Bytes) : Option (Option Int) :=
  if jobExit <+: line then some (libc.scan (line.drop jobExit.length)) else none

def Numbered (line : Bytes) : Prop := ∃ code, reported libc line = some (some code)

instance (line : Bytes) : Decidable (Faulty line) := inferInstanceAs (Decidable (∃ error ∈ jwErrors, _))

instance (line : Bytes) : Decidable (Numbered libc line) :=
  match value : reported libc line with
  | some (some code) => .isTrue ⟨code, value⟩
  | some none | none => .isFalse fun ⟨_, numbered⟩ => by rw [value] at numbered; simp at numbered

/-! What is known after some lines. -/

theorem foldl_checkError {table : List (String × Parsed)} (buffer : Bytes)
    (bad : ∀ error ∈ table, error.2 ≠ .good)
    (s : State) : (table.foldl (checkError buffer) s).retcode = s.retcode ∧
      ((∀ error ∈ table, ¬ error.1.toList <:+: buffer) → table.foldl (checkError buffer) s = s) ∧
      ((∃ error ∈ table, error.1.toList <:+: buffer) ∨
        (s.firstErrorFound = true ∧ s.found = true ∧ s.stat ≠ .good) →
        (table.foldl (checkError buffer) s).firstErrorFound = true ∧
        (table.foldl (checkError buffer) s).found = true ∧
          (table.foldl (checkError buffer) s).stat ≠ .good) := by
  induction table generalizing s with
  | nil => simp
  | cons error table ih =>
    obtain ⟨retcode, quiet, known⟩ := ih (fun x member => bad x (mem_cons_of_mem _ member))
      (checkError buffer s error)
    have status := bad error mem_cons_self
    rw [foldl_cons]
    -- Entries behind a match may match too; their status replaces it, but is never good.
    by_cases occurs : error.1.toList <:+: buffer
    · have same : checkError buffer s error =
          { s with errors := buffer, stat := error.2, found := true, firstErrorFound := true } :=
            if_pos occurs
      rw [same] at retcode known ⊢
      exact ⟨retcode, fun nothing => absurd occurs (nothing _ mem_cons_self),
        fun _ => known (.inr ⟨rfl, rfl, status⟩)⟩
    · have same : checkError buffer s error = s := if_neg occurs
      rw [same] at retcode quiet known ⊢
      refine ⟨retcode, fun nothing => quiet fun x member => nothing x (mem_cons_of_mem _ member),
        fun nonempty => known ?_⟩
      rcases nonempty with ⟨x, member, here⟩ | already
      · rcases mem_cons.mp member with rfl | member
        · exact absurd here occurs
        · exact .inl ⟨x, member, here⟩
      · exact .inr already

theorem checkErrors_spec (line : Bytes) (s : State) : (checkErrors line s).retcode = s.retcode ∧
    ((s.firstErrorFound = true ∨ ¬ Faulty line) ∧ checkErrors line s = s ∨
      Faulty line ∧ (checkErrors line s).firstErrorFound = true ∧ (checkErrors line s).found = true ∧
        (checkErrors line s).stat ≠ .good) := by
  have bad : ∀ error ∈ jwErrors, error.2 ≠ .good := by decide
  obtain ⟨retcode, quiet, known⟩ := foldl_checkError line bad s
  unfold checkErrors
  split_ifs with first
  · exact ⟨rfl, .inl ⟨.inl first, rfl⟩⟩
  · by_cases faulty : Faulty line
    · exact ⟨retcode, .inr ⟨faulty, known (.inl faulty)⟩⟩
    · exact ⟨retcode, .inl ⟨.inr faulty, quiet fun error member here => faulty ⟨error, member, here⟩⟩⟩

variable {libc}

theorem processLine_fields (libc : Libc) (line : Bytes) (s : State) :
    (processLine libc s line).firstErrorFound = (checkErrors line s).firstErrorFound ∧
    ((processLine libc s line).found = true ↔
      (checkErrors line s).found = true ∨ Numbered libc line ∨ jwExit <+: line) ∧
    (¬ Numbered libc line ∨ (checkErrors line s).firstErrorFound = true →
      (processLine libc s line).stat = (checkErrors line s).stat) ∧
    (Numbered libc line → (checkErrors line s).firstErrorFound = false →
      (processLine libc s line).stat = .good) ∧
    (processLine libc s line).retcode = ((reported libc line).map (·.getD (-1))).getD
      (checkErrors line s).retcode := by
  have same (t : State) : (checkDoneReason line (checkSequenceCode line t)).firstErrorFound =
      t.firstErrorFound ∧
      (checkDoneReason line (checkSequenceCode line t)).stat = t.stat ∧
      (checkDoneReason line (checkSequenceCode line t)).found = t.found ∧
      (checkDoneReason line (checkSequenceCode line t)).retcode = t.retcode := by
    unfold checkDoneReason checkSequenceCode
    split_ifs <;> exact ⟨rfl, rfl, rfl, rfl⟩
  obtain ⟨first, stat, found, retcode⟩ :=
    same (checkJwExit line (checkJobExit libc line (checkErrors line s)))
  rw [processLine, first, stat, found, retcode]
  generalize checkErrors line s = t
  unfold Numbered reported checkJwExit checkJobExit
  cases value : libc.scan (line.drop jobExit.length) with
  | none | some => split_ifs <;> simp_all

structure Knows (libc : Libc) (before : Parsed) (lines : List Bytes) (s : State) : Prop where
  faulty : s.firstErrorFound = true ↔ ∃ line ∈ lines, Faulty line
  failed : s.firstErrorFound = true → s.stat ≠ .good
  stat : s.firstErrorFound = false → (s.stat = .good ↔ before = .good ∨ ∃ line ∈ lines, Numbered libc line)
  found : s.found = true ↔ ∃ line ∈ lines, Faulty line ∨ Numbered libc line ∨ jwExit <+: line
  retcode : s.retcode = ((lines.filterMap (reported libc)).getLast?.getD none).getD (-1)

variable {before : Parsed} {lines : List Bytes} {s : State}

theorem Knows.step (knows : Knows libc before lines s) (line : Bytes) :
    Knows libc before (lines ++ [line]) (processLine libc s line) := by
  obtain ⟨faulty, failed, stat, found, retcode⟩ := knows
  obtain ⟨sameCode, errors⟩ := checkErrors_spec line s
  obtain ⟨first, newFound, keeps, sets, code⟩ := processLine_fields libc line s
  constructor
  case faulty =>
    rw [first]
    rcases errors with ⟨old, same⟩ | ⟨here, first, -⟩
    · rw [same, faulty]
      grind
    · simp [first, here]
  case failed =>
    intro after
    rw [first] at after
    rw [keeps (.inr after)]
    rcases errors with ⟨-, same⟩ | ⟨-, -, -, bad⟩
    · rw [same] at after ⊢
      exact failed after
    · exact bad
  case stat =>
    intro after
    rw [first] at after
    rcases errors with ⟨-, same⟩ | ⟨-, first, -⟩
    · have before := stat (same ▸ after)
      -- Before the first error only a number sets the status.
      by_cases numbered : Numbered libc line
      · rw [sets numbered after]
        simp [numbered]
      · rw [keeps (.inl numbered), same, before]
        simp [numbered]
    · rw [first] at after
      cases after
  case found =>
    rw [newFound]
    rcases errors with ⟨old, same⟩ | ⟨here, -, nonempty, -⟩
    · rw [same, found]
      grind
    · simp [nonempty, here]
  case retcode =>
    rw [code, sameCode, retcode, filterMap_append]
    cases value : reported libc line with
    | none | some => simp [value]

theorem Knows.run (knows : Knows libc before lines s) (more : List Bytes) :
    Knows libc before (lines ++ more) (more.foldl (processLine libc) s) := by
  induction more generalizing lines s with
  | nil => simpa using knows
  | cons line more ih => simpa using ih (knows.step line)

/-! The two files. -/

def linesOf (file : Option Bytes) : List Bytes := (file.elim ([], false) readLines).1

def overlong (file : Option Bytes) : Bool := (file.elim ([], false) readLines).2

def Useful (libc : Libc) (file : Option Bytes) : Prop :=
  overlong file = true ∨ ∃ line ∈ linesOf file, Faulty line ∨ Numbered libc line ∨ jwExit <+: line

theorem parseStream_spec (libc : Libc) (file : Option Bytes) {r : Result} (start : r.retcode = -1) :
    ((parseStream libc file r).1 = true ↔ Useful libc file) ∧
    ((parseStream libc file r).2.stat = .good ↔ file.isSome = true ∧ overlong file = false ∧
      (∀ line ∈ linesOf file, ¬ Faulty line) ∧
        (r.stat = .good ∨ ∃ line ∈ linesOf file, Numbered libc line)) ∧
    (overlong file = false → (parseStream libc file r).2.retcode =
      (((linesOf file).filterMap (reported libc)).getLast?.getD none).getD (-1)) := by
  cases file with
  | none => simp [parseStream, Useful, linesOf, overlong]
  | some content =>
    have initial : Knows libc r.stat [] ⟨false, r.errors, r.retcode, r.stat, "NoToken".toList, [],
        false, false⟩ :=
      ⟨by simp, by simp, by simp, by simp, by simpa using start⟩
    have knows := initial.run (readLines content).1
    rw [nil_append] at knows
    simp only [parseStream, parseLoop_eq, Useful, overlong, linesOf, Option.elim_some, Option.isSome_some]
    cases long : (readLines content).2 with
    -- An overlong line overrides what the lines before it gave.
    | true => simp [ioError]
    | false =>
      refine ⟨by simpa using knows.found, ?_, fun _ => by simpa using knows.retcode⟩
      simp only [Bool.false_eq_true, if_false, true_and]
      cases first : ((readLines content).1.foldl (processLine libc) _).firstErrorFound with
      | true =>
        obtain ⟨line, member, faulty⟩ := knows.faulty.mp first
        exact iff_of_false (knows.failed first) fun clean => clean.1 line member faulty
      | false =>
        have clean : ∀ line ∈ (readLines content).1, ¬ Faulty line := fun line member faulty => by
          rw [knows.faulty.mpr ⟨line, member, faulty⟩] at first
          cases first
        rw [knows.stat first]
        exact ⟨fun good => ⟨clean, good⟩, fun good => good.2⟩

instance (file : Option Bytes) : Decidable (Useful libc file) :=
  inferInstanceAs (Decidable (_ ∨ ∃ line ∈ linesOf file, _))

/-- The files that are gone through: the second one only when the first has no useful data. -/
def filesRead (libc : Libc) (files : Files) : List (Option Bytes) :=
  if Useful libc files.standardOutput ∨ files.useMaradonaFile = false then [files.standardOutput]
  else [files.standardOutput, files.maradonaFile]

def linesRead (libc : Libc) (files : Files) : List Bytes := (filesRead libc files).flatMap linesOf

/-- All lines fit the buffer, none tells of an error, and the exit status of the job or, with a
standard output, that of the wrapper is there. -/
def Accepted (libc : Libc) (files : Files) : Prop :=
  (∀ file ∈ filesRead libc files, overlong file = false) ∧ (∀ line ∈ linesRead libc files, ¬ Faulty line) ∧
    ((∃ line ∈ linesRead libc files, Numbered libc line) ∨
      files.standardOutput.isSome = true ∧ ∃ line ∈ linesRead libc files, jwExit <+: line)

/-- The last line about the exit status of the job has a number, or one of them has -1. -/
def Settled (libc : Libc) (lines : List Bytes) : Prop :=
  (∃ code, (lines.filterMap (reported libc)).getLast? = some (some code)) ∨
    some (-1) ∈ lines.filterMap (reported libc)

/-- The answer is good only if a line with the exit status of the job was read, which is the
return code, and no line about an error before it. -/
def Sound (libc : Libc) (files : Files) (r : Result) : Prop :=
  r.stat = .good → ∃ front line back, linesRead libc files = front ++ line :: back ∧
    reported libc line = some (some r.retcode) ∧ ∀ earlier ∈ front, ¬ Faulty earlier

theorem getLast_getD_append {α : Type} {a b : List (Option α)} (nothing : ∀ x ∈ a, x = none) :
    (a ++ b).getLast?.getD .none = b.getLast?.getD .none := by
  rcases eq_nil_or_concat b with rfl | ⟨front, last, rfl⟩
  · rw [append_nil, getLast?_nil]
    cases last : a.getLast? with
    | none => rfl
    | some x => exact nothing x (mem_of_getLast? last)
  · simp [← append_assoc]

theorem Useful.isSome {file : Option Bytes} (useful : Useful libc file) : file.isSome = true := by
  cases file with
  | none => simp [Useful, overlong, linesOf] at useful
  | some content => rfl

theorem not_useful_iff {file : Option Bytes} : ¬ Useful libc file ↔ overlong file = false ∧
    ∀ line ∈ linesOf file, ¬ Faulty line ∧ ¬ Numbered libc line ∧ ¬ jwExit <+: line := by
  simp [Useful]

theorem exits_none {file : Option Bytes} (useless : ¬ Useful libc file) :
    ∀ x ∈ (linesOf file).filterMap (reported libc), x = none := by
  intro x member
  obtain ⟨line, inside, value⟩ := mem_filterMap.mp member
  cases x with
  | none => rfl
  | some code => exact absurd ⟨code, value⟩ ((not_useful_iff.mp useless).2 line inside).2.1

section Last

variable {files : Files} {front : List (Option Bytes)} {file : Option Bytes}
  (read : filesRead libc files = front ++ [file]) (useless : ∀ other ∈ front, ¬ Useful libc other)
include read useless

/-- Only the last file that is gone through decides. -/
theorem accepted_iff_last : Accepted libc files ↔ Useful libc file ∧ overlong file = false ∧
    (∀ line ∈ linesOf file, ¬ Faulty line) ∧
    (files.standardOutput.isSome = true ∨ ∃ line ∈ linesOf file, Numbered libc line) := by
  simp only [not_useful_iff] at useless
  have nothing (p : Bytes → Prop) (absent : ∀ other ∈ front, ∀ line ∈ linesOf other, ¬ p line) :
      (∃ line ∈ linesRead libc files, p line) ↔ ∃ line ∈ linesOf file, p line := by
    simp only [linesRead, read, flatMap_append, flatMap_singleton, mem_append, mem_flatMap]
    grind
  have faulty := nothing Faulty fun other member line inside => ((useless other member).2 line inside).1
  have numbered := nothing (Numbered libc) fun other member line inside =>
      ((useless other member).2 line inside).2.1
  have wrapper := nothing (jwExit <+: ·) fun other member line inside =>
      ((useless other member).2 line inside).2.2
  have short : (∀ other ∈ filesRead libc files, overlong other = false) ↔ overlong file = false := by
    simp only [read, mem_append, mem_singleton]
    grind
  rw [Accepted, short, numbered, wrapper, Useful]
  grind

theorem exits_of_last : ((linesRead libc files).filterMap (reported libc)).getLast?.getD none =
    ((linesOf file).filterMap (reported libc)).getLast?.getD none := by
  rw [linesRead, read, flatMap_append, flatMap_singleton, filterMap_append, filterMap_flatMap]
  refine getLast_getD_append fun x member => ?_
  obtain ⟨other, earlier, inside⟩ := mem_flatMap.mp member
  exact exits_none (useless other earlier) x inside

end Last

theorem parseFile_spec (libc : Libc) (files : Files) (sc doneReason : Bytes) :
    ((parseFile libc files sc doneReason).stat = .good ↔ Accepted libc files) ∧
    (Accepted libc files → (parseFile libc files sc doneReason).retcode =
      (((linesRead libc files).filterMap (reported libc)).getLast?.getD none).getD (-1)) := by
  obtain ⟨found, good, code⟩ := parseStream_spec libc files.standardOutput
    (r := ⟨[], -1, .good, sc, doneReason⟩) rfl
  unfold parseFile
  generalize "Standard output does not contain useful data.".toList = text
  generalize "Cannot read JobWrapper output, both from Condor and from Maradona. ".toList = other
  generalize parseStream libc files.standardOutput _ = first at found good code ⊢
  obtain ⟨_ | _, r⟩ := first
  case true =>
    have useful := found.mp rfl
    have read : filesRead libc files = [] ++ [files.standardOutput] := if_pos (.inl useful)
    rw [accepted_iff_last read nofun, exits_of_last read nofun]
    exact ⟨good.trans ⟨fun answer => ⟨useful, answer.2.1, answer.2.2.1, .inl answer.1⟩,
      fun answer => ⟨useful.isSome, answer.2.1, answer.2.2.1, .inl rfl⟩⟩, fun answer => code answer.2.1⟩
  have useless : ¬ Useful libc files.standardOutput := fun useful => Bool.noConfusion (found.mpr useful)
  obtain ⟨short, nothing⟩ := not_useful_iff.mp useless
  cases used : files.useMaradonaFile with
  | false =>
    have read : filesRead libc files = [] ++ [files.standardOutput] := if_pos (.inr used)
    rw [accepted_iff_last read nofun]
    exact ⟨iff_of_false nofun fun answer => useless answer.1, fun answer => absurd answer.1 useless⟩
  | true =>
    have read : filesRead libc files = [files.standardOutput] ++ [files.maradonaFile] :=
      if_neg (by simp [useless, used])
    have before : ∀ other ∈ [files.standardOutput], ¬ Useful libc other := forall_mem_singleton.mpr useless
    rw [accepted_iff_last read before, exits_of_last read before]
    -- The second file starts from the return code -1, and from a good status iff there was a
    -- standard output.
    have start : r.retcode = -1 := by
      have last := getLast_getD_append (b := []) (exits_none useless)
      rw [append_nil, getLast?_nil] at last
      rw [code short, last]
      rfl
    have status : r.stat = .good ↔ files.standardOutput.isSome = true := by
      rw [good]
      exact ⟨And.left, fun available => ⟨available, short, fun line member =>
        (nothing line member).1, .inl rfl⟩⟩
    obtain ⟨found', good', code'⟩ := parseStream_spec libc files.maradonaFile
      (r := { r with errors := text }) start
    rw [status] at good'
    dsimp only
    rw [if_neg Bool.false_ne_true, if_pos rfl]
    generalize parseStream libc files.maradonaFile _ = second at found' good' code' ⊢
    obtain ⟨_ | _, r'⟩ := second
    · have useless' : ¬ Useful libc files.maradonaFile :=
          fun useful => Bool.noConfusion (found'.mpr useful)
      exact ⟨iff_of_false nofun fun answer => useless' answer.1, fun answer => absurd answer.1 useless'⟩
    · have useful := found'.mp rfl
      exact ⟨good'.trans ⟨fun answer => ⟨useful, answer.2⟩, fun answer => ⟨useful.isSome, answer.2⟩⟩,
        fun answer => code' answer.2.1⟩

theorem exists_line_iff {lines : List Bytes} (clean : ∀ line ∈ lines, ¬ Faulty line) (code : Int) :
    (∃ front line back, lines = front ++ line :: back ∧ reported libc line = some (some code) ∧
      ∀ earlier ∈ front, ¬ Faulty earlier) ↔ some code ∈ lines.filterMap (reported libc) := by
  rw [mem_filterMap]
  constructor
  · rintro ⟨front, line, back, rfl, value, -⟩
    exact ⟨line, by simp, value⟩
  · rintro ⟨line, member, value⟩
    obtain ⟨front, back, rfl⟩ := append_of_mem member
    exact ⟨front, line, back, rfl, value, fun earlier inside => clean earlier (mem_append_left _ inside)⟩

/-- The answer is sound iff an accepted output ends, as far as the exit status of the job goes,
with a number. -/
theorem parseFile_sound_iff (libc : Libc) (files : Files) (sc doneReason : Bytes) :
    Sound libc files (parseFile libc files sc doneReason) ↔
      (Accepted libc files → Settled libc (linesRead libc files)) := by
  obtain ⟨good, code⟩ := parseFile_spec libc files sc doneReason
  rw [Sound, good]
  refine forall_congr' fun accepted => ?_
  rw [code accepted, exists_line_iff accepted.2.1, Settled]
  cases last : ((linesRead libc files).filterMap (reported libc)).getLast? with
  | none => simp
  | some status =>
    cases status with
    | none => simp
    | some code => simp [mem_of_getLast? last]

/-- A standard output with the exit status of the wrapper only. -/
theorem parseFile_unsound : ¬ Sound ⟨fun text => (String.ofList text).toInt?, []⟩
    ⟨some "jw exit status = 0\n".toList, none, false⟩
    (parseFile ⟨fun text => (String.ofList text).toInt?, []⟩ ⟨some "jw exit status = 0\n".toList,
      none, false⟩ [] []) := by
  generalize (fun text => (String.ofList text).toInt? : Bytes → Option Int) = scan
  have lines : readLines "jw exit status = 0\n".toList = (["jw exit status = 0".toList], false) := by
    rw [readLines, readLines]
    decide
  have only : linesRead ⟨scan, []⟩ ⟨some "jw exit status = 0\n".toList, none, false⟩ =
      ["jw exit status = 0".toList] := by
    rw [linesRead, filesRead, if_pos (.inr rfl), flatMap_singleton, linesOf, Option.elim_some, lines]
  intro sound
  have accepted : Accepted ⟨scan, []⟩ ⟨some "jw exit status = 0\n".toList, none, false⟩ := by
    refine ⟨?_, ?_, ?_⟩
    · rw [filesRead, if_pos (.inr rfl), forall_mem_singleton, overlong, Option.elim_some, lines]
    · rw [only]
      decide
    · rw [only]
      exact .inr ⟨rfl, by decide⟩
  obtain ⟨front, line, back, shape, value, -⟩ := sound ((parseFile_spec _ _ _ _).1.mpr accepted)
  rw [only] at shape
  have member : line ∈ ["jw exit status = 0".toList] := by rw [shape]; simp
  rw [mem_singleton.mp member, reported, if_neg (by decide)] at value
  cases value

end Wms.LogMonitor.JobWrapperOutputParser
