import Wms.Interface.Submission

/-! What one call of `submit` leaves behind.

The calls of an operation are read as marks: the start lock is left, an enqueue failure or an abort
is logged, the job is delivered or fails to be, its JDL is renamed. The marks and the outcome of
each part are computed from the replies alone.
-/

set_option autoImplicit false

namespace Wms.Interface

open Lib Dialog

structure Answer where
  reply : (call : Call) → Reply call

namespace Answer

variable (answer : Answer)

def stage (step : Stage) : Option Raise := answer.reply (.stage step)

def operationLock (file : LockFile) : Option Raise := answer.reply (.operationLock file)

def isOperationLocked (file : LockFile) : Option Bool := answer.reply (.isOperationLocked file)

def fileExists (file : JobFile) : Bool := answer.reply (.fileExists file)

def log (site : LogSite) (lap : Nat) : LbCode := answer.reply (.log site lap)

def logAbortEventSync (lap : Nat) : Bool := answer.reply (.logAbortEventSync lap)

def getStatus : Option JobStatus := answer.reply .getStatus

def jobPurgeLogger : Option Unit := answer.reply .jobPurgeLogger

def doPurge (force : Bool) : Option Bool := answer.reply (.doPurge force)

def queryAbort : Option Bool := answer.reply .queryAbort

def deliver : Bool := answer.reply .deliver

def writeTextFile : Bool := answer.reply .writeTextFile

def rename : Bool := answer.reply .rename

end Answer

inductive Mark where
  | unlocked
  | failed
  | aborted
  | delivered
  | undelivered
  | renamed
  deriving DecidableEq, Repr

def EventType.mark : EventType → Option Mark
  | .enqueued .fail => some .failed
  | .abort => some .aborted
  | _ => none

def LogSite.mark (site : LogSite) : Option Mark := site.event.bind EventType.mark

def markOf : (call : Call) → Reply call → Option Mark
  | .operationUnlock .jobStart, _ => some .unlocked
  | .log site _, .success => site.mark
  | .logAbortEventSync _, true => some .aborted
  | .deliver, true => some .delivered
  | .deliver, false => some .undelivered
  | .rename, true => some .renamed
  | _, _ => none

section Calculus

variable {α β : Type} (answer : Answer) (x : Operation α)

def marks : List Mark := (x.calls answer.reply ()).filterMap fun call => markOf call (answer.reply call)

def outcome : Except Raise α := (x.result answer.reply ()).1

variable {answer x} {f : α → Operation β} {handler : Raise → Operation α}

theorem result_of_outcome {r : Except Raise α} (ended : outcome answer x = r) :
    x.result answer.reply () = (r, ()) :=
  ended ▸ rfl

@[simp] theorem marks_pure (a : α) : marks answer (pure a : Operation α) = [] := rfl

@[simp] theorem outcome_pure (a : α) : outcome answer (pure a : Operation α) = .ok a := rfl

@[simp] theorem marks_throw (e : Raise) : marks answer (throw e : Operation α) = [] := rfl

@[simp] theorem outcome_throw (e : Raise) : outcome answer (throw e : Operation α) = .error e := rfl

theorem marks_bind : marks answer (x >>= f) = marks answer x ++
    match outcome answer x with
    | .ok a => marks answer (f a)
    | .error _ => [] := by
  cases first : outcome answer x with
  | ok a => simp [marks, calls_bind_ok (result_of_outcome first)]
  | error e => simp [marks, calls_bind_error (result_of_outcome first)]

theorem outcome_bind : outcome answer (x >>= f) =
    match outcome answer x with
    | .ok a => outcome answer (f a)
    | .error e => .error e := by
  cases first : outcome answer x with
  | ok a => simp [outcome, result_bind_ok (result_of_outcome first)]
  | error e => simp [outcome, result_bind_error (result_of_outcome first)]

theorem marks_tryCatch : marks answer (tryCatch x handler) = marks answer x ++
    match outcome answer x with
    | .ok _ => []
    | .error e => marks answer (handler e) := by
  cases first : outcome answer x with
  | ok a => simp [marks, calls_tryCatch_ok (result_of_outcome first)]
  | error e => simp [marks, calls_tryCatch_error (result_of_outcome first)]

theorem outcome_tryCatch : outcome answer (Dialog.tryCatch x handler) =
    match outcome answer x with
    | .ok a => .ok a
    | .error e => outcome answer (handler e) := by
  cases first : outcome answer x with
  | ok a =>
    have first : (x ()).value answer.reply = (.ok a, ()) := result_of_outcome first
    simp [outcome, Dialog.result, Dialog.tryCatch, Interact.value_bind, first]
  | error e =>
    have first : (x ()).value answer.reply = (.error e, ()) := result_of_outcome first
    simp [outcome, Dialog.result, Dialog.tryCatch, Interact.value_bind, first]

end Calculus

variable {answer : Answer}

/-! ### The calls -/

@[simp] theorem outcome_stageReply (step : Stage) : outcome answer (stageReply step) = .ok
    (answer.stage step) := rfl

@[simp] theorem marks_stageReply (step : Stage) : marks answer (stageReply step) = [] := rfl

variable (site : LogSite) (file : LockFile) (lap : Nat)

@[simp] theorem outcome_lockReply : outcome answer (lockReply file) = .ok
    (answer.operationLock file) := rfl

@[simp] theorem marks_lockReply : marks answer (lockReply file) = [] := rfl

@[simp] theorem marks_operationUnlock : marks answer (operationUnlock .jobStart) = [.unlocked] := rfl

@[simp] theorem outcome_lockedReply : outcome answer (lockedReply file) = .ok
    (answer.isOperationLocked file) := rfl

@[simp] theorem marks_lockedReply : marks answer (lockedReply file) = [] := rfl

@[simp] theorem marks_fileExists (file : JobFile) : marks answer (fileExists file) = [] := rfl

@[simp] theorem outcome_logOnce : outcome answer (logOnce site lap) = .ok (answer.log site lap) := rfl

theorem marks_ask (call : Call) : marks answer (ask call) = (markOf call (answer.reply call)).toList := by
  change List.filterMap _ [call] = _
  rw [List.filterMap_cons]
  cases markOf call (answer.reply call) <;> rfl

theorem markOf_log (code : LbCode) : (markOf (.log site lap) code).toList =
    if code = .success then site.mark.toList else [] := by
  cases code <;> rfl

@[simp] theorem marks_logOnce : marks answer (logOnce site lap) =
    if answer.log site lap = .success then site.mark.toList else [] :=
  (marks_ask (.log site lap)).trans (markOf_log site lap (answer.log site lap))

@[simp] theorem outcome_abortOnce : outcome answer (abortOnce lap) = .ok
    (answer.logAbortEventSync lap) := rfl

theorem markOf_logAbortEventSync (logged : Bool) :
    (markOf (.logAbortEventSync lap) logged).toList = if logged then [.aborted] else [] := by
  cases logged <;> rfl

@[simp] theorem marks_abortOnce : marks answer (abortOnce lap) =
    if answer.logAbortEventSync lap then [.aborted] else [] :=
  (marks_ask (.logAbortEventSync lap)).trans (markOf_logAbortEventSync lap (answer.logAbortEventSync lap))

@[simp] theorem outcome_statusReply : outcome answer statusReply = .ok answer.getStatus := rfl

@[simp] theorem outcome_jobPurgeLogger : outcome answer jobPurgeLogger = .ok answer.jobPurgeLogger := rfl

@[simp] theorem outcome_doPurge (force : Bool) : outcome answer (doPurge force) = .ok
    (answer.doPurge force) := rfl

@[simp] theorem marks_statusReply : marks answer statusReply = [] := rfl

@[simp] theorem marks_jobPurgeLogger : marks answer jobPurgeLogger = [] := rfl

@[simp] theorem marks_doPurge (force : Bool) : marks answer (doPurge force) = [] := rfl

@[simp] theorem outcome_queryAbort : outcome answer queryAbort = .ok answer.queryAbort := rfl

@[simp] theorem marks_queryAbort : marks answer queryAbort = [] := rfl

@[simp] theorem outcome_deliver : outcome answer deliver = .ok answer.deliver := rfl

theorem markOf_deliver (delivered : Bool) :
    (markOf .deliver delivered).toList = [if delivered then .delivered else .undelivered] := by
  cases delivered <;> rfl

@[simp] theorem marks_deliver : marks answer deliver = [if answer.deliver then .delivered
    else .undelivered] :=
  (marks_ask .deliver).trans (markOf_deliver answer.deliver)

@[simp] theorem outcome_writeTextFile : outcome answer writeTextFile = .ok answer.writeTextFile := rfl

@[simp] theorem marks_writeTextFile : marks answer writeTextFile = [] := rfl

@[simp] theorem outcome_rename : outcome answer rename = .ok answer.rename := rfl

theorem markOf_rename (renamed : Bool) : (markOf .rename renamed).toList = if renamed then
    [.renamed] else [] := by
  cases renamed <;> rfl

@[simp] theorem marks_rename : marks answer rename = if answer.rename then [.renamed] else [] :=
  (marks_ask .rename).trans (markOf_rename answer.rename)

section Raised

variable {α : Type}

@[simp] theorem outcome_expect (reply : Option α) :
    outcome answer (expect reply) = reply.elim (.error .other) .ok := by
  cases reply <;> rfl

@[simp] theorem marks_expect (reply : Option α) : marks answer (expect reply) = [] := by
  cases reply <;> rfl

@[simp] theorem outcome_orRaise (reply : Option Raise) :
    outcome answer (orRaise reply) = reply.elim (.ok ()) .error := by
  cases reply <;> rfl

@[simp] theorem marks_orRaise (reply : Option Raise) : marks answer (orRaise reply) = [] := by
  cases reply <;> rfl

@[simp] theorem outcome_stage (step : Stage) :
    outcome answer (stage step) = (answer.stage step).elim (.ok ()) .error := by
  simp [stage, outcome_bind]

@[simp] theorem marks_stage (step : Stage) : marks answer (stage step) = [] := by
  simp [stage, marks_bind]

@[simp] theorem outcome_onlyIf (condition : Bool) (x : Operation Unit) :
    outcome answer (onlyIf condition x) = if condition then outcome answer x else .ok () := by
  cases condition <;> rfl

@[simp] theorem marks_onlyIf (condition : Bool) (x : Operation Unit) :
    marks answer (onlyIf condition x) = if condition then marks answer x else [] := by
  cases condition <;> rfl

end Raised

/-! ### Logging -/

/-- Every attempt to log the event fails. -/
def Raises (answer : Answer) (site : LogSite) : Prop :=
  ∀ lap < logRetryCount + 1, answer.log site lap = .other

/-- An attempt succeeds, and the attempts before it were to be made again. -/
def Written (answer : Answer) (site : LogSite) : Prop :=
  ∃ lap < logRetryCount + 1, answer.log site lap = .success ∧
    ∀ earlier < lap, answer.log site earlier = .other

instance (site : LogSite) : Decidable (Raises answer site) :=
  inferInstanceAs (Decidable (∀ lap < _, _))

instance (site : LogSite) : Decidable (Written answer site) :=
  inferInstanceAs (Decidable (∃ lap < _, _))

theorem outcome_logLaps (more : Nat) : outcome answer (logLaps site lap more) =
    if ∀ i < more, answer.log site (lap + i) = .other then .error .other else .ok () := by
  induction more generalizing lap with
  | zero => simp [logLaps]
  | succ more ih =>
    have split : (∀ i < more + 1, answer.log site (lap + i) = .other) ↔
        answer.log site lap = .other ∧ ∀ i < more, answer.log site (lap + 1 + i) = .other := by
      rw [Nat.forall_lt_succ_left]
      simp only [Nat.add_zero, Nat.add_assoc, Nat.add_comm 1]
    rw [if_congr split rfl rfl, logLaps, outcome_bind, outcome_logOnce]
    cases answer.log site lap <;> simp [ih]

theorem marks_logLaps (more : Nat) : marks answer (logLaps site lap more) =
    if ∃ i < more, answer.log site (lap + i) = .success ∧
      ∀ j < i, answer.log site (lap + j) = .other then site.mark.toList else [] := by
  induction more generalizing lap with
  | zero => simp [logLaps]
  | succ more ih =>
    have split : (∃ i < more + 1, answer.log site (lap + i) = .success ∧
        ∀ j < i, answer.log site (lap + j) = .other) ↔ answer.log site lap = .success ∨
        answer.log site lap = .other ∧ ∃ i < more, answer.log site (lap + 1 + i) = .success ∧
          ∀ j < i, answer.log site (lap + 1 + j) = .other := by
      rw [Nat.exists_lt_succ_left]
      simp only [Nat.forall_lt_succ_left, Nat.add_zero, Nat.add_assoc, Nat.add_comm 1]
      grind
    rw [if_congr split rfl rfl, logLaps, marks_bind, outcome_logOnce, marks_logOnce]
    cases answer.log site lap <;> simp [ih]

theorem outcome_logEvent : outcome answer (logEvent site) = if Raises answer site then .error .other
    else .ok () := by
  rw [logEvent, outcome_logLaps]
  exact if_congr (by simp [Raises]) rfl rfl

theorem marks_logEvent : marks answer (logEvent site) = if Written answer site then site.mark.toList
    else [] := by
  rw [logEvent, marks_logLaps]
  exact if_congr (by simp [Written]) rfl rfl

/-! ### Processing the JDL -/

def Quiet {α : Type} (answer : Answer) (x : Operation α) : Prop :=
  marks answer x = [] ∨
    marks answer x = [.aborted] ∧ ∃ e, outcome answer x = .error e ∧ e ≠ .requestAdException

section Quiet

variable {α β : Type} {x : Operation α} {f : α → Operation β}

theorem Quiet.bind (first : Quiet answer x) (second : ∀ a, Quiet answer (f a)) :
    Quiet answer (x >>= f) := by
  rcases first with nothing | ⟨aborted, e, raised, other⟩
  · cases found : outcome answer x with
    | ok a =>
      rcases second a with nothing' | ⟨aborted, raised⟩
      · exact .inl (by simp [marks_bind, nothing, found, nothing'])
      · exact .inr (by simpa [marks_bind, outcome_bind, nothing, found, aborted] using raised)
    | error e => exact .inl (by simp [marks_bind, nothing, found])
  · exact .inr (by simp [marks_bind, outcome_bind, aborted, raised, other])

end Quiet

theorem logAbortEventSync_cases (answer : Answer) :
    ∃ logged, outcome answer logAbortEventSync = .ok logged ∧
    marks answer logAbortEventSync = if logged then [.aborted] else [] := by
  have laps (more : Nat) : ∀ lap, ∃ logged, outcome answer (abortLaps lap more) = .ok logged ∧
      marks answer (abortLaps lap more) = if logged then [.aborted] else [] := by
    induction more with
    | zero => exact fun lap => ⟨false, rfl, rfl⟩
    | succ more ih =>
      intro lap
      rw [abortLaps, outcome_bind, marks_bind, outcome_abortOnce, marks_abortOnce]
      cases answer.logAbortEventSync lap with
      | true => exact ⟨true, rfl, rfl⟩
      | false => simpa using ih (lap + 1)
  exact laps logRetryCount 0

theorem jobpurge_cases (answer : Answer) : marks answer jobpurge = [] ∧
    (outcome answer jobpurge = .ok () ∨ outcome answer jobpurge = .error .other) := by
  simp only [jobpurge, getStatus, marks_bind, outcome_bind, marks_jobPurgeLogger, outcome_jobPurgeLogger,
    marks_expect, outcome_expect, marks_statusReply, outcome_statusReply]
  cases answer.jobPurgeLogger with
  | none => simp
  | some _ =>
    cases answer.getStatus with
    | none => simp
    | some status => cases found : answer.doPurge status.hasParent <;> simp [found]

theorem isOperationLocked_cases (answer : Answer) (file : LockFile) :
    marks answer (isOperationLocked file) = [] ∧
    (outcome answer (isOperationLocked file) = .error .other ∨
      ∃ locked, outcome answer (isOperationLocked file) = .ok locked) := by
  simp only [isOperationLocked, marks_bind, outcome_bind, marks_lockedReply, outcome_lockedReply,
    marks_expect,
    outcome_expect]
  cases answer.isOperationLocked file <;> simp

theorem abortAndPurge_cases (answer : Answer) :
    (marks answer abortAndPurge = [] ∨ marks answer abortAndPurge = [.aborted]) ∧
    (outcome answer abortAndPurge = .ok () ∨ outcome answer abortAndPurge = .error .other) := by
  obtain ⟨logged, done, marked⟩ := logAbortEventSync_cases answer
  obtain ⟨nothing, ended⟩ := jobpurge_cases answer
  obtain ⟨nothing', locked⟩ := isOperationLocked_cases answer .jobStart
  rw [abortAndPurge, marks_bind, outcome_bind, done, marked]
  cases logged with
  | false => simp
  | true =>
    rcases locked with failed | ⟨locked, found⟩
    · simp [marks_bind, outcome_bind, nothing', failed]
    · cases locked <;> simp [marks_bind, outcome_bind, nothing', found, nothing, ended]

theorem limitReached_quiet : Quiet answer limitReached := by
  obtain ⟨marked, ended⟩ := abortAndPurge_cases answer
  rw [Quiet, limitReached, marks_bind, outcome_bind]
  rcases ended with ended | ended <;> rcases marked with marked | marked <;> simp [marked, ended]

theorem Steps.quiet {x : Operation Unit} (steps : Steps x) : Quiet answer x := by
  induction steps with
  | done | refuse => exact .inl rfl
  | stage step => exact .inl (marks_stage step)
  | limitReached => exact limitReached_quiet
  | once file _ ih =>
    refine .bind (.inl (marks_fileExists file)) fun found => ?_
    split
    · exact .inl rfl
    · exact ih
  | bind _ _ first second => exact first.bind fun _ => second

end Wms.Interface
