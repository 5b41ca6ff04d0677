import Mathlib.Tactic.SplitIfs
import Wms.Interface.Marks

/-! The ends of `submit`.

The start lock is left by hand in each handler and at the end, the handler for a
bad JDL goes on when the start is asynchronous, and a delivery that fails is
logged but not told to the part that renames the JDL.
-/

set_option autoImplicit false

namespace Wms.Interface

open Lib List

variable {answer : Answer} {conf : Conf} {issubmit : Bool}

/-! ### The delivery -/

/-- The request was not delivered, or its delivery could not be logged. -/
def NotForwarded (answer : Answer) : Prop := answer.deliver = false ∨ Raises answer .enqueueOk

def Forwards (answer : Answer) : Prop := ¬(NotForwarded answer ∧ Raises answer .deliverFail)

structure Clear (answer : Answer) : Prop where
  notAborted : answer.queryAbort = some false
  initialized : answer.stage .wmp2wmInit = none
  command : answer.stage .submitCommand = none

instance : Decidable (NotForwarded answer) := inferInstanceAs (Decidable (_ ∨ _))

instance : Decidable (Forwards answer) := inferInstanceAs (Decidable (¬_))

theorem outcome_wmp2wmSubmit (command : answer.stage .submitCommand = none) :
    outcome answer wmp2wmSubmit = if Forwards answer then .ok () else .error .other := by
  cases delivered : answer.deliver <;> by_cases raises : Raises answer .enqueueOk <;>
    by_cases raises' : Raises answer .deliverFail <;>
    simp [wmp2wmSubmit, outcome_bind, outcome_tryCatch, outcome_logEvent, Forwards, NotForwarded,
      command, delivered,
      raises, raises']

theorem marks_wmp2wmSubmit (command : answer.stage .submitCommand = none) : marks answer wmp2wmSubmit =
    (if answer.deliver then .delivered else .undelivered) ::
      if NotForwarded answer ∧ Written answer .deliverFail then [.failed] else [] := by
  cases delivered : answer.deliver <;> by_cases raises : Raises answer .enqueueOk <;>
    simp [wmp2wmSubmit, marks_bind, marks_tryCatch, outcome_bind, outcome_logEvent, marks_logEvent,
      NotForwarded,
      command, delivered, raises, LogSite.mark, LogSite.event, EventType.mark]

theorem marks_deliverJob_of_not_clear (blocked : ¬Clear answer) :
    marks answer (deliverJob issubmit) = [] := by
  rw [deliverJob, marks_bind, marks_queryAbort, outcome_queryAbort]
  cases aborted : answer.queryAbort with
  | none => rfl
  | some found =>
    cases found with
    | true => rfl
    | false =>
      cases initialized : answer.stage .wmp2wmInit with
      | some e => simp [marks_bind, initialized]
      | none =>
        cases command : answer.stage .submitCommand with
        | some e => simp [marks_bind, initialized, wmp2wmSubmit, command]
        | none => exact absurd ⟨aborted, initialized, command⟩ blocked

theorem marks_deliverJob (clear : Clear answer) : marks answer (deliverJob issubmit) =
    (if answer.deliver then .delivered else .undelivered) ::
      ((if NotForwarded answer ∧ Written answer .deliverFail then [.failed] else []) ++
        if Forwards answer ∧ answer.writeTextFile = true then
          (if answer.rename then [.renamed] else []) ++ if issubmit then [] else [.unlocked]
        else []) := by
  by_cases forwards : Forwards answer <;> cases written : answer.writeTextFile <;> cases issubmit <;>
    simp [deliverJob, marks_bind, clear.notAborted, clear.initialized, marks_wmp2wmSubmit clear.command,
      outcome_wmp2wmSubmit clear.command, forwards, written, unlockUnless]

/-! ### The handlers -/

@[simp] theorem marks_unlockUnless : marks answer (unlockUnless issubmit) = if issubmit then []
    else [.unlocked] := by
  cases issubmit <;> rfl

@[simp] theorem outcome_unlockUnless : outcome answer (unlockUnless issubmit) = .ok () := by
  cases issubmit <;> rfl

attribute [local simp] marks_logEvent LogSite.mark LogSite.event EventType.mark

/-- An abort is logged for every node, or at least tried. -/
def NodesAborted (answer : Answer) (dag : DagAd) : Prop :=
  answer.stage .getNodes = none ∧ ∀ node < dag.nodes.length,
    answer.stage (.node node .setLoggingJob) = none ∧ ¬Raises answer (.nodeAbort node)

theorem marks_abortNodes (index : Nat) (nodes : List NodeAd) :
    marks answer (abortNodes index nodes) = [] := by
  induction nodes generalizing index with
  | nil => rfl
  | cons node rest ih =>
    rw [abortNodes, marks_bind, marks_stage, outcome_stage]
    cases answer.stage (.node index .setLoggingJob) with
    | some e => rfl
    | none => by_cases raises : Raises answer (.nodeAbort index) <;>
        simp [marks_bind, outcome_logEvent, raises, ih]

theorem outcome_abortNodes (index : Nat) (nodes : List NodeAd) :
    outcome answer (abortNodes index nodes) = .ok () ↔
    ∀ node < nodes.length, answer.stage (.node (index + node) .setLoggingJob) = none ∧
      ¬Raises answer (.nodeAbort (index + node)) := by
  induction nodes generalizing index with
  | nil => simp [abortNodes]
  | cons node rest ih =>
    have split := ih (index + 1)
    simp only [Nat.add_assoc, Nat.add_comm 1] at split
    rw [length_cons, Nat.forall_lt_succ_left, Nat.add_zero, ← split, abortNodes, outcome_bind,
      outcome_stage]
    cases answer.stage (.node index .setLoggingJob) with
    | some e => simp
    | none => by_cases raises : Raises answer (.nodeAbort index) <;>
        simp [outcome_bind, outcome_logEvent, raises]

/-! ### Preparation -/

def Processed (answer : Answer) (conf : Conf) : Jdl → Prop
  | .job jad => outcome answer (processJob conf jad) = .ok ()
  | .dag dag => answer.stage .dagAd = none ∧ outcome answer (processDag conf dag) = .ok ()

/-- An asynchronous start goes on with a job whose JDL is bad. -/
def Continued (answer : Answer) (conf : Conf) : Jdl → Prop
  | .job jad => conf.asyncJobStart = true ∧
      outcome answer (processJob conf jad) = .error .requestAdException ∧
      ¬Raises answer .enqueueFail ∧ ¬Raises answer .abort
  | .dag _ => False

theorem prepare_goesOn_iff (jdl : Jdl) :
    outcome answer (prepare conf issubmit jdl) = .ok true ↔ Processed answer conf jdl ∨
      Continued answer conf jdl := by
  by_cases raises : Raises answer .enqueueFail <;> by_cases raises' : Raises answer .abort
  all_goals
    cases jdl with
    | job jad =>
      rw [prepare, outcome_tryCatch, outcome_bind, Processed, Continued]
      cases outcome answer (processJob conf jad) with
      | ok done => simp
      | error e =>
        cases async : conf.asyncJobStart <;> cases e <;>
          simp [handleJob, outcome_bind, outcome_logEvent, raises, raises', async]
    | dag dag =>
      rw [prepare, outcome_bind, outcome_stage, Processed, Continued]
      cases answer.stage .dagAd with
      | some e => simp
      | none =>
        cases processed : outcome answer (processDag conf dag) with
        | ok done => simp [outcome_tryCatch, outcome_bind, processed]
        | error e =>
          cases found : answer.stage .getNodes <;> cases nodes :
            outcome answer (abortNodes 0 dag.nodes) <;>
            cases e <;> simp [outcome_tryCatch, outcome_bind, processed, handleDag,
              outcome_logEvent, raises, raises',
              found, nodes]

theorem marks_of_quiet {α : Type} {x : Operation α} {a : α} (quiet : Quiet answer x)
    (done : outcome answer x = .ok a) : marks answer x = [] := by
  rcases quiet with nothing | ⟨_, e, raised, _⟩
  · exact nothing
  · simp [done] at raised

variable {jdl : Jdl}

theorem marks_prepare_processed (processed : Processed answer conf jdl) :
    marks answer (prepare conf issubmit jdl) = [] := by
  cases jdl with
  | job jad =>
    have done : outcome answer (processJob conf jad) = .ok () := processed
    simp [prepare, marks_tryCatch, marks_bind, outcome_bind, done,
      marks_of_quiet (processJob_steps conf jad).quiet done]
  | dag dag =>
    have done : outcome answer (processDag conf dag) = .ok () := processed.2
    simp [prepare, marks_tryCatch, marks_bind, outcome_bind, processed.1, done,
      marks_of_quiet (processDag_steps conf dag).quiet done]

theorem marks_prepare_continued (continued : Continued answer conf jdl) :
    marks answer (prepare conf issubmit jdl) = (if Written answer .enqueueFail then [.failed] else []) ++
      ((if Written answer .abort then [.aborted] else []) ++ if issubmit then [] else [.unlocked]) := by
  cases jdl with
  | dag dag => exact continued.elim
  | job jad =>
    obtain ⟨async, bad, raises, raises'⟩ := continued
    have empty : marks answer (processJob conf jad) = [] := by
      rcases (processJob_steps conf jad).quiet with empty | ⟨_, e, raised, other⟩
      · exact empty
      · cases bad.symm.trans raised
        exact absurd rfl other
    simp [prepare, marks_tryCatch, marks_bind, outcome_bind, bad, empty, handleJob,
      outcome_logEvent, raises, raises', async]

/-! ### The start lock -/

def unlocks {α : Type} (answer : Answer) (x : Operation α) : Nat := (marks answer x).count .unlocked

section Unlocks

variable {α β : Type} {x : Operation α} {f : α → Operation β}

theorem unlocks_quiet (quiet : Quiet answer x) : unlocks answer x = 0 := by
  rcases quiet with nothing | ⟨aborted, _⟩
  · simp [unlocks, nothing]
  · simp [unlocks, aborted]

theorem unlocks_bind : unlocks answer (x >>= f) = unlocks answer x +
    match outcome answer x with
    | .ok a => unlocks answer (f a)
    | .error _ => 0 := by
  rw [unlocks, marks_bind, count_append]
  cases outcome answer x <;> rfl

theorem unlocks_tryCatch {handler : Raise → Operation α} : unlocks answer (Dialog.tryCatch x handler) =
    unlocks answer x +
    match outcome answer x with
    | .ok _ => 0
    | .error e => unlocks answer (handler e) := by
  rw [unlocks, marks_tryCatch, count_append]
  cases outcome answer x <;> rfl

@[simp] theorem unlocks_pure (a : α) : unlocks answer (pure a : Operation α) = 0 := rfl

@[simp] theorem unlocks_throw (e : Raise) : unlocks answer (Dialog.throw e : Operation α) = 0 := rfl

@[simp] theorem unlocks_stage (step : Stage) : unlocks answer (stage step) = 0 :=
  unlocks_quiet (Steps.stage step).quiet

@[simp] theorem unlocks_unlockUnless : unlocks answer (unlockUnless false) = 1 := rfl

@[simp] theorem unlocks_logEvent (site : LogSite) : unlocks answer (logEvent site) = 0 := by
  rw [unlocks, marks_logEvent]
  split
  · cases site <;> rfl
  · rfl

@[simp] theorem unlocks_abortNodes (nodes : List NodeAd) : unlocks answer (abortNodes 0 nodes) = 0 := by
  rw [unlocks, marks_abortNodes]
  rfl

end Unlocks

/-- `submit` gets as far as its end, where it leaves the lock. -/
def Ends (answer : Answer) : Prop := Clear answer ∧ Forwards answer ∧ answer.writeTextFile = true

open scoped Classical in
theorem unlocks_deliverJob : unlocks answer (deliverJob false) = if Ends answer then 1 else 0 := by
  by_cases clear : Clear answer
  · rw [unlocks, marks_deliverJob clear]
    by_cases ends : Forwards answer ∧ answer.writeTextFile = true <;>
      cases answer.deliver <;> cases answer.rename <;> simp [Ends, clear, ends] <;> split_ifs <;> rfl
  · simp [unlocks, marks_deliverJob_of_not_clear clear, Ends, clear]

def JobHandled (answer : Answer) (e : Raise) : Prop :=
  ¬Raises answer .enqueueFail ∧ (e = .requestAdException → ¬Raises answer .abort)

def DagHandled (answer : Answer) (dag : DagAd) (e : Raise) : Prop :=
  ¬Raises answer .enqueueFail ∧ (e = .requestAdException → ¬Raises answer .abort ∧ NodesAborted answer dag)

/-- The lock is left in the handler for what the processing has raised. -/
def HandlerLeaves (answer : Answer) (conf : Conf) : Jdl → Prop
  | .job jad => ∃ e, outcome answer (processJob conf jad) = .error e ∧ JobHandled answer e
  | .dag dag => answer.stage .dagAd = none ∧
      ∃ e, outcome answer (processDag conf dag) = .error e ∧ DagHandled answer dag e

open scoped Classical in
theorem unlocks_handleJob (e : Raise) :
    unlocks answer (handleJob conf false e) = if JobHandled answer e then 1 else 0 := by
  by_cases raises : Raises answer .enqueueFail <;> by_cases raises' : Raises answer .abort <;>
    cases async : conf.asyncJobStart <;> cases e <;>
    simp [JobHandled, handleJob, unlocks_bind, outcome_logEvent, raises, raises', async]

open scoped Classical in
theorem unlocks_handleDag (dag : DagAd) (e : Raise) :
    unlocks answer (handleDag dag false e) = if DagHandled answer dag e then 1 else 0 := by
  have nodes : outcome answer (abortNodes 0 dag.nodes) = .ok () ↔ _ := outcome_abortNodes 0 dag.nodes
  simp only [Nat.zero_add] at nodes
  rw [DagHandled, NodesAborted, ← nodes]
  by_cases raises : Raises answer .enqueueFail <;> by_cases raises' : Raises answer .abort <;>
    cases found : answer.stage .getNodes <;> cases aborted :
    outcome answer (abortNodes 0 dag.nodes) <;> cases e <;>
    simp [handleDag, unlocks_bind, outcome_logEvent, raises, raises', found, aborted]

open scoped Classical in
theorem unlocks_prepare (jdl : Jdl) :
    unlocks answer (prepare conf false jdl) = if HandlerLeaves answer conf jdl then 1 else 0 := by
  cases jdl with
  | job jad =>
    have quiet : unlocks answer (processJob conf jad) = 0 :=
      unlocks_quiet (processJob_steps conf jad).quiet
    cases found : outcome answer (processJob conf jad) <;>
      simp [HandlerLeaves, prepare, unlocks_tryCatch, unlocks_bind, outcome_bind, found, quiet,
        unlocks_handleJob]
  | dag dag =>
    have quiet : unlocks answer (processDag conf dag) = 0 :=
      unlocks_quiet (processDag_steps conf dag).quiet
    cases opened : answer.stage .dagAd with
    | some e => simp [HandlerLeaves, prepare, unlocks_bind, opened]
    | none =>
      cases found : outcome answer (processDag conf dag) <;>
        simp [HandlerLeaves, prepare, unlocks_tryCatch, unlocks_bind, outcome_bind, opened, found, quiet,
          unlocks_handleDag]

/-! ### The whole call -/

structure Opened (answer : Answer) (issubmit : Bool) : Prop where
  locked : (if issubmit then answer.stage .lastEventSeqCode else answer.operationLock .jobStart) = none
  accepted : ¬Raises answer .accept
  enqueued : ¬Raises answer .enqueueStart
  typed : answer.stage .getType = none

theorem outcome_openSubmit : outcome answer (openSubmit issubmit) =
    (if issubmit then answer.stage .lastEventSeqCode else answer.operationLock .jobStart).elim
      (.ok ()) .error := by
  cases issubmit <;> simp [openSubmit, operationLock, outcome_bind]

theorem marks_openSubmit : marks answer (openSubmit issubmit) = [] := by
  cases issubmit <;> simp [openSubmit, operationLock, marks_bind]

theorem marks_submit_of_not_opened (jdl : Jdl) (stops : ¬Opened answer issubmit) :
    marks answer (submit conf jdl issubmit) = [] := by
  rw [submit, marks_bind, marks_openSubmit, outcome_openSubmit]
  cases locked : (if issubmit then answer.stage .lastEventSeqCode else answer.operationLock .jobStart) with
  | some e => rfl
  | none =>
    by_cases accepted : Raises answer .accept
    · simp [marks_bind, outcome_logEvent, accepted]
    by_cases enqueued : Raises answer .enqueueStart
    · simp [marks_bind, outcome_logEvent, accepted, enqueued]
    cases typed : answer.stage .getType with
    | some e => simp [marks_bind, outcome_logEvent, accepted, enqueued, typed]
    | none => exact absurd ⟨locked, accepted, enqueued, typed⟩ stops

theorem marks_submit_opened (jdl : Jdl) (opened : Opened answer issubmit) :
    marks answer (submit conf jdl issubmit) =
    marks answer (prepare conf issubmit jdl) ++
      match outcome answer (prepare conf issubmit jdl) with
      | .ok true => marks answer (deliverJob issubmit)
      | _ => [] := by
  simp only [submit, marks_bind, marks_openSubmit, outcome_openSubmit, opened.locked, Option.elim,
    marks_logEvent,
    LogSite.mark, LogSite.event, EventType.mark, Option.bind, Option.toList, ite_self,
      outcome_logEvent, opened.accepted,
    opened.enqueued, if_false, marks_stage, outcome_stage, opened.typed, nil_append]
  cases outcome answer (prepare conf issubmit jdl) with
  | error e => simp
  | ok goesOn => cases goesOn <;> simp

def GoesOn (answer : Answer) (conf : Conf) (jdl : Jdl) : Prop := Processed answer conf jdl ∨
    Continued answer conf jdl

theorem marks_submit (opened : Opened answer issubmit) (goesOn : GoesOn answer conf jdl) :
    marks answer (submit conf jdl issubmit) =
      marks answer (prepare conf issubmit jdl) ++ marks answer (deliverJob issubmit) := by
  rw [marks_submit_opened jdl opened, (prepare_goesOn_iff jdl).mpr goesOn]

theorem marks_submit_of_not_goesOn (opened : Opened answer issubmit) (stops : ¬GoesOn answer conf jdl) :
    marks answer (submit conf jdl issubmit) = marks answer (prepare conf issubmit jdl) := by
  have stops : outcome answer (prepare conf issubmit jdl) ≠ .ok true := stops ∘ (prepare_goesOn_iff jdl).mp
  rw [marks_submit_opened jdl opened]
  split
  · contradiction
  · exact append_nil _

theorem Continued.handlerLeaves (continued : Continued answer conf jdl) :
    HandlerLeaves answer conf jdl := by
  cases jdl with
  | dag dag => exact continued.elim
  | job jad => exact ⟨_, continued.2.1, continued.2.2.1, fun _ => continued.2.2.2⟩

theorem Processed.not_handlerLeaves (processed : Processed answer conf jdl) :
    ¬HandlerLeaves answer conf jdl := by
  cases jdl with
  | job jad =>
    rintro ⟨e, raised, _⟩
    cases raised.symm.trans processed
  | dag dag =>
    rintro ⟨_, e, raised, _⟩
    cases raised.symm.trans processed.2

/-- Either a handler leaves the lock and the end is not reached, or the end is
reached without a handler. -/
def LeftOnce (answer : Answer) (conf : Conf) (jdl : Jdl) : Prop :=
  HandlerLeaves answer conf jdl ∧ ¬(Continued answer conf jdl ∧ Ends answer) ∨
    Processed answer conf jdl ∧ Ends answer

theorem unlocks_submit_opened (jdl : Jdl) (opened : Opened answer false) :
    unlocks answer (submit conf jdl false) = 1 ↔ LeftOnce answer conf jdl := by
  by_cases goesOn : GoesOn answer conf jdl
  · rw [unlocks, marks_submit opened goesOn, count_append]
    change unlocks answer _ + unlocks answer _ = 1 ↔ _
    rw [unlocks_prepare, unlocks_deliverJob]
    rcases goesOn with processed | continued
    · simp [LeftOnce, processed, processed.not_handlerLeaves]
    · have failed : ¬Processed answer conf jdl :=
          fun processed => processed.not_handlerLeaves continued.handlerLeaves
      simp [LeftOnce, continued, continued.handlerLeaves, failed]
  · obtain ⟨processed, continued⟩ := not_or.mp goesOn
    rw [unlocks, marks_submit_of_not_goesOn opened goesOn]
    change unlocks answer _ = 1 ↔ _
    rw [unlocks_prepare]
    simp [LeftOnce, processed, continued]

/-- A start that has taken the lock leaves it just once if its events can be logged and the type can
be read, and then either one handler gets as far as the lock and the end is not reached as well, or
the end is reached without a handler. -/
theorem start_lock_left_once_iff (conf : Conf) (jdl : Jdl) (answer : Answer) :
    unlocks answer (submit conf jdl false) = (if answer.operationLock .jobStart = none then 1 else 0) ↔
      answer.operationLock .jobStart ≠ none ∨ Opened answer false ∧ LeftOnce answer conf jdl := by
  by_cases locked : answer.operationLock .jobStart = none
  · by_cases opened : Opened answer false
    · simp [locked, opened, unlocks_submit_opened jdl opened]
    · have nothing : unlocks answer (submit conf jdl false) = 0 := by
        rw [unlocks, marks_submit_of_not_opened jdl opened]
        rfl
      simp [locked, opened, nothing]
  · have nothing : unlocks answer (submit conf jdl false) = 0 := by
      rw [unlocks, marks_submit_of_not_opened jdl fun opened => locked (by simpa using opened.locked)]
      rfl
    simp [locked, nothing]

def acceptLost : Answer where
  reply
    | .log .accept _ => .other
    | call => calm call

def badJdl : Answer where
  reply
    | .stage .jobAd => some .requestAdException
    | .log .abort _ => .einval
    | call => calm call

/-- The lock is kept when the first event cannot be logged, and left twice when an asynchronous
start goes on after a bad JDL. -/
theorem start_lock_kept_or_left_twice :
    acceptLost.operationLock .jobStart = none ∧
      unlocks acceptLost (submit (plainConf false) plainJob false) = 0 ∧
    badJdl.operationLock .jobStart = none ∧ unlocks badJdl (submit (plainConf true) plainJob false) = 2 :=
  ⟨rfl, by decide, rfl, by decide⟩

end Wms.Interface
