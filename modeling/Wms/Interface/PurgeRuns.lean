import Wms.Interface.Requests

/-! Purging beside the operations that hold a lock of the job.

A purge is decided by a query of one lock file, or without one for a job whose proxy has expired,
and is done some steps later. The query is made on a descriptor of its own, so the process does not
see its own lock and drops it.
-/

set_option autoImplicit false

namespace Wms.Interface

open Lib Dialog Pool

inductive PurgePhase where
  | idle
  | purging
  deriving DecidableEq, Repr

namespace PurgePhase

def allows (g : PurgePhase) : Call → Prop
  | .doPurge _ => g = .purging
  | _ => True

def after (g : PurgePhase) : (call : Call) → Reply call → PurgePhase
  | .isOperationLocked _, some false => .purging
  | .log .expiredAbort _, .other => .idle
  | .log .expiredAbort _, _ => .purging
  | .jobPurgeLogger, none => .idle
  | .getStatus, none => .idle
  | .doPurge _, _ => .idle
  | _, _ => g

end PurgePhase

def purgeMonitor : Monitor Call Reply PurgePhase where
  allows := PurgePhase.allows
  trusts _ _ _ := True
  after := PurgePhase.after

/-! ### One operation -/

def Rests {α : Type} (x : Operation α) : Prop := x.Obeys purgeMonitor .idle () fun g _ _ => g = .idle

def Resting : Call → Prop
  | .isOperationLocked _ | .doPurge _ | .log .expiredAbort _ => False
  | _ => True

section Rests

variable {α β : Type} {x : Operation α} {f : α → Operation β}

theorem rests_of_only (only : x.Only Resting) : Rests x := by
  refine only.obeys (fun call made => ⟨?_, fun reply => ?_⟩) ()
  · change PurgePhase.idle.allows call
    unfold PurgePhase.allows
    split <;> first | exact made.elim | trivial
  · change PurgePhase.idle.after call reply = .idle
    unfold PurgePhase.after
    split <;> first | exact made.elim | rfl

theorem Rests.bind (first : Rests x) (second : ∀ a, Rests (f a)) : Rests (x >>= f) := by
  refine Obeys.bind first ?_ fun _ _ _ same => same
  rintro _ a _ rfl
  exact second a

theorem Rests.tryCatch {handler : Raise → Operation α} (first : Rests x)
    (second : ∀ e, Rests (handler e)) :
    Rests (tryCatch x handler) := by
  refine obeys_tryCatch.mpr (first.mono fun g outcome _ same => ?_)
  subst same
  cases outcome with
  | ok a => rfl
  | error e => exact second e

theorem Rests.pure (a : α) : Rests (Pure.pure a) := rfl

theorem Rests.throw (e : Raise) : Rests (throw e : Operation α) := rfl

theorem Rests.onlyIf {y : Operation Unit} (rests : Rests y) (condition : Bool) :
    Rests (onlyIf condition y) := by
  cases condition with
  | false => rfl
  | true => exact rests

theorem stage_rests (step : Stage) : Rests (stage step) := rests_of_only (stage_only trivial)

theorem fileExists_rests (file : JobFile) : Rests (fileExists file) := rests_of_only (.ask trivial)

theorem getStatus_rests : Rests getStatus := rests_of_only (.bind (.ask trivial) expect_only)

theorem logEvent_rests (site : LogSite) (other : site ≠ .expiredAbort) : Rests (logEvent site) := by
  refine rests_of_only (logEvent_only fun lap => ?_)
  cases site <;> first | exact absurd rfl other | trivial

theorem operationLock_rests (file : LockFile) : Rests (operationLock file) := by
  refine rests_of_only (.bind (.ask trivial) fun reply => ?_)
  cases reply with
  | none => exact .pure _
  | some e => exact .throw e

end Rests

theorem jobpurge_ends : jobpurge.Obeys purgeMonitor .purging () fun g _ _ => g = .idle := by
  refine .asks trivial fun logger _ => ?_
  cases logger with
  | none => rfl
  | some _ =>
    refine .asks trivial fun status _ => ?_
    cases status with
    | none => rfl
    | some status =>
      refine .asks rfl fun purged _ => ?_
      cases purged <;> rfl

theorem isOperationLocked_ends {file : LockFile} {α : Type} {f : Bool → Operation α}
    (seen : Rests (f true))
    (free : (f false).Obeys purgeMonitor .purging () fun g _ _ => g = .idle) :
    Rests (isOperationLocked file >>= f) := by
  refine obeys_bind.mpr (.asks trivial fun reply _ => ?_)
  match reply with
  | none => rfl
  | some true => exact seen
  | some false => exact free

theorem abortAndPurge_rests : Rests abortAndPurge := by
  refine Rests.bind (rests_of_only (logAbortEventSync_only fun _ => trivial)) fun logged => ?_
  cases logged with
  | false => exact .pure _
  | true => exact isOperationLocked_ends (.pure _) jobpurge_ends

theorem Steps.rests {x : Operation Unit} (steps : Steps x) : Rests x := by
  induction steps with
  | done => exact .pure _
  | refuse code => exact .throw _
  | stage step => exact stage_rests step
  | limitReached => exact abortAndPurge_rests.bind fun _ => .throw _
  | once file _ ih =>
    refine (fileExists_rests file).bind fun found => ?_
    cases found with
    | true => exact .pure _
    | false => exact ih
  | bind _ _ first second => exact first.bind fun _ => second

theorem prepare_rests (conf : Conf) (issubmit : Bool) (jdl : Jdl) : Rests (prepare conf issubmit jdl) := by
  have handles (call : Call) (made : Handling call) : Resting call := by
    unfold Handling at made
    split at made <;> first | exact made.elim | trivial
  cases jdl with
  | job jad =>
    exact ((processJob_steps conf jad).rests.bind fun _ => .pure _).tryCatch fun e =>
      rests_of_only ((handleJob_only conf issubmit e).mono handles)
  | dag dag =>
    exact (stage_rests _).bind fun _ => ((processDag_steps conf dag).rests.bind fun _ =>
      .pure _).tryCatch fun e =>
      rests_of_only ((handleDag_only dag issubmit e).mono handles)

theorem wmp2wmSubmit_rests : Rests wmp2wmSubmit := by
  refine (stage_rests _).bind fun _ => Rests.tryCatch ?_ fun _ => logEvent_rests _ nofun
  refine Rests.bind (rests_of_only (x := deliver) (.ask trivial)) fun delivered => ?_
  cases delivered with
  | true => exact logEvent_rests _ nofun
  | false => exact .throw _

theorem deliverJob_rests (issubmit : Bool) : Rests (deliverJob issubmit) := by
  refine Rests.bind (rests_of_only (x := queryAbort) (.ask trivial)) fun reply => ?_
  refine (rests_of_only (expect_only reply)).bind fun aborted => ?_
  cases aborted with
  | true => exact .throw _
  | false =>
    refine (stage_rests _).bind fun _ => wmp2wmSubmit_rests.bind fun _ => ?_
    refine Rests.bind (rests_of_only (x := writeTextFile) (.ask trivial)) fun written => ?_
    cases written with
    | false => exact .throw _
    | true =>
      refine Rests.bind (rests_of_only (x := rename) (.ask trivial)) fun _ => ?_
      exact rests_of_only (unlockUnless_only trivial _)

theorem submit_rests (conf : Conf) (jdl : Jdl) : Rests (submit conf jdl false) := by
  refine (operationLock_rests _).bind fun _ => ?_
  refine (logEvent_rests .accept nofun).bind fun _ => (logEvent_rests .enqueueStart nofun).bind fun _ => ?_
  refine (stage_rests _).bind fun _ => (prepare_rests conf false jdl).bind fun goesOn => ?_
  exact (deliverJob_rests false).onlyIf goesOn

theorem expiredAbort_ends : (logEvent .expiredAbort).Obeys purgeMonitor .idle ()
    fun g outcome _ => g = match outcome with | .ok _ => .purging | .error _ => .idle := by
  have laps (more : Nat) : ∀ lap, (logLaps .expiredAbort lap more).Obeys purgeMonitor .idle ()
      fun g outcome _ => g = match outcome with | .ok _ => .purging | .error _ => .idle := by
    induction more with
    | zero => exact fun _ => rfl
    | succ more ih =>
      refine fun lap => .asks trivial fun code _ => ?_
      cases code with
      | success | einval | gss => rfl
      | other => exact ih _
  exact laps _ _

theorem handleExpired_rests (e : Raise) : Rests (handleExpired e) := by
  refine Rests.bind (Rests.onlyIf ?_ _) fun _ => .throw e
  refine obeys_bind.mpr (expiredAbort_ends.mono fun g outcome _ ended => ?_)
  cases outcome <;> subst ended
  · rfl
  · exact jobpurge_ends

theorem jobStart_rests (conf : Conf) (jdl : Jdl) : Rests (jobStart conf jdl) := by
  refine (stage_rests _).bind fun _ => ((stage_rests _).tryCatch handleExpired_rests).bind fun _ => ?_
  refine (fileExists_rests _).bind fun found => ?_
  cases found with
  | false => exact .throw _
  | true =>
    refine (stage_rests _).bind fun _ => (stage_rests _).bind fun _ => (stage_rests _).bind fun _ => ?_
    refine Rests.bind (rests_of_only (x := queryEvents) (.ask trivial)) fun reply => ?_
    refine (rests_of_only (expect_only reply)).bind fun events => ?_
    cases startAllowed events with
    | error e => exact .throw _
    | ok _ =>
      refine (stage_rests _).bind fun _ => (fileExists_rests _).bind fun found => ?_
      cases found with
      | false => exact .throw _
      | true => exact (stage_rests _).bind fun _ => submit_rests conf jdl

theorem jobCancel_rests : Rests jobCancel := by
  have managed : Rests cancelInManager := (stage_rests _).bind fun _ => logEvent_rests _ nofun
  refine (stage_rests _).bind fun _ => (stage_rests _).bind fun _ => (stage_rests _).bind fun _ => ?_
  refine (stage_rests _).bind fun _ => getStatus_rests.bind fun status => ?_
  split
  · exact .throw _
  · refine (stage_rests _).bind fun _ => (stage_rests _).bind fun _ => (stage_rests _).bind fun _ => ?_
    split
    · split
      · exact managed
      · exact abortAndPurge_rests.bind fun _ => stage_rests _
    · exact managed
    · exact managed
    · exact managed
    · exact managed
    · split
      · exact managed
      · exact .throw _
    · exact .throw _
    · exact .throw _
    · exact .throw _
    · exact .throw _

theorem checkOutput_rests : Rests checkOutput := by
  refine (fileExists_rests _).bind fun found => ?_
  cases found with
  | true => exact .pure _
  | false =>
    exact (stage_rests _).bind fun _ => getStatus_rests.bind fun status => Rests.onlyIf (.throw _) _

theorem getOutputFileList_rests : Rests getOutputFileList := by
  have unlocks : Rests (operationUnlock .getOutputFileList) := rests_of_only (.ask trivial)
  refine (stage_rests _).bind fun _ => (stage_rests _).bind fun _ =>
    (operationLock_rests _).bind fun _ => ?_
  refine Rests.bind (Rests.tryCatch ?_ fun e => unlocks.bind fun _ => .throw e) fun _ => unlocks
  exact checkOutput_rests.bind fun _ => stage_rests _

theorem jobPurge_rests : Rests jobPurge := by
  refine (stage_rests _).bind fun _ => (stage_rests _).bind fun _ =>
    (fileExists_rests _).bind fun found => ?_
  cases found with
  | false => exact .throw _
  | true => exact isOperationLocked_ends (.throw _) jobpurge_ends

theorem requests_rest (request : Request) : Rests request.operation := by
  cases request with
  | jobStart conf jdl => exact jobStart_rests conf jdl
  | jobCancel => exact jobCancel_rests
  | getOutputFileList => exact getOutputFileList_rests
  | jobPurge => exact jobPurge_rests

/-! ### Many operations -/

def locks : (call : Call) → Reply call → Bool
  | .operationLock _, none => true
  | _, _ => false

def decides : (call : Call) → Reply call → Bool
  | .isOperationLocked _, some false => true
  | .log .expiredAbort _, .other => false
  | .log .expiredAbort _, _ => true
  | _, _ => false

/-- No lock is taken between the decision to purge and the purge, and when it is decided no lock is
held but perhaps the process's own one, if that is the lock it has asked for. -/
def Undisputed (p : Processes PurgePhase) (a : Exchanged Call Reply) : Prop :=
  (locks a.call a.reply = true → ∀ pid, p.phase pid ≠ .purging) ∧
    (decides a.call a.reply = true → ∀ file, a.call ≠ .isOperationLocked file →
      p.shared.holder file = none)

structure Guarded (p : Processes PurgePhase) : Prop where
  unlocked : ∀ pid, p.phase pid = .purging → ∀ file, p.shared.holder file = none
  history : ∀ pid, (pid, .purged true) ∉ p.shared.history

section Step

variable {lb : Lb} {s : Shared} {pid : Nat} {g : PurgePhase} {call : Call} {reply : Reply call}
  {file : LockFile}

theorem purging_before (purging : g.after call reply = .purging) : g = .purging ∨
    decides call reply = true := by
  unfold PurgePhase.after at purging
  split at purging <;> first | exact .inr rfl | cases purging
  · rename_i code notOther
    cases code <;> first | exact .inr rfl | exact absurd rfl notOther
  · exact .inl rfl

theorem holder_kept (free : s.holder file = none) (unlocked : locks call reply = false) :
    (after lb s pid call reply).holder file = none := by
  change holderOf s pid call reply file = _
  unfold holderOf
  split
  · cases unlocked
  · split
    · exact free
    · simp [Function.update_apply, free]
  · simp [Function.update_apply, free]
  · exact free

theorem locks_of_decides (decided : decides call reply = true) : locks call reply = false := by
  unfold locks
  split
  · cases decided
  · rfl

/-- When a purge is decided by a query, the lock that was asked for is dropped. -/
theorem holder_decided (decided : decides call reply = true)
    (others : ∀ file, call ≠ .isOperationLocked file → s.holder file = none) (file : LockFile) :
    (after lb s pid call reply).holder file = none := by
  by_cases asked : call = .isOperationLocked file
  · subst asked
    match reply with
    | some false => exact Function.update_self ..
  · exact holder_kept (others file asked) (locks_of_decides decided)

end Step

section Invariant

variable {lb : Lb} {p q : Processes PurgePhase} {a : Exchanged Call Reply} (held : Guarded p)
  (undisputed : Undisputed p a) (allowed : (p.phase a.pid).allows a.call)
  (stepped : Stepped (effect lb) purgeMonitor p a q)

include held undisputed stepped in
theorem unlocked_step {pid : Nat} (purging : q.phase pid = .purging) (file : LockFile) :
    q.shared.holder file = none := by
  rw [(shared_after stepped).2]
  have kept (purging : p.phase pid = .purging) :
      (after lb p.shared a.pid a.call a.reply).holder file = none := by
    refine holder_kept (held.unlocked pid purging file) (Bool.eq_false_iff.mpr fun taken => ?_)
    exact undisputed.1 taken pid purging
  by_cases self : pid = a.pid
  · subst self
    rw [stepped.phase_self] at purging
    rcases purging_before purging with before | decided
    · exact kept before
    · exact holder_decided decided (undisputed.2 decided) file
  · rw [stepped.phase_other self] at purging
    exact kept purging

include held allowed stepped in
theorem history_step (pid : Nat) : (pid, .purged true) ∉ q.shared.history := by
  rw [(shared_after stepped).2]
  intro purged
  rcases mem_history_after.mp purged with before | ⟨_, done⟩
  · exact held.history pid before
  · rcases deedOf_cases done with ⟨other, _⟩ | ⟨same, force, purges⟩ | ⟨other, _⟩
    · cases other
    · have purging : p.phase a.pid = .purging := by
        rw [purges] at allowed
        exact allowed
      have locked : p.shared.isLocked = true := (Deed.purged.inj same).symm
      simp [Shared.isLocked, held.unlocked a.pid purging] at locked
    · cases other

end Invariant

/-- If no lock is held when a purge is decided and none is taken before it is made, then in every
run of any number of operations the job is never purged while one of them holds a lock of it. -/
theorem not_purged_locked (lb : Lb) (s : Shared) (requests : Nat → List Request)
    (new : ∀ pid, (pid, .purged true) ∉ s.history) (p : Processes PurgePhase)
    (run : Runs (step (effect lb) purgeMonitor) (opening s requests .idle) Undisputed p) (pid : Nat) :
    (pid, .purged true) ∉ p.shared.history := by
  have obeys : (opening s requests .idle).Obeys purgeMonitor := by
    refine opening_obeys (· = .idle) rfl ?_
    rintro _ request _ _ rfl
    exact requests_rest request
  have initial : Guarded (opening s requests .idle) := ⟨nofun, new⟩
  refine (runs_invariant obeys initial (fun _ _ _ _ _ _ => trivial)
    (fun p a q held undisputed allowed stepped => ?_) run).history pid
  exact ⟨fun _ => unlocked_step held undisputed stepped, history_step held allowed stepped⟩

def FirstUndisputed (p : Processes PurgePhase) (a : Exchanged Call Reply) : Prop :=
  a.pid = 0 ∧ (locks a.call a.reply = true → p.phase 0 ≠ .purging) ∧
    (decides a.call a.reply = true → p.shared.holder .jobStart = none ∧
      p.shared.holder .getOutputFileList = none)

instance (p : Processes PurgePhase) (a : Exchanged Call Reply) : Decidable (FirstUndisputed p a) :=
  instDecidableAnd

theorem undisputed_of_first {p : Processes PurgePhase} {a : Exchanged Call Reply}
    (others : ∀ other, other ≠ 0 → p.phase other = .idle) (met : FirstUndisputed p a) :
    Undisputed p a := by
  obtain ⟨_, taken, decided⟩ := met
  refine ⟨fun locked pid => ?_, fun purges file _ => ?_⟩
  · by_cases first : pid = 0
    · subst first
      exact taken locked
    · simp [others pid first]
  · cases file with
    | jobStart => exact (decided purges).1
    | getOutputFileList => exact (decided purges).2

theorem purged_after_list : ∃ p : Processes PurgePhase, Runs (step (effect plainLb) purgeMonitor)
      (opening registered (fun pid => if pid = 0 then [.getOutputFileList, .jobPurge]
        else []) .idle) Undisputed p ∧
      p.shared.history = [(0, .purged false)] ∧ (0, .purged true) ∉ p.shared.history := by
  have done : (execute (step (effect plainLb) purgeMonitor) FirstUndisputed
      (opening registered (fun pid => if pid = 0 then [.getOutputFileList, .jobPurge] else []) .idle)
      (exchanges getOutputFileList calm 0 ++ exchanges jobPurge calm 0)).map (fun p => p.shared.history) =
      some [(0, .purged false)] := by
    decide
  obtain ⟨p, reached, history⟩ := Option.map_eq_some_iff.mp done
  have run := runs_single 0 (fun _ _ met => met.1) (fun _ _ others met => undisputed_of_first others met)
    (Runs.start.execute reached)
  exact ⟨p, run, history, not_purged_locked plainLb registered _ (by simp [registered]) p run 0⟩

def besideStart (request : Request) : Processes PurgePhase :=
  opening registered
    (fun pid => if pid = 0 then [.jobStart (plainConf false) plainJob] else if pid = 1 then
      [request] else []) .idle

def untilLocked : List (Exchanged Call Reply) :=
  (exchanges (jobStart (plainConf false) plainJob) calm 0).take 11

/-- A purge asks only for the lock of `getOutputFileList`; a cancellation that has found the job
unlocked purges it after a start has taken the lock. -/
theorem purged_while_locked : (∃ p, Runs (step (effect plainLb) purgeMonitor)
    (besideStart .jobPurge) Free p ∧
      p.shared.history = [(1, .purged true)]) ∧
    ∃ p, Runs (step (effect plainLb) purgeMonitor) (besideStart .jobCancel) Free p ∧
      p.shared.history = [(1, .aborted), (1, .purged true)] := by
  have purge : (execute (step (effect plainLb) purgeMonitor) Free (besideStart .jobPurge)
      (untilLocked ++ exchanges jobPurge calm 1)).map (fun p => p.shared.history) = some
        [(1, .purged true)] := by
    decide
  have cancel : (execute (step (effect plainLb) purgeMonitor) Free (besideStart .jobCancel)
      (untilLocked.take 10 ++ (exchanges jobCancel calm 1).take 10 ++ untilLocked.drop 10 ++
        (exchanges jobCancel calm 1).drop 10)).map (fun p => p.shared.history) =
      some [(1, .aborted), (1, .purged true)] := by
    decide
  obtain ⟨p, reached, history⟩ := Option.map_eq_some_iff.mp purge
  obtain ⟨p', reached', history'⟩ := Option.map_eq_some_iff.mp cancel
  exact ⟨⟨p, Runs.start.execute reached, history⟩, p', Runs.start.execute reached', history'⟩

end Wms.Interface
