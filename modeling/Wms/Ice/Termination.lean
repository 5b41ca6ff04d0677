import Wms.Ice.CreamJob
import Wms.Lib.Pool

/-! What ICE does about a job that has come to an end.

The job is taken out of the table first. After that it is sent back to the workload manager if it
failed, and it is purged from the computing element, which begins with a look into the table.
-/

set_option autoImplicit false

namespace Wms.Ice

open Lib Dialog List

structure Conf where
  purgeJobs : Bool
  failJobBlacklistedCe : Bool

def logWithCancelSeqcode (job : CreamJob) : Bool := job.status = .cancelled && job.cancelSequenceCode ≠ ""

def resubmitJob (job : CreamJob) (reason : String) : Prog Unit := do
  let disabled : Bool ← ask .resubmissionDisabled
  if disabled then pure ()
  else do
    let expires : Bool ← ask (.isbProxyExpires job.userProxyFile)
    if expires then do
      let _ ← logEvent .jobAborted job (logWithCancelSeqcode job) true
      pure ()
    else do
      let job ← logEvent (.iceResubmission reason) job false true
      let job ← logEvent .nsEnqueuedStart job false true
      let exception : Option String ← ask
        (.putRequest job.gridJobId job.sequenceCode job.completeCreamJobId)
      match exception with
      | none => do
        let _ ← logEvent .nsEnqueuedOk job false true
        pure ()
      | some what => do
        let _ ← logEvent .nsEnqueuedFail job false true
        let _ ← logEvent .jobAborted (job.setFailureReason ("resubmission failed: " ++ what)) false true
        pure ()

def purgeJob (conf : Conf) (job : CreamJob) : Prog Unit := do
  let found : Bool ← ask (.checkGridJobId job.gridJobId)
  if found then
    if conf.purgeJobs then do
      let better : String ← ask (.getAnyBetterProxyByDN job.userDn)
      let proxy := if better = "" then job.userProxyFile else better
      let valid : Bool ← ask (.isValid proxy)
      if valid then do
        -- whatever comes of it, an exception is caught and a refusal is left alone
        let _ ← creamProxyMethod conf.failJobBlacklistedCe job.creamAddress (fun _ => none)
          (ask (.jobPurge job.creamAddress job.creamJobId proxy)) 2
        pure ()
      else pure ()
    else pure ()
  else pure ()

def decrement (job : CreamJob) : Prog Unit :=
  optionally job.proxyRenewable (ask (.decrementUserProxyCounter job.userDn job.myproxyAddress))

def resubmitOrPurgeJob (conf : Conf) (job : CreamJob) : Prog Bool := do
  optionally (job.status = .cancelled || job.status = .doneOk) (ask (.unregisterProxy job.gridJobId))
  if job.status.isTerminal then do
    decrement job
    ask (.removeJobByGid job.gridJobId)
    optionally ((job.status = .doneFailed || job.status = .aborted) && !job.killedByIce)
      (resubmitJob job "Job resubmitted by ICE")
    purgeJob conf job
    optionally (job.status = .cancelled) (ask (.purgeWmsStorage job.gridJobId))
    pure true
  else pure false

/-! ### The surroundings of one command -/

/-- The table is also changed by other commands; what else a command is told is not known. -/
structure Surroundings where
  others : Nat → Jobs → Jobs
  reply : Nat → (c : Call) → Reply c

/-- A call, the table as this command had left it before, and the table that the call was made on.
-/
structure Entry where
  call : Call
  before : Jobs
  table : Jobs
  deriving DecidableEq

structure World where
  jobs : Jobs
  history : List Entry

def Jobs.after (jobs : Jobs) : Call → Jobs
  | .createJob job => jobs.createJob job
  | .updateJob gid changes => jobs.updateJob gid changes
  | .removeJobByGid gid => jobs.removeJobByGid gid
  | _ => jobs

def Jobs.reply (jobs : Jobs) (other : (c : Call) → Reply c) : (c : Call) → Reply c
  | .getJobByGid gid => jobs.getJobByGid gid
  | .getJobByCid cid => jobs.getJobByCid cid
  | .checkGridJobId gid => jobs.checkGridJobId gid
  | c => other c

def sameJob (reply job : Option CreamJob) : Bool := reply = job

def sameAnswer (reply answer : Bool) : Bool := reply = answer

def Jobs.agrees (jobs : Jobs) : (c : Call) → Reply c → Bool
  | .getJobByGid gid, reply => sameJob reply (jobs.getJobByGid gid)
  | .getJobByCid cid, reply => sameJob reply (jobs.getJobByCid cid)
  | .checkGridJobId gid, reply => sameAnswer reply (jobs.checkGridJobId gid)
  | _, _ => true

def Surroundings.answer (x : Surroundings) (w : World) (c : Call) : Reply c × World :=
  let jobs := x.others w.history.length w.jobs
  (jobs.reply (x.reply w.history.length) c, ⟨jobs.after c, w.history ++ [⟨c, w.jobs, jobs⟩]⟩)

def ended (x : Surroundings) (w : World) {α : Type} (command : Prog α) : World :=
  ((command ()).serve x.answer w).2

/-! ### No job is purged -/

theorem optionally_only {allowed : Call → Prop} {b : Bool} {x : Prog Unit} (only : x.Only allowed) :
    (optionally b x).Only allowed := by
  unfold optionally
  split
  · exact only
  · exact .pure _

def Elsewhere : Call → Prop
  | .checkGridJobId _ | .jobPurge _ _ _ | .createJob _ => False
  | _ => True

theorem logEvent_only {allowed : Call → Prop} {event : LbEvent} {job : CreamJob}
    {useCancel updatedb : Bool} (logs : allowed (.log event job.gridJobId useCancel))
    (writes : ∀ changes : Changes, changes.creamJobId = none →
      allowed (.updateJob job.gridJobId changes)) :
    (logEvent event job useCancel updatedb).Only allowed := by
  refine .bind (.ask logs) fun code => ?_
  cases code with
  | none => exact .pure _
  | some code =>
    refine .bind (optionally_only (.ask (writes _ ?_))) fun _ => .pure _
    cases useCancel <;> rfl

theorem resubmitJob_elsewhere (job : CreamJob) (reason : String) :
    (resubmitJob job reason).Only Elsewhere := by
  have logs {event : LbEvent} {job : CreamJob} {useCancel : Bool} :
      (logEvent event job useCancel true).Only Elsewhere :=
    logEvent_only trivial fun _ _ => trivial
  refine .bind (.ask trivial) fun disabled => ?_
  split
  · exact .pure _
  refine .bind (.ask trivial) fun expires => ?_
  split
  · exact .bind logs fun _ => .pure _
  refine .bind logs fun _ => .bind logs fun _ => .bind (.ask trivial) fun exception => ?_
  cases exception with
  | none => exact .bind logs fun _ => .pure _
  | some what => exact .bind logs fun _ => .bind logs fun _ => .pure _

variable {x : Surroundings} {w : World} {conf : Conf} {job : CreamJob}

def NotYet (w : World) : Prop := ∀ entry ∈ w.history, Elsewhere entry.call

theorem NotYet.answer (notYet : NotYet w) {c : Call} (elsewhere : Elsewhere c) : NotYet (x.answer w c).2 :=
  forall_mem_append.mpr ⟨notYet, forall_mem_singleton.mpr elsewhere⟩

def Issued (job : CreamJob) (w : World) : Prop :=
  ∃ proxy, ∃ entry ∈ w.history, entry.call = .jobPurge job.creamAddress job.creamJobId proxy

def Removed (gid : String) (history : List Entry) : Prop :=
  ∃ entry ∈ history, entry.call = .removeJobByGid gid

/-- After this command took the job out of the table, another one has put it in. -/
def Inserted (gid : String) (history : List Entry) : Prop :=
  ∃ early entry late, history = early ++ entry :: late ∧ Removed gid early ∧
    entry.before.checkGridJobId gid = false ∧ entry.table.checkGridJobId gid = true

/-- The row that another command has put in is there when the job is looked up, and the computing
element is not in the blacklist. -/
def PutBack (x : Surroundings) (job : CreamJob) (w : World) : Prop :=
  ∃ n entry, w.history[n]? = some entry ∧ entry.call = .checkGridJobId job.gridJobId ∧
    Inserted job.gridJobId (w.history.take (n + 1)) ∧ entry.table.checkGridJobId job.gridJobId = true ∧
    x.reply (n + 3) (.isBlacklisted job.creamAddress) = (false : Bool)

def Settled (x : Surroundings) (job : CreamJob) (w : World) : Prop := Issued job w ↔ PutBack x job w

theorem NotYet.not_issued (notYet : NotYet w) : ¬Issued job w := by
  rintro ⟨proxy, entry, member, purges⟩
  have elsewhere := notYet entry member
  rw [purges] at elsewhere
  exact elsewhere

theorem NotYet.not_putBack (notYet : NotYet w) : ¬PutBack x job w := by
  rintro ⟨n, entry, there, asks, _⟩
  have elsewhere := notYet entry (mem_of_getElem? there)
  rw [asks] at elsewhere
  exact elsewhere

theorem issued_answer_iff {c : Call} : Issued job (x.answer w c).2 ↔
    Issued job w ∨ ∃ proxy, c = .jobPurge job.creamAddress job.creamJobId proxy := by
  simp [Issued, Surroundings.answer, or_and_right, exists_or]

theorem putBack_answer_iff {c : Call} : PutBack x job (x.answer w c).2 ↔
    PutBack x job w ∨ c = .checkGridJobId job.gridJobId ∧ Inserted job.gridJobId (x.answer w c).2.history ∧
      (x.others w.history.length w.jobs).checkGridJobId job.gridJobId = true ∧
        x.reply (w.history.length + 3) (.isBlacklisted job.creamAddress) = (false : Bool) := by
  have all : (x.answer w c).2.history.take (w.history.length + 1) = (x.answer w c).2.history :=
    take_of_length_le (by simp [Surroundings.answer])
  have early {n : Nat} (within : n < w.history.length) :
      (x.answer w c).2.history.take (n + 1) = w.history.take (n + 1) := take_append_of_le_length within
  constructor
  · rintro ⟨n, entry, there, rest⟩
    rcases Nat.lt_trichotomy n w.history.length with within | rfl | beyond
    · exact .inl ⟨n, entry, (getElem?_append_left within).symm.trans there, early within ▸ rest⟩
    · cases getElem?_concat_length.symm.trans there
      exact .inr (all ▸ rest)
    · cases (getElem?_eq_none (Nat.le_trans (Nat.le_of_eq length_append) beyond)).symm.trans there
  · rintro (⟨n, entry, there, rest⟩ | rest)
    · obtain ⟨within, _⟩ := List.getElem?_eq_some_iff.mp there
      exact ⟨n, entry, (getElem?_append_left within).trans there, (early within).symm ▸ rest⟩
    · exact ⟨_, _, getElem?_concat_length, all.symm ▸ rest⟩

section Traced

variable {gid : String}

theorem Inserted.append {history : List Entry} (inserted : Inserted gid history) (more : List Entry) :
    Inserted gid (history ++ more) := by
  obtain ⟨early, entry, late, rfl, rest⟩ := inserted
  exact ⟨early, entry, late ++ more, by simp, rest⟩

theorem found_of_after {jobs : Jobs} {c : Call} (elsewhere : Elsewhere c)
    (found : (jobs.after c).checkGridJobId gid = true) : jobs.checkGridJobId gid = true := by
  cases c with
  | createJob => exact elsewhere.elim
  | updateJob asked changes =>
    obtain ⟨row, member, same⟩ := any_eq_true.mp found
    obtain ⟨old, there, rfl⟩ := mem_map.mp member
    refine any_eq_true.mpr ⟨old, there, ?_⟩
    split at same <;> exact same
  | removeJobByGid asked =>
    obtain ⟨row, member, same⟩ := any_eq_true.mp found
    exact any_eq_true.mpr ⟨row, (mem_filter.mp member).1, same⟩
  | _ => exact found

/-- The job was taken out of the table. If it is there now, another command has put it in. -/
structure Traced (gid : String) (w : World) : Prop where
  removed : Removed gid w.history
  inserted : w.jobs.checkGridJobId gid = true → Inserted gid w.history

theorem Traced.inserted_of_found (traced : Traced gid w) (c : Call)
    (found : (x.others w.history.length w.jobs).checkGridJobId gid = true) :
    Inserted gid (x.answer w c).2.history := by
  cases before : w.jobs.checkGridJobId gid with
  | true => exact (traced.inserted before).append _
  | false => exact ⟨w.history, ⟨c, w.jobs, _⟩, [], rfl, traced.removed, before, found⟩

theorem Traced.answer (traced : Traced gid w) {c : Call} (elsewhere : Elsewhere c) :
    Traced gid (x.answer w c).2 := by
  obtain ⟨entry, member, removes⟩ := traced.removed
  refine ⟨⟨entry, mem_append_left _ member, removes⟩, fun found => ?_⟩
  exact traced.inserted_of_found c (found_of_after elsewhere found)

theorem traced_of_removal (w : World) : Traced gid (x.answer w (.removeJobByGid gid)).2 := by
  refine ⟨⟨_, mem_append_right _ (mem_singleton_self _), rfl⟩, fun found => ?_⟩
  obtain ⟨row, member, same⟩ := any_eq_true.mp found
  exact absurd (of_decide_eq_true same) (of_decide_eq_true (mem_filter.mp member).2)

end Traced

section CreamProxyMethod

variable {ρ : Type} {allowed : Call → Prop} {fail : Bool} {service : String} {caught : ρ → Option String}
  {attempt : Prog (Attempt ρ)} {again : Prog (Except Failure (Attempt ρ))}

theorem blacklistEndpoint_only (tells : allowed (.blacklist service)) (result : Attempt ρ) :
    (blacklistEndpoint fail service result).Only allowed :=
  .bind (.ask tells) fun _ => .pure _

theorem afterAttempt_only (tells : allowed (.blacklist service)) (later : again.Only allowed)
    (result : Attempt ρ) :
    (afterAttempt fail service caught again result).Only allowed := by
  cases result with
  | answered answer =>
    simp only [afterAttempt]
    split
    · exact .pure _
    · split
      · exact blacklistEndpoint_only tells _
      · exact .pure _
  | exception => exact .pure _
  | timedOut => exact later
  | connectionLost => exact blacklistEndpoint_only tells _

theorem oneTry_only (asks : allowed (.isBlacklisted service)) (tells : allowed (.blacklist service))
    (only : attempt.Only allowed) (later : again.Only allowed) :
    (oneTry fail service caught attempt again).Only allowed := by
  refine .bind (.ask asks) fun blacklisted => ?_
  split
  · exact .pure _
  · exact .bind only (afterAttempt_only tells later)

theorem creamProxyMethod_only (asks : allowed (.isBlacklisted service))
    (tells : allowed (.blacklist service)) (only : attempt.Only allowed) (more : Nat) :
    (creamProxyMethod fail service caught attempt more).Only allowed := by
  induction more with
  | zero => exact oneTry_only asks tells only (blacklistEndpoint_only tells _)
  | succ more ih => exact oneTry_only asks tells only ih

section Told

variable {γ : Type} {m : Monitor Call Reply γ} {g : γ}

def Telling (told : γ → Except Failure (Attempt ρ) → Prop) (g : γ)
    (outcome : Except Failure (Except Failure (Attempt ρ))) (_ : Unit) : Prop :=
  ∃ answer, outcome = .ok answer ∧ told g answer

variable {told : γ → Except Failure (Attempt ρ) → Prop}
  (listed : m.allows g (.isBlacklisted service) ∧ ∀ reply, m.after g (.isBlacklisted service) reply = g)
  (lists : m.allows g (.blacklist service) ∧ ∀ reply, m.after g (.blacklist service) reply = g)
  (failed : ∀ outcome, (∀ answer, outcome ≠ .ok (.answered answer)) → told g outcome)
include lists failed

theorem blacklistEndpoint_told {result : Attempt ρ} (kept : fail = false → told g (.ok result)) :
    (blacklistEndpoint fail service result).Obeys m g () (Telling told) := by
  refine .asks lists.1 fun reply _ => ⟨_, rfl, ?_⟩
  rw [lists.2 reply]
  cases fail with
  | true => exact failed _ (by simp)
  | false => exact kept rfl

include listed

/-- An attempt that is answered tells the answer, unless it is an exception that is caught; one that
is not answered changes nothing. -/
theorem creamProxyMethod_told (tried : attempt.Obeys m g () fun g' outcome _ => ∃ result,
    outcome = .ok result ∧
      ((∃ answer, result = .answered answer ∧ caught answer = none ∧ told g' (.ok result)) ∨
        g' = g ∧ ∀ answer, result = .answered answer → ∃ what, caught answer = some what ∧
          (tellsTimeout what = true → fail = false → told g (.ok result))))
    (more : Nat) : (creamProxyMethod fail service caught attempt more).Obeys m g () (Telling told) := by
  have unanswered {result : Attempt ρ} (other : ∀ answer, result ≠ .answered answer) :
      told g (.ok result) :=
    failed _ fun answer same => other answer (Except.ok.inj same)
  have once {again : Prog (Except Failure (Attempt ρ))} (later : again.Obeys m g () (Telling told)) :
      (oneTry fail service caught attempt again).Obeys m g () (Telling told) := by
    refine .asks listed.1 fun reply _ => ?_
    rw [listed.2 reply]
    refine .branch (fun _ => ⟨_, rfl, failed _ fun answer same => by cases fail <;> cases same⟩)
      fun _ => ?_
    refine obeys_bind.mpr (tried.mono ?_)
    rintro g' _ ⟨⟩ ⟨result, rfl, ⟨answer, rfl, intact, holds⟩ | ⟨rfl, exceptional⟩⟩
    · simp only [afterAttempt, intact]
      exact ⟨_, rfl, holds⟩
    · cases result with
      | answered answer =>
        obtain ⟨what, thrown, holds⟩ := exceptional answer rfl
        simp only [afterAttempt, thrown]
        exact .branch (fun lost => blacklistEndpoint_told lists failed (holds lost)) fun _ =>
          ⟨_, rfl, unanswered (by simp)⟩
      | timedOut => exact later
      | connectionLost => exact blacklistEndpoint_told lists failed fun _ => unanswered (by simp)
      | exception => exact ⟨_, rfl, unanswered (by simp)⟩
  induction more with
  | zero => exact once (blacklistEndpoint_told lists failed fun _ => unanswered (by simp))
  | succ more ih => exact once ih

end Told

end CreamProxyMethod

theorem issued_putBack_kept {α : Type} (command : Prog α) (issued : Issued job w)
    (putBack : PutBack x job w) :
    command.Obeys (.serving x.answer) w () fun w' _ _ => Settled x job w' := by
  have kept : command.Obeys (.serving x.answer) w () fun w' _ _ => Issued job w' ∧ PutBack x job w' := by
    refine (only_anything command).invariant (fun _ _ _ _ => trivial)
      (fun w both c _ _ => ?_) ⟨issued, putBack⟩ ()
    exact ⟨issued_answer_iff.mpr (.inl both.1), putBack_answer_iff.mpr (.inl both.2)⟩
  exact kept.mono fun _ _ _ both => iff_of_true both.1 both.2

/-- A purge that was prepared is issued exactly if the computing element is not in the blacklist. -/
theorem creamProxyMethod_settled {proxy : String} (n : Nat) (number : w.history.length = n)
    (before : ¬Issued job w)
    (told : PutBack x job w ↔ x.reply n (.isBlacklisted job.creamAddress) = (false : Bool)) (more : Nat) :
    (creamProxyMethod conf.failJobBlacklistedCe job.creamAddress (fun _ => none)
      (ask (.jobPurge job.creamAddress job.creamJobId proxy)) (more + 1)).Obeys (.serving x.answer) w ()
        fun w' _ _ => Settled x job w' := by
  subst number
  refine .served (.branch (fun black => ?_) fun white => ?_)
  · have refuted : ¬PutBack x job w := fun putBack => Bool.noConfusion (black.symm.trans (told.mp putBack))
    exact iff_of_false (by simp [issued_answer_iff, before]) (by simp [putBack_answer_iff, refuted])
  · refine .served (issued_putBack_kept _ (issued_answer_iff.mpr (.inr ⟨proxy, rfl⟩)) ?_)
    simp [putBack_answer_iff, told.mpr white]

theorem purgeJob_settled (enabled : conf.purgeJobs = true)
    (valid : ∀ n file, x.reply n (.isValid file) = (true : Bool)) (notYet : NotYet w)
      (traced : Traced job.gridJobId w) :
    (purgeJob conf job).Obeys (.serving x.answer) w () fun w' _ _ => Settled x job w' := by
  have before : ¬Issued job (x.answer w (.checkGridJobId job.gridJobId)).2 := by
    simp [issued_answer_iff, notYet.not_issued]
  refine .served (.branch (fun there => ?_) fun missing => ?_)
  · refine .branch (fun _ => ?_) fun disabled => ?_
    · refine .served (.served (.branch (fun _ => ?_) fun invalid => ?_))
      · refine obeys_bind.mpr (Obeys.mono (creamProxyMethod_settled (w.history.length + 3) ?_ ?_ ?_ 1)
          fun _ outcome _ holds => ?_)
        · simp [Surroundings.answer]
        · simp [issued_answer_iff, notYet.not_issued]
        · have there : (x.others w.history.length w.jobs).checkGridJobId job.gridJobId = true := there
          simp [putBack_answer_iff, notYet.not_putBack, there, traced.inserted_of_found _ there]
        · cases outcome <;> exact holds
      · have refuted : true = false := (valid _ _).symm.trans invalid
        cases refuted
    · exact absurd enabled (by simp [disabled])
  · have missing : (x.others w.history.length w.jobs).checkGridJobId job.gridJobId = false := missing
    exact iff_of_false before (by simp [putBack_answer_iff, notYet.not_putBack, missing])

theorem NotYet.settled (notYet : NotYet w) : Settled x job w :=
  iff_of_false notYet.not_issued notYet.not_putBack

theorem Settled.answer (settled : Settled x job w) {c : Call} (elsewhere : Elsewhere c) :
    Settled x job (x.answer w c).2 := by
  have other (proxy : String) : c ≠ .jobPurge job.creamAddress job.creamJobId proxy := by
    rintro rfl
    exact elsewhere
  have unasked : c ≠ .checkGridJobId job.gridJobId := by
    rintro rfl
    exact elsewhere
  simpa [Settled, issued_answer_iff, putBack_answer_iff, other, unasked] using settled

/-- What holds before the purge holds after a part of the command that does not touch it. -/
theorem settled_after {α β : Type} {first : Prog α} {rest : α → Prog β} {holds : World → Prop}
    (only : first.Only Elsewhere) (kept : ∀ w c, holds w → Elsewhere c → holds (x.answer w c).2)
    (next : ∀ a w, NotYet w → holds w → (rest a).Obeys (.serving x.answer) w () fun w' _ _ =>
      Settled x job w')
    (notYet : NotYet w) (here : holds w) :
    (first >>= rest).Obeys (.serving x.answer) w () fun w' _ _ => Settled x job w' := by
  have both : first.Obeys (.serving x.answer) w () fun w' _ _ => NotYet w' ∧ holds w' :=
    only.invariant (fun _ _ _ _ => trivial)
      (fun _ both _ elsewhere _ => ⟨both.1.answer elsewhere, kept _ _ both.2 elsewhere⟩) ⟨notYet, here⟩ ()
  refine obeys_bind.mpr (both.mono fun w' outcome _ both => ?_)
  cases outcome with
  | ok a => exact next a w' both.1 both.2
  | error e => exact both.1.settled

theorem resubmitOrPurgeJob_settled (enabled : conf.purgeJobs = true)
    (valid : ∀ n file, x.reply n (.isValid file) = (true : Bool)) (notYet : NotYet w) :
    (resubmitOrPurgeJob conf job).Obeys (.serving x.answer) w () fun w' _ _ => Settled x job w' := by
  have any (w : World) (c : Call) (_ : True) (_ : Elsewhere c) : True := trivial
  refine settled_after (optionally_only (.ask trivial)) any (fun _ w notYet _ => ?_) notYet trivial
  split
  · refine settled_after (optionally_only (.ask trivial)) any (fun _ w notYet _ => ?_) notYet trivial
    -- the job leaves the table here
    have kept (w : World) (c : Call) (traced : Traced job.gridJobId w) (elsewhere : Elsewhere c) :
        Traced job.gridJobId (x.answer w c).2 := traced.answer elsewhere
    refine .served (settled_after (optionally_only (resubmitJob_elsewhere job _)) kept
      (fun _ w notYet traced => ?_)
      (notYet.answer trivial) (traced_of_removal w))
    refine obeys_bind.mpr (Obeys.mono (purgeJob_settled enabled valid notYet traced) fun w' outcome
      _ settled => ?_)
    cases outcome with
    | error e => exact settled
    | ok _ =>
      have last : (optionally (job.status = .cancelled) (ask (.purgeWmsStorage job.gridJobId))).Only
          Elsewhere :=
        optionally_only (.ask trivial)
      have kept : Obeys (.serving x.answer) _ w' () fun w' _ _ => Settled x job w' :=
        last.invariant (fun _ _ _ _ => trivial) (fun _ settled _ elsewhere _ => settled.answer
          elsewhere) settled ()
      refine obeys_bind.mpr (kept.mono fun w' outcome _ settled => ?_)
      cases outcome <;> exact settled
  · exact notYet.settled

theorem absent_kept {α : Type} {gid : String} (command : Prog α) (jobs : Jobs)
    (others : ∀ n jobs, jobs.checkGridJobId gid = false → (x.others n jobs).checkGridJobId gid = false) :
    ∀ entry ∈ (ended x ⟨jobs, []⟩ command).history,
      entry.before.checkGridJobId gid = false → entry.table.checkGridJobId gid = false := by
  have kept : command.Obeys (.serving x.answer) ⟨jobs, []⟩ () fun w _ _ => ∀ entry ∈ w.history,
      entry.before.checkGridJobId gid = false → entry.table.checkGridJobId gid = false := by
    refine (only_anything command).invariant (fun _ _ _ _ => trivial) (fun w kept c _ _ => ?_)
      (fun _ member => absurd member not_mem_nil) ()
    exact forall_mem_append.mpr ⟨kept, forall_mem_singleton.mpr (others _ _)⟩
  exact Interact.Obeys.serve kept

/-- A job is purged exactly if another command puts it into the table again after this one took it
out, the row is there when the job is looked up, and the computing element is not in the blacklist.
Where no other command ever puts the job into the table, it is never purged. -/
theorem purge_issued_iff (conf : Conf) (enabled : conf.purgeJobs = true) (x : Surroundings)
    (valid : ∀ n file, x.reply n (.isValid file) = (true : Bool)) (jobs : Jobs) (job : CreamJob) :
    (Issued job (ended x ⟨jobs, []⟩ (resubmitOrPurgeJob conf job)) ↔
      PutBack x job (ended x ⟨jobs, []⟩ (resubmitOrPurgeJob conf job))) ∧
    ((∀ n jobs, jobs.checkGridJobId job.gridJobId = false →
        (x.others n jobs).checkGridJobId job.gridJobId = false) →
      ¬Issued job (ended x ⟨jobs, []⟩ (resubmitOrPurgeJob conf job))) := by
  have settled : Settled x job (ended x ⟨jobs, []⟩ (resubmitOrPurgeJob conf job)) :=
    Interact.Obeys.serve (resubmitOrPurgeJob_settled enabled valid fun _ member =>
      absurd member not_mem_nil)
  refine ⟨settled, fun alone issued => ?_⟩
  obtain ⟨n, _, _, _, ⟨early, entry, late, split, _, before, after⟩, _⟩ := settled.mp issued
  have member : entry ∈ (ended x ⟨jobs, []⟩ (resubmitOrPurgeJob conf job)).history :=
    mem_of_mem_take (split ▸ mem_append_right _ mem_cons_self)
  exact Bool.noConfusion ((absent_kept _ jobs alone entry member before).symm.trans after)

def obliging : (c : Call) → Reply c
  | .getJobByGid _ | .getJobByCid _ => (none : Option CreamJob)
  | .checkGridJobId _ | .fileExists _ | .isValid _ => true
  | .existsSubsequentToken _ | .resubmissionDisabled | .isbProxyExpires _ | .isBlacklisted _ => false
  | .getAnyBetterProxyByDN _ => "/var/ice/proxy"
  | .log _ _ _ | .putRequest _ _ _ => (none : Option String)
  | .jobPurge _ _ _ => Attempt.answered true
  | .createJob _ | .updateJob _ _ | .removeJobByGid _ | .incrementUserProxyCounter _ _ _ _ => ()
  | .decrementUserProxyCounter _ _ | .lockReschedule | .unlockReschedule | .blacklist _ => ()
  | .unregisterProxy _ | .purgeWmsStorage _ | .setUserProxyIfLonger _ _ _ | .setBetterProxy _ _ _ _ _ => ()
  | .updateBetterProxy _ _ _ _ | .insertStartedJob _ _ _ | .insertStat _ | .redelegate _ _ => ()
  | .removeRequest | .hang => ()
  | .getExactBetterProxyByDN _ _ => BetterProxy.mk "/var/ice/proxy" 0 1
  | .now | .delegationExpires _ _ _ => (0 : Int)
  | .what => ""
  | .delegate _ _ _ => Except.ok "delegation"
  | .jobRegister _ _ _ _ _ => Attempt.answered (RegisterAnswer.ok "CREAM1" "https://ce")
  | .jobStart _ _ _ => Attempt.answered (none : Option String)

def doneJob : CreamJob where
  gridJobId := "https://lb/1"
  creamJobId := "CREAM1"
  completeCreamJobId := "https://ce/CREAM1"
  creamAddress := "https://ce"
  userProxyFile := "/isb/proxy"
  userDn := "/CN=user"
  sequenceCode := "1"
  prevStatus := .running
  status := .doneOk
  exitCode := 0
  failureReason := " "
  workerNode := "wn"
  killedByIce := false
  proxyRenewable := false
  myproxyAddress := ""
  isbProxyTimeEnd := 0
  tokenFile := "/token"
  cancelSequenceCode := ""

/-- Another command puts the job back before the third call. -/
theorem purge_issued_resubmitted :
    Issued doneJob (ended ⟨fun n jobs => if n = 2 then jobs.createJob doneJob else jobs, fun _ => obliging⟩
      ⟨[doneJob], []⟩ (resubmitOrPurgeJob ⟨true, false⟩ doneJob)) := by
  refine (purge_issued_iff ⟨true, false⟩ rfl _ (fun _ _ => rfl) [doneJob] doneJob).1.mpr ?_
  refine ⟨2, ⟨.checkGridJobId "https://lb/1", [], [doneJob]⟩, by decide, rfl, ?_, by decide, rfl⟩
  exact ⟨[⟨.unregisterProxy "https://lb/1", [doneJob], [doneJob]⟩,
    ⟨.removeJobByGid "https://lb/1", [doneJob], [doneJob]⟩],
    ⟨.checkGridJobId "https://lb/1", [], [doneJob]⟩, [], by decide, ⟨_, .tail _ (.head _), rfl⟩, by
      decide, by decide⟩

/-- A job is done, its user has a valid proxy and nothing else goes on. -/
theorem not_purged_alone : ¬Issued doneJob (ended ⟨fun _ jobs => jobs, fun _ => obliging⟩ ⟨[doneJob], []⟩
      (resubmitOrPurgeJob ⟨true, false⟩ doneJob)) := by
  rintro ⟨proxy, entry, member, purges⟩
  have calls : (ended ⟨fun _ jobs => jobs, fun _ => obliging⟩ ⟨[doneJob],
      []⟩ (resubmitOrPurgeJob ⟨true, false⟩ doneJob)
      ).history.map Entry.call = [.unregisterProxy "https://lb/1", .removeJobByGid "https://lb/1",
        .checkGridJobId "https://lb/1"] := by decide
  have purged := mem_map_of_mem (f := Entry.call) member
  rw [calls, purges] at purged
  simp at purged

end Wms.Ice
