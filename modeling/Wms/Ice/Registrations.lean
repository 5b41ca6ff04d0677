import Wms.Ice.Submit

/-! How often a job is registered.

A round of the registration that CREAM does not end is repeated with a new delegation or a new
lease, once for each. Only the exception that says that the proxy of the delegation is no longer
good repeats a round as it was, where it gets through to `register_job`.
-/

set_option autoImplicit false

namespace Wms.Ice

open Lib Dialog Submission List

def Registers (possible : RegisterAnswer → Prop) : (c : Call) → Reply c → Prop
  | .jobRegister _ _ _ _ _, .answered answer => possible answer
  | _, _ => True

def Within : Call → Prop
  | .hang => False
  | _ => True

/-- Any answers, but CREAM answers a registration only with what is possible; the loop may not
outlast its rounds. -/
def among (possible : RegisterAnswer → Prop) : Monitor Call Reply Unit where
  allows _ := Within
  trusts _ := Registers possible
  after _ _ _ := ()

def EndsWithin (conf : SubmitConf) (possible : RegisterAnswer → Prop) (job : CreamJob)
    (rounds : Nat) : Prop :=
  (registerLoop conf rounds false false).Leads (among possible) () job fun _ _ => True

/-- The rounds that may still follow. -/
def spare (conf : SubmitConf) (forceDelegation forceLease : Bool) : Nat :=
  (if forceDelegation then 0 else 1) + if conf.leaseEnabled && !forceLease then 1 else 0

def Fewer (conf : SubmitConf) (forceDelegation forceLease : Bool) (_ : Unit)
    (registered : Registered) : Prop :=
  ∀ delegation lease, registered = .again delegation lease →
    spare conf delegation lease < spare conf forceDelegation forceLease

variable {conf : SubmitConf} {possible : RegisterAnswer → Prop} {job : CreamJob}
  {forceDelegation forceLease : Bool}

theorem betterProxy_force : (betterProxy conf forceDelegation).Leads (among possible) () job fun _ force =>
    forceDelegation = true → force = true := by
  refine .gets (.branch (fun _ => Leads.asks trivial fun sbp _ => ?_) fun _ => Leads.pure id)
  split
  · exact .asks trivial fun _ _ => Leads.pure fun _ => rfl
  · refine .bind ?_ fun _ _ _ (_ : True) => .asks trivial fun expires _ =>
      .asks trivial fun now _ => Leads.pure fun forced => by simp [forced]
    exact .branch (fun _ => ⟨trivial, fun _ _ _ _ => trivial⟩) fun _ => Leads.pure trivial

theorem handleDelegation_force :
    (handleDelegation conf forceDelegation).Leads (among possible) () job fun _ delegated =>
      forceDelegation = true → delegated.2 = true := by
  refine .bind betterProxy_force fun _ force _ kept => .gets (.asks trivial fun delegation _ => ?_)
  cases delegation with
  | ok delegation => exact Leads.pure kept
  | error what => exact Leads.throw _

theorem retryOnce_fewer {flag : Bool} {next : Registered}
    (fewer : flag = false → Fewer conf forceDelegation forceLease () next) (what : String) :
    (retryOnce flag next what).Leads (among possible) () job (Fewer conf forceDelegation forceLease) := by
  cases flag with
  | true => exact .throw _
  | false => exact .pure (fewer rfl)

theorem delegation_fewer (unforced : forceDelegation = false) :
    Fewer conf forceDelegation forceLease () (.again true forceLease) := by
  rintro _ _ ⟨⟩
  simp [spare, unforced]

theorem lease_fewer (unforced : (!conf.leaseEnabled || forceLease) = false) :
    Fewer conf forceDelegation forceLease () (.again forceDelegation true) := by
  rintro _ _ ⟨⟩
  simp_all [spare]

/-- An exception gets through to the handlers of `register_job`. -/
def Reaches (conf : SubmitConf) (answer : RegisterAnswer) : Prop :=
  ∀ what, conf.caught answer = some what → tellsTimeout what = true ∧ conf.failJobBlacklistedCe = false

def Told (conf : SubmitConf) (possible : RegisterAnswer → Prop) (_ : Unit)
    (outcome : Except Failure (Attempt RegisterAnswer)) : Prop :=
  ∀ answer, outcome = .ok (.answered answer) → possible answer ∧ Reaches conf answer

variable (never : ∀ what, possible (.gridProxyDelegationException what) →
  ¬Reaches conf (.gridProxyDelegationException what))
include never

theorem processResult_fewer {answer : RegisterAnswer} (told : possible answer ∧ Reaches conf answer)
    (delegation : String) : (processResult conf delegation forceDelegation forceLease answer).Leads
      (among possible) () job
      (Fewer conf forceDelegation forceLease) := by
  cases answer with
  | ok => exact .pure fun _ _ again => by cases again
  | delegationError | delegationException => exact retryOnce_fewer delegation_fewer _
  | leaseIdMismatch | genericException => exact retryOnce_fewer lease_fewer _
  | failed | unknownException => exact .throw _
  | gridProxyDelegationException what => exact absurd told.2 (never what told.1)

theorem registerJob_fewer (delegation : String) :
    (registerJob conf delegation forceDelegation forceLease).Leads (among possible) () job
      (Fewer conf forceDelegation forceLease) := by
  have raised : (do
      let what : String ← call .what
      throw (.transient, "CREAM Register raised std::exception " ++ what) : Submission Registered).Leads
      (among possible) () job (Fewer conf forceDelegation forceLease) :=
        .asks trivial fun _ _ => Leads.throw _
  refine .gets (Leads.bind (within_obeys ?_) fun _ result _ (told : Told conf possible () result) => ?_)
  · refine (creamProxyMethod_told ⟨trivial, fun _ => rfl⟩ ⟨trivial, fun _ => rfl⟩
      (fun outcome unanswered => show Told conf possible () outcome from
        fun answer same => absurd same (unanswered answer)) ?_ 2).mono ?_
    · refine ⟨trivial, fun result trusted => ⟨result, rfl, ?_⟩⟩
      cases result with
      | answered answer =>
        cases thrown : conf.caught answer with
        | none =>
          refine .inl ⟨answer, rfl, thrown, ?_⟩
          rintro _ ⟨⟩
          exact ⟨trusted, fun what same => absurd (thrown.symm.trans same) nofun⟩
        | some what =>
          refine .inr ⟨rfl, ?_⟩
          rintro _ ⟨⟩
          refine ⟨what, thrown, fun lost kept => ?_⟩
          rintro _ ⟨⟩
          refine ⟨trusted, fun other same => ?_⟩
          cases thrown.symm.trans same
          exact ⟨lost, kept⟩
      | timedOut | connectionLost | exception => exact .inr ⟨rfl, nofun⟩
    · rintro _ _ _ ⟨answer, rfl, told⟩ _ ⟨⟩
      exact told
  · cases result with
    | error failure => exact Leads.throw _
    | ok result =>
      cases result with
      | answered answer => exact processResult_fewer never (told answer rfl) delegation
      | timedOut | connectionLost | exception => exact raised

theorem registerLoop_ends {rounds : Nat} (enough : spare conf forceDelegation forceLease < rounds) :
    (registerLoop conf rounds forceDelegation forceLease).Leads (among possible)
      () job fun _ _ => True := by
  induction rounds generalizing forceDelegation forceLease job with
  | zero => omega
  | succ rounds ih =>
    refine .bind handleDelegation_force fun _ delegated _ kept => ?_
    refine .bind (registerJob_fewer never _) fun _ registered _ fewer => ?_
    cases registered with
    | done => exact .pure trivial
    | again delegation lease =>
      have less := fewer _ _ rfl
      have forced : spare conf delegated.2 forceLease ≤ spare conf forceDelegation forceLease := by
        cases forceDelegation with
        | true => simp [spare, kept rfl]
        | false =>
          simp only [spare, Bool.false_eq_true, if_false]
          split <;> omega
      exact ih (by omega)

omit never

/-- CREAM throws the same exception each time. -/
def stubborn (what : String) : (c : Call) → Reply c
  | .jobRegister _ _ _ _ _ => Attempt.answered (RegisterAnswer.gridProxyDelegationException what)
  | .getExactBetterProxyByDN _ _ => BetterProxy.mk "" 0 0
  | c => obliging c

variable {what : String}

theorem betterProxy_stubborn :
    (betterProxy conf forceDelegation).result
      (stubborn what) job = (.ok (job.proxyRenewable || forceDelegation), job) := by
  change Dialog.result (stubborn what) (if job.proxyRenewable = true then _ else _) job = _
  cases job.proxyRenewable <;> rfl

theorem afterAttempt_stubborn (reaches : Reaches conf (.gridProxyDelegationException what))
    {service : String} (again : Prog (Except Failure (Attempt RegisterAnswer))) :
    (afterAttempt conf.failJobBlacklistedCe service conf.caught again
      (.answered (.gridProxyDelegationException what))).result (stubborn what) () =
        (.ok (.ok (.answered (.gridProxyDelegationException what))), ()) := by
  simp only [afterAttempt]
  cases thrown : conf.caught (.gridProxyDelegationException what) with
  | none => rfl
  | some text =>
    obtain ⟨lost, kept⟩ := reaches text thrown
    simp only [lost, kept, if_true]
    rfl

theorem registerJob_stubborn (reaches : Reaches conf (.gridProxyDelegationException what))
    (delegation : String) :
    (registerJob conf delegation forceDelegation forceLease).result (stubborn what) job =
      (.ok (.again forceDelegation forceLease), job) := by
  let tries := creamProxyMethod conf.failJobBlacklistedCe job.creamAddress conf.caught
    (ask (.jobRegister job.creamAddress job.gridJobId delegation "" job.userProxyFile))
  have tried : (tries 2).result (stubborn what)
      () = (.ok (.ok (.answered (.gridProxyDelegationException what))), ()) :=
    afterAttempt_stubborn reaches (tries 1)
  have told : (within (tries 2)).result (stubborn what) job =
      (.ok (.ok (.answered (.gridProxyDelegationException what))), job) := by
    refine (Interact.value_bind ..).trans ?_
    rw [show (tries 2 ()).value (stubborn what) = _ from tried]
    rfl
  exact result_bind_ok told

theorem registerLoop_stubborn (reaches : Reaches conf (.gridProxyDelegationException what))
    (rounds : Nat) :
    .hang ∈ (registerLoop conf rounds forceDelegation forceLease).calls (stubborn what) job := by
  induction rounds generalizing forceDelegation with
  | zero => exact mem_cons_self
  | succ rounds ih =>
    have delegated : (handleDelegation conf forceDelegation).result (stubborn what) job =
      (.ok ("delegation", job.proxyRenewable || forceDelegation), job) :=
        result_bind_ok betterProxy_stubborn
    rw [registerLoop, calls_bind_ok delegated, calls_bind_ok (registerJob_stubborn reaches _)]
    exact mem_append_right _ (mem_append_right _ ih)

theorem stubborn_outlasts (may : possible (.gridProxyDelegationException what))
    (reaches : Reaches conf (.gridProxyDelegationException what)) (rounds : Nat) :
    ¬EndsWithin conf possible job rounds := by
  intro ends
  have trusted : ∀ g c, (among possible).trusts g c (stubborn what c) := by
    intro _ c
    cases c with
    | jobRegister => exact may
    | _ => trivial
  unfold EndsWithin Leads at ends
  obtain ⟨_, allowed⟩ := ends.allows_of_mem trusted (registerLoop_stubborn reaches rounds)
  exact allowed

theorem not_reaches_iff : ¬Reaches conf (.gridProxyDelegationException what) ↔
    conf.derived = true ∧ (tellsTimeout what = true → conf.failJobBlacklistedCe = true) := by
  unfold Reaches SubmitConf.caught
  cases conf.derived <;> simp [RegisterAnswer.thrown]

/-- One registration, one more with a new delegation, and one with a new lease if there are leases:
this bound holds exactly if each exception about the proxy of the delegation that CREAM may throw
derives from `std::exception` and, if its text tells of a timeout, ICE fails the jobs of blacklisted
computing elements. -/
theorem register_bounded_iff (conf : SubmitConf) (possible : RegisterAnswer → Prop) (job : CreamJob) :
    EndsWithin conf possible job (if conf.leaseEnabled then 3 else 2) ↔
      ∀ what, possible (.gridProxyDelegationException what) →
        conf.derived = true ∧ (tellsTimeout what = true → conf.failJobBlacklistedCe = true) := by
  constructor
  · intro ends what may
    exact not_reaches_iff.mp fun reaches => stubborn_outlasts may reaches _ ends
  · intro never
    refine registerLoop_ends (fun what may => not_reaches_iff.mpr (never what may)) ?_
    cases enabled : conf.leaseEnabled <;> simp [spare, enabled]

/-- The endpoint is no longer in the blacklist each time the job is registered anew. -/
theorem register_unbounded : ¬∃ rounds, EndsWithin ⟨⟨true, false⟩, false, 600, "", true⟩
    (· = .gridProxyDelegationException "Connection timed out") doneJob rounds := by
  rintro ⟨rounds, ends⟩
  have reaches : Reaches ⟨⟨true, false⟩, false, 600, "", true⟩
      (.gridProxyDelegationException "Connection timed out") := by
    rintro what ⟨⟩
    exact ⟨by decide, rfl⟩
  exact stubborn_outlasts (by rfl) reaches rounds ends

end Wms.Ice
