import Wms.Ice.Termination
import Wms.Lib.Pool

/-! The event query.

An answer of CREAM holds events of several jobs; they are processed job by job, under the reschedule
mutex. The job is looked up by its CREAM id, every event is logged, and only the last one is written
to the table and may send the job back. Any number of event queries run beside each other, and ICE
may crash between any two of their steps.
-/

set_option autoImplicit false

namespace Wms.Ice

open Lib Dialog Function List

structure Event where
  jobId : String
  status : JobStatus
  /-- `none` if the text is no number -/
  exitCode : Option Int
  failureReason : String
  description : String
  workerNode : String
  deriving DecidableEq, Repr

def mkEvent (job : CreamJob) (forceDoneFailed : Bool) : Option LbEvent :=
  match job.status with
  | .running => some (if job.prevStatus = .held then .jobResumed else .jobRunning)
  | .reallyRunning => some .jobReallyRunning
  | .cancelled => some (if job.killedByIce then .jobAborted else .jobCancelled)
  | .held => some .jobSuspended
  | .aborted => some (if forceDoneFailed then .jobDoneFailed else .jobAborted)
  | .doneOk => some .jobDoneOk
  | .doneFailed => some .jobDoneFailed
  | .pending | .idle | .registered | .purged | .unknown => none

def ignoreJob (cid : String) : Prog (Option CreamJob) := do
  let found : Option CreamJob ← ask (.getJobByCid cid)
  match found with
  | none => pure none
  | some job =>
    if job.creamJobId = "" then pure none
    -- the first character of the token file is asked for, and the exception caught
    else if job.tokenFile = "" then pure (some job)
    else do
      let there : Bool ← ask (.fileExists job.tokenFile)
      if there then pure (some job)
      else do
        let subsequent : Bool ← ask (.existsSubsequentToken job.tokenFile)
        pure (if subsequent then none else some job)

def CreamJob.told (job : CreamJob) (event : Event) : CreamJob :=
  CreamJob.setFailureReason
    { job.setStatus event.status with exitCode := event.exitCode.getD 0, workerNode := event.workerNode }
    (if event.status = .cancelled then event.description else event.failureReason)

def CreamJob.written (job : CreamJob) : Changes where
  status := some (job.prevStatus, job.status)
  exitCode := some job.exitCode
  failureReason := some job.failureReason
  workerNode := some job.workerNode

/-- An aborted job is logged as one that is done and has failed. -/
def logStatus (job : CreamJob) : Prog CreamJob :=
  match mkEvent job true with
  | none => pure job
  | some event => logEvent event job (logWithCancelSeqcode job) true

section Events

variable (conf : Conf)

def processSingleEvent (job : CreamJob) (event : Event) (isLastEvent : Bool) : Prog (CreamJob × Bool) :=
  if event.status = .purged then do
    decrement job
    ask (.removeJobByGid job.gridJobId)
    pure (job, true)
  else do
    let job := job.told event
    optionally isLastEvent (ask (.updateJob job.gridJobId job.written))
    let job ← logStatus job
    if isLastEvent then do
      let removed ← resubmitOrPurgeJob conf job
      pure (job, removed)
    else pure (job, false)

def processEventList (job : CreamJob) : List Event → Prog Unit
  | [] => pure ()
  | event :: rest => do
    let (job, removed) ← processSingleEvent conf job event rest.isEmpty
    if removed then pure () else processEventList job rest

def processEventsForJob (cid : String) (events : List Event) : Prog Unit := do
  ask .lockReschedule
  let job ← ignoreJob cid
  match job with
  | none => ask .unlockReschedule
  | some job => do
    processEventList conf job events
    ask .unlockReschedule

def pushBack (key : String) (event : Event) : List (String × List Event) → List (String × List Event)
  | [] => [(key, [event])]
  | (other, events) :: rest =>
    if key = other then (other, events ++ [event]) :: rest
    else if key < other then (key, [event]) :: (other, events) :: rest
    else (other, events) :: pushBack key event rest

def mappedEvents (endpoint : String) (events : List Event) : List (String × List Event) :=
  events.foldl (fun mapped event => pushBack (endpoint ++ "/" ++ event.jobId) event mapped) []

def processMapped : List (String × List Event) → Prog Unit
  | [] => pure ()
  | (cid, events) :: rest => do
    processEventsForJob conf cid events
    processMapped rest

def processEvents (endpoint : String) (events : List Event) : Prog Unit :=
  processMapped conf (mappedEvents endpoint events)

end Events

/-! ### The phases of an event query -/

inductive Phase where
  | outside
  | inside
  | found (gid : String)
  | removed
  deriving DecidableEq, Repr

namespace Phase

variable (cid : String)

def allows (g : Phase) : Call → Prop
  | .lockReschedule => g = .outside
  | .getJobByCid _ => g = .inside
  | .createJob _ => False
  | .updateJob _ changes => g ≠ .outside ∧ changes.creamJobId = none
  | .removeJobByGid gid => g ≠ .outside ∧ ∀ other, g = .found other → gid = other
  | .putRequest _ _ other => g ≠ .outside ∧ (other = cid → g = .removed)
  | _ => g ≠ .outside

def after (g : Phase) : (c : Call) → Reply c → Phase
  | .lockReschedule, _ => .inside
  | .unlockReschedule, _ => .outside
  | .getJobByCid other, some job => if other = cid then .found job.gridJobId else g
  | .removeJobByGid _, _ =>
    match g with
    | .found _ => .removed
    | g => g
  | .putRequest _ _ other, _ => if other = cid then .inside else g
  | _, _ => g

end Phase

def RightJob : (c : Call) → Reply c → Prop
  | .getJobByCid cid, some job => job.completeCreamJobId = cid
  | _, _ => True

def watch (cid : String) : Monitor Call Reply Phase where
  allows := Phase.allows cid
  trusts _ := RightJob
  after := Phase.after cid

variable {cid : String} {g : Phase} {conf : Conf} {job : CreamJob}

def Neutral : Call → Prop
  | .lockReschedule | .unlockReschedule | .getJobByCid _ | .createJob _ | .removeJobByGid
      _ | .putRequest _ _ _ => False
  | .updateJob _ changes => changes.creamJobId = none
  | _ => True

variable {c : Call} {pid : Nat} {jobs : Jobs}

theorem neutral_ignored (within : g ≠ .outside) : (watch cid).Ignores g Neutral := by
  intro c neutral
  cases c with
  | lockReschedule | unlockReschedule | getJobByCid | createJob | removeJobByGid | putRequest =>
      exact neutral.elim
  | updateJob gid changes => exact ⟨⟨within, neutral⟩, fun _ => rfl⟩
  | _ => exact ⟨within, fun _ => rfl⟩

theorem neutral_then {α β : Type} {x : Prog α} {f : α → Prog β} {good : Phase → β → Prop}
    (only : x.Only Neutral)
    (within : g ≠ .outside) (next : ∀ a, (f a).Leads (watch cid) g () good) :
    (x >>= f).Leads (watch cid) g () good :=
  only.leads_bind (neutral_ignored within) fun a _ => next a

def SameIds (job job' : CreamJob) : Prop :=
  job'.gridJobId = job.gridJobId ∧ job'.completeCreamJobId = job.completeCreamJobId

theorem logEvent_neutral (event : LbEvent) (job : CreamJob) (useCancel updatedb : Bool) :
    (logEvent event job useCancel updatedb).Only Neutral := logEvent_only trivial fun _ same => same

theorem logEvent_leads (within : g ≠ .outside) (event : LbEvent) (job : CreamJob)
    (useCancel updatedb : Bool) :
    (logEvent event job useCancel updatedb).Leads (watch cid) g () fun g' job' => g' = g ∧
      SameIds job job' := by
  refine .asks within fun code _ => ?_
  cases code with
  | none => exact .pure ⟨rfl, rfl, rfl⟩
  | some code =>
    have writes : (optionally updatedb (ask (.updateJob job.gridJobId
        (if useCancel then { cancelSequenceCode := some code }
          else { sequenceCode := some code })))).Only Neutral := by
      refine optionally_only (.ask ?_)
      cases useCancel <;> rfl
    refine neutral_then writes within fun _ => .pure ⟨rfl, rfl, ?_⟩
    cases useCancel <;> rfl

theorem resubmitJob_leads (within : g ≠ .outside)
    (ready : job.completeCreamJobId = cid → g = .removed) (reason : String) :
    (resubmitJob job reason).Leads (watch cid) g () fun g' _ => g' ≠ .outside := by
  refine .asks within fun disabled _ => Obeys.branch (fun _ => Leads.pure within) fun _ => ?_
  refine Leads.asks within fun expires _ => Obeys.branch (fun _ => ?_) fun _ => ?_
  · refine (logEvent_leads within _ _ _ _).bind fun g' _ _ same => .pure ?_
    rw [same.1]
    exact within
  · refine (logEvent_leads within _ _ _ _).bind fun g1 job1 _ kept1 => ?_
    obtain ⟨same1, -, cid1⟩ := kept1
    subst same1
    refine (logEvent_leads within _ _ _ _).bind fun g2 job2 _ kept2 => ?_
    obtain ⟨same2, -, cid2⟩ := kept2
    subst same2
    refine .asks ⟨within, fun same => ready (cid1.symm.trans (cid2.symm.trans same))⟩ fun exception _ => ?_
    have later : (watch cid).after g2 (.putRequest job2.gridJobId job2.sequenceCode
        job2.completeCreamJobId) exception ≠
        .outside := by
      change (if job2.completeCreamJobId = cid then Phase.inside else g2) ≠ .outside
      split
      · intro same
        cases same
      · exact within
    have logs {x : Prog Unit} (only : x.Only Neutral) : x.Leads (watch cid) _ () fun g' _ =>
        g' ≠ .outside :=
      (only.leads (neutral_ignored later) ()).mono fun _ _ same => same ▸ later
    cases exception with
    | none => exact logs (.bind (logEvent_neutral _ _ _ _) fun _ => .pure _)
    | some what =>
      exact logs (.bind (logEvent_neutral _ _ _ _) fun _ =>
        .bind (logEvent_neutral _ _ _ _) fun _ => .pure _)

theorem purgeJob_neutral (conf : Conf) (job : CreamJob) : (purgeJob conf job).Only Neutral := by
  refine .bind (.ask trivial) fun there => ?_
  split
  · split
    · refine .bind (.ask trivial) fun better => .bind (.ask trivial) fun valid => ?_
      split
      · exact .bind (creamProxyMethod_only trivial trivial (.ask trivial) _) fun _ => .pure _
      · exact .pure _
    · exact .pure _
  · exact .pure _

theorem decrement_neutral (job : CreamJob) : (decrement job).Only Neutral := optionally_only (.ask trivial)

/-- The event query has the mutex, and knows the job where it is the one that is watched. -/
structure Has (cid : String) (g : Phase) (job : CreamJob) : Prop where
  within : g ≠ .outside
  knows : job.completeCreamJobId = cid → g = .found job.gridJobId
  right : ∀ gid, g = .found gid → job.gridJobId = gid

theorem Has.same {job' : CreamJob} (has : Has cid g job) (same : SameIds job job') : Has cid g job' := by
  obtain ⟨gid, complete⟩ := same
  refine ⟨has.within, fun watched => ?_, fun other known => gid.trans (has.right other known)⟩
  rw [gid]
  exact has.knows (complete ▸ watched)

theorem Has.after_remove (has : Has cid g job) : (watch cid).after g (.removeJobByGid job.gridJobId)
    () ≠ .outside ∧
      (job.completeCreamJobId = cid → (watch cid).after g (.removeJobByGid job.gridJobId) () =
        .removed) := by
  constructor
  · change (match g with
      | .found _ => Phase.removed
      | g => g) ≠ _
    split
    · nofun
    · exact has.within
  · intro watched
    rw [has.knows watched]
    rfl

theorem resubmitOrPurgeJob_leads (has : Has cid g job) :
    (resubmitOrPurgeJob conf job).Leads (watch cid) g () fun g' removed => g' ≠ .outside ∧
      (removed = false → g' = g) := by
  refine neutral_then (optionally_only (.ask trivial)) has.within fun _ => ?_
  split
  · refine neutral_then (decrement_neutral job) has.within fun _ => ?_
    obtain ⟨within, ready⟩ := has.after_remove
    refine Leads.asks ⟨has.within, has.right⟩ fun _ _ => ?_
    have resubmits : (optionally ((job.status = .doneFailed || job.status = .aborted) && !job.killedByIce)
        (resubmitJob job "Job resubmitted by ICE")).Leads (watch cid)
          ((watch cid).after g (.removeJobByGid job.gridJobId) ()) () fun g' _ => g' ≠ .outside := by
      unfold optionally
      split
      · exact resubmitJob_leads within ready _
      · exact .pure within
    refine resubmits.bind fun g2 _ _ within => ?_
    refine neutral_then (purgeJob_neutral conf job) within fun _ => ?_
    exact neutral_then (optionally_only (.ask trivial)) within fun _ => .pure ⟨within, nofun⟩
  · exact .pure ⟨has.within, fun _ => rfl⟩

theorem logStatus_leads (within : g ≠ .outside) (job : CreamJob) :
    (logStatus job).Leads (watch cid) g () fun g' job' => g' = g ∧ SameIds job job' := by
  unfold logStatus
  split
  · exact .pure ⟨rfl, rfl, rfl⟩
  · exact logEvent_leads within _ _ _ _

theorem processSingleEvent_leads (has : Has cid g job) (event : Event) (isLastEvent : Bool) :
    (processSingleEvent conf job event isLastEvent).Leads (watch cid) g () fun g' result =>
      g' ≠ .outside ∧ (result.2 = false → g' = g ∧ SameIds job result.1) := by
  unfold processSingleEvent
  split
  · refine neutral_then (decrement_neutral job) has.within fun _ => ?_
    exact Leads.asks ⟨has.within, has.right⟩ fun _ _ => .pure ⟨has.after_remove.1, nofun⟩
  · have told : SameIds job (job.told event) := ⟨rfl, rfl⟩
    have writes : (optionally isLastEvent
        (ask (.updateJob (job.told event).gridJobId (job.told event).written))).Only
        Neutral := optionally_only (.ask rfl)
    refine neutral_then writes has.within fun _ => ?_
    refine (logStatus_leads has.within (job.told event)).bind fun g2 job2 _ ⟨same2, same⟩ => ?_
    subst same2
    have ids : SameIds job job2 := ⟨same.1.trans told.1, same.2.trans told.2⟩
    refine Obeys.branch (fun _ => ?_) fun _ => Leads.pure ⟨has.within, fun _ => ⟨rfl, ids⟩⟩
    refine (resubmitOrPurgeJob_leads (has.same ids)).bind fun g3 removed _ ⟨within, kept⟩ => ?_
    exact .pure ⟨within, fun stays => ⟨kept stays, ids⟩⟩

theorem processEventList_leads (has : Has cid g job) (events : List Event) :
    (processEventList conf job events).Leads (watch cid) g () fun g' _ => g' ≠ .outside := by
  induction events generalizing job g with
  | nil => exact .pure has.within
  | cons event rest ih =>
    refine (processSingleEvent_leads has event rest.isEmpty).bind fun g1 result _ ⟨within, kept⟩ => ?_
    obtain ⟨job1, removed⟩ := result
    cases removed with
    | true => exact .pure within
    | false =>
      obtain ⟨rfl, ids⟩ := kept rfl
      exact ih (has.same ids)

theorem ignoreJob_leads (other : String) :
    (ignoreJob other).Leads (watch cid) .inside () fun g' found =>
      g' ≠ .outside ∧ ∀ job, found = some job → Has cid g' job := by
  refine Leads.asks rfl fun found its => ?_
  cases found with
  | none => exact .pure ⟨(fun same => by cases same), fun _ same => by cases same⟩
  | some job =>
    have has : Has cid ((watch cid).after .inside (.getJobByCid other) (some job)) job := by
      change Has cid (if other = cid then Phase.found job.gridJobId else .inside) job
      have asked : job.completeCreamJobId = other := its
      by_cases watched : other = cid
      · rw [if_pos watched]
        exact ⟨nofun, fun _ => rfl, fun gid known => (Phase.found.inj known)⟩
      · rw [if_neg watched]
        exact ⟨nofun, fun same => absurd (asked.symm.trans same) watched, nofun⟩
    have known : ∀ job', some job = some job' →
        Has cid ((watch cid).after .inside (.getJobByCid other) (some job)) job' :=
          fun _ same => Option.some.inj same ▸ has
    dsimp only
    split
    · exact .pure ⟨has.within, fun _ same => by cases same⟩
    split
    · exact .pure ⟨has.within, known⟩
    · refine Leads.asks has.within fun there _ => Obeys.branch
        (fun _ => Leads.pure ⟨has.within, known⟩) fun _ => ?_
      refine Leads.asks has.within fun subsequent _ => .pure ⟨has.within, fun job' same => ?_⟩
      split at same
      · cases same
      · exact known job' same

theorem processEventsForJob_leads (other : String) (events : List Event) :
    (processEventsForJob conf other events).Leads (watch cid) .outside () fun g' _ => g' = .outside := by
  refine Leads.asks rfl fun _ _ => ?_
  refine (ignoreJob_leads other).bind fun g1 found _ ⟨within, has⟩ => ?_
  cases found with
  | none => exact .asks within fun _ _ => .pure rfl
  | some job =>
    refine (processEventList_leads (has job rfl) events).bind fun g2 _ _ within => ?_
    exact .asks within fun _ _ => .pure rfl

theorem processEvents_leads (endpoint : String) (events : List Event) :
    (processEvents conf endpoint events).Leads (watch cid) .outside () fun g' _ => g' = .outside := by
  have all (mapped : List (String × List Event)) :
      (processMapped conf mapped).Leads (watch cid) .outside () fun g' _ => g' = .outside := by
    induction mapped with
    | nil => exact .pure rfl
    | cons group rest ih =>
      refine (processEventsForJob_leads group.1 group.2).bind fun g1 _ _ same => ?_
      subst same
      exact ih
  exact all _

/-! ### Event queries beside each other, and crashes -/

structure Shared where
  jobs : Jobs
  holder : Option Nat
  epoch : Nat
  /-- The CREAM jobs on whose behalf a resubmission was requested. -/
  resubmitted : List String

def Shared.after (s : Shared) (pid : Nat) : Call → Option Shared
  | .lockReschedule => if s.holder = none then some { s with holder := some pid } else none
  | .unlockReschedule => some { s with holder := none }
  | .putRequest _ _ cid => some { s with resubmitted := cid :: s.resubmitted }
  | c => some { s with jobs := s.jobs.after c }

/-- A program belongs to one life of ICE; in another one it makes no calls. -/
def effect (born : Nat → Nat) (s : Shared) (pid : Nat) (c : Call) (reply : Reply c) : Option Shared :=
  if born pid = s.epoch ∧ s.jobs.agrees c reply = true then s.after pid c else none

abbrev Queries := Pool Shared Call Reply Phase

inductive Move where
  | exchange (exchanged : Exchanged Call Reply)
  | others (jobs : Jobs)
  | crash

def step (born : Nat → Nat) (cid : String) (p : Queries) : Move → Option Queries
  | .exchange exchanged => p.step (effect born) (watch cid) exchanged
  | .others jobs => some { p with shared := { p.shared with jobs } }
  | .crash => some { p with shared := { p.shared with holder := none, epoch := p.shared.epoch + 1 } }

/-- Others bring no row for the job: CREAM does not give its id away again. -/
def NotReused (cid : String) (p : Queries) : Move → Prop
  | .others jobs => ∀ job ∈ jobs, job.completeCreamJobId = cid → job ∈ p.shared.jobs
  | _ => True

instance (cid : String) (p : Queries) (move : Move) : Decidable (NotReused cid p move) :=
  match move with
  | .others _ => inferInstanceAs (Decidable (∀ _ ∈ _, _))
  | .exchange _ | .crash => instDecidableTrue

def start (conf : Conf) (answers : Nat → String × List Event) (jobs : Jobs) : Queries where
  shared := ⟨jobs, none, 0, []⟩
  program pid := (processEvents conf (answers pid).1 (answers pid).2 ()).bind fun _ => .ret ()
  phase _ := .outside

def rowsOf (cid : String) (jobs : Jobs) : Jobs := jobs.filter fun job => job.completeCreamJobId = cid

variable {born : Nat → Nat} {p q : Queries}

structure Safe (born : Nat → Nat) (cid : String) (p : Queries) : Prop where
  once : p.shared.resubmitted.count cid ≤ 1
  gone : cid ∈ p.shared.resubmitted → rowsOf cid p.shared.jobs = []
  single : ∀ job ∈ rowsOf cid p.shared.jobs, ∀ job' ∈ rowsOf cid p.shared.jobs,
    job'.gridJobId = job.gridJobId
  unborn : ∀ pid, p.shared.epoch < born pid → p.phase pid = .outside
  owner : ∀ pid, born pid = p.shared.epoch → p.phase pid ≠ .outside → p.shared.holder = some pid
  found : ∀ pid gid, born pid = p.shared.epoch → p.phase pid = .found gid →
    cid ∉ p.shared.resubmitted ∧ ∀ job ∈ rowsOf cid p.shared.jobs, job.gridJobId = gid
  removed : ∀ pid, born pid = p.shared.epoch → p.phase pid = .removed →
    cid ∉ p.shared.resubmitted ∧ rowsOf cid p.shared.jobs = []

theorem effect_eq_some_iff {s t : Shared} {reply : Reply c} : effect born s pid c reply = some t ↔
    (born pid = s.epoch ∧ s.jobs.agrees c reply = true) ∧ s.after pid c = some t := by
  simp [effect]

def Shrinks (cid : String) (jobs jobs' : Jobs) : Prop :=
  ∀ job' ∈ rowsOf cid jobs', ∃ job ∈ rowsOf cid jobs, job'.gridJobId = job.gridJobId

theorem mem_rowsOf : job ∈ rowsOf cid jobs ↔ job ∈ jobs ∧ job.completeCreamJobId = cid := by
  simp [rowsOf]

theorem Shrinks.of_subset {jobs' : Jobs}
    (subset : ∀ job ∈ jobs', job.completeCreamJobId = cid → job ∈ jobs) : Shrinks cid jobs jobs' := by
  intro job member
  obtain ⟨there, row⟩ := mem_rowsOf.mp member
  exact ⟨job, mem_rowsOf.mpr ⟨subset job there row, row⟩, rfl⟩

theorem Shrinks.rowsOf_eq_nil {jobs' : Jobs} (shrinks : Shrinks cid jobs jobs')
    (empty : rowsOf cid jobs = []) :
    rowsOf cid jobs' = [] := by
  refine eq_nil_iff_forall_not_mem.mpr fun job member => ?_
  obtain ⟨_, there, _⟩ := shrinks job member
  rw [empty] at there
  exact not_mem_nil there

theorem Shrinks.single {jobs' : Jobs} (shrinks : Shrinks cid jobs jobs')
    (single : ∀ job ∈ rowsOf cid jobs, ∀ job' ∈ rowsOf cid jobs, job'.gridJobId = job.gridJobId) :
    ∀ job ∈ rowsOf cid jobs', ∀ job' ∈ rowsOf cid jobs', job'.gridJobId = job.gridJobId := by
  intro job member job' member'
  obtain ⟨old, there, same⟩ := shrinks job member
  obtain ⟨old', there', same'⟩ := shrinks job' member'
  rw [same, same', single old there old' there']

theorem shrinks_update (jobs : Jobs) (gid : String) {changes : Changes}
    (kept : changes.creamJobId = none) :
    Shrinks cid jobs (jobs.updateJob gid changes) := by
  intro job' member
  obtain ⟨there, row⟩ := mem_rowsOf.mp member
  obtain ⟨job, old, rfl⟩ := mem_map.mp there
  refine ⟨job, mem_rowsOf.mpr ⟨old, ?_⟩, by split <;> rfl⟩
  split at row
  · simpa [Changes.apply, kept] using row
  · exact row

theorem shrinks_after (jobs : Jobs) (allowed : (watch cid).allows g c) :
    Shrinks cid jobs (jobs.after c) := by
  cases c with
  | createJob => exact allowed.elim
  | updateJob gid changes => exact shrinks_update jobs gid allowed.2
  | removeJobByGid gid => exact .of_subset fun job member _ => (mem_filter.mp member).1
  | _ => exact .of_subset fun _ member _ => member

theorem rowsOf_remove {gid : String} (all : ∀ job ∈ rowsOf cid jobs, job.gridJobId = gid) :
    rowsOf cid (jobs.removeJobByGid gid) = [] := by
  refine eq_nil_iff_forall_not_mem.mpr fun job member => ?_
  obtain ⟨there, row⟩ := mem_rowsOf.mp member
  obtain ⟨old, kept⟩ := mem_filter.mp there
  simp [all job (mem_rowsOf.mpr ⟨old, row⟩)] at kept

/-- At most one event query has the mutex. -/
theorem Safe.others_outside (safe : Safe born cid p) (alive : born pid = p.shared.epoch)
    (free : p.shared.holder = none ∨ p.phase pid ≠ .outside) {other : Nat}
    (lives : born other = p.shared.epoch) (differs : other ≠ pid) : p.phase other = .outside := by
  by_contra within
  have holder := safe.owner other lives within
  rcases free with free | here
  · rw [free] at holder
    cases holder
  · rw [safe.owner pid alive here] at holder
    exact differs (Option.some.inj holder).symm

/-- What holds of the job for the program in a phase. -/
def Knows (cid : String) (s : Shared) : Phase → Prop
  | .found gid => cid ∉ s.resubmitted ∧ ∀ job ∈ rowsOf cid s.jobs, job.gridJobId = gid
  | .removed => cid ∉ s.resubmitted ∧ rowsOf cid s.jobs = []
  | _ => True

theorem Safe.of_knows (once : p.shared.resubmitted.count cid ≤ 1)
    (gone : cid ∈ p.shared.resubmitted → rowsOf cid p.shared.jobs = [])
    (single : ∀ job ∈ rowsOf cid p.shared.jobs, ∀ job' ∈ rowsOf cid p.shared.jobs,
      job'.gridJobId = job.gridJobId)
    (unborn : ∀ pid, p.shared.epoch < born pid → p.phase pid = .outside)
    (lives : ∀ pid, born pid = p.shared.epoch →
      (p.phase pid ≠ .outside → p.shared.holder = some pid) ∧ Knows cid p.shared (p.phase pid)) :
        Safe born cid p where
  once := once
  gone := gone
  single := single
  unborn := unborn
  owner pid alive := (lives pid alive).1
  found pid gid alive known := by simpa [known, Knows] using (lives pid alive).2
  removed pid alive done := by simpa [done, Knows] using (lives pid alive).2

variable {s : Shared} {program : Nat → Interact Call Reply Unit}

theorem Safe.moved (safe : Safe born cid p) (alive : born pid = p.shared.epoch)
    (free : p.shared.holder = none ∨ p.phase pid ≠ .outside) (epoch : s.epoch = p.shared.epoch)
    (shrinks : Shrinks cid p.shared.jobs s.jobs) (once : s.resubmitted.count cid ≤ 1)
    (gone : cid ∈ s.resubmitted → rowsOf cid s.jobs = []) (owner : g ≠ .outside → s.holder = some pid)
    (knows : Knows cid s g) : Safe born cid ⟨s, program, update p.phase pid g⟩ := by
  refine .of_knows once gone (shrinks.single safe.single) (fun other later => ?_) fun other lives => ?_
  · have later : p.shared.epoch < born other := epoch ▸ later
    have differs : other ≠ pid := fun same => Nat.lt_irrefl _ (alive ▸ same ▸ later)
    exact (update_of_ne differs _ _).trans (safe.unborn other later)
  · by_cases same : other = pid
    · subst same
      simpa using ⟨owner, knows⟩
    · simp [update_of_ne same, safe.others_outside alive free (lives.trans epoch) same, Knows]

theorem Safe.here (safe : Safe born cid p) (alive : born pid = p.shared.epoch)
    (shrinks : Shrinks cid p.shared.jobs jobs) : Knows cid { p.shared with jobs } (p.phase pid) := by
  cases phase : p.phase pid with
  | outside | inside => trivial
  | found gid =>
    obtain ⟨unsent, all⟩ := safe.found pid gid alive phase
    refine ⟨unsent, fun job member => ?_⟩
    obtain ⟨old, there, same⟩ := shrinks job member
    rw [same, all old there]
  | removed =>
    obtain ⟨unsent, nothing⟩ := safe.removed pid alive phase
    exact ⟨unsent, shrinks.rowsOf_eq_nil nothing⟩

theorem getJobByCid_some (there : jobs.getJobByCid cid = some job) : job ∈ rowsOf cid jobs := by
  refine mem_rowsOf.mpr ⟨mem_of_find?_eq_some there, ?_⟩
  simpa using find?_some there

theorem agrees_getJobByCid {reply : Option CreamJob}
    (agrees : jobs.agrees (.getJobByCid cid) reply = true) :
    reply = jobs.getJobByCid cid := by
  simpa [Jobs.agrees, sameJob] using agrees

theorem rightJob_of_agrees {reply : Reply c} (agrees : jobs.agrees c reply = true) : RightJob c reply := by
  cases c with
  | getJobByCid cid =>
    cases reply with
    | none => trivial
    | some job => exact (mem_rowsOf.mp (getJobByCid_some (agrees_getJobByCid agrees).symm)).2
  | _ => trivial

theorem within_of_allows (locks : c ≠ .lockReschedule) (allowed : (watch cid).allows g c) :
    g ≠ .outside := by
  cases c with
  | lockReschedule => exact absurd rfl locks
  | getJobByCid other =>
    have inside : g = .inside := allowed
    rw [inside]
    nofun
  | createJob => exact allowed.elim
  | updateJob | removeJobByGid | putRequest => exact allowed.1
  | _ => exact allowed

theorem Safe.stays (safe : Safe born cid p) (alive : born pid = p.shared.epoch)
    (within : p.phase pid ≠ .outside) (shrinks : Shrinks cid p.shared.jobs jobs) :
    Safe born cid ⟨{ p.shared with jobs }, program, update p.phase pid (p.phase pid)⟩ :=
  safe.moved alive (.inr within) rfl shrinks safe.once (fun sent => shrinks.rowsOf_eq_nil (safe.gone sent))
    (fun _ => safe.owner pid alive within) (safe.here alive shrinks)

theorem Shrinks.refl (cid : String) (jobs : Jobs) : Shrinks cid jobs jobs :=
  .of_subset fun _ member _ => member

theorem Safe.looked (safe : Safe born cid p) (alive : born pid = p.shared.epoch)
    (within : p.phase pid ≠ .outside) (there : p.shared.jobs.getJobByCid cid = some job) :
    Safe born cid ⟨p.shared, program, update p.phase pid (.found job.gridJobId)⟩ := by
  have row := getJobByCid_some there
  have unsent : cid ∉ p.shared.resubmitted := fun sent => by
    rw [safe.gone sent] at row
    exact not_mem_nil row
  exact safe.moved alive (.inr within) rfl (.refl cid _) safe.once safe.gone
    (fun _ => safe.owner pid alive within)
    ⟨unsent, fun other member => safe.single job row other member⟩

theorem Safe.took (safe : Safe born cid p) {gid : String} (alive : born pid = p.shared.epoch)
    (known : p.phase pid = .found gid) :
    Safe born cid ⟨{ p.shared with jobs := p.shared.jobs.removeJobByGid gid }, program,
      update p.phase pid .removed⟩ := by
  obtain ⟨unsent, all⟩ := safe.found pid gid alive known
  have nothing := rowsOf_remove all
  have within : p.phase pid ≠ .outside := by
    rw [known]
    nofun
  exact safe.moved alive (.inr within) rfl
    (.of_subset fun _ member _ => (mem_filter.mp member).1) safe.once
    (fun _ => nothing) (fun _ => safe.owner pid alive within) ⟨unsent, nothing⟩

theorem Safe.exchange (safe : Safe born cid p) {a : Exchanged Call Reply}
    (stepped : Pool.Stepped (effect born) (watch cid) p a q)
    (allowed : (watch cid).allows (p.phase a.pid) a.call) : Safe born cid q := by
  obtain ⟨pid, c, reply⟩ := a
  obtain ⟨shared, program, phases⟩ := q
  obtain ⟨⟨alive, agrees⟩, done⟩ := effect_eq_some_iff.mp stepped.effect
  have phase := stepped.phase
  dsimp only at alive agrees done phase allowed
  have kept := Shrinks.refl cid p.shared.jobs
  have shrinks := shrinks_after p.shared.jobs allowed
  subst phase
  cases c with
  | lockReschedule =>
    obtain ⟨free, rfl⟩ : p.shared.holder = none ∧ { p.shared with holder := some pid } = shared := by
      simpa [Shared.after] using done
    exact safe.moved alive (.inl free) rfl kept safe.once safe.gone (fun _ => rfl) trivial
  | unlockReschedule =>
    cases done
    exact safe.moved alive (.inr allowed) rfl kept safe.once safe.gone
      (fun within => absurd rfl within) trivial
  | putRequest gid code other =>
    cases done
    obtain ⟨within, ready⟩ := allowed
    have owns := safe.owner pid alive within
    have after : (watch cid).after (p.phase pid) (.putRequest gid code other) reply =
        if other = cid then .inside else p.phase pid := rfl
    rw [after]
    by_cases watched : other = cid
    · obtain ⟨unsent, nothing⟩ := safe.removed pid alive (ready watched)
      rw [if_pos watched]
      refine safe.moved alive (.inr within) rfl kept ?_ (fun _ => nothing) (fun _ => owns) trivial
      simp [watched, count_eq_zero_of_not_mem unsent]
    · have same : ∀ seen : Prop, (cid ∈ other :: p.shared.resubmitted → seen) ↔
          (cid ∈ p.shared.resubmitted → seen) := by
        simp [Ne.symm watched]
      rw [if_neg watched]
      refine safe.moved alive (.inr within) rfl kept ?_ ((same _).mpr safe.gone) (fun _ => owns) ?_
      · rw [count_cons_of_ne watched]
        exact safe.once
      · have here := safe.here alive kept
        cases now : p.phase pid with
        | outside | inside => trivial
        | found | removed => simpa [now, Knows, Ne.symm watched] using here
  | getJobByCid other =>
    cases done
    have within := within_of_allows (by simp) allowed
    have answer := agrees_getJobByCid agrees
    cases reply with
    | none => exact safe.stays alive within shrinks
    | some job =>
      have after : (watch cid).after (p.phase pid) (.getJobByCid other) (some job) =
          if other = cid then .found job.gridJobId else p.phase pid := rfl
      rw [after]
      by_cases watched : other = cid
      · rw [if_pos watched]
        exact safe.looked alive within (watched ▸ answer.symm)
      · rw [if_neg watched]
        exact safe.stays alive within shrinks
  | removeJobByGid gid =>
    cases done
    have within := within_of_allows (by simp) allowed
    cases here : p.phase pid with
    | found other =>
      have same : gid = other := allowed.2 other here
      subst same
      exact safe.took alive here
    | outside => exact absurd here within
    | inside | removed =>
      exact Eq.mp (by rw [here]; rfl) (safe.stays alive within shrinks)
  | _ =>
    cases done
    exact safe.stays alive (within_of_allows (by simp) allowed) shrinks

theorem Safe.others (safe : Safe born cid p)
    (kept : ∀ job ∈ jobs, job.completeCreamJobId = cid → job ∈ p.shared.jobs) :
    Safe born cid { p with shared := { p.shared with jobs } } := by
  have shrinks : Shrinks cid p.shared.jobs jobs := .of_subset kept
  exact .of_knows safe.once (fun sent => shrinks.rowsOf_eq_nil (safe.gone sent))
    (shrinks.single safe.single) safe.unborn
    fun pid alive => ⟨safe.owner pid alive, safe.here alive shrinks⟩

theorem Safe.crash (safe : Safe born cid p) :
    Safe born cid { p with shared := { p.shared with holder := none, epoch := p.shared.epoch + 1 } } := by
  -- nobody of the new life has made a call yet
  have outside : ∀ pid, born pid = p.shared.epoch + 1 → p.phase pid = .outside := fun pid next =>
    safe.unborn pid (by rw [next]; exact Nat.lt_succ_self _)
  refine .of_knows safe.once safe.gone safe.single
    (fun pid later => safe.unborn pid (Nat.lt_of_succ_lt later)) ?_
  intro pid next
  simp [outside pid next, Knows]

theorem safe_start (conf : Conf) (answers : Nat → String × List Event)
    (unique : ∀ job ∈ jobs, ∀ job' ∈ jobs, job.completeCreamJobId = cid → job'.completeCreamJobId = cid →
      job'.gridJobId = job.gridJobId) :
    Safe born cid (start conf answers jobs) where
  once := by simp [start]
  gone sent := absurd sent not_mem_nil
  single job member job' member' := by
    obtain ⟨there, row⟩ := mem_rowsOf.mp member
    obtain ⟨there', row'⟩ := mem_rowsOf.mp member'
    exact unique job there job' there' row row'
  unborn _ _ := rfl
  owner _ _ within := absurd rfl within
  found _ _ _ known := by cases known
  removed _ _ done := by cases done

theorem obeys_start (conf : Conf) (answers : Nat → String × List Event) (jobs : Jobs) :
    (start conf answers jobs).Obeys (watch cid) := fun pid =>
  Interact.obeys_bind.mpr (Interact.Obeys.mono (processEvents_leads (answers pid).1 (answers pid).2)
    fun _ _ _ => trivial)

/-- For every CREAM job, whatever the answers, the interleaving, the crashes and the other commands.
-/
theorem resubmitted_at_most_once (conf : Conf) (answers : Nat → String × List Event)
    (born : Nat → Nat) (cid : String)
    (jobs : Jobs) (unique : ∀ job ∈ jobs, ∀ job' ∈ jobs, job.completeCreamJobId = cid →
      job'.completeCreamJobId = cid →
      job'.gridJobId = job.gridJobId)
    (run : Runs (step born cid) (start conf answers jobs) (NotReused cid) p) :
    p.shared.resubmitted.count cid ≤ 1 := by
  have kept (p : Queries) (move : Move) (q : Queries) (both : p.Obeys (watch cid) ∧ Safe born cid p)
      (met : NotReused cid p move) (taken : step born cid p move = some q) : q.Obeys (watch cid) ∧
        Safe born cid q := by
    obtain ⟨obeys, safe⟩ := both
    cases move with
    | exchange a =>
      have stepped := Pool.step_stepped taken
      obtain ⟨allowed, next⟩ := Pool.step_obeys obeys taken
      exact ⟨next (rightJob_of_agrees (effect_eq_some_iff.mp stepped.effect).1.2),
        safe.exchange stepped allowed⟩
    | others jobs =>
      cases taken
      exact ⟨obeys, safe.others met⟩
    | crash =>
      cases taken
      exact ⟨obeys, safe.crash⟩
  exact (Runs.invariant ⟨obeys_start conf answers jobs, safe_start conf answers unique⟩ kept run).2.once

def nextMove (p : Queries) (pid : Nat) : Move :=
  match p.program pid with
  | .ret _ => .crash
  | .call c _ => .exchange ⟨pid, c, p.shared.jobs.reply obliging c⟩

def calls (born : Nat → Nat) (cid : String) (pid : Nat) : Nat → Queries → Option Queries
  | 0, p => some p
  | n + 1, p => (step born cid p (nextMove p pid)).bind (calls born cid pid n)

theorem runs_calls {n : Nat} {first : Queries} (run : Runs (step born cid) first (NotReused cid) p)
    (made : calls born cid pid n p = some q) : Runs (step born cid) first (NotReused cid) q := by
  induction n generalizing p with
  | zero =>
    cases made
    exact run
  | succ n ih =>
    obtain ⟨t, taken, rest⟩ := Option.bind_eq_some_iff.mp made
    refine ih (.next run ?_ taken) rest
    unfold nextMove
    split <;> trivial

def failedTwice : Queries :=
  start ⟨true, false⟩ (fun _ => ("https://ce", [⟨"CREAM1", .doneFailed, some 1, "", "", "wn"⟩]))
    [{ doneJob with status := .running }]

/-- The first event query resubmits the job; after a crash the second one finds it gone. -/
theorem resubmitted_once_two_queries : ∃ p, (calls id "https://ce/CREAM1" 0 11 failedTwice).bind
        (fun p => (step id "https://ce/CREAM1" p .crash).bind (calls id "https://ce/CREAM1" 1 3)) =
          some p ∧
      p.shared.resubmitted = ["https://ce/CREAM1"] ∧
        p.shared.resubmitted.count "https://ce/CREAM1" ≤ 1 := by
  have outcome : ((calls id "https://ce/CREAM1" 0 11 failedTwice).bind (fun p =>
      (step id "https://ce/CREAM1" p .crash).bind (calls id "https://ce/CREAM1" 1 3))).map
        (·.shared.resubmitted) =
      some ["https://ce/CREAM1"] := by decide +kernel
  obtain ⟨p, reached, sent⟩ := Option.map_eq_some_iff.mp outcome
  obtain ⟨first, made, rest⟩ := Option.bind_eq_some_iff.mp reached
  obtain ⟨restarted, crashed, rest⟩ := Option.bind_eq_some_iff.mp rest
  have again : Runs (step id "https://ce/CREAM1") failedTwice (NotReused "https://ce/CREAM1") restarted :=
    .next (a := .crash) (runs_calls .start made) trivial crashed
  exact ⟨p, reached, sent, resubmitted_at_most_once _ _ _ _ _ (by simp) (runs_calls again rest)⟩

end Wms.Ice
