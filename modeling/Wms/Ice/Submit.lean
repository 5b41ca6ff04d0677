import Wms.Ice.Termination

/-! The submission of a job to CREAM.

The command looks up what the table knows of the job. A job that is unknown is registered and
started, one that was registered is only started, and any other is left alone. A failure sends the
job back to the workload manager and takes it out of the table. Whatever happens, the request is
taken out of the input in the end.
-/

set_option autoImplicit false

namespace Wms.Ice

open Lib Dialog

structure SubmitConf extends Conf where
  leaseEnabled : Bool
  proxyRenewalFrequency : Int
  creamUrlPostfix : String
  /-- The exceptions of the CREAM client derive from `std::exception`, which is
  for its library to say. -/
  derived : Bool

/-- The text of what `CreamProxyMethod::execute` catches as `exception&`. -/
def SubmitConf.caught (conf : SubmitConf) (answer : RegisterAnswer) : Option String :=
  if conf.derived then answer.thrown else none

abbrev Submission (α : Type) := Dialog Call Reply CreamJob (Failure × String) α

namespace Submission

abbrev call (c : Call) : Submission (Reply c) := Dialog.ask c

def within {α : Type} (x : Prog α) : Submission α := fun job =>
  (x ()).bind fun outcome => .ret (outcome.1.mapError fun failure => (failure, ""), job)

def attempted {α : Type} (x : Submission α) : Submission (Except (Failure × String) α) := fun job =>
  (x job).bind fun outcome => .ret (.ok outcome.1, outcome.2)

def onlyIf (b : Bool) (x : Submission Unit) : Submission Unit := if b then x else pure ()

def log (event : LbEvent) (updatedb : Bool) : Submission Unit := do
  let job ← get
  let job ← within (logEvent event job false updatedb)
  modify fun _ => job

end Submission

open Submission

/-- `boost::replace_all` by the empty text. The number is what is still to be
left out of the last occurrence. -/
def eraseAll (search : List Char) : Nat → List Char → List Char
  | _, [] => []
  | more + 1, _ :: rest => eraseAll search more rest
  | 0, c :: rest =>
    if search ≠ [] ∧ search.isPrefixOf (c :: rest) then eraseAll search (search.length - 1) rest
    else c :: eraseAll search 0 rest

/-- The URL of the CREAM service without the part that all of them have, and the id of the job. -/
def completeId (postfixed url cid : String) : String :=
  String.ofList (eraseAll postfixed.toList 0 url.toList) ++ "/" ++ cid

def CreamJob.setCreamJobId (postfixed : String) (job : CreamJob) (cid : String) : CreamJob :=
  let complete :=
    if cid ≠ "" && job.creamAddress ≠ "" then completeId postfixed job.creamAddress cid
      else job.completeCreamJobId
  { job with creamJobId := cid, completeCreamJobId := complete }

def CreamJob.submitted (job : CreamJob) : Changes where
  creamJobId := some (job.creamJobId, job.completeCreamJobId)
  status := some (job.prevStatus, job.status)

/-- All that was set since the request was read, if the job was not written before. -/
def CreamJob.startedAs (job : CreamJob) (onlyStart : Bool) : Changes :=
  if onlyStart then
    { job.submitted with
      exitCode := some job.exitCode, failureReason := some job.failureReason, workerNode :=
        some job.workerNode
      sequenceCode := some job.sequenceCode, cancelSequenceCode := some job.cancelSequenceCode }
  else job.submitted

/-! ### Registration -/

def betterProxy (conf : SubmitConf) (forceDelegation : Bool) : Submission Bool := do
  let job ← get
  if job.proxyRenewable then do
    let sbp : BetterProxy ← call (.getExactBetterProxyByDN job.userDn job.myproxyAddress)
    if sbp.file = "" then do
      call (.setBetterProxy job.userDn job.userProxyFile job.myproxyAddress job.isbProxyTimeEnd 0)
      pure true
    else do
      onlyIf (sbp.expTime < job.isbProxyTimeEnd)
        (call (.updateBetterProxy job.userDn job.myproxyAddress job.userProxyFile job.isbProxyTimeEnd))
      let expires : Int ← call (.delegationExpires job.userDn job.creamAddress job.myproxyAddress)
      let now : Int ← call .now
      pure (if expires < now + 2 * conf.proxyRenewalFrequency then true else forceDelegation)
  else pure forceDelegation

def handleDelegation (conf : SubmitConf) (forceDelegation : Bool) : Submission (String × Bool) := do
  let force ← betterProxy conf forceDelegation
  let job ← get
  let delegation : Except String String ← call (.delegate job.gridJobId job.proxyRenewable force)
  match delegation with
  | .ok delegation => pure (delegation, force)
  | .error what => throw (.transient,
      "Failed to create a delegation id for job " ++ job.gridJobId ++ ": reason is " ++ what)

/-- What comes of a registration: the ids, another round with these flags, or an exception. -/
inductive Registered where
  | done (creamJobId creamUrl : String)
  | again (forceDelegation forceLease : Bool)

def retryOnce (flag : Bool) (next : Registered) (what : String) : Submission Registered :=
  if flag then throw (.transient, what) else pure next

/-- `register_job`, where CREAM has answered or thrown one of its exceptions, and `process_result`
-/
def processResult (conf : SubmitConf) (delegation : String) (forceDelegation forceLease : Bool) :
    RegisterAnswer → Submission Registered
  | .ok cid url => pure (.done cid url)
  | .delegationError err =>
    retryOnce forceDelegation (.again true forceLease)
      ("CREAM Register returned delegation error \"" ++ err ++ "\"")
  | .leaseIdMismatch err =>
    retryOnce (!conf.leaseEnabled || forceLease) (.again forceDelegation true)
      ("CREAM Register returned lease id mismatch \"" ++ err ++ "\"")
  | .failed err => throw (.transient, "CREAM Register returned error \"" ++ err ++ "\"")
  | .gridProxyDelegationException _ => do
    let job ← get
    call (.redelegate job.userProxyFile delegation)
    pure (.again forceDelegation forceLease)
  | .delegationException what =>
    retryOnce forceDelegation (.again true forceLease)
      ("CREAM Register raised DelegationException " ++ what)
  | .genericException what =>
    retryOnce (!conf.leaseEnabled || forceLease) (.again forceDelegation true)
      ("CREAM Register raised GenericFault " ++ what)
  | .unknownException => throw (.transient, "Unknown exception catched")

def registerJob (conf : SubmitConf) (delegation : String) (forceDelegation forceLease : Bool) :
    Submission Registered := do
  let job ← get
  -- no lease is ever acquired, so that its id is empty
  let result ← within (creamProxyMethod conf.failJobBlacklistedCe job.creamAddress conf.caught
    (ask (.jobRegister job.creamAddress job.gridJobId delegation "" job.userProxyFile)) 2)
  match result with
  | .error failure => throw (failure, "")
  | .ok (.answered answer) => processResult conf delegation forceDelegation forceLease answer
  | .ok _ => do
    let what : String ← call .what
    throw (.transient, "CREAM Register raised std::exception " ++ what)

/-- The loop `while( retry )`. CREAM may make it go on for ever; after so many
rounds nothing more is said. -/
def registerLoop (conf : SubmitConf) : Nat → Bool → Bool → Submission (String × String)
  | 0, _, _ => do
    call .hang
    pure ("", "")
  | rounds + 1, forceDelegation, forceLease => do
    let delegated ← handleDelegation conf forceDelegation
    let registered ← registerJob conf delegated.1 delegated.2 forceLease
    match registered with
    | .done cid url => pure (cid, url)
    | .again forceDelegation forceLease => registerLoop conf rounds forceDelegation forceLease

def registerAnew (conf : SubmitConf) (rounds : Nat) : Submission (String × String) := do
  Submission.log .wmsDequeued true
  Submission.log .creamTransferStart true
  let ids ← registerLoop conf rounds false false
  let job ← get
  call (.insertStartedJob ids.2 job.gridJobId ids.1)
  modify fun job => CreamJob.setCreamJobId conf.creamUrlPostfix
    { job.setStatus .registered with completeCreamJobId := completeId conf.creamUrlPostfix ids.2 ids.1 } ids.1
  let job ← get
  call (.updateJob job.gridJobId job.submitted)
  pure ids

def stored : Submission (String × String) := do
  let job ← get
  let found : Option CreamJob ← call (.getJobByGid job.gridJobId)
  pure ((found.map fun row => (row.creamJobId, row.creamAddress)).getD ("", ""))

/-! ### The command -/

def startJob (conf : SubmitConf) (cid url : String) : Submission Unit := do
  let job ← get
  let result ← within (creamProxyMethod conf.failJobBlacklistedCe url (fun _ => none)
    (ask (.jobStart url cid job.userProxyFile)) 6)
  match result with
  | .ok (.answered none) => pure ()
  | .ok (.answered (some reason)) => throw (.transient, "CREAM Start failed due to error " ++ reason)
  | _ => do
    let what : String ← call .what
    throw (.transient, "CREAM Start raised exception " ++ what)

/-- `UpdateJob` is executed once more with the values it had before. -/
def recordStarted (conf : SubmitConf) (onlyStart : Bool) (cid : String) : Submission Unit := do
  call (.insertStat .idle)
  modify fun job => CreamJob.setStatus (job.setCreamJobId conf.creamUrlPostfix cid) .idle
  let job ← get
  call (.updateJob job.gridJobId (job.startedAs onlyStart))
  Submission.log .creamTransferOk true
  call (.updateJob job.gridJobId (job.startedAs onlyStart))

def tryToSubmit (conf : SubmitConf) (rounds : Nat) (onlyStart : Bool) : Submission Unit := do
  let job ← get
  let now : Int ← call .now
  if job.isbProxyTimeEnd ≤ now then
    throw (.transient, "Authentication error: proxyfile [" ++ job.userProxyFile ++
      "] is expired! Skipping submission of the job [" ++ job.gridJobId ++ "]")
  else do
    let ids ← (if onlyStart then stored else registerAnew conf rounds)
    call (.insertStat .registered)
    startJob conf ids.1 ids.2
    recordStarted conf onlyStart ids.1

def createAndCount : Submission Unit := do
  let job ← get
  call (.createJob job)
  if job.proxyRenewable then
    call (.incrementUserProxyCounter job.userDn job.myproxyAddress job.userProxyFile job.isbProxyTimeEnd)
  else call (.setUserProxyIfLonger job.userDn job.userProxyFile job.isbProxyTimeEnd)

/-- The handlers of `execute`; a job that was not submitted is taken out of the table. -/
def conclude : Except (Failure × String) Unit → Submission Unit
  | .ok _ => pure ()
  | .error (.fatal, what) => do
    Submission.log (.creamTransferFail ("Transfer to CREAM failed due to exception: " ++ what)) true
    modify fun job => job.setFailureReason
      ("Transfer to CREAM [" ++ job.creamAddress ++ "] failed due to exception: " ++ what)
    Submission.log .jobAborted false
    let job ← get
    within (decrement job)
    call (.removeJobByGid job.gridJobId)
  | .error (.transient, what) => do
    modify fun job => job.setFailureReason ("Transfer to CREAM failed due to exception: " ++ what)
    Submission.log (.creamTransferFail what) false
    Submission.log .jobDoneFailed false
    let job ← get
    within (resubmitJob job ("Resubmitting because of exception " ++ what ++ " CEUrl [" ++
      job.creamAddress ++ "]"))
    within (decrement job)
    call (.removeJobByGid job.gridJobId)
  | .error (.blackListFailJob, _) => do
    modify fun job => CreamJob.setStatus (job.setFailureReason ("Job scheduled to the blacklisted CE [" ++
      job.creamAddress ++ "] will be aborted immediately as specified in the WMS configuration")) .aborted
    Submission.log .jobAborted false

def submission (conf : SubmitConf) (rounds : Nat) (onlyStart : Bool) : Submission Unit := do
  onlyIf (!onlyStart) createAndCount
  let outcome ← attempted (tryToSubmit conf rounds onlyStart)
  conclude outcome

def submitFound (conf : SubmitConf) (rounds : Nat) (gid : String) : Option JobStatus → Submission Unit
  | none => submission conf rounds false
  | some .unknown => do
    call (.removeJobByGid gid)
    submission conf rounds false
  | some .registered => submission conf rounds true
  | some _ => pure ()

/-- `IceCommandSubmit::execute`. Its last call, after all else, removes the request. -/
def submit (conf : SubmitConf) (rounds : Nat) : Submission Unit := do
  let job ← get
  let found : Option CreamJob ← call (.getJobByGid job.gridJobId)
  submitFound conf rounds job.gridJobId (found.map CreamJob.status)
  call .removeRequest

/-! ### Which calls are made -/

section Only

variable {α : Type} {allowed : Call → Prop} {γ : Type} {m : Monitor Call Reply γ} {g : γ} {job : CreamJob}

theorem within_obeys {x : Prog α} {post : γ → Except (Failure × String) α → CreamJob → Prop}
    (obeys : x.Obeys m g () fun g' outcome _ =>
      post g' (outcome.mapError fun failure => (failure, "")) job) :
    (within x).Obeys m g job post :=
  Interact.obeys_bind.mpr obeys

theorem attempted_obeys {x : Submission α}
    {post : γ → Except (Failure × String) (Except (Failure × String) α) → CreamJob → Prop}
    (obeys : x.Obeys m g job fun g' outcome job' => post g' (.ok outcome) job') :
    (attempted x).Obeys m g job post :=
  Interact.obeys_bind.mpr obeys

theorem within_only {x : Prog α} (only : x.Only allowed) : (within x).Only allowed :=
  fun _ => within_obeys ((only ()).mono fun _ _ _ _ => trivial)

theorem onlyIf_only {b : Bool} {x : Submission Unit} (only : x.Only allowed) :
    (onlyIf b x).Only allowed := by
  unfold onlyIf
  split
  · exact only
  · exact .pure _

def Logging : Call → Prop
  | .log _ _ _ | .updateJob _ _ => True
  | _ => False

theorem logEvent_logging (event : LbEvent) (job : CreamJob) (useCancel updatedb : Bool) :
    (logEvent event job useCancel updatedb).Only Logging := logEvent_only trivial fun _ _ => trivial

theorem log_logging (event : LbEvent) (updatedb : Bool) : (Submission.log event updatedb).Only Logging :=
  .bind .get fun _ => .bind (within_only (logEvent_logging _ _ _ _)) fun _ => .modify _

theorem log_then (ignores : m.Ignores g Logging)
    {event : LbEvent} {updatedb : Bool} {f : Unit → Submission α}
      {post : γ → Except (Failure × String) α → CreamJob → Prop}
    (next : ∀ code, (f ()).Obeys m g { job with sequenceCode := code } post) :
    (Submission.log event updatedb >>= f).Obeys m g job post := by
  have told (g' : γ) (same : g' = g) (code : String) :
      (f ()).Obeys m g' { job with sequenceCode := code } post := same ▸ next code
  have writes (g' : γ) (same : g' = g) (changes : Changes) :
      m.allows g' (.updateJob job.gridJobId changes) ∧
      ∀ reply, m.after g' (.updateJob job.gridJobId changes) reply = g := by
    subst same
    exact ignores _ trivial
  unfold Submission.log
  rw [bind_bind]
  refine .gets ?_
  rw [bind_bind]
  refine obeys_bind.mpr (within_obeys (.asks (ignores (.log event job.gridJobId false) trivial).1
    fun code _ => ?_))
  have same := (ignores (.log event job.gridJobId false) trivial).2 code
  cases code with
  | none => exact told _ same job.sequenceCode
  | some code =>
    cases updatedb with
    | false => exact told _ same code
    | true =>
      obtain ⟨allowed, stays⟩ := writes _ same { sequenceCode := some code }
      exact ⟨allowed, fun _ _ => told _ (stays _) code⟩

end Only

def Registering : Call → Prop
  | .getJobByGid _ | .updateJob _ _ | .getExactBetterProxyByDN _ _ | .setBetterProxy _ _ _ _ _ => True
  | .updateBetterProxy _ _ _ _ | .insertStartedJob _ _ _ | .log _ _ _ | .isBlacklisted
      _ | .blacklist _ => True
  | .now | .what | .delegationExpires _ _ _ | .delegate _ _ _ | .redelegate _ _ | .jobRegister _ _ _
      _ _ | .hang => True
  | _ => False

theorem logging_registering (c : Call) (logging : Logging c) : Registering c := by
  cases c with
  | log | updateJob => trivial
  | _ => exact logging.elim

section Registering

variable (conf : SubmitConf)

theorem betterProxy_registering (force : Bool) : (betterProxy conf force).Only Registering := by
  refine .bind .get fun job => ?_
  split
  · refine .bind (.ask trivial) fun sbp => ?_
    split
    · exact .bind (.ask trivial) fun _ => .pure _
    · exact .bind (onlyIf_only (.ask trivial)) fun _ => .bind (.ask trivial) fun _ => .bind
        (.ask trivial) fun _ => .pure _
  · exact .pure _

theorem handleDelegation_registering (force : Bool) : (handleDelegation conf force).Only Registering := by
  refine .bind (betterProxy_registering conf force) fun _ => .bind .get fun _ => .bind
    (.ask trivial) fun delegation => ?_
  cases delegation with
  | ok delegation => exact .pure _
  | error what => exact .throw _

theorem retryOnce_only {allowed : Call → Prop} (flag : Bool) (next : Registered) (what : String) :
    (retryOnce flag next what).Only allowed := by
  unfold retryOnce
  split
  · exact .throw _
  · exact .pure _

theorem processResult_registering (delegation : String) (forceDelegation forceLease : Bool)
    (answer : RegisterAnswer) :
    (processResult conf delegation forceDelegation forceLease answer).Only Registering := by
  cases answer with
  | ok => exact .pure _
  | delegationError | leaseIdMismatch | delegationException | genericException =>
      exact retryOnce_only _ _ _
  | failed | unknownException => exact .throw _
  | gridProxyDelegationException => exact .bind .get fun _ => .bind (.ask trivial) fun _ => .pure _

theorem registerJob_registering (delegation : String) (forceDelegation forceLease : Bool) :
    (registerJob conf delegation forceDelegation forceLease).Only Registering := by
  have raised : (do
      let what : String ← call .what
      throw (.transient, "CREAM Register raised std::exception " ++ what) :
        Submission Registered).Only Registering :=
    .bind (.ask trivial) fun _ => .throw _
  refine .bind .get fun job =>
    .bind (within_only (creamProxyMethod_only trivial trivial (.ask trivial) _)) fun result => ?_
  cases result with
  | error failure => exact .throw _
  | ok result =>
    cases result with
    | answered answer => exact processResult_registering conf _ _ _ _
    | timedOut | connectionLost | exception => exact raised

theorem registerLoop_registering (rounds : Nat) (forceDelegation forceLease : Bool) :
    (registerLoop conf rounds forceDelegation forceLease).Only Registering := by
  induction rounds generalizing forceDelegation forceLease with
  | zero => exact .bind (.ask trivial) fun _ => .pure _
  | succ rounds ih =>
    refine .bind (handleDelegation_registering conf _) fun _ => .bind
      (registerJob_registering conf _ _ _) fun registered => ?_
    cases registered with
    | done cid url => exact .pure _
    | again forceDelegation forceLease => exact ih _ _

theorem registerAnew_registering (rounds : Nat) : (registerAnew conf rounds).Only Registering := by
  have logs (event : LbEvent) : (Submission.log event true).Only Registering :=
    (log_logging event true).mono logging_registering
  refine .bind (logs _) fun _ => .bind (logs _) fun _ => .bind
    (registerLoop_registering conf _ _ _) fun ids => ?_
  exact .bind .get fun _ => .bind (.ask trivial) fun _ => .bind (.modify _) fun _ => .bind .get fun _ =>
    .bind (.ask trivial) fun _ => .pure _

theorem ids_registering (rounds : Nat) (onlyStart : Bool) :
    (if onlyStart then stored else registerAnew conf rounds).Only Registering := by
  cases onlyStart with
  | true => exact .bind .get fun _ => .bind (.ask trivial) fun _ => .pure _
  | false => exact registerAnew_registering conf rounds

end Registering

end Wms.Ice
