import Wms.Lib.Pool

/-! The operations that start, cancel, read out and purge a job.

What an operation asks of its surroundings is a call: the lock files of the job, its events and its
status in the logging and bookkeeping service, its files, the input of the workload manager, and
every other step that may raise an exception. Places that do the same are told apart, so that each
may be answered in its own way.
-/

set_option autoImplicit false

namespace Wms.Interface

open Lib Dialog

inductive ErrorCode where
  | operationNotAllowed
  | jobNotFound
  | proxyExpired
  | jdlParsing
  | standard
  deriving DecidableEq, Repr

/-- What is raised, as far as the handlers tell it apart. -/
inductive Raise where
  | requestAdException
  | jobOperationException (code : ErrorCode)
  | other
  deriving DecidableEq, Repr

inductive LockFile where
  | jobStart
  | getOutputFileList
  deriving DecidableEq, Repr

inductive JobFile where
  | directory
  | jdlToStart
  | maradona
  | flagUnzip
  | flagRegisterSubJobs
  deriving DecidableEq, Repr

/-! ### Events and status -/

inductive EnqueuedResult where
  | start
  | ok
  | fail
  deriving DecidableEq, Repr

inductive EventType where
  | regJob (parent : String)
  | userTag
  | accepted
  | enqueued (result : EnqueuedResult)
  | abort
  | cancel
  | other
  deriving DecidableEq, Repr

structure JobEvent where
  type : EventType
  seqcode : String
  deriving DecidableEq, Repr

inductive JobState where
  | submitted
  | waiting
  | ready
  | scheduled
  | running
  | done
  | cleared
  | aborted
  | cancelled
  | purged
  deriving DecidableEq, Repr

structure JobStatus where
  status : JobState
  cancelling : Bool
  hasParent : Bool
  childrenNum : Nat
  doneCodeFailed : Bool
  deriving DecidableEq, Repr

inductive LbCode where
  | success
  | einval
  | gss
  | other
  deriving DecidableEq, Repr

inductive LogSite where
  | accept
  | enqueueStart
  | enqueueFail
  | abort
  | nodeAbort (node : Nat)
  | enqueueOk
  | deliverFail
  | expiredAbort
  | cancel
  deriving DecidableEq, Repr

def LogSite.event : LogSite → Option EventType
  | .accept => some .accepted
  | .enqueueStart => some (.enqueued .start)
  | .enqueueFail | .deliverFail => some (.enqueued .fail)
  | .enqueueOk => some (.enqueued .ok)
  | .abort | .expiredAbort => some .abort
  | .nodeAbort _ => none
  | .cancel => some .cancel

/-! ### Calls -/

/-- Steps that do nothing to what the operations share, but may raise. -/
inductive Stage where
  | initWMProxyOperation
  | authZ
  | checkOwnership
  | checkJobDrain
  | vomsAuthN
  | logger
  | setSequenceCode
  | readJdl
  | lastEventSeqCode
  | getType
  | jobAd
  | destURI
  | inputSandbox
  | outputSandbox
  | outputSBDestURI
  | addOutputSBDestURI (counter : Nat) (uri : String)
  | outputSBBaseDestURI
  | perusal
  | zippedISB
  | untarFile (index : Nat)
  | setFlagFile (file : JobFile)
  | logListener
  | requirements
  | sequenceCode
  | toString
  | dagAd
  | nodes
  | managedir
  | node (index : Nat) (stage : Stage)
  | setDefaultReq
  | replaceNode
  | submissionStrings
  | vomsProxy
  | setLoggingJob
  | registerSubJobs
  | getNodes
  | wmp2wmInit
  | submitCommand
  | cancelCommand
  | unregisterProxyRenewal
  | listFiles
  deriving DecidableEq, Repr

inductive Call where
  | stage (stage : Stage)
  | operationLock (file : LockFile)
  | operationUnlock (file : LockFile)
  | isOperationLocked (file : LockFile)
  | fileExists (file : JobFile)
  | log (site : LogSite) (lap : Nat)
  | logAbortEventSync (lap : Nat)
  | queryEvents
  | queryAbort
  | getStatus
  | jobPurgeLogger
  | doPurge (force : Bool)
  | deliver
  | writeTextFile
  | rename
  deriving DecidableEq, Repr

/-- `none` for a step that does not raise. -/
def Reply : Call → Type
  | .stage _ => Option Raise
  | .operationLock _ => Option Raise
  | .operationUnlock _ => Unit
  | .isOperationLocked _ => Option Bool
  | .fileExists _ => Bool
  | .log _ _ => LbCode
  | .logAbortEventSync _ => Bool
  | .queryEvents => Option (List JobEvent)
  | .queryAbort => Option Bool
  | .getStatus => Option JobStatus
  | .jobPurgeLogger => Option Unit
  | .doPurge _ => Option Bool
  | .deliver => Bool
  | .writeTextFile => Bool
  | .rename => Bool

abbrev Operation := Dialog Call Reply Unit Raise

def ask (call : Call) : Operation (Reply call) := Dialog.ask call

/-! The calls with the types of their replies. -/

def stageReply (step : Stage) : Operation (Option Raise) := ask (.stage step)

def lockReply (file : LockFile) : Operation (Option Raise) := ask (.operationLock file)

def operationUnlock (file : LockFile) : Operation Unit := ask (.operationUnlock file)

def lockedReply (file : LockFile) : Operation (Option Bool) := ask (.isOperationLocked file)

def fileExists (file : JobFile) : Operation Bool := ask (.fileExists file)

def logOnce (site : LogSite) (lap : Nat) : Operation LbCode := ask (.log site lap)

def abortOnce (lap : Nat) : Operation Bool := ask (.logAbortEventSync lap)

def queryEvents : Operation (Option (List JobEvent)) := ask .queryEvents

def queryAbort : Operation (Option Bool) := ask .queryAbort

def statusReply : Operation (Option JobStatus) := ask .getStatus

def jobPurgeLogger : Operation (Option Unit) := ask .jobPurgeLogger

def doPurge (force : Bool) : Operation (Option Bool) := ask (.doPurge force)

def deliver : Operation Bool := ask .deliver

def writeTextFile : Operation Bool := ask .writeTextFile

def rename : Operation Bool := ask .rename

/-! What is raised by a reply. -/

def orRaise : Option Raise → Operation Unit
  | none => pure ()
  | some e => throw e

def expect {α : Type} : Option α → Operation α
  | some a => pure a
  | none => throw .other

def stage (step : Stage) : Operation Unit := do
  orRaise (← stageReply step)

def operationLock (file : LockFile) : Operation Unit := do
  orRaise (← lockReply file)

def isOperationLocked (file : LockFile) : Operation Bool := do
  expect (← lockedReply file)

def getStatus : Operation JobStatus := do
  expect (← statusReply)

def onlyIf (condition : Bool) (x : Operation Unit) : Operation Unit :=
  if condition then x else pure ()

/-! ### The event logger -/

def logRetryCount : Nat := 3

/-- The loop of `logEvent` with `testAndLog`; two of the codes of an event that
was not logged are passed over. -/
def logLaps (site : LogSite) (lap : Nat) : Nat → Operation Unit
  | 0 => throw .other
  | more + 1 => do
    match ← logOnce site lap with
    | .success | .einval | .gss => pure ()
    | .other => logLaps site (lap + 1) more

def logEvent (site : LogSite) : Operation Unit := logLaps site 0 (logRetryCount + 1)

def abortLaps (lap : Nat) : Nat → Operation Bool
  | 0 => pure false
  | more + 1 => do
    if ← abortOnce lap then pure true else abortLaps (lap + 1) more

def logAbortEventSync : Operation Bool := abortLaps 0 logRetryCount

/-- What `isStartAllowed` gathers: the parent, and whether the job has been accepted or enqueued. -/
def scanEvents : List JobEvent → String → Bool → Except Raise (String × Bool)
  | [], parent, flag => .ok (parent, flag)
  | event :: rest, parent, flag =>
    match event.type with
    | .regJob parent' => scanEvents rest (if parent' = "" then parent else parent') flag
    | .userTag => scanEvents rest parent flag
    | .accepted | .enqueued _ => scanEvents rest parent true
    | .abort | .cancel | .other => .error (.jobOperationException .operationNotAllowed)

/-- `isStartAllowed`: the sequence code to go on from, and the parent. -/
def isStartAllowed (events : List JobEvent) : Except Raise (String × String) := do
  let (parent, flag) ← scanEvents events "" false
  match events.getLast? with
  | none => .ok ("", parent)
  | some last =>
    if flag then
      if last.type = .enqueued .fail then .ok (last.seqcode, parent)
      else .error (.jobOperationException .operationNotAllowed)
    else .ok (last.seqcode, parent)

def startAllowed (events : List JobEvent) : Except Raise Unit := do
  let (seqcode, parent) ← isStartAllowed events
  if seqcode = "" then .error (.jobOperationException .operationNotAllowed)
  else if parent ≠ "" then .error (.jobOperationException .operationNotAllowed)
  else .ok ()

/-! ### Purging -/

/-- `jobpurge`, which is never called to check the state. -/
def jobpurge : Operation Unit := do
  expect (← jobPurgeLogger)
  let status ← getStatus
  let _ ← expect (← doPurge status.hasParent)

/-- An abort is logged, and the job is purged unless a start is seen. -/
def abortAndPurge : Operation Unit := do
  if ← logAbortEventSync then do
    let locked ← isOperationLocked .jobStart
    onlyIf (!locked) jobpurge
  else pure ()

/-! ### Submission -/

structure Conf where
  asyncJobStart : Bool
  maxInputSandboxFiles : Int
  maxOutputSandboxFiles : Int
  destURI : String → String
  hasWildCards : String → Bool

inductive JobType where
  | normal
  | interactive
  | checkpointable
  deriving DecidableEq, Repr

structure JobAd where
  jobId : String
  inputSB : Option (List String)
  outputSB : Option (List String)
  osbDestURI : Option (List String)
  osbBaseDestURI : Option String
  puFileEnable : Bool
  zippedISB : Option (List String)
  jobType : JobType

structure NodeAd where
  ad : JobAd
  /-- The input sandbox after `getSubmissionStrings`, which adds what the node inherits. -/
  submissionInputSB : Option (List String)

structure DagAd where
  inputSB : Option (List String)
  osbBaseDestURI : Option String
  zippedISB : Option (List String)
  nodes : List NodeAd

inductive Jdl where
  | job (ad : JobAd)
  | dag (ad : DagAd)

def limitReached : Operation Unit := do
  abortAndPurge
  throw (.jobOperationException .operationNotAllowed)

def checkInputSize (conf : Conf) (size : Nat) : Operation Unit :=
  onlyIf (size > conf.maxInputSandboxFiles) limitReached

def computeOutputSBDestURIBase (outputsb : List String) (baseuri : String) : List String :=
  outputsb.map fun path => baseuri ++ "/" ++ (path.splitOn "/").getLastD ""

def computeOutputSBDestURI (osbdesturi : List String) (destUri : String) : List String :=
  osbdesturi.map fun path =>
    if (path.splitOn "://").length > 1 then path else destUri ++ "/output/" ++ path

/-- The destinations of the output sandbox; a node takes the base from its DAG before the default.
-/
def osbdesturi (conf : Conf) (parentDestUri : Option String) (ad : JobAd) (outputsb : List String) :
    List String :=
  match ad.osbDestURI with
  | some uris => computeOutputSBDestURI uris (conf.destURI ad.jobId)
  | none => computeOutputSBDestURIBase outputsb
      ((ad.osbBaseDestURI.or parentDestUri).getD (conf.destURI ad.jobId ++ "/output"))

/-- The loop over the destinations; without a limit none is added. -/
def addDestURIs (conf : Conf) (within : Stage → Stage) (counter : Nat) : List String → Operation Unit
  | [] => pure ()
  | uri :: rest =>
    if ((counter + 1 : Nat) : Int) ≤ conf.maxOutputSandboxFiles then do
      stage (within (.addOutputSBDestURI (counter + 1) uri))
      addDestURIs conf within (counter + 1) rest
    else if conf.maxOutputSandboxFiles > 0 then limitReached
    else addDestURIs conf within (counter + 1) rest

def inputSandbox (conf : Conf) (jad : JobAd) : Operation Unit :=
  match jad.inputSB with
  | some files =>
    if conf.maxInputSandboxFiles > 0 then do
      stage .inputSandbox
      checkInputSize conf files.length
    else pure ()
  | none => pure ()

def outputSandbox (conf : Conf) (jad : JobAd) : Operation Unit :=
  match jad.outputSB with
  | some files => do
    stage .outputSandbox
    if files.any conf.hasWildCards then
      onlyIf jad.osbBaseDestURI.isNone (stage .outputSBBaseDestURI)
    else do
      stage .outputSBDestURI
      addDestURIs conf id 0 (osbdesturi conf none jad files)
  | none => pure ()

def untarFiles (index : Nat) : List String → Operation Unit
  | [] => pure ()
  | _ :: rest => do
    stage (.untarFile index)
    untarFiles (index + 1) rest

def unzip : Option (List String) → Operation Unit
  | some files => do
    if ← fileExists .flagUnzip then pure ()
    else do
      stage .zippedISB
      untarFiles 0 files
      stage (.setFlagFile .flagUnzip)
  | none => pure ()

def checkJobType : JobType → Operation Unit
  | .interactive => stage .logListener
  | .checkpointable => throw (.jobOperationException .jdlParsing)
  | .normal => pure ()

def processJob (conf : Conf) (jad : JobAd) : Operation Unit := do
  stage .jobAd
  stage .destURI
  inputSandbox conf jad
  outputSandbox conf jad
  onlyIf jad.puFileEnable (stage .perusal)
  unzip jad.zippedISB
  checkJobType jad.jobType
  stage .requirements
  stage .sequenceCode
  stage .toString

def nodeOutputSandbox (conf : Conf) (dag : DagAd) (index : Nat) (node : NodeAd) : Operation Unit :=
  match node.ad.outputSB with
  | some files => do
    stage (.node index .outputSBDestURI)
    addDestURIs conf (.node index) 0
      (osbdesturi conf (dag.osbBaseDestURI.filter (· ≠ "")) node.ad files)
  | none => pure ()

def processNode (conf : Conf) (dag : DagAd) (index : Nat) (node : NodeAd) : Operation Unit := do
  stage (.node index .jobAd)
  stage (.node index .destURI)
  onlyIf (node.ad.inputSB.isNone && conf.maxInputSandboxFiles > 0)
    (checkInputSize conf (dag.inputSB.getD []).length)
  stage (.node index .requirements)
  nodeOutputSandbox conf dag index node
  stage (.node index .setDefaultReq)
  onlyIf node.ad.puFileEnable (stage (.node index .perusal))
  onlyIf (node.ad.jobType = .checkpointable) (throw (.jobOperationException .jdlParsing))
  stage (.node index .replaceNode)

def processNodes (conf : Conf) (dag : DagAd) (index : Nat) : List NodeAd → Operation Unit
  | [] => pure ()
  | node :: rest => do
    processNode conf dag index node
    processNodes conf dag (index + 1) rest

def nodeInputSandbox (conf : Conf) (node : NodeAd) : Operation Unit :=
  match node.submissionInputSB with
  | some files => checkInputSize conf files.length
  | none => pure ()

def checkNodes (conf : Conf) (index : Nat) : List NodeAd → Operation Unit
  | [] => pure ()
  | node :: rest => do
    stage (.node index .inputSandbox)
    nodeInputSandbox conf node
    checkNodes conf (index + 1) rest

def registerSubJobs : Operation Unit := do
  if ← fileExists .flagRegisterSubJobs then pure ()
  else do
    stage .registerSubJobs
    stage (.setFlagFile .flagRegisterSubJobs)

def processDag (conf : Conf) (dag : DagAd) : Operation Unit := do
  stage .nodes
  stage .managedir
  stage .inputSandbox
  processNodes conf dag 0 dag.nodes
  stage .submissionStrings
  onlyIf (conf.maxInputSandboxFiles > 0) (checkNodes conf 0 dag.nodes)
  stage .vomsProxy
  stage .setLoggingJob
  registerSubJobs
  unzip dag.zippedISB
  stage .sequenceCode
  stage .toString

/-- `WMP2WM::submit`; a delivery that fails, or one that cannot be logged, is only logged. -/
def wmp2wmSubmit : Operation Unit := do
  stage .submitCommand
  tryCatch
    (do
      if ← deliver then logEvent .enqueueOk else throw .other)
    fun _ => logEvent .deliverFail

def unlockUnless (issubmit : Bool) : Operation Unit := onlyIf (!issubmit) (operationUnlock .jobStart)

def deliverJob (issubmit : Bool) : Operation Unit := do
  if ← expect (← queryAbort) then throw (.jobOperationException .operationNotAllowed)
  else do
    stage .wmp2wmInit
    wmp2wmSubmit
    if ← writeTextFile then do
      -- whether the file could be renamed is not looked at
      let _ ← rename
      unlockUnless issubmit
    else throw .other

/-- The handlers for a job; the value tells whether `submit` goes on. -/
def handleJob (conf : Conf) (issubmit : Bool) : Raise → Operation Bool
  | .requestAdException => do
    logEvent .enqueueFail
    logEvent .abort
    unlockUnless issubmit
    if conf.asyncJobStart then pure true else throw .requestAdException
  | .jobOperationException code => do
    logEvent .enqueueFail
    unlockUnless issubmit
    if conf.asyncJobStart then pure false else throw (.jobOperationException code)
  | .other => do
    logEvent .enqueueFail
    unlockUnless issubmit
    if conf.asyncJobStart then pure false else throw (.jobOperationException .standard)

def abortNodes (index : Nat) : List NodeAd → Operation Unit
  | [] => pure ()
  | _ :: rest => do
    stage (.node index .setLoggingJob)
    logEvent (.nodeAbort index)
    abortNodes (index + 1) rest

def handleDag (dag : DagAd) (issubmit : Bool) : Raise → Operation Bool
  | .requestAdException => do
    logEvent .enqueueFail
    logEvent .abort
    stage .getNodes
    abortNodes 0 dag.nodes
    unlockUnless issubmit
    throw .requestAdException
  | .jobOperationException code => do
    logEvent .enqueueFail
    unlockUnless issubmit
    throw (.jobOperationException code)
  | .other => do
    logEvent .enqueueFail
    unlockUnless issubmit
    throw (.jobOperationException .standard)

def prepare (conf : Conf) (issubmit : Bool) : Jdl → Operation Bool
  | .job jad => tryCatch (do processJob conf jad; pure true) (handleJob conf issubmit)
  | .dag dag => do
    stage .dagAd
    tryCatch (do processDag conf dag; pure true) (handleDag dag issubmit)

/-- `jobSubmit` goes on from its own events, `jobStart` takes the lock. -/
def openSubmit (issubmit : Bool) : Operation Unit :=
  if issubmit then stage .lastEventSeqCode else operationLock .jobStart

def submit (conf : Conf) (jdl : Jdl) (issubmit : Bool) : Operation Unit := do
  openSubmit issubmit
  logEvent .accept
  logEvent .enqueueStart
  stage .getType
  let goesOn ← prepare conf issubmit jdl
  onlyIf goesOn (deliverJob issubmit)

/-! ### The operations -/

def handleExpired (e : Raise) : Operation Unit := do
  onlyIf (e = .jobOperationException .proxyExpired) (do
    logEvent .expiredAbort
    jobpurge)
  throw e

def jobStart (conf : Conf) (jdl : Jdl) : Operation Unit := do
  stage .initWMProxyOperation
  tryCatch (stage .authZ) handleExpired
  if ← fileExists .directory then do
    stage .checkJobDrain
    stage .vomsAuthN
    stage .logger
    match startAllowed (← expect (← queryEvents)) with
    | .error e => throw e
    | .ok () =>
      stage .setSequenceCode
      if ← fileExists .jdlToStart then do
        stage .readJdl
        submit conf jdl false
      else throw (.jobOperationException .jobNotFound)
  else throw (.jobOperationException .jobNotFound)

def cancelInManager : Operation Unit := do
  stage .cancelCommand
  logEvent .cancel

def jobCancel : Operation Unit := do
  stage .initWMProxyOperation
  stage .authZ
  stage .vomsAuthN
  stage .logger
  let status ← getStatus
  if status.cancelling then throw (.jobOperationException .operationNotAllowed)
  else do
    stage .readJdl
    stage .setSequenceCode
    stage .wmp2wmInit
    match status.status with
    | .submitted =>
      if status.hasParent then cancelInManager
      else do
        abortAndPurge
        stage .unregisterProxyRenewal
    | .waiting | .ready | .scheduled | .running => cancelInManager
    | .done =>
      if status.doneCodeFailed then cancelInManager
      else throw (.jobOperationException .operationNotAllowed)
    | .cleared | .aborted | .cancelled | .purged =>
      throw (.jobOperationException .operationNotAllowed)

/-- `getOutputFileList` looks at the status only if the output is not known to be there. -/
def checkOutput : Operation Unit := do
  if ← fileExists .maradona then pure ()
  else do
    stage .logger
    let status ← getStatus
    onlyIf (status.childrenNum ≠ 0 || status.status = .done && status.doneCodeFailed ||
      status.status ≠ .done && status.status ≠ .aborted)
      (throw (.jobOperationException .operationNotAllowed))

/-- `getOutputFileList`; a handler that runs before the lock is taken has nothing to leave. -/
def getOutputFileList : Operation Unit := do
  stage .initWMProxyOperation
  stage .checkOwnership
  operationLock .getOutputFileList
  tryCatch
    (do
      checkOutput
      stage .listFiles)
    fun e => do
      operationUnlock .getOutputFileList
      throw e
  operationUnlock .getOutputFileList

def jobPurge : Operation Unit := do
  stage .initWMProxyOperation
  stage .authZ
  if ← fileExists .directory then do
    if ← isOperationLocked .getOutputFileList then
      throw (.jobOperationException .operationNotAllowed)
    else jobpurge
  else throw (.jobOperationException .jobNotFound)

/-! ### A plain job, and surroundings in which nothing fails -/

def plainConf (asyncJobStart : Bool) : Conf where
  asyncJobStart := asyncJobStart
  maxInputSandboxFiles := 0
  maxOutputSandboxFiles := 0
  destURI := id
  hasWildCards _ := false

def plainJob : Jdl := .job {
  jobId := "job"
  inputSB := none
  outputSB := none
  osbDestURI := none
  osbBaseDestURI := none
  puFileEnable := false
  zippedISB := none
  jobType := .normal }

def submittedStatus : JobStatus := ⟨.submitted, false, false, 0, false⟩

def calm : (call : Call) → Reply call
  | .stage _ => none
  | .operationLock _ => none
  | .operationUnlock _ => ()
  | .isOperationLocked _ => some false
  | .fileExists _ => true
  | .log _ _ => .success
  | .logAbortEventSync _ => true
  | .queryEvents => some [⟨.regJob "", "seqcode"⟩]
  | .queryAbort => some false
  | .getStatus => some submittedStatus
  | .jobPurgeLogger => some ()
  | .doPurge _ => some true
  | .deliver => true
  | .writeTextFile => true
  | .rename => true

end Wms.Interface
