import Wms.Lib.Interact
import Wms.Manager.Submission

/-! One activation of `SubmitProcessor` (`submit_request.cpp`).

The activation asks its surroundings: the proxy, the clock, the L&B server, the directory
of the job, the workload manager proper and the event queue. Every answer is possible. What
an activation does is the list of calls it makes.
-/

set_option autoImplicit false

namespace Wms.Manager

open Lib Function

/-- A graph of jobs: the vertices in the order they are visited and, for each, the sources
of its incoming edges. -/
structure Dag (N : Type) where
  nodes : List N
  parents : N → List N
  nodup : nodes.Nodup
  closed : ∀ n ∈ nodes, ∀ p ∈ parents n, p ∈ nodes

inductive JobType (N : Type) where
  | single
  | dag (graph : Dag N)
  | collection (nodes : List N)

inductive Command where
  | jobsubmit
  | jobresubmit
  deriving DecidableEq, Repr

inductive Checkpoint where
  | start
  | limbo
  | pending
  deriving DecidableEq, Repr

structure SubmitState (N : Type) where
  command : Command
  id : String
  type : JobType N
  ad : Ad
  lastCheckpointing : Checkpoint
  collectionPending : List N
  createdAt : Int

/-! ### The surroundings -/

inductive Log where
  | matched (ceId : String)
  | enqueuedStart
  | enqueuedOk
  | transferStart
  | transferOk
  | running (host : String)
  | pending (reason : String)
  | abort (reason : String)
  | cancelled
  | doneCancelled
  | doneOk (reason : String)
  | resubmissionShallow (token : Bytes)
  | resubmissionDeep (token : Option Bytes)
  deriving DecidableEq, Repr

/-- `lb_log` reports whether the event was logged; its retry with the host proxy may throw. -/
inductive LogReply where
  | logged
  | lost
  | noContext (code : Int)
  deriving DecidableEq, Repr

inductive ProxyFault where
  | missing (what : String)
  | invalid (what : String)
  deriving DecidableEq, Repr

inductive FsErrno where
  | noEntry
  | other (code : Nat)
  deriving DecidableEq, Repr

inductive Call (N : Type) where
  | isProxyExpired
  | time
  | log (entry : Log)
  | ownStatus
  | ownRecoveryEvents
  | interestingEvents
  | originalJdl
  | cancelTokenExists
  | unlinkCancelToken
  | purge
  | scan
  | rename (source target : Bytes)
  | fileExists (file : Bytes)
  | create (file : Bytes)
  | unlinkMaradona
  | submit (isReplan : Bool)
  | submitCollection
  | scheduleSelf (delay : Int)
  | nodeStatus (node : N)
  | nodeRecoveryEvents (node : N)
  | createContext (node : N)
  | scheduleNode (node : N)
  | logNodeAbort (node : N) (reason : String)
  | unlinkNodeCancelToken (node : N)
  | children
  | logChildAbort (child : N) (reason : String)
  deriving DecidableEq

@[reducible] def Reply {N : Type} : Call N → Type
  | .isProxyExpired => Except ProxyFault Bool
  | .time => Int
  | .log _ | .logNodeAbort _ _ | .logChildAbort _ _ => LogReply
  -- the status is asked for in a context of its own, which may not be created
  | .ownStatus => Except Int (Option JobState)
  | .ownRecoveryEvents | .interestingEvents | .nodeRecoveryEvents _ => Answer
  -- no text, or a text that may not be a description
  | .originalJdl => Except LbErrno (Option (Except Thrown Ad))
  | .cancelTokenExists | .fileExists _ => Bool
  | .scan => Option (List Bytes)
  | .rename _ _ => Option FsErrno
  | .create _ => Bool
  | .submit _ => Except Thrown Unit
  | .submitCollection => Except Thrown (List N)
  | .nodeStatus _ => Option JobState
  | .createContext _ => Option Int
  | .children => Option (Option (List (N × JobState)))
  | .unlinkCancelToken | .purge | .unlinkMaradona | .scheduleSelf _ | .scheduleNode _
  | .unlinkNodeCancelToken _ => Unit

/-- Why an activation leaves its code early: a `return`, an exception, or the use of a null
pointer. -/
inductive Exit where
  | returned
  | thrown (e : Thrown)
  | crashed
  deriving DecidableEq

abbrev Act (N : Type) := Dialog (Call N) Reply (SubmitState N) Exit

abbrev Answers (N : Type) := (c : Call N) → Reply c

variable {N : Type}

def Answers.quiet : Answers N
  | .isProxyExpired => .ok false
  | .time => (0 : Int)
  | .log _ | .logNodeAbort _ _ | .logChildAbort _ _ => .logged
  | .ownStatus => .ok none
  | .ownRecoveryEvents | .interestingEvents | .nodeRecoveryEvents _ => .ok []
  | .originalJdl => .ok (some (.ok .empty))
  | .cancelTokenExists | .fileExists _ => false
  | .scan => some []
  | .rename _ _ => none
  | .create _ => true
  | .submit _ => .ok ()
  | .submitCollection => .ok []
  | .nodeStatus _ => some .submitted
  | .createContext _ => none
  | .children => none
  | .unlinkCancelToken | .purge | .unlinkMaradona | .scheduleSelf _ | .scheduleNode _
  | .unlinkNodeCancelToken _ => ()

namespace Act

abbrev ask (c : Call N) : Act N (Reply c) := Dialog.ask c

abbrev get : Act N (SubmitState N) := Dialog.get

abbrev modify (f : SubmitState N → SubmitState N) : Act N Unit := Dialog.modify f

abbrev throw {α : Type} (e : Exit) : Act N α := Dialog.throw e

abbrev thrown {α : Type} (e : Thrown) : Act N α := throw (.thrown e)

def ofReply (reply : LogReply) : Act N Unit :=
  match reply with
  | .noContext code => thrown (.cannotCreateLBContext code)
  | _ => pure ()

@[simp] theorem ofReply_logged : (ofReply .logged : Act N Unit) = pure () := rfl

@[simp] theorem ofReply_lost : (ofReply .lost : Act N Unit) = pure () := rfl

@[simp] theorem ofReply_noContext (code : Int) :
    (ofReply (.noContext code) : Act N Unit) = Dialog.throw (.thrown (.cannotCreateLBContext code)) := rfl

def log (entry : Log) : Act N Unit := do
  ofReply (← ask (.log entry))

def query {α : Type} (events : Except QueryError α) : Act N α :=
  match events with
  | .ok value => pure value
  | .error e => thrown e.thrown

end Act

open Act

/-! ### Ends of a request -/

/-- `log_abort_for_child` over the children, up to the first without a state. -/
def abortChildren (reason : String) : List (N × JobState) → Act N Unit
  | [] => pure ()
  | (child, state) :: rest => do
    if state = .undef then pure ()
    else
      if state = .submitted ∨ state = .waiting then
        ofReply (← ask (.logChildAbort child reason))
      abortChildren reason rest

def unrecoverableCollection (reason : String) : Act N Unit := do
  match ← ask .children with
  | some (some children) => abortChildren reason children
  | _ => pure ()

def unrecoverable (reason : String) : Act N Unit := do
  let state ← get
  match state.type with
  | .collection _ => unrecoverableCollection (state.id ++ " failed (" ++ reason ++ ")")
  | _ => pure ()
  log (.abort reason)
  ask .unlinkCancelToken

def postpone (config : Config) (reason : String) : Act N Unit := do
  if reason ≠ "" then log (.pending reason)
  ask (.scheduleSelf config.matchRetryPeriod)

def isRequestExpired (config : Config) : Act N Bool := do
  let state ← get
  let now ← ask .time
  match state.ad.expiryTime with
  | none => pure (decide (now - state.createdAt > config.expiryPeriod))
  | some expiryTime => pure (decide (expiryTime < now))

/-! ### A graph of jobs -/

inductive Colour where
  | white
  | gray
  | green
  | red
  deriving DecidableEq, Repr

section Dag

variable [DecidableEq N]

/-- First phase: a colour for each node. A node whose events cannot be obtained for the
moment keeps the colour it was created with. -/
def assess (config : Config) : List N → (N → Colour) → Act N (N → Colour)
  | [], colours => pure colours
  | n :: rest, colours => do
    match ← ask (.nodeStatus n) with
    -- the state is printed without asking whether there is a status
    | none => throw .crashed
    | some state =>
      if state = .aborted ∨ state = .cancelled then
        assess config rest (update colours n .red)
      else if state = .done then
        match doQueryEvents (← ask (.nodeRecoveryEvents n)) false with
        | .ok events =>
          assess config rest (update colours n (if isLastDone events .ok then .green else .gray))
        | .error .failed => throw .returned
        | .error .temporarilyFailed => do
          ask (.scheduleSelf config.matchRetryPeriod)
          assess config rest colours
      else if state = .submitted then assess config rest (update colours n .white)
      else assess config rest (update colours n .gray)

/-- `queue_new_submit_request`; false when no context can be created for the node. -/
def queueNewSubmitRequest (n : N) : Act N Bool := do
  match ← ask (.createContext n) with
  | some _ => pure false
  | none => do
    ask (.scheduleNode n)
    pure true

def abortNode (n : N) : Act N Unit := do
  match ← ask (.createContext n) with
  | some code => thrown (.cannotCreateLBContext code)
  | none => do
    ofReply (← ask (.logNodeAbort n "parents have aborted"))
    ask (.unlinkNodeCancelToken n)

def planNode (graph : Dag N) (colours : N → Colour) (n : N) : Act N Colour := do
  if graph.parents n = [] then
    if ← queueNewSubmitRequest n then pure .gray else pure .red
  else if (graph.parents n).any fun p => colours p = .red then do
    abortNode n
    pure .red
  else if (graph.parents n).all fun p => colours p = .green then
    -- the node stays white when it has been queued
    if ← queueNewSubmitRequest n then pure .white else pure .red
  else pure .white

def plan (graph : Dag N) : List N → (N → Colour) → Bool → Act N ((N → Colour) × Bool)
  | [], colours, completed => pure (colours, completed)
  | n :: rest, colours, completed =>
    match colours n with
    | .gray => plan graph rest colours false
    | .white => do
      let colour ← planNode graph colours n
      plan graph rest (update colours n colour) false
    | .green | .red => plan graph rest colours completed

def logDagStart : Act N Unit := do
  log (.matched "dagman")
  log .enqueuedStart
  log .enqueuedOk
  log .transferStart
  log .transferOk
  log (.running "localhost")

def considerNodes (config : Config) (graph : Dag N) : Act N Unit := do
  let colours ← assess config graph.nodes fun _ => .white
  let (colours, completed) ← plan graph graph.nodes colours true
  if completed then
    if graph.nodes.all fun n => colours n = .green then log (.doneOk "DAG successfully completed")
    else log (.abort "DAG completed with failed jobs")
  else do
    ask (.scheduleSelf config.matchRetryPeriod)
    modify fun s => { s with lastCheckpointing := .pending }

def submitDag (config : Config) (graph : Dag N) : Act N Unit := do
  let state ← get
  if state.lastCheckpointing = .start then logDagStart
  considerNodes config graph

end Dag

/-! ### A collection -/

def queuePending : List N → Act N Unit
  | [] => pure ()
  | n :: rest => do
    let _ ← queueNewSubmitRequest n
    queuePending rest

/-- Only the first activation delivers; it is told which nodes are left pending. -/
def deliverCollection : Act N Unit := do
  let state ← get
  if state.lastCheckpointing = .start then
    match ← ask .submitCollection with
    | .error e => thrown e
    | .ok pending => modify fun s => { s with collectionPending := pending }

variable (config : Config)

def queueCollection : Act N Unit := do
  let state ← get
  if state.collectionPending ≠ [] ∧ state.lastCheckpointing = .start then do
    queuePending state.collectionPending
    modify fun s => { s with lastCheckpointing := .pending }
    ask (.scheduleSelf config.matchRetryPeriod)

def submitCollection : Act N Unit := do
  deliverCollection
  queueCollection config

/-! ### A single job -/

def leaveLimbo : Act N Unit := do
  let state ← get
  if state.lastCheckpointing = .limbo then
    match ← ask .ownStatus with
    | .error code => thrown (.cannotCreateLBContext code)
    | .ok status =>
      match doQueryEvents (← ask .ownRecoveryEvents) false with
      | .error .failed => throw .returned
      | .error .temporarilyFailed => thrown .lbQueryTemporarilyFailed
      | .ok events =>
        -- the activation goes on after it has postponed itself
        if inLimbo status events then postpone config " waiting in limbo"
        else modify fun s => { s with lastCheckpointing := .start }

def retrieveLbInfo : Act N (Nat × Nat) := do
  let events ← query (doQueryEvents (← ask .interestingEvents) true)
  match ← ask .originalJdl with
  | .error e => thrown (if isRetryable e then .lbQueryTemporarilyFailed else .lbQueryFailed)
  | .ok none => thrown .cannotRetrieveJDL
  | .ok (some (.error e)) => thrown e
  | .ok (some (.ok ad)) => do
    modify fun s => { s with ad }
    pure (getRetryCounts events)

def stopIfCancelled : Act N Unit := do
  if ← ask .cancelTokenExists then
    log .cancelled
    log .doneCancelled
    ask .purge
    throw .returned

def complainAbout (config : Config) : List Bytes → Act N Unit
  | [] => pure ()
  | leaf :: rest => do
    if isToken config leaf then
      unrecoverable (String.ofList leaf ++
        ": at least two shallow resubmit tokens are present at the same time!")
    complainAbout config rest

def findToken : Act N (Option Bytes) := do
  match ← ask .scan with
  | none => throw .returned
  | some leaves =>
    match leaves.dropWhile fun leaf => !isToken config leaf with
    | [] => pure none
    | token :: rest => do
      complainAbout config rest
      pure (some token)

/-- The number of replans by the token, which is also written into the description. -/
def replansByToken : Act N Nat := do
  match ← findToken config with
  | none => pure 0
  | some token =>
    match tokenNumber config token with
    | none => thrown (.stdException
        "bad lexical cast: source type value could not be interpreted as target")
    | some n => do
      modify fun s => { s with ad := { s.ad with replansCount := some n } }
      pure n

def check (checked : Except Thrown Unit) : Act N Unit :=
  match checked with
  | .ok () => pure ()
  | .error e => thrown e

def createToken (file : Bytes) : Act N Unit := do
  if ← ask (.create file) then pure () else thrown .cannotCreateToken

def shallowResubmission (shallowCount replansCount : Nat) : Act N Unit := do
  let state ← get
  check (checkShallowCount config state.ad shallowCount)
  log (.resubmissionShallow (tokenName config replansCount))

def deepResubmission (deepCount : Nat) (token : Option Bytes) : Act N Unit := do
  let state ← get
  check (checkDeepCount config state.ad deepCount)
  log (.resubmissionDeep token)

/-- A token that is still there has not been taken by the job: it has not run. -/
def resubmissionByToken (deepCount shallowCount replansCount : Nat) : Act N Unit := do
  if ← ask (.fileExists (tmpTokenName config replansCount)) then
    shallowResubmission config shallowCount replansCount
  else do
    deepResubmission config deepCount (some (tokenName config replansCount))
    createToken (tmpTokenName config replansCount)

def resubmission (deepCount shallowCount replansCount : Nat) : Act N Unit := do
  let state ← get
  if shallowResubmissionIsEnabled state.ad then
    match ← ask (.rename (tokenName config replansCount) (tmpTokenName config replansCount)) with
    | some (.other _) => thrown .cannotCreateToken
    | _ => resubmissionByToken config deepCount shallowCount replansCount
  else deepResubmission config deepCount none

/-- As a token of a running job it must be created anyhow. -/
def ensureTmpToken (replansCount : Nat) : Act N Unit := do
  if ← ask (.fileExists (tmpTokenName config replansCount)) then pure ()
  else createToken (tmpTokenName config replansCount)

/-- Whether a submission is a replan; other submissions make sure there is a temporary token. -/
def detectReplan (replansCount : Nat) : Act N Bool := do
  let state ← get
  let jdlReplansCount := state.ad.replansCount.getD 0
  if jdlReplansCount > 0 ∧ (replansCount : Int) = jdlReplansCount then pure true
  else if jdlReplansCount > 0 ∧ (replansCount : Int) > jdlReplansCount then throw .returned
  else do
    if shallowResubmissionIsEnabled state.ad then ensureTmpToken config replansCount
    pure false

def putTokenInPlace (replansCount : Nat) : Act N Unit := do
  match ← ask (.rename (tmpTokenName config replansCount) (tokenName config replansCount)) with
  | some _ => thrown .cannotCreateToken
  | none => pure ()

def prepare (counts : Nat × Nat) (replansCount : Nat) : Act N Bool := do
  let state ← get
  match state.command with
  | .jobresubmit => do
    resubmission config counts.1 counts.2 replansCount
    pure false
  | .jobsubmit => detectReplan config replansCount

/-- The token of a replan has already been managed by the replanner. -/
def placeToken (replansCount : Nat) (isReplan : Bool) : Act N Unit := do
  let state ← get
  if !isReplan && shallowResubmissionIsEnabled state.ad then putTokenInPlace config replansCount

def submit (isReplan : Bool) : Act N Unit := do
  ask .unlinkMaradona
  match ← ask (.submit isReplan) with
  | .error e => thrown e
  | .ok () => pure ()

def deliver (counts : Nat × Nat) : Act N Unit := do
  let replansCount ← replansByToken config
  let isReplan ← prepare config counts replansCount
  placeToken config replansCount isReplan
  submit isReplan

def retryCounts : Act N (Nat × Nat) := do
  let state ← get
  match state.command with
  | .jobresubmit => retrieveLbInfo
  | .jobsubmit => pure (0, 0)

def submitSingle : Act N Unit := do
  leaveLimbo config
  let counts ← retryCounts
  stopIfCancelled
  deliver config counts

/-! ### The activation -/

def handle : Exit → Act N Unit
  | .returned => pure ()
  | .crashed => throw .crashed
  | .thrown e => match e with
    | .invalidArgument what | .manipulation what | .wmsException what | .stdException what =>
      unrecoverable what
    | .lbQueryFailed => unrecoverable " failed (LB query failed)"
    | .lbQueryTemporarilyFailed => postpone config "LB query temporarily failed"
    | .hitMaxRetryCount count => unrecoverable ("hit max retry count (" ++ toString count ++ ")")
    | .hitJobRetryCount count => unrecoverable ("hit job retry count (" ++ toString count ++ ")")
    | .hitMaxShallowCount count =>
      unrecoverable ("hit shallow max retry count (" ++ toString count ++ ")")
    | .hitJobShallowCount count =>
      unrecoverable ("hit job shallow retry count (" ++ toString count ++ ")")
    | .cannotRetrieveJDL => postpone config "cannot retrieve jdl"
    | .helperError what => postpone config what
    | .cannotCreateToken => postpone config "cannot create token for shallow resubmission"
    | .cannotDeliverFatal => unrecoverable " cannot deliver request"
    | .cannotCreateLBContext code =>
      unrecoverable ("cannot create LB context (" ++ toString code ++ "): ignoring request")
    | .unknown => unrecoverable "unknown exception caught handling submit request"

def process [DecidableEq N] (config : Config) : Act N Unit := do
  let state ← get
  match state.type with
  | .dag graph => submitDag config graph
  | .collection _ => submitCollection config
  | .single => submitSingle config

/-- `SubmitProcessor::operator()` -/
def activation [DecidableEq N] (config : Config) : Act N Unit := do
  match ← ask .isProxyExpired with
  | .error (.missing what) => unrecoverable ("X509 proxy not found or I/O error (" ++ what ++ ")")
  | .error (.invalid what) => unrecoverable ("invalid X509 proxy (" ++ what ++ ")")
  | .ok true => unrecoverable "proxy expired"
  | .ok false => do
    if ← isRequestExpired config then unrecoverable "request expired"
    else Dialog.tryCatch (process config) (handle config)

end Wms.Manager
