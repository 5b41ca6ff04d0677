import Mathlib.Data.List.Infix
import Wms.Lib.Interact

/-! The jobs of ICE, the table that keeps them, and the calls that its commands make.

A job in memory knows which of its fields were set since it was last written; only those are
written, to the row with its grid job id, if there is one.
-/

set_option autoImplicit false

namespace Wms.Ice

open Lib

inductive JobStatus where
  | registered
  | pending
  | idle
  | running
  | reallyRunning
  | cancelled
  | held
  | doneOk
  | doneFailed
  | purged
  | aborted
  | unknown
  deriving DecidableEq, Repr

def JobStatus.isTerminal : JobStatus → Bool
  | .doneOk | .cancelled | .doneFailed | .aborted => true
  | _ => false

structure CreamJob where
  gridJobId : String
  creamJobId : String
  completeCreamJobId : String
  creamAddress : String
  userProxyFile : String
  userDn : String
  sequenceCode : String
  prevStatus : JobStatus
  status : JobStatus
  exitCode : Int
  failureReason : String
  workerNode : String
  killedByIce : Bool
  proxyRenewable : Bool
  myproxyAddress : String
  isbProxyTimeEnd : Int
  tokenFile : String
  cancelSequenceCode : String
  deriving DecidableEq, Repr

def CreamJob.setStatus (job : CreamJob) (status : JobStatus) : CreamJob :=
  { job with prevStatus := job.status, status }

def CreamJob.setFailureReason (job : CreamJob) (reason : String) : CreamJob :=
  { job with failureReason := if reason = "" then " " else reason }

structure Changes where
  creamJobId : Option (String × String) := none
  status : Option (JobStatus × JobStatus) := none
  exitCode : Option Int := none
  failureReason : Option String := none
  workerNode : Option String := none
  sequenceCode : Option String := none
  cancelSequenceCode : Option String := none
  deriving DecidableEq, Repr

def Changes.apply (changes : Changes) (job : CreamJob) : CreamJob where
  gridJobId := job.gridJobId
  creamJobId := (changes.creamJobId.map Prod.fst).getD job.creamJobId
  completeCreamJobId := (changes.creamJobId.map Prod.snd).getD job.completeCreamJobId
  creamAddress := job.creamAddress
  userProxyFile := job.userProxyFile
  userDn := job.userDn
  sequenceCode := changes.sequenceCode.getD job.sequenceCode
  prevStatus := (changes.status.map Prod.fst).getD job.prevStatus
  status := (changes.status.map Prod.snd).getD job.status
  exitCode := changes.exitCode.getD job.exitCode
  failureReason := changes.failureReason.getD job.failureReason
  workerNode := changes.workerNode.getD job.workerNode
  killedByIce := job.killedByIce
  proxyRenewable := job.proxyRenewable
  myproxyAddress := job.myproxyAddress
  isbProxyTimeEnd := job.isbProxyTimeEnd
  tokenFile := job.tokenFile
  cancelSequenceCode := changes.cancelSequenceCode.getD job.cancelSequenceCode

/-! ### The table `jobs` -/

abbrev Jobs := List CreamJob

namespace Jobs

def getJobByGid (jobs : Jobs) (gid : String) : Option CreamJob := jobs.find? fun job => job.gridJobId = gid

def getJobByCid (jobs : Jobs) (cid : String) : Option CreamJob :=
  jobs.find? fun job => job.completeCreamJobId = cid

def checkGridJobId (jobs : Jobs) (gid : String) : Bool := jobs.any fun job => job.gridJobId = gid

def removeJobByGid (jobs : Jobs) (gid : String) : Jobs := jobs.filter fun job => job.gridJobId ≠ gid

def createJob (jobs : Jobs) (job : CreamJob) : Jobs := jobs.removeJobByGid job.gridJobId ++ [job]

def updateJob (jobs : Jobs) (gid : String) (changes : Changes) : Jobs :=
  jobs.map fun job => if job.gridJobId = gid then changes.apply job else job

end Jobs

/-! ### The calls of a command -/

inductive LbEvent where
  | jobRunning
  | jobReallyRunning
  | jobResumed
  | jobSuspended
  | jobCancelled
  | jobAborted
  | jobDoneOk
  | jobDoneFailed
  | iceResubmission (reason : String)
  | nsEnqueuedStart
  | nsEnqueuedOk
  | nsEnqueuedFail
  | wmsDequeued
  | creamTransferStart
  | creamTransferOk
  | creamTransferFail (reason : String)
  deriving DecidableEq, Repr

inductive Attempt (ρ : Type) where
  | answered (result : ρ)
  | timedOut
  /-- another exception that says that the connection timed out -/
  | connectionLost
  | exception
  deriving DecidableEq, Repr

/-- What a registration is answered, or which exception it ends with, with the
text that goes with it. -/
inductive RegisterAnswer where
  | ok (creamJobId creamUrl : String)
  | delegationError (err : String)
  | leaseIdMismatch (err : String)
  | failed (err : String)
  | gridProxyDelegationException (what : String)
  | delegationException (what : String)
  | genericException (what : String)
  | unknownException
  deriving DecidableEq, Repr

/-- The text of an exception of the CREAM client. -/
def RegisterAnswer.thrown : RegisterAnswer → Option String
  | .gridProxyDelegationException what | .delegationException what | .genericException what => some what
  | _ => none

/-- A better proxy: its file, which is empty if there is none, its expiration time and its counter.
-/
structure BetterProxy where
  file : String
  expTime : Int
  counter : Int
  deriving DecidableEq, Repr

inductive Call where
  | getJobByGid (gid : String)
  | getJobByCid (cid : String)
  | checkGridJobId (gid : String)
  | createJob (job : CreamJob)
  | updateJob (gid : String) (changes : Changes)
  | removeJobByGid (gid : String)
  | incrementUserProxyCounter (dn myproxy file : String) (timeEnd : Int)
  | decrementUserProxyCounter (dn myproxy : String)
  | getAnyBetterProxyByDN (dn : String)
  | getExactBetterProxyByDN (dn myproxy : String)
  | setUserProxyIfLonger (dn file : String) (timeEnd : Int)
  | setBetterProxy (dn file myproxy : String) (timeEnd counter : Int)
  | updateBetterProxy (dn myproxy file : String) (timeEnd : Int)
  | insertStartedJob (ceurl gid cid : String)
  | insertStat (status : JobStatus)
  | lockReschedule
  | unlockReschedule
  | fileExists (file : String)
  | existsSubsequentToken (file : String)
  | log (event : LbEvent) (gid : String) (useCancelSequenceCode : Bool)
  /-- `GLITE_WMS_ICE_NORESUBMIT` is set. -/
  | resubmissionDisabled
  /-- The proxy of the sandbox ends within five minutes. -/
  | isbProxyExpires (file : String)
  | putRequest (gid sequenceCode cid : String)
  | isValid (file : String)
  | isBlacklisted (service : String)
  | blacklist (service : String)
  /-- One attempt; the answer says whether CREAM refuses. -/
  | jobPurge (address cid proxy : String)
  | unregisterProxy (gid : String)
  | purgeWmsStorage (gid : String)
  | now
  | what
  | delegationExpires (dn ceurl myproxy : String)
  | delegate (gid : String) (renewable force : Bool)
  | redelegate (file delegation : String)
  | jobRegister (address gid delegation lease proxy : String)
  | jobStart (address cid proxy : String)
  | removeRequest
  /-- Nothing more is known of a loop that goes on for long. -/
  | hang
  deriving DecidableEq, Repr

def Reply : Call → Type
  | .getJobByGid _ | .getJobByCid _ => Option CreamJob
  | .checkGridJobId _ => Bool
  | .getAnyBetterProxyByDN _ => String
  | .fileExists _ | .existsSubsequentToken _ => Bool
  /- the new sequence code, if there is one -/
  | .log _ _ _ => Option String
  | .resubmissionDisabled | .isbProxyExpires _ | .isValid _ => Bool
  /- the exception, if one was thrown -/
  | .putRequest _ _ _ => Option String
  | .isBlacklisted _ => Bool
  | .jobPurge _ _ _ => Attempt Bool
  | .getExactBetterProxyByDN _ _ => BetterProxy
  | .now | .delegationExpires _ _ _ => Int
  | .what => String
  /- the delegation, or the text of the exception -/
  | .delegate _ _ _ => Except String String
  | .jobRegister _ _ _ _ _ => Attempt RegisterAnswer
  | .jobStart _ _ _ => Attempt (Option String)
  | _ => Unit

inductive Failure where
  | fatal
  | transient
  | blackListFailJob
  deriving DecidableEq, Repr

abbrev Prog (α : Type) := Dialog Call Reply Unit Failure α

abbrev ask (c : Call) : Prog (Reply c) := Dialog.ask c

def optionally (b : Bool) (x : Prog Unit) : Prog Unit := if b then x else pure ()

def logEvent (event : LbEvent) (job : CreamJob) (useCancelSequenceCode updatedb : Bool) :
    Prog CreamJob := do
  let code : Option String ← ask (.log event job.gridJobId useCancelSequenceCode)
  match code with
  | none => pure job
  | some code =>
    let changes : Changes :=
      if useCancelSequenceCode then { cancelSequenceCode := some code } else { sequenceCode := some code }
    optionally updatedb (ask (.updateJob job.gridJobId changes))
    pure (changes.apply job)

def tellsTimeout (what : String) : Bool := "Connection timed out".toList <:+: what.toList

section CreamProxyMethod

variable {ρ : Type} (failJobBlacklistedCe : Bool) (service : String) (caught : ρ → Option String)
  (attempt : Prog (Attempt ρ))

def blacklistEndpoint (result : Attempt ρ) : Prog (Except Failure (Attempt ρ)) := do
  ask (.blacklist service)
  pure (if failJobBlacklistedCe then .error .blackListFailJob else .ok result)

/-- What is caught as `exception&` goes on as it is only if it says that the connection timed out.
Otherwise `throw ex` throws a copy of the base class. -/
def afterAttempt (again : Prog (Except Failure (Attempt ρ))) : Attempt ρ →
    Prog (Except Failure (Attempt ρ))
  | .answered result =>
    match caught result with
    | none => pure (.ok (.answered result))
    | some what =>
      if tellsTimeout what then blacklistEndpoint failJobBlacklistedCe service (.answered result)
      else pure (.ok .exception)
  | .timedOut => again
  | .connectionLost => blacklistEndpoint failJobBlacklistedCe service .connectionLost
  | .exception => pure (.ok .exception)

def oneTry (again : Prog (Except Failure (Attempt ρ))) : Prog (Except Failure (Attempt ρ)) := do
  let blacklisted : Bool ← ask (.isBlacklisted service)
  if blacklisted then pure (if failJobBlacklistedCe then .error .blackListFailJob else .ok .timedOut)
  else do
    let result ← attempt
    afterAttempt failJobBlacklistedCe service caught again result

/-- `CreamProxyMethod::execute`, with so many more tries after the first -/
def creamProxyMethod : Nat → Prog (Except Failure (Attempt ρ))
  | 0 => oneTry failJobBlacklistedCe service caught attempt
      (blacklistEndpoint failJobBlacklistedCe service .timedOut)
  | more + 1 => oneTry failJobBlacklistedCe service caught attempt (creamProxyMethod more)

end CreamProxyMethod

end Wms.Ice
