import Wms.Lib.FileStream

/-! The events of a Condor user log.

The classes belong to the Condor library; of each event the members are kept that the timer stores
or restores and that the processors read. A pointer to a text may be null.
-/

set_option autoImplicit false

namespace Wms.LogMonitor

open Lib

def decimal (n : Int) : Bytes := if n < 0 then '-' :: Nat.toDigits 10 n.natAbs
    else Nat.toDigits 10 n.natAbs

structure Tm where
  sec : Int
  min : Int
  hour : Int
  mday : Int
  mon : Int
  year : Int
  wday : Int
  yday : Int
  isdst : Int
  deriving DecidableEq, Repr, Inhabited

structure Timeval where
  sec : Int
  usec : Int
  deriving DecidableEq, Repr, Inhabited

structure Rusage where
  utime : Timeval
  stime : Timeval
  maxrss : Int
  ixrss : Int
  idrss : Int
  isrss : Int
  minflt : Int
  majflt : Int
  nswap : Int
  inblock : Int
  oublock : Int
  msgsnd : Int
  msgrcv : Int
  nsignals : Int
  nvcsw : Int
  nivcsw : Int
  deriving DecidableEq, Repr, Inhabited

abbrev Single := BitVec 32

/-- A text that a pointer leads to, or a null pointer. -/
abbrev Text := Option String

abbrev ArrayText (size : Nat) := { s : String // s.length < size }

def bufSize : Nat := 8192

structure Termination where
  normal : Bool
  returnValue : Int
  signalNumber : Int
  sentBytes : Single
  recvdBytes : Single
  totalSentBytes : Single
  totalRecvdBytes : Single
  coreFile : Text
  runLocalRusage : Rusage
  runRemoteRusage : Rusage
  totalLocalRusage : Rusage
  totalRemoteRusage : Rusage
  deriving DecidableEq, Inhabited

structure Eviction where
  checkpointed : Bool
  sentBytes : Single
  recvdBytes : Single
  terminateAndRequeued : Bool
  normal : Bool
  returnValue : Int
  signalNumber : Int
  reason : Text
  coreFile : Text
  runLocalRusage : Rusage
  runRemoteRusage : Rusage
  deriving DecidableEq

inductive EventBody where
  | submit (logNotes userNotes : Text)
  | execute (executeHost : Text)
  | executableError (errType : Int)
  | checkpointed (runLocalRusage runRemoteRusage : Rusage)
  | jobEvicted (eviction : Eviction)
  | jobTerminated (termination : Termination)
  | imageSize (imageSizeKb : Int)
  | shadowException (message : ArrayText bufSize) (sentBytes recvdBytes : Single)
  | generic (info : ArrayText 128)
  | jobAborted (reason : Text)
  | jobSuspended (numPids : Int)
  | jobUnsuspended
  | jobHeld (reason : Text) (reasonCode reasonSubCode : Int)
  | jobReleased (reason : Text)
  | nodeExecute (node : Int) (executeHost : Text)
  | nodeTerminated (node : Int) (termination : Termination)
  | postScriptTerminated (normal : Bool) (returnValue signalNumber : Int)
  | globusSubmit (rmContact jmContact : Text) (restartableJM : Bool)
  | globusSubmitFailed (reason : Text)
  | globusResourceUp (rmContact : Text)
  | globusResourceDown (rmContact : Text)
  | remoteError (executeHost daemonName errorText : Text) (criticalError : Bool)
  | jobDisconnected (startdAddr startdName disconnectReason noReconnectReason : Text) (canReconnect : Bool)
  | jobReconnected (startdAddr startdName starterAddr : Text)
  | jobReconnectFailed (startdName reason : Text)
  | gridResourceUp (resourceName : Text)
  | gridResourceDown (resourceName : Text)
  | gridSubmit (resourceName jobId : Text)
  deriving DecidableEq

def EventBody.eventNumber : EventBody → Int
  | .submit .. => 0
  | .execute .. => 1
  | .executableError .. => 2
  | .checkpointed .. => 3
  | .jobEvicted .. => 4
  | .jobTerminated .. => 5
  | .imageSize .. => 6
  | .shadowException .. => 7
  | .generic .. => 8
  | .jobAborted .. => 9
  | .jobSuspended .. => 10
  | .jobUnsuspended .. => 11
  | .jobHeld .. => 12
  | .jobReleased .. => 13
  | .nodeExecute .. => 14
  | .nodeTerminated .. => 15
  | .postScriptTerminated .. => 16
  | .globusSubmit .. => 17
  | .globusSubmitFailed .. => 18
  | .globusResourceUp .. => 19
  | .globusResourceDown .. => 20
  | .remoteError .. => 21
  | .jobDisconnected .. => 22
  | .jobReconnected .. => 23
  | .jobReconnectFailed .. => 24
  | .gridResourceUp .. => 25
  | .gridResourceDown .. => 26
  | .gridSubmit .. => 27

structure ULogEvent where
  eventTime : Tm
  cluster : Int
  proc : Int
  subproc : Int
  body : EventBody
  deriving DecidableEq

end Wms.LogMonitor
