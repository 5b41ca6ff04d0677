import Wms.Lib.ClassAd
import Wms.LogMonitor.UserLog

/-! The events of a timer, which are kept as class-ads (`Timer.cpp`).

The numbers that are stored as real ones are of the type `float`; they are the same as `double`, so
that a real attribute is a `float` here.
-/

set_option autoImplicit false

namespace Wms.LogMonitor

open Lib

abbrev EventAd := ClassAd Single

/-- The members of an event that `to_event` may leave as they are made. -/
structure NewEvent where
  cluster : Int
  proc : Int
  subproc : Int
  logNotes : Text
  userNotes : Text
  checkpointed : Bool
  terminateAndRequeued : Bool
  normal : Bool
  returnValue : Int
  signalNumber : Int
  imageSizeKb : Int
  numPids : Int
  node : Int
  restartableJM : Bool
  canReconnect : Bool
  deriving Inhabited

structure Library where
  /-- The time; `mktime` leaves in its argument what `localtime` gives for it. -/
  mktime : Tm → Int
  localtime : Int → Tm
  toLong : Single → Int
  instantiateEvent : Int → NewEvent
  setNoReconnectReason : String → Bool → Bool
  noNotes : (instantiateEvent 0).logNotes = none ∧ (instantiateEvent 0).userNotes = none

/-- What the local variables hold that have not been set; `val` is already cast. -/
structure Unset where
  ival : Int
  dval : Single
  bval : Bool
  val : Int
  deriving Inhabited

def nullString (t : Text) : String := t.getD ""

def lexicalText (n : Int) : String := String.ofList (decimal n)

def lexicalNat (digits : Bytes) : Option Nat :=
  if !digits.isEmpty && digits.all (isDigitOf 10) then some (numeralValue 10 digits) else none

/-- `boost::lexical_cast<time_t>`; nothing where it throws. -/
def lexicalTime (text : String) : Option Int :=
  match text.toList with
  | '-' :: digits => (lexicalNat digits).map fun n : Nat => -(n : Int)
  | '+' :: digits => (lexicalNat digits).map fun n : Nat => (n : Int)
  | digits => (lexicalNat digits).map fun n : Nat => (n : Int)

/-- `strncpy` to an array of this size. A longer text would leave the array without an end; it is
read up to its last element but one. -/
def strncpy (size : Nat) (positive : 0 < size) (s : String) : ArrayText size :=
  ⟨String.ofList (s.toList.take (size - 1)), by
    rw [String.length_ofList, List.length_take]
    omega⟩

/-! ### Resource usage -/

/-- `toClassAd( ru )`: every count is stored as a text. -/
def Rusage.toClassAd (ru : Rusage) : EventAd :=
  let put (ad : EventAd) (name : String) (n : Int) : EventAd := ad.insert name (.string (lexicalText n))
  let ad := put .empty "ru_maxrss" ru.maxrss
  let ad := put ad "ru_ixrss" ru.ixrss
  let ad := put ad "ru_idrss" ru.idrss
  let ad := put ad "ru_isrss" ru.isrss
  let ad := put ad "ru_minflt" ru.minflt
  let ad := put ad "ru_majflt" ru.majflt
  let ad := put ad "ru_nswap" ru.nswap
  let ad := put ad "ru_inblock" ru.inblock
  let ad := put ad "ru_oublock" ru.oublock
  let ad := put ad "ru_msgsnd" ru.msgsnd
  let ad := put ad "ru_msgrcv" ru.msgrcv
  let ad := put ad "ru_nsignals" ru.nsignals
  let ad := put ad "ru_nvcsw" ru.nvcsw
  let ad := put ad "ru_nivcsw" ru.nivcsw
  let ad := put ad "ru_utime" ru.utime.sec
  put ad "ru_stime" ru.stime.sec

/-- `toRusage( ad )`: every count is evaluated as a number, into the same variable. -/
def toRusage (lib : Library) (val : Int) (ad : EventAd) : Rusage :=
  let get (name : String) (val : Int) : Int := (ad.evaluateReal name).elim val lib.toLong
  let maxrss := get "ru_maxrss" val
  let ixrss := get "ru_ixrss" maxrss
  let idrss := get "ru_idrss" ixrss
  let isrss := get "ru_isrss" idrss
  let minflt := get "ru_minflt" isrss
  let majflt := get "ru_majflt" minflt
  let nswap := get "ru_nswap" majflt
  let inblock := get "ru_inblock" nswap
  let oublock := get "ru_oublock" inblock
  let msgsnd := get "ru_msgsnd" oublock
  let msgrcv := get "ru_msgrcv" msgsnd
  let nsignals := get "ru_nsignals" msgrcv
  let nvcsw := get "ru_nvcsw" nsignals
  let nivcsw := get "ru_nivcsw" nvcsw
  let utime := get "ru_utime" nivcsw
  let stime := get "ru_stime" utime
  { utime := ⟨utime, 0⟩, stime := ⟨stime, 0⟩, maxrss, ixrss, idrss, isrss, minflt, majflt, nswap,
    inblock, oublock,
    msgsnd, msgrcv, nsignals, nvcsw, nivcsw }

/-! ### Storing -/

namespace EventAd

def int (ad : EventAd) (name : String) (n : Int) : EventAd := ad.insert name (.int n)

def real (ad : EventAd) (name : String) (x : Single) : EventAd := ad.insert name (.real x)

def bool (ad : EventAd) (name : String) (b : Bool) : EventAd := ad.insert name (.bool b)

def string (ad : EventAd) (name : String) (s : String) : EventAd := ad.insert name (.string s)

def text (ad : EventAd) (name : String) (t : Text) : EventAd := ad.string name (nullString t)

def optional (ad : EventAd) (name : String) (t : Text) : EventAd := t.elim ad (ad.string name)

def rusage (ad : EventAd) (name : String) (ru : Rusage) : EventAd :=
  ad.insert name (.ad ru.toClassAd.attributes)

def bytes (ad : EventAd) (t : Termination) : EventAd :=
  let ad := ad.real "SentBytes" t.sentBytes
  let ad := ad.real "RecvdBytes" t.recvdBytes
  let ad := ad.real "TotalSentBytes" t.totalSentBytes
  let ad := ad.real "TotalRecvdBytes" t.totalRecvdBytes
  let ad := ad.text "CoreFile" t.coreFile
  let ad := ad.rusage "RunLocalRusage" t.runLocalRusage
  let ad := ad.rusage "RunRemoteRusage" t.runRemoteRusage
  let ad := ad.rusage "TotalLocalRusage" t.totalLocalRusage
  ad.rusage "TotalRemoteRusage" t.totalRemoteRusage

def exit (ad : EventAd) (normal : Bool) (returnValue signalNumber : Int) : EventAd :=
  ((ad.bool "Normal" normal).int "ReturnValue" returnValue).int "SignalNumber" signalNumber

end EventAd

def bodyToClassAd (ad : EventAd) : EventBody → EventAd
  | .submit logNotes userNotes => (ad.optional "LogNotes" logNotes).optional "UserNotes" userNotes
  | .execute _ => ad
  | .executableError errType => ad.int "ExecErrorType" errType
  | .checkpointed runLocalRusage runRemoteRusage =>
    (ad.rusage "RunLocalRusage" runLocalRusage).rusage "RunRemoteRusage" runRemoteRusage
  | .jobEvicted ev =>
    let ad := ad.bool "CheckPointed" ev.checkpointed
    let ad := ad.real "SentBytes" ev.sentBytes
    let ad := ad.real "RecvdBytes" ev.recvdBytes
    let ad := ad.bool "Terminate" ev.terminateAndRequeued
    let ad := ad.exit ev.normal ev.returnValue ev.signalNumber
    let ad := ad.text "Reason" ev.reason
    let ad := ad.text "CoreFile" ev.coreFile
    (ad.rusage "RunLocalRusage" ev.runLocalRusage).rusage "RunRemoteRusage" ev.runRemoteRusage
  | .jobTerminated te => (ad.exit te.normal te.returnValue te.signalNumber).bytes te
  | .imageSize imageSizeKb => ad.int "Size" imageSizeKb
  | .shadowException message sentBytes recvdBytes =>
    ((ad.string "Message" message.val).real "SentBytes" sentBytes).real "RecvdBytes" recvdBytes
  | .generic info => ad.string "Info" info.val
  | .jobAborted reason => ad.text "Reason" reason
  | .jobSuspended numPids => ad.int "NumPids" numPids
  | .jobUnsuspended => ad
  | .jobHeld reason reasonCode reasonSubCode =>
    ((ad.text "Reason" reason).int "ReasonCode" reasonCode).int "ReasonSubCode" reasonSubCode
  | .jobReleased reason => ad.text "Reason" reason
  | .nodeExecute node _ => ad.int "Node" node
  | .nodeTerminated node te => ((ad.exit te.normal te.returnValue te.signalNumber).int "Node"
      node).bytes te
  | .postScriptTerminated normal returnValue signalNumber => ad.exit normal returnValue signalNumber
  | .globusSubmit rmContact jmContact restartableJM =>
    ((ad.text "RmContact" rmContact).text "JmContact" jmContact).bool "RestartableJM" restartableJM
  | .globusSubmitFailed reason => ad.text "Reason" reason
  | .globusResourceUp rmContact => ad.text "RmContact" rmContact
  | .globusResourceDown rmContact => ad.text "RmContact" rmContact
  | .remoteError executeHost daemonName errorText criticalError =>
    let ad := (ad.text "ExecuteHost" executeHost).text "DaemonName" daemonName
    (ad.text "ErrorText" errorText).bool "CriticalError" criticalError
  | .jobDisconnected startdAddr startdName disconnectReason noReconnectReason canReconnect =>
    let ad := (ad.text "StartdAddr" startdAddr).text "StartdName" startdName
    let ad := (ad.text "DisconnReason" disconnectReason).text "NoReconnReason" noReconnectReason
    ad.bool "CanReconn" canReconnect
  | .jobReconnected startdAddr startdName starterAddr =>
    ((ad.text "StartdAddr" startdAddr).text "StartdName" startdName).text "StartesAddr" starterAddr
  | .jobReconnectFailed startdName reason => (ad.text "StartdName" startdName).text "Reason" reason
  | .gridSubmit resourceName jobId => (ad.text "GridResource" resourceName).text "GridJobId" jobId
  | .gridResourceUp resourceName => ad.text "GridResource" resourceName
  | .gridResourceDown resourceName => ad.text "GridResource" resourceName

def commonAd (lib : Library) (epoch : Int) (e : ULogEvent) : EventAd :=
  let ad := EventAd.string .empty "Timeout" (lexicalText epoch)
  let ad := EventAd.int ad "EventNumber" e.body.eventNumber
  let ad := EventAd.string ad "EventTime" (lexicalText (lib.mktime e.eventTime))
  let ad := EventAd.int ad "Cluster" e.cluster
  let ad := EventAd.int ad "Proc" e.proc
  EventAd.int ad "SubProc" e.subproc

def toClassAd (lib : Library) (epoch : Int) (e : ULogEvent) : EventAd :=
  bodyToClassAd (commonAd lib epoch e) e.body

/-! ### Restoring -/

namespace EventAd

variable (ad : EventAd)

/-- `EvaluateAttrNumber` with an integer: the variable is left as it is where it fails. -/
def getInt (name : String) (old : Int) : Int := (ad.evaluateInt name).getD old

def getReal (name : String) (old : Single) : Single := (ad.evaluateReal name).getD old

def getBool (name : String) (old : Bool) : Bool := (ad.evaluateBool name).getD old

def getString (name : String) (old : String) : String := (ad.evaluateString name).getD old

def getRusage (lib : Library) (unset : Unset) (name : String) : Option Rusage :=
  (ad.evaluateAd name).map (toRusage lib unset.val)

def getBytes (lib : Library) (unset : Unset) (sval : String) (normal : Bool)
    (returnValue signalNumber : Int) :
    Option Termination := do
  let sentBytes := ad.getReal "SentBytes" unset.dval
  let recvdBytes := ad.getReal "RecvdBytes" sentBytes
  let totalSentBytes := ad.getReal "TotalSentBytes" recvdBytes
  let totalRecvdBytes := ad.getReal "TotalRecvdBytes" totalSentBytes
  let coreFile := ad.getString "CoreFile" sval
  let runLocalRusage ← ad.getRusage lib unset "RunLocalRusage"
  let runRemoteRusage ← ad.getRusage lib unset "RunRemoteRusage"
  let totalLocalRusage ← ad.getRusage lib unset "TotalLocalRusage"
  let totalRemoteRusage ← ad.getRusage lib unset "TotalRemoteRusage"
  return {
    coreFile := some coreFile, normal, returnValue, signalNumber, sentBytes, recvdBytes, totalSentBytes,
    totalRecvdBytes, runLocalRusage, runRemoteRusage, totalLocalRusage, totalRemoteRusage }

end EventAd

def restoredText (s : String) : Text := some s

def hostText (s : String) : Text := some (String.ofList (s.toList.take 128))

/-- The cases of `to_event`; `ival` and `sval` hold the number and the time of the event. -/
def bodyToEvent (lib : Library) (unset : Unset) (ad : EventAd) (ival : Int) (sval : String) :
    Option EventBody :=
  let new := lib.instantiateEvent ival
  match ival with
  | 0 =>
    some (.submit ((ad.evaluateString "LogNotes").or new.logNotes)
      ((ad.evaluateString "UserNotes").or new.userNotes))
  | 1 => some (.execute (hostText (ad.getString "ExecuteHost" sval)))
  | 2 => some (.executableError (ad.getInt "ExecErrorType" ival))
  | 3 => do
    let runLocalRusage ← ad.getRusage lib unset "RunLocalRusage"
    let runRemoteRusage ← ad.getRusage lib unset "RunRemoteRusage"
    return .checkpointed runLocalRusage runRemoteRusage
  | 4 => do
    let checkpointed := ad.getBool "CheckPointed" new.checkpointed
    let sentBytes := ad.getReal "SentBytes" unset.dval
    let recvdBytes := ad.getReal "RecvdBytes" sentBytes
    let terminateAndRequeued := ad.getBool "Terminate" new.terminateAndRequeued
    let normal := ad.getBool "Normal" new.normal
    let returnValue := ad.getInt "ReturnValue" new.returnValue
    let signalNumber := ad.getInt "SignalNumber" new.signalNumber
    let reason := ad.getString "Reason" sval
    let coreFile := ad.getString "CoreFile" reason
    let runLocalRusage ← ad.getRusage lib unset "RunLocalRusage"
    let runRemoteRusage ← ad.getRusage lib unset "RunRemoteRusage"
    return .jobEvicted {
      reason := some reason, coreFile := some coreFile, checkpointed, sentBytes, recvdBytes,
      terminateAndRequeued, normal, returnValue, signalNumber, runLocalRusage, runRemoteRusage }
  | 5 =>
    (ad.getBytes lib unset sval (ad.getBool "Normal" new.normal) (ad.getInt "ReturnValue" new.returnValue)
      (ad.getInt "SignalNumber" new.signalNumber)).map .jobTerminated
  -- the size is read into a local variable only
  | 6 => some (.imageSize new.imageSizeKb)
  | 7 =>
    let sentBytes := ad.getReal "SentBytes" unset.dval
    some (.shadowException (strncpy bufSize (by decide) (ad.getString "Message" sval)) sentBytes
      (ad.getReal "RecvdBytes" sentBytes))
  | 8 => some (.generic (strncpy 128 (by decide) (ad.getString "Info" sval)))
  | 9 => some (.jobAborted (restoredText (ad.getString "Reason" sval)))
  | 10 => some (.jobSuspended (ad.getInt "NumPids" new.numPids))
  | 11 => some .jobUnsuspended
  | 12 =>
    let reasonCode := ad.getInt "ReasonCode" ival
    some (.jobHeld (restoredText (ad.getString "Reason" sval)) reasonCode
      (ad.getInt "ReasonSubCode" reasonCode))
  | 13 => some (.jobReleased (restoredText (ad.getString "Reason" sval)))
  | 14 => some (.nodeExecute (ad.getInt "Node" new.node) (hostText (ad.getString "ExecuteHost" sval)))
  | 15 =>
    (ad.getBytes lib unset sval (ad.getBool "Normal" new.normal) (ad.getInt "ReturnValue" new.returnValue)
      (ad.getInt "SignalNumber" new.signalNumber)).map (.nodeTerminated (ad.getInt "Node" new.node))
  | 16 =>
    some (.postScriptTerminated (ad.getBool "Normal" new.normal) (ad.getInt "ReturnValue" new.returnValue)
      (ad.getInt "SignalNumber" new.signalNumber))
  | 17 =>
    let rmContact := ad.getString "RmContact" sval
    some (.globusSubmit (restoredText rmContact) (restoredText (ad.getString "JmContact" rmContact))
      (ad.getBool "RestartableJM" new.restartableJM))
  | 18 => some (.globusSubmitFailed (restoredText (ad.getString "Reason" sval)))
  | 19 => some (.globusResourceUp (restoredText (ad.getString "RmContact" sval)))
  | 20 => some (.globusResourceDown (restoredText (ad.getString "RmContact" sval)))
  | 21 =>
    let executeHost := ad.getString "ExecuteHost" sval
    let daemonName := ad.getString "DaemonName" executeHost
    some (.remoteError (restoredText executeHost) (restoredText daemonName)
      (restoredText (ad.getString "ErrorText" daemonName)) (ad.getBool "CriticalError" unset.bval))
  | 22 =>
    let startdAddr := ad.getString "StartdAddr" sval
    let startdName := ad.getString "StartdName" startdAddr
    let disconnectReason := ad.getString "DisconnReason" startdName
    let noReconnectReason := ad.getString "NoReconnReason" disconnectReason
    -- whether the job can be reconnected is not read
    some (.jobDisconnected (restoredText startdAddr) (restoredText startdName)
      (restoredText disconnectReason)
      (restoredText noReconnectReason) (lib.setNoReconnectReason noReconnectReason new.canReconnect))
  | 23 =>
    let startdAddr := ad.getString "StartdAddr" sval
    let startdName := ad.getString "StartdName" startdAddr
    some (.jobReconnected (restoredText startdAddr) (restoredText startdName)
      (restoredText (ad.getString "StartesAddr" startdName)))
  | 24 =>
    let startdName := ad.getString "StartdName" sval
    some (.jobReconnectFailed (restoredText startdName) (restoredText (ad.getString "Reason" startdName)))
  | 25 => some (.gridResourceUp (restoredText (ad.getString "GridResource" sval)))
  | 26 => some (.gridResourceDown (restoredText (ad.getString "GridResource" sval)))
  | 27 =>
    let resourceName := ad.getString "GridResource" sval
    some (.gridSubmit (restoredText resourceName) (restoredText (ad.getString "GridJobId" resourceName)))
  | _ => none

def toEvent (lib : Library) (unset : Unset) (ad : EventAd) : Option (Int × ULogEvent) := do
  let ival := EventAd.getInt ad "EventNumber" unset.ival
  let sval := EventAd.getString ad "Timeout" ""
  let epoch ← lexicalTime sval
  let new := lib.instantiateEvent ival
  let sval := EventAd.getString ad "EventTime" sval
  let tval ← lexicalTime sval
  let body ← bodyToEvent lib unset ad ival sval
  return (epoch, {
    eventTime := lib.localtime tval
    cluster := EventAd.getInt ad "Cluster" new.cluster
    proc := EventAd.getInt ad "Proc" new.proc
    subproc := EventAd.getInt ad "SubProc" new.subproc
    body })

end Wms.LogMonitor
