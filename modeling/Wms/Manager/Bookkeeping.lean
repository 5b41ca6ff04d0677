import Mathlib.Data.List.Count
import Wms.Lib.Pattern

/-! Logging and Bookkeeping as the workload manager sees it (`lb_utils.cpp`).

The state of a job and the events of its history come from a server; the manager asks for
some kinds of events of some sources and looks for the last one of a kind. A query answers
with the events that satisfy its conditions, or with an error number.
-/

set_option autoImplicit false

namespace Wms.Manager

open Lib

inductive JobState where
  | undef
  | submitted
  | waiting
  | ready
  | scheduled
  | running
  | done
  | cleared
  | aborted
  | cancelled
  | unknown
  | purged
  deriving DecidableEq, Repr

inductive Source where
  | userInterface
  | networkServer
  | workloadManager
  | bigHelper
  | jobSubmission
  | logMonitor
  | lrms
  | application
  | lbServer
  deriving DecidableEq, Repr

inductive EnqueuedResult where
  | start
  | ok
  | fail
  deriving DecidableEq, Repr

inductive DoneCode where
  | ok
  | failed
  | cancelled
  deriving DecidableEq, Repr

inductive ResubmissionResult where
  | willResub
  | wontResub
  | shallow
  deriving DecidableEq, Repr

inductive EventType where
  | enqueued (result : EnqueuedResult)
  | done (code : DoneCode)
  | cancel
  | matched (destId : Bytes)
  | resubmission (result : ResubmissionResult)
  | userTag
  | other
  deriving DecidableEq, Repr

structure LbEvent where
  source : Source
  type : EventType
  deriving DecidableEq, Repr

/-! ### Queries -/

inductive QueryError where
  | failed
  | temporarilyFailed
  deriving DecidableEq, Repr

inductive LbErrno where
  | timedOut
  | notConnected
  | connectionRefused
  | tryAgain
  | noEntry
  | other (code : Nat)
  deriving DecidableEq, Repr

def isRetryable : LbErrno → Bool
  | .timedOut | .notConnected | .connectionRefused | .tryAgain => true
  | _ => false

abbrev Answer := Except LbErrno (List LbEvent)

def doQueryEvents (answer : Answer) (enoentIsError : Bool) : Except QueryError (List LbEvent) :=
  match answer with
  | .ok events => .ok events
  | .error e =>
    if enoentIsError = false ∧ e = .noEntry then .ok []
    else if isRetryable e then .error .temporarilyFailed
    else .error .failed

def cancelConditions (event : LbEvent) : Bool :=
  (match event.type with
    | .enqueued _ | .cancel => true
    | _ => false) && event.source = .workloadManager

/-! ### The last event of a kind -/

def isEnqueuedToJc (event : LbEvent) : Bool :=
  (match event.type with
    | .enqueued _ => true
    | _ => false) && event.source = .workloadManager

def isCancelledEvent (event : LbEvent) : Bool := event.type = .cancel

def isDoneEvent (event : LbEvent) : Bool :=
  (match event.type with
    | .done _ => true
    | _ => false) && event.source = .logMonitor

def findLast (p : LbEvent → Bool) (events : List LbEvent) : Option LbEvent := events.reverse.find? p

def isLastDone (events : List LbEvent) (code : DoneCode) : Bool :=
  match findLast isDoneEvent events with
  | some e => e.type = .done code
  | none => false

def isLastCancelledByWm (events : List LbEvent) : Bool :=
  match findLast isCancelledEvent events with
  | some e => e.source = .workloadManager
  | none => false

def isLastEnqueuedByWm (events : List LbEvent) (result : EnqueuedResult) : Bool :=
  match findLast isEnqueuedToJc events with
  | some e => e.type = .enqueued result
  | none => false

/-- A status that could not be obtained is in no state. -/
def isIn (state : JobState) (status : Option JobState) : Bool := status = some state

def inLimbo (status : Option JobState) (events : List LbEvent) : Bool :=
  isIn .ready status && isLastEnqueuedByWm events .start ||
    isIn .done status && isLastDone events .failed && isLastEnqueuedByWm events .start

/-! ### Retry counts -/

def isDeepResubmission (event : LbEvent) : Bool := event.type = .resubmission .willResub

def isShallowResubmission (event : LbEvent) : Bool := event.type = .resubmission .shallow

/-- From the last deep resubmission on, or all events when there is none. -/
def fromLastDeep (events : List LbEvent) : List LbEvent :=
  match events.reverse.findIdx? isDeepResubmission with
  | some i => events.drop (events.length - (i + 1))
  | none => events

def getRetryCounts (events : List LbEvent) : Nat × Nat :=
  (events.countP isDeepResubmission, (fromLastDeep events).countP isShallowResubmission)

end Wms.Manager
