import Wms.Ice.Submit
import Mathlib.Logic.Function.Basic

/-! The row of a job that is only started.

A job in memory knows which of its columns were set since it was last written. In a job that was
just made from its request all of them count as set, and they still do when a job that was found
registered is written.
-/

set_option autoImplicit false

namespace Wms.Ice.StartOnly

inductive Column where
  | gridJobid | creamJobid | completeCreamJobid | jdl | ceid | endpoint | creamAddress
  | creamDelegAddress | userProxyfile | userDn | sequenceCode | delegationId | wnSequenceCode
  | prevStatus | status | numLoggedStatusChanges | lastSeen | leaseId | statusPollRetryCount
  | exitCode | failureReason | workerNode | killedByice | lastEmptyNotificationTime
  | proxyRenewable | myproxyAddress | isbproxyTimeEnd | modifiedJdl | lastPollerVisited
  | creamDbid | tokenFile | cancelSequenceCode
  deriving DecidableEq, Repr

inductive Value where
  | text (s : String)
  | number (n : Nat)
  deriving DecidableEq, Repr

def Value.toText : Value → String
  | .text s => s
  | .number n => toString n

def Value.toNumber : Value → Nat
  | .text _ => 0
  | .number n => n

abbrev Row := Column → Value

structure Job where
  value : Row
  changed : Column → Bool

namespace Job

def set (job : Job) (c : Column) (v : Value) : Job :=
  ⟨Function.update job.value c v, Function.update job.changed c true⟩

def updateDatabase (job : Job) (row : Row) : Row := fun c => if job.changed c then job.value c else row c

def setStatus (job : Job) (status : Nat) : Job :=
  (job.set .prevStatus (job.value .status)).set .status (.number status)

def setCreamJobid (postfixed : String) (job : Job) (cid : String) : Job :=
  let address := (job.value .creamAddress).toText
  let complete :=
    if cid ≠ "" && address ≠ "" then .text (completeId postfixed address cid)
      else job.value .completeCreamJobid
  (job.set .creamJobid (.text cid)).set .completeCreamJobid complete

end Job

/-- The columns that the request does not give. -/
def initial : Column → Option Value
  | .creamJobid | .completeCreamJobid | .delegationId | .wnSequenceCode | .leaseId
  | .failureReason | .workerNode | .cancelSequenceCode => some (.text "")
  | .prevStatus | .status => some (.number 11)
  | .numLoggedStatusChanges | .lastSeen | .statusPollRetryCount | .exitCode | .killedByice
  | .lastEmptyNotificationTime | .lastPollerVisited | .creamDbid => some (.number 0)
  | _ => none

/-- `RequestParser`, where every flag is as the constructor sets it -/
def parsed (request : Row) : Job := ⟨fun c => (initial c).getD (request c), fun _ => true⟩

/-- The number is assigned to a string, which makes one character of it, and read
back by `strtoull`. -/
def throughString (dbid : Nat) : Nat := if 48 ≤ dbid % 256 ∧ dbid % 256 ≤ 57 then dbid % 256 - 48 else 0

def idle (postfixed : String) (job : Job) (row : Row) : Job :=
  let job := (job.setCreamJobid postfixed (row .creamJobid).toText).setStatus 2
  (job.set .wnSequenceCode (job.value .sequenceCode)).set .creamDbid
    (.number (throughString (row .creamDbid).toNumber))

/-- `try_to_submit` with `only_start`, and what `execute` does after it: a job
that is not started is taken out. -/
def startOnly (postfixed : String) (request : Row) (started : Bool) (code : Option String)
    (row : Row) : Option Row :=
  if started then
    let job := idle postfixed (parsed request) row
    let row := job.updateDatabase row
    let row := (code.map fun code => Function.update row .sequenceCode (.text code)).getD row
    -- `last_seen` is set after the copy of the job was made that is written here
    some (job.updateDatabase row)
  else none

/-- The status, the sequence codes and the time of the last contact -/
def contact : Column → Bool
  | .status | .prevStatus | .sequenceCode | .wnSequenceCode | .cancelSequenceCode | .lastSeen => true
  | _ => false

/-- Written with a value of its own -/
def rewritten : Column → Bool
  | .creamJobid | .completeCreamJobid | .creamDbid => true
  | _ => false

variable {postfixed cid : String} {request row : Row} {code : Option String}

theorem throughString_eq_iff (dbid : Nat) : throughString dbid = dbid ↔ dbid = 0 := by
  unfold throughString
  split <;> omega

theorem startOnly_eq : startOnly postfixed request true code row = some
    (idle postfixed (parsed request) row).value := by
  have all : (idle postfixed (parsed request) row).changed = fun _ => true := by
    funext c
    simp [idle, parsed, Job.setCreamJobid, Job.setStatus, Job.set]
  have whole (row' : Row) : (idle postfixed (parsed request) row).updateDatabase row' =
      (idle postfixed (parsed request) row).value := by
    funext c
    simp [Job.updateDatabase, all]
  simp [startOnly, whole]

theorem idle_kept {c : Column} (apart : contact c = false) (copied : rewritten c = false) :
    (idle postfixed (parsed request) row).value c = (initial c).getD (request c) := by
  cases c with
  | status | prevStatus | sequenceCode | wnSequenceCode | cancelSequenceCode | lastSeen => cases apart
  | creamJobid | completeCreamJobid | creamDbid => cases copied
  | _ => rfl

theorem start_only_frame_iff (registered : row .creamJobid = .text cid) :
    (∀ final, startOnly postfixed request true code row = some final → ∀ c, contact c = false →
      final c = row c) ↔
      row .creamDbid = .number 0 ∧
      row .completeCreamJobid = ((parsed request).setCreamJobid postfixed cid).value .completeCreamJobid ∧
      ∀ c, contact c = false → rewritten c = false → row c = (initial c).getD (request c) := by
  have id : (idle postfixed (parsed request) row).value .creamJobid = row .creamJobid := by
    rw [registered]
    exact congrArg Value.text (congrArg Value.toText registered)
  have complete : (idle postfixed (parsed request) row).value .completeCreamJobid =
      ((parsed request).setCreamJobid postfixed cid).value .completeCreamJobid := by
    simp [idle, registered, Value.toText, Job.setStatus, Job.set]
  have dbid : (idle postfixed (parsed request) row).value .creamDbid = row .creamDbid ↔
      row .creamDbid = .number 0 := by
    change Value.number (throughString (row .creamDbid).toNumber) = _ ↔ _
    cases row .creamDbid with
    | text s => simp
    | number n => simpa [Value.toNumber] using throughString_eq_iff n
  rw [startOnly_eq]
  constructor
  · intro kept
    have same := kept _ rfl
    refine ⟨dbid.mp (same _ rfl), (same _ rfl).symm.trans complete, fun c apart copied => ?_⟩
    exact (same c apart).symm.trans (idle_kept apart copied)
  · rintro ⟨zero, recomputed, others⟩ _ ⟨⟩ c apart
    by_cases own : rewritten c = true
    · cases c with
      | creamJobid => exact id
      | completeCreamJobid => exact complete.trans recomputed.symm
      | creamDbid => exact dbid.mpr zero
      | _ => cases own
    · rw [Bool.not_eq_true] at own
      rw [idle_kept apart own, others c apart own]

def registeredRow (delegation : String) (dbid : Nat) : Row
  | .creamJobid => .text "CREAM1"
  | .completeCreamJobid => .text "https://ce/CREAM1"
  | .creamAddress => .text "https://ce"
  | .delegationId => .text delegation
  | .creamDbid => .number dbid
  | c => (initial c).getD (.text "")

theorem start_only_keeps_empty : registeredRow "" 0 .creamJobid = .text "CREAM1" ∧
    ∀ final, startOnly "/cream" (registeredRow "" 0) true none (registeredRow "" 0) = some final →
      ∀ c, contact c = false → final c = registeredRow "" 0 c := by
  refine ⟨rfl, (start_only_frame_iff rfl).mpr ⟨rfl, by decide, fun c _ copied => ?_⟩⟩
  cases c with
  | creamJobid | completeCreamJobid | creamDbid => cases copied
  | _ => rfl

theorem start_only_forgets :
    (startOnly "/cream" (registeredRow "delegation" 49) true none (registeredRow "delegation" 49)).map
      (fun row => (row .delegationId, row .creamDbid)) = some (.text "", .number 1) := by
  decide

end Wms.Ice.StartOnly
