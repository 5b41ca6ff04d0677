import Wms.LogMonitor.TimeoutEvent

/-! What comes back of an event that has been stored as a class-ad.

The attributes of a type are stored in front of those of every event, so that `to_event` finds the
latter as they were. What is left in its variables by them is what it takes for the attributes it
does not find.
-/

set_option autoImplicit false

namespace Wms.LogMonitor

open Lib List

/-! ### Numbers as texts -/

theorem lexicalNat_toDigits (n : Nat) : lexicalNat (Nat.toDigits 10 n) = some n := by
  have digits : (Nat.toDigits 10 n).all (isDigitOf 10) = true :=
    all_eq_true.mpr (isDigitOf_toDigits (by decide) (by decide) n)
  simp [lexicalNat, digits, numeralValue_toDigits, Nat.toDigits_ne_nil]

theorem lexicalTime_digits {c : Char} {digits : Bytes} (digit : isDigitOf 10 c = true) :
    lexicalTime (String.ofList (c :: digits)) = (lexicalNat (c :: digits)).map fun n :
    Nat => (n : Int) := by
  have minus : c ≠ '-' := fun same => absurd (same ▸ digit) (by decide)
  have plus : c ≠ '+' := fun same => absurd (same ▸ digit) (by decide)
  simp [lexicalTime, minus, plus]

@[simp] theorem lexicalTime_lexicalText (n : Int) : lexicalTime (lexicalText n) = some n := by
  by_cases negative : n < 0
  · have size : -((n.natAbs : Nat) : Int) = n := by omega
    simp only [lexicalText, lexicalTime, decimal, negative, if_true, String.toList_ofList,
      lexicalNat_toDigits,
      Option.map_some, size]
  · cases digits : Nat.toDigits 10 n.natAbs with
    | nil => exact absurd digits Nat.toDigits_ne_nil
    | cons c rest =>
      have digit : isDigitOf 10 c = true :=
        isDigitOf_toDigits (by decide) (by decide) n.natAbs c (digits ▸ mem_cons_self)
      have size : ((n.natAbs : Nat) : Int) = n := by omega
      simp only [lexicalText, decimal, negative, if_false, digits, lexicalTime_digits digit]
      rw [← digits, lexicalNat_toDigits, Option.map_some, size]

/-! ### What comes back -/

def garbage (val : Int) : Rusage where
  utime := ⟨val, 0⟩
  stime := ⟨val, 0⟩
  maxrss := val
  ixrss := val
  idrss := val
  isrss := val
  minflt := val
  majflt := val
  nswap := val
  inblock := val
  oublock := val
  msgsnd := val
  msgrcv := val
  nsignals := val
  nvcsw := val
  nivcsw := val

variable (lib : Library) (unset : Unset) (e : ULogEvent)

theorem toRusage_toClassAd (val : Int) (ru : Rusage) :
    toRusage lib val ⟨ru.toClassAd.attributes⟩ = garbage val := by
  change toRusage lib val ru.toClassAd = garbage val
  simp [toRusage, Rusage.toClassAd, ClassAd.evaluateReal, garbage]

def storedText (t : Text) : Text := some (nullString t)

def restoredTermination (unset : Unset) (te : Termination) : Termination :=
  { te with
    coreFile := storedText te.coreFile
    runLocalRusage := garbage unset.val
    runRemoteRusage := garbage unset.val
    totalLocalRusage := garbage unset.val
    totalRemoteRusage := garbage unset.val }

def restoredBody (lib : Library) (unset : Unset) (time : String) : EventBody → EventBody
  | .execute _ => .execute (hostText time)
  | .checkpointed _ _ => .checkpointed (garbage unset.val) (garbage unset.val)
  | .jobEvicted ev =>
    .jobEvicted { ev with
      reason := storedText ev.reason
      coreFile := storedText ev.coreFile
      runLocalRusage := garbage unset.val
      runRemoteRusage := garbage unset.val }
  | .jobTerminated te => .jobTerminated (restoredTermination unset te)
  | .imageSize _ => .imageSize (lib.instantiateEvent 6).imageSizeKb
  | .jobAborted reason => .jobAborted (storedText reason)
  | .jobHeld reason reasonCode reasonSubCode => .jobHeld (storedText reason) reasonCode reasonSubCode
  | .jobReleased reason => .jobReleased (storedText reason)
  | .nodeExecute node _ => .nodeExecute node (hostText time)
  | .nodeTerminated node te => .nodeTerminated node (restoredTermination unset te)
  | .globusSubmit rmContact jmContact restartableJM =>
    .globusSubmit (storedText rmContact) (storedText jmContact) restartableJM
  | .globusSubmitFailed reason => .globusSubmitFailed (storedText reason)
  | .globusResourceUp rmContact => .globusResourceUp (storedText rmContact)
  | .globusResourceDown rmContact => .globusResourceDown (storedText rmContact)
  | .remoteError executeHost daemonName errorText criticalError =>
    .remoteError (storedText executeHost) (storedText daemonName) (storedText errorText) criticalError
  | .jobDisconnected startdAddr startdName disconnectReason noReconnectReason _ =>
    .jobDisconnected (storedText startdAddr) (storedText startdName) (storedText disconnectReason)
      (storedText noReconnectReason)
      (lib.setNoReconnectReason (nullString noReconnectReason) (lib.instantiateEvent 22).canReconnect)
  | .jobReconnected startdAddr startdName starterAddr =>
    .jobReconnected (storedText startdAddr) (storedText startdName) (storedText starterAddr)
  | .jobReconnectFailed startdName reason => .jobReconnectFailed (storedText startdName)
      (storedText reason)
  | .gridSubmit resourceName jobId => .gridSubmit (storedText resourceName) (storedText jobId)
  | .gridResourceUp resourceName => .gridResourceUp (storedText resourceName)
  | .gridResourceDown resourceName => .gridResourceDown (storedText resourceName)
  | body => body

theorem strncpy_val {size : Nat} (positive : 0 < size) (text : ArrayText size) :
    strncpy size positive text.val = text := by
  apply Subtype.ext
  have short : text.val.toList.length ≤ size - 1 := Nat.le_sub_one_of_lt text.property
  simp [strncpy, take_of_length_le short]

namespace EventAd

variable (ad : EventAd) (name name' : String)

@[simp] theorem lookup_int (n : Int) :
    (ad.int name n).lookup name' = if name = name' then some (.int n) else ad.lookup name' :=
  ClassAd.lookup_insert ad name name' (.int n)

@[simp] theorem lookup_real (x : Single) :
    (ad.real name x).lookup name' = if name = name' then some (.real x) else ad.lookup name' :=
  ClassAd.lookup_insert ad name name' (.real x)

@[simp] theorem lookup_bool (b : Bool) :
    (ad.bool name b).lookup name' = if name = name' then some (.bool b) else ad.lookup name' :=
  ClassAd.lookup_insert ad name name' (.bool b)

@[simp] theorem lookup_string (s : String) :
    (ad.string name s).lookup name' = if name = name' then some (.string s) else ad.lookup name' :=
  ClassAd.lookup_insert ad name name' (.string s)

@[simp] theorem lookup_text (t : Text) :
    (ad.text name t).lookup name' = if name = name' then some (.string (nullString t))
      else ad.lookup name' :=
  ClassAd.lookup_insert ad name name' (.string (nullString t))

@[simp] theorem lookup_optional (t : Text) :
    (ad.optional name t).lookup name' =
      if name = name' then (t.map AdValue.string).or (ad.lookup name') else ad.lookup name' := by
  cases t <;> simp [optional]

@[simp] theorem lookup_rusage (ru : Rusage) :
    (ad.rusage name ru).lookup name' =
      if name = name' then some (.ad ru.toClassAd.attributes) else ad.lookup name' :=
  ClassAd.lookup_insert ad name name' (.ad ru.toClassAd.attributes)

end EventAd

theorem lookup_bodyToClassAd (ad : EventAd) (body : EventBody) (name : String)
    (common : name ∈ ["Timeout", "EventNumber", "EventTime", "Cluster", "Proc", "SubProc"]) :
    (bodyToClassAd ad body).lookup name = ad.lookup name := by
  simp only [mem_cons, not_mem_nil, or_false] at common
  obtain rfl | rfl | rfl | rfl | rfl | rfl := common <;> cases body <;>
    simp [bodyToClassAd, EventAd.exit, EventAd.bytes]

attribute [local simp] EventAd.getInt EventAd.getReal EventAd.getBool EventAd.getString EventAd.getRusage
  ClassAd.evaluateInt ClassAd.evaluateReal ClassAd.evaluateBool ClassAd.evaluateString ClassAd.evaluateAd

theorem bodyToEvent_toClassAd (epoch : Int) (e : ULogEvent) (time : String) :
    bodyToEvent lib unset (toClassAd lib epoch e) e.body.eventNumber time =
      some (restoredBody lib unset time e.body) := by
  unfold toClassAd
  cases e.body with
  | submit logNotes userNotes =>
    cases logNotes <;> cases userNotes <;>
      simp [bodyToEvent, bodyToClassAd, commonAd, EventBody.eventNumber, restoredBody, lib.noNotes]
  | _ =>
    simp [bodyToEvent, bodyToClassAd, commonAd, EventBody.eventNumber, restoredBody, EventAd.exit,
      EventAd.bytes,
      EventAd.getBytes, toRusage_toClassAd, restoredText, storedText, restoredTermination, strncpy_val]

/-- The type, the times and the numbers of the job come back, and of the rest
what `restoredBody` says. -/
theorem toEvent_toClassAd (epoch : Int) (e : ULogEvent) :
    toEvent lib unset (toClassAd lib epoch e) = some (epoch, {
      e with
      eventTime := lib.localtime (lib.mktime e.eventTime)
      body := restoredBody lib unset (lexicalText (lib.mktime e.eventTime)) e.body }) := by
  have common (name : String)
      (member : name ∈ ["Timeout", "EventNumber", "EventTime", "Cluster", "Proc", "SubProc"]) :
      (toClassAd lib epoch e).lookup name = (commonAd lib epoch e).lookup name :=
    lookup_bodyToClassAd _ _ name member
  simp [toEvent, common, commonAd, bodyToEvent_toClassAd]

/-! ### Which events come back -/

def EventBody.texts : EventBody → List Text
  | .jobAborted reason => [reason]
  | .jobHeld reason _ _ => [reason]
  | .jobReleased reason => [reason]
  | .globusSubmit rmContact jmContact _ => [rmContact, jmContact]
  | .globusSubmitFailed reason => [reason]
  | .globusResourceUp rmContact => [rmContact]
  | .globusResourceDown rmContact => [rmContact]
  | .remoteError executeHost daemonName errorText _ => [executeHost, daemonName, errorText]
  | .jobDisconnected startdAddr startdName disconnectReason noReconnectReason _ =>
    [startdAddr, startdName, disconnectReason, noReconnectReason]
  | .jobReconnected startdAddr startdName starterAddr => [startdAddr, startdName, starterAddr]
  | .jobReconnectFailed startdName reason => [startdName, reason]
  | .gridSubmit resourceName jobId => [resourceName, jobId]
  | .gridResourceUp resourceName => [resourceName]
  | .gridResourceDown resourceName => [resourceName]
  | _ => []

/-- The condition on the members of an event of each type, besides its texts. -/
def EventBody.Kept (lib : Library) (time : String) : EventBody → Prop
  -- the host is not stored
  | .execute executeHost => hostText time = executeHost
  | .nodeExecute _ executeHost => hostText time = executeHost
  -- the resource usage is stored as texts and evaluated as numbers
  | .checkpointed .. => False
  | .jobEvicted .. => False
  | .jobTerminated .. => False
  | .nodeTerminated .. => False
  -- the size and the flag are stored, but not restored
  | .imageSize imageSizeKb => (lib.instantiateEvent 6).imageSizeKb = imageSizeKb
  | .jobDisconnected _ _ _ noReconnectReason canReconnect =>
    lib.setNoReconnectReason (nullString noReconnectReason) (lib.instantiateEvent 22).canReconnect =
      canReconnect
  | _ => True

/-- The events that are stored and restored as they are. -/
structure RoundTrips (lib : Library) (e : ULogEvent) : Prop where
  /-- Of a time there is the number of seconds only. -/
  time : lib.localtime (lib.mktime e.eventTime) = e.eventTime
  texts : ∀ text ∈ e.body.texts, text ≠ none
  members : e.body.Kept lib (lexicalText (lib.mktime e.eventTime))

theorem storedText_eq_iff (text : Text) : storedText text = text ↔ text ≠ none := by
  cases text <;> simp [storedText, nullString]

def EventBody.usage : EventBody → Option Rusage
  | .checkpointed runLocalRusage _ => some runLocalRusage
  | .jobEvicted ev => some ev.runLocalRusage
  | .jobTerminated te => some te.runLocalRusage
  | .nodeTerminated _ te => some te.runLocalRusage
  | _ => none

theorem usage_restoredBody (time : String) (body : EventBody) :
    (restoredBody lib unset time body).usage = body.usage.map fun _ => garbage unset.val := by
  cases body <;> rfl

/-- A resource usage that comes back is not the same for two contents of the variable. -/
theorem usage_eq_none {lib : Library} {time : String} {body : EventBody}
    (same : ∀ unset, restoredBody lib unset time body = body) : body.usage = none := by
  cases usage : body.usage with
  | none => rfl
  | some ru =>
    have garbled (unset : Unset) : garbage unset.val = ru := by
      have restored := usage_restoredBody lib unset time body
      rw [same unset, usage] at restored
      exact (Option.some.inj restored).symm
    have zero : (0 : Int) = ru.maxrss :=
      congrArg Rusage.maxrss (garbled { (default : Unset) with val := 0 })
    have one : (1 : Int) = ru.maxrss := congrArg Rusage.maxrss
        (garbled { (default : Unset) with val := 1 })
    omega

theorem restoredBody_eq_iff (time : String) (body : EventBody) :
    (∀ unset, restoredBody lib unset time body = body) ↔
      (∀ text ∈ body.texts, text ≠ none) ∧ body.Kept lib time := by
  cases body with
  | checkpointed | jobEvicted | jobTerminated | nodeTerminated =>
      exact iff_of_false (fun same => nomatch usage_eq_none same) (fun kept => kept.2)
  | _ => simp [restoredBody, EventBody.texts, EventBody.Kept, storedText_eq_iff, and_assoc]

theorem toEvent_eq_iff (epoch : Int) (e : ULogEvent) :
    toEvent lib unset (toClassAd lib epoch e) = some (epoch, e) ↔
      lib.localtime (lib.mktime e.eventTime) = e.eventTime ∧
        restoredBody lib unset (lexicalText (lib.mktime e.eventTime)) e.body = e.body := by
  rw [toEvent_toClassAd]
  cases e
  simp

theorem roundTrips_iff : RoundTrips lib e ↔ lib.localtime (lib.mktime e.eventTime) = e.eventTime ∧
      ∀ unset, restoredBody lib unset (lexicalText (lib.mktime e.eventTime)) e.body = e.body := by
  rw [restoredBody_eq_iff]
  exact ⟨fun kept => ⟨kept.time, kept.texts, kept.members⟩, fun ⟨time, texts, members⟩ =>
    ⟨time, texts, members⟩⟩

/-- An event comes back as it was, whatever the variables held before, just when it has one of these
times and none of the members that get lost. -/
theorem toEvent_toClassAd_iff (lib : Library) (epoch : Int) (e : ULogEvent) :
    (∀ unset, toEvent lib unset (toClassAd lib epoch e) = some (epoch, e)) ↔ RoundTrips lib e := by
  simp only [toEvent_eq_iff, forall_and, forall_const, roundTrips_iff]

def plainLibrary : Library where
  mktime t := (((t.mday - 1) * 24 + t.hour) * 60 + t.min) * 60 + t.sec
  localtime n :=
    { sec := n % 60, min := n / 60 % 60, hour := n / 3600 % 24, mday := n / 86400 + 1, mon :=
      0, year := 70,
      wday := (n / 86400 + 4) % 7, yday := n / 86400, isdst := 0 }
  toLong x := x.toInt
  instantiateEvent _ := default
  setNoReconnectReason _ _ := false
  noNotes := ⟨rfl, rfl⟩

def firstEvent (body : EventBody) : ULogEvent :=
  { eventTime := plainLibrary.localtime 0, cluster := 1, proc := 0, subproc := 0, body }

def tripped (unset : Unset) (body : EventBody) : Option (Int × ULogEvent) :=
  toEvent plainLibrary unset (toClassAd plainLibrary 600 (firstEvent body))

/-- The host of an execution comes back as the time of the event, the size of an image as that of a
new event, a missing reason as an empty one, and a resource usage as what the variable held. -/
theorem events_come_back_changed :
    tripped default (.execute (some "ce.cern.ch")) = some (600, firstEvent (.execute (some "0"))) ∧
    tripped default (.imageSize 1024) = some (600, firstEvent (.imageSize 0)) ∧
    tripped default (.jobAborted none) = some (600, firstEvent (.jobAborted (some ""))) ∧
    ∀ unset, tripped unset (.checkpointed default default) =
      some (600, firstEvent (.checkpointed (garbage unset.val) (garbage unset.val))) := by
  simp only [tripped, toEvent_toClassAd]
  exact ⟨rfl, rfl, rfl, fun _ => rfl⟩

end Wms.LogMonitor
