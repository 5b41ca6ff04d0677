import Wms.Manager.SubmitRequest

/-! The dispatcher (`dispatcher_utils.cpp`).

Each item of the input is turned into an event that takes care of the item, or is removed
from the input by a scope guard. The guard is dismissed before the event exists, and not
every exception on the way is caught.
-/

set_option autoImplicit false

namespace Wms.Manager

open Lib

inductive Raised where
  | classAdError
  | cannotCreateLBContext
  | other
  deriving DecidableEq, Repr

inductive RequestCommand where
  | jobsubmit
  | jobresubmit
  | jobcancel
  | matching
  | ismDump
  | wmDebug
  | unrecognized (command : String)
  deriving DecidableEq, Repr

/-- An item of the input, with the results of everything that is asked while it is
dispatched: of the class-ad, job identifier and proxy libraries, and of the L&B library. -/
structure ItemInput where
  value : Except Raised String
  parses : Bool
  command : Except Raised RequestCommand
  isValid : Except Raised Bool
  id : Except Raised String
  sequenceCode : Except Raised String
  x509Proxy : Except Raised String
  idText : Except Raised String
  context : Except Raised Unit
  logged : LogReply
  jobAd : Except Raised Unit
  removable : Bool

inductive NewEvent where
  | submit (command : Command) (id : String)
  | cancel (id : String)
  | matching (id : String)
  | dumpIsm
  deriving DecidableEq, Repr

/-- All but the dump are given the cleanup of the item they come from. -/
def NewEvent.ownsItem : NewEvent → Bool
  | .dumpIsm => false
  | _ => true

/-! ### One item -/

structure Trace where
  dismissed : Bool
  scheduled : List NewEvent
  deriving DecidableEq, Repr

abbrev Dispatch := ExceptT Raised (StateM Trace)

namespace Dispatch

def raise {α : Type} : Except Raised α → Dispatch α
  | .ok a => pure a
  | .error e => throw e

def dismiss : Dispatch Unit := modify fun t => { t with dismissed := true }

def schedule (event : NewEvent) : Dispatch Unit :=
  modify fun t => { t with scheduled := t.scheduled ++ [event] }

def log (reply : LogReply) : Dispatch Unit :=
  match reply with
  | .noContext _ => throw .cannotCreateLBContext
  | _ => pure ()

end Dispatch

open Dispatch

def checkRequest (i : ItemInput) : Except Raised (String × String × String) := do
  if ← i.isValid then
    let id ← i.id
    let sequenceCode ← i.sequenceCode
    let x509Proxy ← i.x509Proxy
    pure (id, sequenceCode, x509Proxy)
  else pure ("", "", "")

def dispatchSubmit (i : ItemInput) (command : Command) : Dispatch Unit := do
  let request ← raise (checkRequest i)
  dismiss
  -- the identifier is printed
  let _ ← raise i.idText
  raise i.context
  log i.logged
  -- the constructor of the state takes the job out of a `jobsubmit`
  if command = .jobsubmit then raise i.jobAd
  schedule (.submit command request.1)

def dispatchCancel (i : ItemInput) : Dispatch Unit := do
  let request ← raise (checkRequest i)
  dismiss
  raise i.context
  log i.logged
  schedule (.cancel request.1)

def dispatchMatch (i : ItemInput) : Dispatch Unit := do
  dismiss
  let id ← raise i.id
  schedule (.matching id)

def dispatchRequest (i : ItemInput) : Dispatch Unit := do
  if i.parses then
    match ← raise i.command with
    | .jobsubmit => dispatchSubmit i .jobsubmit
    | .jobresubmit => dispatchSubmit i .jobresubmit
    | .jobcancel => dispatchCancel i
    | .matching => dispatchMatch i
    | .ismDump => schedule .dumpIsm
    | .wmDebug | .unrecognized _ => pure ()
  else pure ()

structure ItemOutcome where
  removed : Bool
  scheduled : List NewEvent
  escaped : Option Raised
  deriving DecidableEq, Repr

/-- `Dispatch::operator()`; the guard removes the item unless it has been dismissed, also when
an exception passes, and ignores that the item cannot be removed. -/
def dispatch (i : ItemInput) : ItemOutcome :=
  match i.value with
  | .error e => ⟨i.removable, [], some e⟩
  | .ok _ =>
    let (result, trace) := (dispatchRequest i).run ⟨false, []⟩
    ⟨!trace.dismissed && i.removable, trace.scheduled,
      match result with
      | .ok _ | .error .classAdError | .error .cannotCreateLBContext => none
      | .error .other => some .other⟩

/-! ### A batch -/

inductive Next where
  | again (delay : Nat)
  | stop
  deriving DecidableEq, Repr

structure DispatcherPass where
  outcomes : List ItemOutcome
  next : Next
  deriving DecidableEq, Repr

/-- `std::for_each` over the items; an exception of one leaves the loop and stops the events. -/
def dispatchAll : List ItemInput → DispatcherPass
  | [] => ⟨[], .again 1⟩
  | i :: rest =>
    match (dispatch i).escaped with
    | some _ => ⟨[dispatch i], .stop⟩
    | none => { dispatchAll rest with outcomes := dispatch i :: (dispatchAll rest).outcomes }

inductive ReadResult where
  | items (batch : List ItemInput)
  | jobDirError
  | other

def dispatcher (quit : Bool) (readySize queueSize : Nat) (read : ReadResult) : DispatcherPass :=
  if quit then ⟨[], .stop⟩
  else if readySize < queueSize then
    match read with
    | .items batch => dispatchAll batch
    | .jobDirError => ⟨[], .again 1⟩
    | .other => ⟨[], .stop⟩
  else ⟨[], .again 60⟩

/-! ### What becomes of the items -/

/-- The item is removed, or owned by one event. -/
def ItemOutcome.Settled (o : ItemOutcome) : Prop :=
  o.removed = true ∧ o.scheduled.countP NewEvent.ownsItem = 0 ∨
    o.removed = false ∧ o.scheduled.countP NewEvent.ownsItem = 1

instance (o : ItemOutcome) : Decidable o.Settled := by
  unfold ItemOutcome.Settled
  infer_instance

/-- Every item of the batch has been processed and is settled, and the events go on. -/
structure Handled (batch : List ItemInput) (pass : DispatcherPass) : Prop where
  all : pass.outcomes.length = batch.length
  settled : ∀ o ∈ pass.outcomes, o.Settled
  goesOn : pass.next ≠ .stop

/-- The request is refused before the guard is dismissed, by a `return` or with an exception
that is caught. -/
@[mk_iff]
inductive Refused (i : ItemInput) : Prop where
  | parse (failed : i.parses = false)
  | command {e : Raised} (parsed : i.parses = true) (failed : i.command = .error e) (caught : e ≠ .other)
  | check {e : Raised} {command : RequestCommand} (parsed : i.parses = true)
      (asked : i.command = .ok command)
      (checked : command = .jobsubmit ∨ command = .jobresubmit ∨ command = .jobcancel)
      (failed : checkRequest i = .error e) (caught : e ≠ .other)
  | ignored {command : RequestCommand} (parsed : i.parses = true) (asked : i.command = .ok command)
      (useless : command = .ismDump ∨ command = .wmDebug ∨ ∃ text, command = .unrecognized text)

@[mk_iff]
inductive Accepted (i : ItemInput) : Prop where
  | submit {command : RequestCommand} {request : String × String × String} {text : String}
      (parsed : i.parses = true) (asked : i.command = .ok command)
      (submits : command = .jobsubmit ∨ command = .jobresubmit) (checked : checkRequest i = .ok request)
      (printed : i.idText = .ok text) (context : i.context = .ok ())
      (logged : ∀ code, i.logged ≠ .noContext code) (taken : command = .jobsubmit → i.jobAd = .ok ())
  | cancel {request : String × String × String} (parsed : i.parses = true)
      (asked : i.command = .ok .jobcancel)
      (checked : checkRequest i = .ok request) (context : i.context = .ok ())
      (logged : ∀ code, i.logged ≠ .noContext code)
  | matching {id : String} (parsed : i.parses = true) (asked : i.command = .ok .matching)
      (identified : i.id = .ok id)

/-- The item can be read, and it is refused and removed or accepted to the end. -/
def Dispatchable (i : ItemInput) : Prop :=
  (∃ text, i.value = .ok text) ∧ (Refused i ∧ i.removable = true ∨ Accepted i)

/-! #### One item -/

/-- What has begun with the trace ends with the item settled, and no exception leaves it. -/
def Settles (removable : Bool) (t : Trace) (x : Dispatch Unit) : Prop :=
  (x.run t).1 ≠ .error .other ∧
    ItemOutcome.Settled ⟨!(x.run t).2.dismissed && removable, (x.run t).2.scheduled, none⟩

section Settles

variable {α : Type} {removable : Bool} {result : Except Raised α} {f : α → Dispatch Unit}
  {next : Unit → Dispatch Unit}

theorem settles_run {x : Dispatch Unit} {t t' : Trace} {result : Except Raised Unit}
    (runs : x.run t = (result, t')) :
    Settles removable t x ↔ result ≠ .error .other ∧
      ItemOutcome.Settled ⟨!t'.dismissed && removable, t'.scheduled, none⟩ := by
  rw [Settles, runs]

@[simp]
theorem settles_raise : Settles removable ⟨false, []⟩ (raise result >>= f) ↔
    (∃ e, result = .error e ∧ e ≠ .other) ∧ removable = true ∨
      ∃ a, result = .ok a ∧ Settles removable ⟨false, []⟩ (f a) := by
  cases result with
  | ok a => exact ⟨fun ends => .inr ⟨a, rfl, ends⟩, by
    rintro (⟨⟨_, ⟨⟩, _⟩, _⟩ | ⟨_, ⟨⟩, ends⟩); exact ends⟩
  | error e => exact (settles_run rfl).trans (by simp [ItemOutcome.Settled])

/-- An exception after the guard has been dismissed leaves the item to nobody. -/
@[simp]
theorem settles_raise_dismissed : Settles removable ⟨true, []⟩ (raise result >>= f) ↔
    ∃ a, result = .ok a ∧ Settles removable ⟨true, []⟩ (f a) := by
  cases result with
  | ok a => exact ⟨fun ends => ⟨a, rfl, ends⟩, by rintro ⟨_, ⟨⟩, ends⟩; exact ends⟩
  | error e => exact (settles_run rfl).trans (by simp [ItemOutcome.Settled])

@[simp]
theorem settles_dismiss : Settles removable ⟨false, []⟩ (dismiss >>= next) ↔
    Settles removable ⟨true, []⟩ (next ()) := Iff.rfl

@[simp]
theorem settles_log {reply : LogReply} : Settles removable ⟨true, []⟩ (log reply >>= next) ↔
    (∀ code, reply ≠ .noContext code) ∧ Settles removable ⟨true, []⟩ (next ()) := by
  cases reply with
  | noContext code => exact (settles_run rfl).trans (by simp [ItemOutcome.Settled])
  | _ => exact (and_iff_right (by simp)).symm

@[simp]
theorem settles_schedule {event : NewEvent} :
    Settles removable ⟨true, []⟩ (schedule event) ↔ event.ownsItem = true :=
  (settles_run rfl).trans (by simp [ItemOutcome.Settled])

@[simp]
theorem settles_pure : Settles removable ⟨false, []⟩ (pure ()) ↔ removable = true :=
  (settles_run rfl).trans (by simp [ItemOutcome.Settled])

@[simp]
theorem settles_dumpIsm : Settles removable ⟨false, []⟩ (schedule .dumpIsm) ↔ removable = true :=
  (settles_run rfl).trans (by simp [ItemOutcome.Settled, NewEvent.ownsItem])

end Settles

/-- One item is settled and lets the batch go on exactly when it can be dispatched. -/
theorem dispatch_settled_iff (i : ItemInput) :
    (dispatch i).escaped = none ∧ (dispatch i).Settled ↔ Dispatchable i := by
  cases read : i.value with
  | error e => simp [dispatch, Dispatchable, read]
  | ok text =>
    have ends : (dispatch i).escaped = none ∧ (dispatch i).Settled ↔ Settles i.removable ⟨false, []⟩
        (dispatchRequest i) := by
      simp only [dispatch, read, Settles]
      rcases (dispatchRequest i).run ⟨false, []⟩ with ⟨(_ | _ | _) | _, t⟩ <;> simp [ItemOutcome.Settled]
    rw [ends, Dispatchable, and_iff_right ⟨text, read⟩, refused_iff, accepted_iff, dispatchRequest]
    cases parsed : i.parses with
    | false => simp
    | true =>
      rw [if_pos rfl, settles_raise]
      cases asked : i.command with
      | error e => simp
      | ok command =>
        cases command with
        | jobsubmit | jobresubmit =>
          simp [dispatchSubmit, NewEvent.ownsItem, Unique.exists_iff]
        | jobcancel =>
          simp [dispatchCancel, NewEvent.ownsItem, Unique.exists_iff]
        | matching => simp [dispatchMatch, NewEvent.ownsItem]
        | ismDump | wmDebug | unrecognized text => simp

theorem dispatchAll_handled_iff (batch : List ItemInput) :
    Handled batch (dispatchAll batch) ↔ ∀ i ∈ batch, Dispatchable i := by
  induction batch with
  | nil => simpa using (⟨rfl, by simp [dispatchAll], by simp [dispatchAll]⟩ : Handled [] (dispatchAll []))
  | cons i rest ih =>
    rw [List.forall_mem_cons, ← ih, ← dispatch_settled_iff]
    cases escaped : (dispatch i).escaped with
    | some e =>
      -- the loop is left, and the events are stopped
      have stopped : (dispatchAll (i :: rest)).next = .stop := by simp [dispatchAll, escaped]
      exact ⟨fun handled => absurd stopped handled.goesOn, fun ⟨⟨impossible, _⟩, _⟩ => by cases impossible⟩
    | none =>
      have outcomes : (dispatchAll (i :: rest)).outcomes = dispatch i :: (dispatchAll rest).outcomes := by
        simp [dispatchAll, escaped]
      have next : (dispatchAll (i :: rest)).next = (dispatchAll rest).next := by
        simp [dispatchAll, escaped]
      constructor
      · rintro ⟨all, settled, goesOn⟩
        rw [outcomes] at all settled
        rw [next] at goesOn
        exact ⟨⟨rfl, settled _ (by simp)⟩, by
          simpa using all, fun o member => settled o (by simp [member]), goesOn⟩
      · rintro ⟨⟨_, first⟩, all, settled, goesOn⟩
        refine ⟨by simpa [outcomes] using all, ?_, by rwa [next]⟩
        rw [outcomes]
        exact List.forall_mem_cons.mpr ⟨first, settled⟩

/-- A batch that the dispatcher reads is handled exactly when each of its items can be
dispatched. -/
theorem batch_handled_iff (batch : List ItemInput) {readySize queueSize : Nat}
    (room : readySize < queueSize) :
    Handled batch (dispatcher false readySize queueSize (.items batch)) ↔ ∀ i ∈ batch, Dispatchable i := by
  simpa [dispatcher, room] using dispatchAll_handled_iff batch

def ItemInput.wellFormed : ItemInput :=
  ⟨.ok "", true, .ok .jobsubmit, .ok true, .ok "id", .ok "code", .ok "proxy", .ok "id", .ok (),
    .logged, .ok (), true⟩

theorem batch_handled_iff_wellFormed : Handled [.wellFormed]
    (dispatcher false 0 1 (.items [.wellFormed])) := by
  apply (batch_handled_iff [.wellFormed] (by decide : 0 < 1)).mpr
  simp only [List.mem_singleton, forall_eq]
  exact ⟨⟨_, rfl⟩, .inr (.submit rfl rfl (.inl rfl) rfl rfl rfl (by simp [ItemInput.wellFormed])
    fun _ => rfl)⟩

/-- A request with an identifier that is none stops the dispatcher before the next item, and
one for which no context can be created stays in the input with nobody to take care of it. -/
theorem batch_abandoned :
    dispatcher false 0 1 (.items [{ ItemInput.wellFormed with id := .error .other }, .wellFormed]) =
        ⟨[⟨true, [], some .other⟩], .stop⟩ ∧
      dispatcher false 0 1 (.items [{ ItemInput.wellFormed with context := .error .cannotCreateLBContext }]) =
        ⟨[⟨false, [], none⟩], .again 1⟩ ∧
      ¬ Handled [{ ItemInput.wellFormed with id := .error .other }, .wellFormed]
        ⟨[⟨true, [], some .other⟩], .stop⟩ ∧
      ¬ Handled [{ ItemInput.wellFormed with context := .error .cannotCreateLBContext }]
        ⟨[⟨false, [], none⟩], .again 1⟩ := by
  refine ⟨rfl, rfl, fun handled => handled.goesOn rfl, fun handled => ?_⟩
  have settled := handled.settled ⟨false, [], none⟩ (by simp)
  revert settled
  decide

end Wms.Manager
