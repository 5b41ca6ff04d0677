import Wms.Manager.SubmitRequest

/-! The L&B context while a collection is delivered (`WMReal::submit_collection`).

The context of the collection is switched to each of its nodes. The state of an action here is the
job on which the context logs.
-/

set_option autoImplicit false

namespace Wms.Manager.CollectionContext

open Lib

inductive Job (N : Type) where
  | collection
  | node (n : N)
  deriving DecidableEq

/-- What the delivery asks its surroundings; an event carries the job it is logged on. -/
inductive Call (N : Type) where
  | doBulkMm
  | planned (n : N)
  | setLoggingJob (job : Job N)
  | logEnqueuedOk (job : Job N)
  | createToken (n : N)
  | submit (n : N)
  | dagAd
  | nodeId (n : N)
  | children
  | logAbort (job : Job N)

@[reducible] def Reply {N : Type} : Call N → Type
  -- the scheduled and the pending nodes
  | .doBulkMm => Except Thrown (List N × List N)
  | .setLoggingJob _ => Unit
  | .children => Option (Option (List (N × JobState)))
  | .planned _ | .logEnqueuedOk _ | .createToken _ | .submit _ | .dagAd | .nodeId _ | .logAbort _ =>
      Except Thrown Unit

abbrev Act (N : Type) := Dialog (Call N) Reply (Job N) Thrown

variable {N : Type}

abbrev ask (c : Call N) : Act N (Reply c) := Dialog.ask c

open Dialog hiding ask

def changeLoggingJob (job : Job N) : Act N Unit := do
  ask (.setLoggingJob job)
  modify fun _ => job

def logEnqueuedOk : Act N Unit := do
  let job ← get
  ofExcept (← ask (.logEnqueuedOk job))

def logAbort : Act N Unit := do
  let job ← get
  ofExcept (← ask (.logAbort job))

def submitScheduled : List N → Act N Unit
  | [] => pure ()
  | n :: rest => do
    ofExcept (← ask (.planned n))
    changeLoggingJob (.node n)
    logEnqueuedOk
    ofExcept (← ask (.createToken n))
    ofExcept (← ask (.submit n))
    submitScheduled rest

def logPending : List N → Act N Unit
  | [] => pure ()
  | n :: rest => do
    ofExcept (← ask (.nodeId n))
    changeLoggingJob (.node n)
    logEnqueuedOk
    logPending rest

def logWaiting (pending : List N) : Act N Unit :=
  match pending with
  | [] => pure ()
  | n :: rest => do
    ofExcept (← ask .dagAd)
    logPending (n :: rest)

def submitCollection : Act N Unit := do
  let (jobs, pending) ← ofExcept (← ask .doBulkMm)
  submitScheduled jobs
  logWaiting pending

/-- `log_abort_for_child` over the nodes, up to the first without a state. -/
def abortChildren : List (N × JobState) → Act N Unit
  | [] => pure ()
  | (n, state) :: rest =>
    if state = .undef then pure ()
    else do
      if state = .submitted ∨ state = .waiting then
        changeLoggingJob (.node n)
        logAbort
      abortChildren rest

/-- `unrecoverable` for a collection: the context is switched back only when the nodes are known. -/
def unrecoverable : Act N Unit := do
  match ← ask .children with
  | some (some children) => do
    abortChildren children
    changeLoggingJob .collection
  | _ => pure ()
  logAbort

/-! Once the context logs on a node, the delivery does not switch it back. -/

variable {env : (c : Call N) → Reply c} {s : Job N}

@[simp] theorem result_ofExcept_bind {α β : Type} (r : Except Thrown α) (f : α → Act N β) :
    (ofExcept r >>= f).result env s = match r with
      | .ok a => (f a).result env s
      | .error e => (.error e, s) := by
  cases r <;> rfl

@[simp] theorem result_changeLoggingJob_bind {β : Type} (job : Job N) (f : Unit → Act N β) :
    (changeLoggingJob job >>= f).result env s = (f ()).result env job := rfl

@[simp] theorem result_logEnqueuedOk_bind {β : Type} (f : Unit → Act N β) :
    (logEnqueuedOk >>= f).result env s = match env (.logEnqueuedOk s) with
      | .ok a => (f a).result env s
      | .error e => (.error e, s) := by
  rw [logEnqueuedOk, bind_bind, result_get_bind, bind_bind, result_ask_bind, result_ofExcept_bind]
  cases env (.logEnqueuedOk s) <;> rfl

theorem submitScheduled_astray (jobs : List N) (astray : s ≠ .collection) :
    ((submitScheduled jobs).result env s).2 ≠ .collection := by
  induction jobs generalizing s with
  | nil => exact astray
  | cons n rest ih =>
    simp only [submitScheduled, result_ask_bind, result_ofExcept_bind, result_changeLoggingJob_bind,
      result_logEnqueuedOk_bind]
    split
    · split
      · split
        · split
          · exact ih nofun
          · nofun
        · nofun
      · nofun
    · exact astray

theorem logPending_astray (pending : List N) (astray : s ≠ .collection) :
    ((logPending pending).result env s).2 ≠ .collection := by
  induction pending generalizing s with
  | nil => exact astray
  | cons n rest ih =>
    simp only [logPending, result_ask_bind, result_ofExcept_bind, result_changeLoggingJob_bind,
      result_logEnqueuedOk_bind]
    split
    · split
      · exact ih nofun
      · nofun
    · exact astray

theorem bind_astray {α β : Type} {x : Act N α} {f : α → Act N β} (first : (x.result env s).2 ≠ .collection)
    (second : ∀ a t, t ≠ .collection → ((f a).result env t).2 ≠ .collection) :
    ((x >>= f).result env s).2 ≠ .collection := by
  cases outcome : x.result env s with
  | mk r t =>
    rw [outcome] at first
    cases r with
    | ok a =>
      rw [result_bind_ok outcome]
      exact second a t first
    | error e =>
      rw [result_bind_error outcome]
      exact first

/-- The first node that is reached cannot be identified, so that the context is never switched. -/
def Unswitched (env : (c : Call N) → Reply c) : List N → List N → Prop
  | n :: _, _ => ∃ e, env (.planned n) = .error e
  | [], n :: _ => (∃ e, env .dagAd = .error e) ∨ ∃ e, env (.nodeId n) = .error e
  | [], [] => True

theorem logWaiting_astray (pending : List N) (astray : s ≠ .collection) :
    ((logWaiting pending).result env s).2 ≠ .collection := by
  cases pending with
  | nil => exact astray
  | cons n rest =>
    simp only [logWaiting, result_ask_bind, result_ofExcept_bind]
    split
    · exact logPending_astray _ astray
    · exact astray

theorem deliver_restores_iff (env : (c : Call N) → Reply c) (jobs pending : List N) :
    ((submitScheduled jobs >>= fun _ => logWaiting pending).result env .collection).2 = .collection ↔
      Unswitched env jobs pending := by
  cases jobs with
  | cons n rest =>
    cases planned : env (.planned n) with
    | error e => simp [submitScheduled, planned, Unswitched]
    | ok _ =>
      -- the context is switched before anything depends on it
      have same : (submitScheduled (n :: rest)).result env .collection =
          (submitScheduled (n :: rest)).result env (.node n) := by
        simp [submitScheduled, planned]
      refine iff_of_false (bind_astray ?_ fun _ _ => logWaiting_astray pending)
        (by simp [Unswitched, planned])
      rw [same]
      exact submitScheduled_astray _ nofun
  | nil =>
    cases pending with
    | nil => simp [submitScheduled, logWaiting, Unswitched]
    | cons n rest =>
      cases dag : env .dagAd with
      | error e => simp [submitScheduled, logWaiting, dag, Unswitched]
      | ok _ =>
        cases identified : env (.nodeId n) with
        | error e => simp [submitScheduled, logWaiting, logPending, dag, identified, Unswitched]
        | ok _ =>
          have same : (logPending (n :: rest)).result env .collection =
              (logPending (n :: rest)).result env (.node n) := by
            simp [logPending, identified]
          refine iff_of_false ?_ (by simp [Unswitched, dag, identified])
          simp only [submitScheduled, logWaiting, result_pure_bind, result_ask_bind,
            result_ofExcept_bind, dag, same]
          exact logPending_astray _ nofun

end Wms.Manager.CollectionContext
