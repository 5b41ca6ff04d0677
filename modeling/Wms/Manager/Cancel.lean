import Wms.Manager.SubmitRequest
import Wms.Lib.Pool

/-! Processing of cancel requests (`cancel_request.cpp`, with the parts of `purger.cpp` it uses).

A job that has ended well needs no cancellation. Whether a job has is looked for among the
events of a query that asks for other events only.
-/

set_option autoImplicit false

namespace Wms.Manager

open Lib Dialog List

inductive CancelKind where
  | single
  | collection
  | dag
  deriving DecidableEq, Repr

inductive Target (N : Type) where
  | self
  | child (n : N)
  deriving DecidableEq

inductive PurgeLog where
  | cancelDone
  | abort
  deriving DecidableEq, Repr

inductive PurgeStatus (N : Type) where
  | unknown
  | failed
  | known (isDag : Bool) (children : List N)
  deriving DecidableEq

inductive CancelCall (N : Type) where
  | status
  | collectionStatus
  | createCancelToken (child : N)
  | childEvents (child : N)
  | cancelTokenExists
  | events
  | logCancelled (target : Target N)
  | logDoneCancelled (target : Target N)
  | cancel (target : Target N)
  | unregisterProxy
  | purgeContext
  | purgeStatus
  | removePath (target : Target N) (logging : PurgeLog)
  | scheduleSelf (delay : Int)
  deriving DecidableEq

@[reducible] def CancelReply {N : Type} : CancelCall N → Type
  | .status => Option (CancelKind × JobState)
  -- asked for in a context of its own, which may not be created
  | .collectionStatus => Except Int (Option (Option (List (N × JobState))))
  | .createCancelToken _ | .cancelTokenExists | .purgeContext => Bool
  | .childEvents _ | .events => Answer
  | .logCancelled _ | .logDoneCancelled _ => LogReply
  | .cancel _ => Except Thrown Unit
  | .purgeStatus => PurgeStatus N
  | .unregisterProxy | .removePath _ _ | .scheduleSelf _ => Unit

abbrev Cancel (N : Type) := Dialog (CancelCall N) CancelReply Unit Thrown

abbrev CancelAnswers (N : Type) := (c : CancelCall N) → CancelReply c

variable {N : Type}

namespace Cancel

abbrev ask (c : CancelCall N) : Cancel N (CancelReply c) := Dialog.ask c

def ofReply (reply : LogReply) : Cancel N Unit :=
  match reply with
  | .noContext code => throw (.cannotCreateLBContext code)
  | _ => pure ()

def query (answer : Answer) : Cancel N (List LbEvent) :=
  match doQueryEvents answer false with
  | .ok events => pure events
  | .error e => throw e.thrown

/-! ### Purging -/

def removePaths (logging : PurgeLog) : List N → Cancel N Unit
  | [] => pure ()
  | n :: rest => do
    ask (.removePath (.child n) logging)
    removePaths logging rest

/-- `Purger::operator()` without a threshold and with forced removal of nodes: the files of the
job are removed whatever its status, before them those of its children. -/
def purge (logging : PurgeLog) : Cancel N Unit := do
  if ← ask .purgeContext then
    match ← ask .purgeStatus with
    | .unknown => ask (.removePath .self logging)
    | .failed => pure ()
    | .known isDag children => do
      if isDag then removePaths logging children
      ask (.removePath .self logging)
  else pure ()

/-! ### Jobs with children -/

/-- Whatever is thrown here is dropped. The context is set to the child and back; a log entry that
throws leaves it on the child. -/
def forwardCancel (child : N) : Cancel N (Target N) := do
  match ← ask (.logCancelled (.child child)) with
  | .noContext _ => pure (.child child)
  | _ => do
    let _ ← ask (.cancel (.child child))
    pure .self

def cancelUnlessAborted (context : Target N) (child : N) (state : JobState) : Cancel N (Target N) := do
  if state ≠ .aborted then forwardCancel child else pure context

/-- Whether the child is still being processed, and the job that the context is left on. -/
def considerEvents (kind : CancelKind) (context : Target N) (child : N) (state : JobState)
    (events : List LbEvent) : Cancel N (Bool × Target N) := do
  if isLastCancelledByWm events then pure (false, context)
  else if state = .done ∧ isLastDone events .ok = true then pure (false, context)
  else if ¬ (state = .done ∧ isLastDone events .failed = true) ∧
    isLastEnqueuedByWm events .ok = true then do
    pure (false, ← cancelUnlessAborted context child state)
  else if kind = .dag then do
    pure (false, ← cancelUnlessAborted context child state)
  else pure (true, context)

/-- A child without a state ends the loop. -/
def considerChildren (kind : CancelKind) :
    List (N × JobState) → Bool × Target N → Cancel N (Bool × Target N)
  | [], found => pure found
  | (child, state) :: rest, (incomplete, context) => do
    let _ ← ask (.createCancelToken child)
    if state = .undef then pure (incomplete, context)
    else do
      let events ← query (← ask (.childEvents child))
      let (more, context) ← considerEvents kind context child state events
      considerChildren kind rest (incomplete || more, context)

def finishCollection (config : Config) (incomplete : Bool) (context : Target N) : Cancel N Unit := do
  if incomplete then ask (.scheduleSelf config.matchRetryPeriod)
  else do
    ofReply (← ask (.logCancelled context))
    ofReply (← ask (.logDoneCancelled context))
    purge .cancelDone

def cancelCollection (config : Config) (context : Target N) (kind : CancelKind) : Cancel N Unit := do
  match ← ask .collectionStatus with
  | .error code => throw (.cannotCreateLBContext code)
  | .ok none => pure ()
  | .ok (some children) => do
    let (incomplete, context) ← considerChildren kind (children.getD []) (false, context)
    finishCollection config incomplete context

/-! ### Single jobs -/

def failCancel : Cancel N Unit := do
  ask .unregisterProxy
  purge .abort

def cancelOwn (status : Option JobState) (events : List LbEvent) : Cancel N Unit := do
  if isIn .done status = true ∧ isLastDone events .ok = true then pure ()
  else if ¬ (isIn .done status = true ∧ isLastDone events .failed = true) ∧
      isLastEnqueuedByWm events .ok = true then
    if isIn .aborted status = false then
      match ← ask (.logCancelled .self) with
      | .noContext _ => failCancel
      | _ =>
        match ← ask (.cancel .self) with
        | .ok _ => pure ()
        | .error _ => failCancel
    else pure ()
  else failCancel

def cancelSingle (status : Option JobState) : Cancel N Unit := do
  if ← ask .cancelTokenExists then do
    let events ← query (← ask .events)
    cancelOwn status events
  else pure ()

/-- `CancelProcessor::operator()`. A request that was put off is processed with the context as it
was left. -/
def processor (config : Config) (context : Target N) : Cancel N Unit := do
  match ← ask .status with
  | some (.collection, _) => cancelCollection config context .collection
  | some (.dag, _) => cancelCollection config context .dag
  | some (.single, state) => cancelSingle (some state)
  | none => cancelSingle none

end Cancel

/-! ### A job and its history -/

/-- A job as the L&B server knows it, and whether its cancel token is there. -/
structure CancelCase (N : Type) where
  kind : CancelKind
  state : JobState
  history : List LbEvent
  token : Bool
  children : List N
  childState : N → JobState
  childHistory : N → List LbEvent

/-- The server answers each query by the state and by those events of the history that satisfy
the conditions of the query. -/
structure CancelCase.Answered (job : CancelCase N) (answers : CancelAnswers N) : Prop where
  status : answers .status = some (job.kind, job.state)
  events : answers .events = .ok (job.history.filter cancelConditions)
  token : answers .cancelTokenExists = job.token
  collectionStatus : answers .collectionStatus =
    .ok (some (some (job.children.map fun n => (n, job.childState n))))
  childEvents : ∀ n, answers (.childEvents n) = .ok ((job.childHistory n).filter cancelConditions)
  purgeStatus : answers .purgeStatus = .known (decide (job.kind ≠ .single)) job.children

/-- A cancellation or an abort of the job is logged, a cancel is sent for it, or its files are
purged. -/
def CancelCall.Touches (target : Target N) : CancelCall N → Prop
  | .logCancelled t | .logDoneCancelled t | .cancel t | .removePath t _ => target = t
  | _ => False

/-- The request leaves the target alone, whatever else it is answered. -/
def CancelCase.Spares (config : Config) (job : CancelCase N) (target : Target N) : Prop :=
  ∀ context answers, job.Answered answers →
    ∀ c ∈ (Cancel.processor config context).calls answers (), ¬ c.Touches target

/-- The target is DONE, and its last Done event says that it has ended well. -/
def CancelCase.DoneOk (job : CancelCase N) : Target N → Prop
  | .self => job.state = .done ∧ isLastDone job.history .ok = true
  | .child n => job.kind ≠ .single ∧ n ∈ job.children ∧ job.childState n = .done ∧
      isLastDone (job.childHistory n) .ok = true

def CancelCase.considered (job : CancelCase N) :=
  (job.children.takeWhile fun n => job.childState n ≠ .undef : List N)

/-- The last cancellation of the child is one of the workload manager. -/
def CancelCase.cancelledBefore (job : CancelCase N) (n : N) : Bool :=
  isLastCancelledByWm ((job.childHistory n).filter cancelConditions)

def CancelCase.enqueued (job : CancelCase N) (n : N) : Bool :=
  isLastEnqueuedByWm ((job.childHistory n).filter cancelConditions) .ok

/-- A child of a collection is still being processed, and the request is only put off. -/
def CancelCase.PutOff (job : CancelCase N) : Prop :=
  job.kind = .collection ∧ ∃ n ∈ job.considered, job.cancelledBefore n = false ∧ job.enqueued n = false

/-- The child is cancelled when its turn comes. -/
def CancelCase.InTurn (job : CancelCase N) (n : N) : Prop :=
  n ∈ job.considered ∧ job.cancelledBefore n = false ∧ (job.enqueued n = true ∨ job.kind = .dag) ∧
    job.childState n ≠ .aborted

/-- A single job has lost its cancel token; a job with children is only put off, without the
child having been cancelled before. -/
def CancelCase.Harmless (job : CancelCase N) : Target N → Prop
  | .self => if job.kind = .single then job.token = false else job.PutOff
  | .child n => job.PutOff ∧ ¬ job.InTurn n

/-! ### What the request does to a job -/

variable {answers : CancelAnswers N} {config : Config} {job : CancelCase N} {target : Target N}

theorem isLastDone_cancelConditions (history : List LbEvent) (code : DoneCode) :
    isLastDone (history.filter cancelConditions) code = false := by
  have nothing : findLast isDoneEvent (history.filter cancelConditions) = none := by
    rw [findLast, find?_eq_none]
    intro event member
    have asked : cancelConditions event = true := (mem_filter.mp (mem_reverse.mp member)).2
    obtain ⟨source, type⟩ := event
    cases type <;> simp_all [cancelConditions, isDoneEvent]
  simp [isLastDone, nothing]

def Cancel.Touched {α : Type} (answers : CancelAnswers N) (target : Target N) (x : Cancel N α) : Prop :=
  ∃ c ∈ x.calls answers (), c.Touches target

section Touched

variable {α β : Type} {x : Cancel N α} {f : α → Cancel N β} {a : α}

theorem Cancel.touched_bind_ok (first : x.result answers () = (.ok a, ())) :
    (x >>= f).Touched answers target ↔ x.Touched answers target ∨ (f a).Touched answers target := by
  simp only [Cancel.Touched, calls_bind_ok first, mem_append, or_and_right, exists_or]

@[simp]
theorem Cancel.touched_pure : ¬ Cancel.Touched answers target (pure a : Cancel N α) := by
  simp [Cancel.Touched]

theorem Cancel.touched_ask_bind {c : CancelCall N} {f : CancelReply c → Cancel N β} :
    Cancel.Touched answers target (Cancel.ask c >>= f) ↔
      c.Touches target ∨ (f (answers c)).Touched answers target := by
  simp [Cancel.Touched]

theorem Cancel.touched_ask {c : CancelCall N} : Cancel.Touched answers target (Cancel.ask c) ↔
    c.Touches target := by
  simp [Cancel.Touched]

end Touched

theorem forwardCancel_result (n : N) :
    ∃ after, (Cancel.forwardCancel n).result answers () = (.ok after, ()) := by
  simp only [Cancel.forwardCancel, Dialog.result_ask_bind]
  split <;> exact ⟨_, rfl⟩

theorem forwardCancel_touched {n : N} : (Cancel.forwardCancel n).Touched answers target ↔
    target = .child n := by
  rw [Cancel.forwardCancel, Cancel.touched_ask_bind]
  split
  · simp [CancelCall.Touches]
  · rw [Cancel.touched_ask_bind]
    simp [CancelCall.Touches]

theorem cancelUnlessAborted_result (context : Target N) (n : N) (state : JobState) :
    ∃ after, (Cancel.cancelUnlessAborted context n state).result answers () = (.ok after, ()) := by
  unfold Cancel.cancelUnlessAborted
  split_ifs
  · exact forwardCancel_result n
  · exact ⟨context, rfl⟩

theorem cancelUnlessAborted_touched {context : Target N} {n : N} {state : JobState} :
    (Cancel.cancelUnlessAborted context n state).Touched answers target ↔ target = .child n ∧
      state ≠ .aborted := by
  unfold Cancel.cancelUnlessAborted
  split_ifs with running <;> simp [forwardCancel_touched, running]

section Children

variable (n : N)

def CancelCase.pending (job : CancelCase N) (n : N) : Bool :=
  !job.cancelledBefore n && !job.enqueued n && job.kind != .dag

variable (context : Target N)

theorem considerEvents_result : ∃ after, (Cancel.considerEvents job.kind context n (job.childState n)
      ((job.childHistory n).filter cancelConditions)).result answers
        () = (.ok (job.pending n, after), ()) := by
  obtain ⟨after, cancelled⟩ := @cancelUnlessAborted_result N answers context n (job.childState n)
  simp only [Cancel.considerEvents, isLastDone_cancelConditions, CancelCase.pending,
    CancelCase.cancelledBefore, CancelCase.enqueued]
  split_ifs <;> simp_all [result_bind_ok cancelled]

theorem considerEvents_touched : (Cancel.considerEvents job.kind context n (job.childState n)
      ((job.childHistory n).filter cancelConditions)).Touched answers target ↔
      target = .child n ∧ job.cancelledBefore n = false ∧ (job.enqueued n = true ∨ job.kind = .dag) ∧
        job.childState n ≠ .aborted := by
  obtain ⟨after, cancelled⟩ := @cancelUnlessAborted_result N answers context n (job.childState n)
  have cancels : Cancel.Touched answers target (do
      pure (false, ← Cancel.cancelUnlessAborted context n (job.childState n)) :
        Cancel N (Bool × Target N)) ↔
        target = .child n ∧ job.childState n ≠ .aborted := by
    simp [Cancel.touched_bind_ok cancelled, cancelUnlessAborted_touched]
  simp only [Cancel.considerEvents, isLastDone_cancelConditions, CancelCase.cancelledBefore,
    CancelCase.enqueued]
  split_ifs <;> simp_all

theorem considerChildren_run (answered : job.Answered answers) (target : Target N) (nodes : List N)
    (incomplete : Bool) :
    (∃ after, (Cancel.considerChildren job.kind (nodes.map fun n => (n, job.childState n))
        (incomplete, context)).result answers () =
      (.ok (incomplete || (nodes.takeWhile fun n => job.childState n ≠ .undef).any job.pending,
        after), ())) ∧
    ((Cancel.considerChildren job.kind (nodes.map fun n => (n, job.childState n))
        (incomplete, context)).Touched answers target ↔
      ∃ n ∈ nodes.takeWhile fun n => job.childState n ≠ .undef, target = .child n ∧
        job.cancelledBefore n = false ∧ (job.enqueued n = true ∨ job.kind = .dag) ∧
          job.childState n ≠ .aborted) := by
  induction nodes generalizing incomplete context with
  | nil => exact ⟨by simp [Cancel.considerChildren], by simp [Cancel.considerChildren]⟩
  | cons n rest ih =>
    simp only [map_cons, Cancel.considerChildren]
    by_cases undefined : job.childState n = .undef
    · rw [Cancel.touched_ask_bind]
      simp [undefined, CancelCall.Touches]
    · have events : (Cancel.query (.ok ((job.childHistory n).filter cancelConditions)) : Cancel N _) =
          pure ((job.childHistory n).filter cancelConditions) := rfl
      obtain ⟨next, considered⟩ := @considerEvents_result N answers job n context
      obtain ⟨⟨after, result⟩, touched⟩ := ih next (incomplete || job.pending n)
      constructor
      · refine ⟨after, ?_⟩
        simp only [Dialog.result_ask_bind, undefined, if_false, answered.childEvents, events,
          Dialog.result_pure_bind, Dialog.result_bind_ok considered, result]
        simp [undefined, Bool.or_assoc]
      · rw [Cancel.touched_ask_bind, if_neg undefined, Cancel.touched_ask_bind,
          answered.childEvents, events,
          Cancel.touched_bind_ok (by rfl), Cancel.touched_bind_ok considered,
            considerEvents_touched, touched]
        simp [undefined, CancelCall.Touches]

end Children

theorem removePaths_run (answers : CancelAnswers N) (target : Target N) (logging : PurgeLog)
    (nodes : List N) :
    (Cancel.removePaths logging nodes).result answers () = (.ok (), ()) ∧
    ((Cancel.removePaths logging nodes).Touched answers target ↔ ∃ n ∈ nodes, target = .child n) := by
  induction nodes with
  | nil => exact ⟨rfl, by simp [Cancel.removePaths]⟩
  | cons n rest ih =>
    refine ⟨ih.1, ?_⟩
    rw [Cancel.removePaths, Cancel.touched_ask_bind, ih.2]
    simp [CancelCall.Touches]

theorem purge_touched (answered : job.Answered answers) (logging : PurgeLog) :
    (Cancel.purge logging).Touched answers target ↔ answers .purgeContext = true ∧
      (target = .self ∨ job.kind ≠ .single ∧ ∃ n ∈ job.children, target = .child n) := by
  rw [Cancel.purge, Cancel.touched_ask_bind]
  cases context : answers .purgeContext with
  | false => simp [CancelCall.Touches]
  | true =>
    obtain ⟨done, touched⟩ := removePaths_run answers target logging job.children
    have own : Cancel.Touched answers target (Cancel.ask (.removePath .self logging)) ↔ target = .self :=
      Cancel.touched_ask
    rw [if_pos rfl, Cancel.touched_ask_bind, answered.purgeStatus]
    by_cases single : job.kind = .single
    · simp [single, own, CancelCall.Touches]
    · simp [single, Cancel.touched_bind_ok done, touched, own, CancelCall.Touches, or_comm]

theorem failCancel_touched (answered : job.Answered answers) (context : answers .purgeContext = true) :
    Cancel.failCancel.Touched answers .self := by
  rw [Cancel.failCancel, Cancel.touched_ask_bind]
  exact .inr ((purge_touched answered .abort).mpr ⟨context, .inl rfl⟩)

variable {context : Target N}

theorem finish_incomplete : ¬ (Cancel.finishCollection config true context).Touched answers target := by
  rw [Cancel.finishCollection, if_pos rfl]
  exact fun touched => Cancel.touched_ask.mp touched

theorem cancelCollection_touched (answered : job.Answered answers) :
    ∃ after, (Cancel.cancelCollection config context job.kind).Touched answers target ↔
      (∃ n ∈ job.considered, target = .child n ∧ job.cancelledBefore n = false ∧
        (job.enqueued n = true ∨ job.kind = .dag) ∧ job.childState n ≠ .aborted) ∨
      (Cancel.finishCollection config (job.considered.any job.pending) after).Touched answers target := by
  obtain ⟨⟨after, result⟩, touched⟩ := considerChildren_run context answered target job.children false
  refine ⟨after, ?_⟩
  rw [Cancel.cancelCollection, Cancel.touched_ask_bind, answered.collectionStatus]
  simp only [Option.getD_some, Cancel.touched_bind_ok result, touched]
  simp [CancelCall.Touches, CancelCase.considered]

theorem any_pending_iff (several : job.kind ≠ .single) : job.considered.any job.pending = true ↔
    job.PutOff := by
  simp only [any_eq_true, CancelCase.pending, CancelCase.PutOff, Bool.and_eq_true, Bool.not_eq_true',
    bne_iff_ne, ne_eq]
  cases kind : job.kind with
  | single => exact absurd kind several
  | dag | collection => simp

theorem processor_touched (answered : job.Answered answers) :
    (Cancel.processor config context).Touched answers target ↔
      if job.kind = .single then (Cancel.cancelSingle (some job.state)).Touched answers target
      else (Cancel.cancelCollection config context job.kind).Touched answers target := by
  rw [Cancel.processor, Cancel.touched_ask_bind, answered.status]
  cases job.kind <;> simp [CancelCall.Touches]

def CancelCase.favourable (job : CancelCase N) : CancelAnswers N
  | .status => some (job.kind, job.state)
  | .collectionStatus => .ok (some (some (job.children.map fun n => (n, job.childState n))))
  | .cancelTokenExists => job.token
  | .createCancelToken _ | .purgeContext => true
  | .childEvents n => .ok ((job.childHistory n).filter cancelConditions)
  | .events => .ok (job.history.filter cancelConditions)
  | .logCancelled _ | .logDoneCancelled _ => .logged
  | .cancel _ => .ok ()
  | .purgeStatus => .known (decide (job.kind ≠ .single)) job.children
  | .unregisterProxy | .removePath _ _ | .scheduleSelf _ => ()

theorem CancelCase.favourable_answered (job : CancelCase N) : job.Answered job.favourable :=
  ⟨rfl, rfl, rfl, rfl, fun _ => rfl, rfl⟩

theorem finish_complete (several : job.kind ≠ .single)
    (own : target = .self ∨ ∃ n ∈ job.children, target = .child n) :
    (Cancel.finishCollection config false context).Touched job.favourable target := by
  have quiet : (Cancel.ofReply .logged : Cancel N Unit).result job.favourable () = (.ok (), ()) := rfl
  have logged : job.favourable (.logCancelled context) = .logged ∧
    job.favourable (.logDoneCancelled context) = .logged := ⟨rfl, rfl⟩
  have purged : Cancel.Touched job.favourable target _ ↔ _ :=
    purge_touched job.favourable_answered .cancelDone
  rw [Cancel.finishCollection, if_neg Bool.false_ne_true, Cancel.touched_ask_bind, logged.1,
    Cancel.touched_bind_ok quiet, Cancel.touched_ask_bind, logged.2, Cancel.touched_bind_ok quiet, purged]
  exact .inr (.inr (.inr (.inr ⟨rfl, own.imp_right fun child => ⟨several, child⟩⟩)))

theorem spares_iff : job.Spares config target ↔
    ∀ context answers, job.Answered answers →
      ¬ (Cancel.processor config context).Touched answers target := by
  simp [CancelCase.Spares, Cancel.Touched]

/-- The Done event is not among the events, so the job is cancelled or aborted. -/
theorem cancelOwn_touched (job : CancelCase N) :
    (Cancel.cancelOwn (some .done) (job.history.filter cancelConditions)).Touched
      job.favourable .self := by
  have running : isIn .aborted (some JobState.done) = false := rfl
  simp only [Cancel.cancelOwn, isLastDone_cancelConditions, running, Bool.false_eq_true, and_false,
    if_false, not_false_eq_true, true_and, if_true]
  split_ifs with enqueued
  · rw [Cancel.touched_ask_bind]
    exact .inl rfl
  · exact failCancel_touched job.favourable_answered rfl

theorem single_spared_iff (single : job.kind = .single) (done : job.state = .done) :
    job.Spares config .self ↔ job.token = false := by
  rw [spares_iff]
  constructor
  · intro spared
    by_contra present
    have token : job.favourable .cancelTokenExists = true := Bool.eq_true_of_not_eq_false present
    have events : (Cancel.query (job.favourable .events) : Cancel N _).result job.favourable () =
        (.ok (job.history.filter cancelConditions), ()) := rfl
    apply spared .self job.favourable job.favourable_answered
    rw [processor_touched job.favourable_answered, if_pos single, Cancel.cancelSingle,
      Cancel.touched_ask_bind,
      token, if_pos rfl, Cancel.touched_ask_bind, Cancel.touched_bind_ok events, done]
    simp [cancelOwn_touched job]
  · intro absent context answers answered
    rw [processor_touched answered, if_pos single, Cancel.cancelSingle, Cancel.touched_ask_bind,
      answered.token,
      absent]
    simp [CancelCall.Touches]

theorem several_spared_iff (several : job.kind ≠ .single)
    (own : target = .self ∨ ∃ n ∈ job.children, target = .child n) :
    job.Spares config target ↔ job.PutOff ∧ ∀ n, target = .child n → ¬ job.InTurn n := by
  rw [spares_iff, ← any_pending_iff several]
  constructor
  · intro spared
    have spared := spared .self job.favourable job.favourable_answered
    obtain ⟨after, touched⟩ := cancelCollection_touched job.favourable_answered
    rw [processor_touched job.favourable_answered, if_neg several, touched, not_or] at spared
    refine ⟨?_, fun n same turn => spared.1 ⟨n, turn.1, same, turn.2⟩⟩
    by_contra complete
    rw [Bool.not_eq_true] at complete
    exact spared.2 (complete ▸ finish_complete several own)
  · rintro ⟨incomplete, notInTurn⟩ context answers answered
    obtain ⟨after, touched⟩ := cancelCollection_touched answered
    rw [processor_touched answered, if_neg several, touched, incomplete]
    rintro (⟨n, considered, same, turn⟩ | touched)
    · exact notInTurn n same ⟨considered, turn⟩
    · exact finish_incomplete touched

/-- A job that has ended well is left alone exactly when the request finds no cancel token or
is only put off. -/
theorem done_job_spared_iff (config : Config) (job : CancelCase N) (target : Target N)
    (done : job.DoneOk target) : job.Spares config target ↔ job.Harmless target := by
  cases target with
  | self =>
    unfold CancelCase.Harmless
    split_ifs with single
    · exact single_spared_iff single done.1
    · exact (several_spared_iff single (.inl rfl)).trans (by simp)
  | child n => exact (several_spared_iff done.1
      (.inr ⟨n, done.2.1, rfl⟩)).trans (by simp [CancelCase.Harmless])

def endedWell : List LbEvent := [⟨.workloadManager, .enqueued .ok⟩, ⟨.logMonitor, .done .ok⟩]

def CancelCase.alone (token : Bool) : CancelCase Unit :=
  ⟨.single, .done, endedWell, token, [], fun _ => .undef, fun _ => []⟩

theorem done_job_spared_iff_tokenless : (CancelCase.alone false).Spares .sample .self :=
  (done_job_spared_iff .sample (.alone false) .self ⟨rfl, by decide⟩).mpr rfl

/-- With its token a single job that has ended well is cancelled, and so is the child of a
collection. -/
theorem done_job_cancelled : (CancelCase.alone true).DoneOk .self ∧
    ¬ (CancelCase.alone true).Spares .sample .self ∧
    (⟨.collection, .running, [], false, [()], fun _ => .done, fun _ => endedWell⟩ : CancelCase Unit).DoneOk
      (.child ()) ∧ ¬ (⟨.collection, .running, [], false, [()], fun _ => .done, fun _ => endedWell⟩ :
      CancelCase Unit).Spares .sample (.child ()) := by
  refine ⟨⟨rfl, by decide⟩, fun spared => ?_, ⟨by decide, by decide, rfl, by decide⟩, fun spared => ?_⟩
  · have sent : CancelCall.cancel .self ∈
        (Cancel.processor .sample .self).calls (CancelCase.alone true).favourable () := by decide
    exact spared .self _ (CancelCase.favourable_answered _) _ sent rfl
  · have sent : CancelCall.cancel (.child ()) ∈ (Cancel.processor .sample .self).calls
        (⟨.collection, .running, [], false, [()], fun _ => .done, fun _ => endedWell⟩ :
          CancelCase Unit).favourable () := by decide
    exact spared .self _ (CancelCase.favourable_answered _) _ sent rfl

end Wms.Manager
