import Wms.Manager.Cancel

/-! When the request to cancel a collection is put off.

One flag decides: it is set by a child that has neither been cancelled by the workload manager
nor enqueued by it, whatever the state of the child. A child that could not be looked at or
cancelled does not set it.
-/

set_option autoImplicit false

namespace Wms.Manager

open Lib Dialog List Cancel CancelCase

variable {N : Type} {answers : CancelAnswers N} {config : Config} {context : Target N} {job : CancelCase N}

def CancelCall.schedules : CancelCall N → Bool
  | .scheduleSelf _ => true
  | _ => false

def CancelCase.Rescheduled (config : Config) (context : Target N) (answers : CancelAnswers N) : Prop :=
  ∃ c ∈ (processor config context).calls answers (), c.schedules = true

/-- The child has ended well, is aborted or cancelled, or has been cancelled by the manager. -/
def CancelCase.Terminal (job : CancelCase N) (n : N) : Prop :=
  (job.childState n = .done ∧ isLastDone (job.childHistory n) .ok = true) ∨ job.childState n = .aborted ∨
    job.childState n = .cancelled ∨ job.cancelledBefore n = true

def CancelCase.Forwarded (answers : CancelAnswers N) (n : N) : Prop :=
  (∀ code, answers (.logCancelled (.child n)) ≠ .noContext code) ∧ answers (.cancel (.child n)) = .ok ()

/-- The loop does not get to the child, finds it under processing, or fails to cancel it. -/
def CancelCase.Unprocessed (job : CancelCase N) (answers : CancelAnswers N) (n : N) : Prop :=
  n ∉ job.considered ∨ job.pending n = true ∨ (job.InTurn n ∧ ¬ Forwarded answers n)

/-- A pass over children that have all ended is the last one, and a pass that could not process
some child is not. -/
def CancelCase.RightlyScheduled (config : Config) (job : CancelCase N) (context : Target N)
    (answers : CancelAnswers N) : Prop :=
  ((∀ n ∈ job.children, job.Terminal n) → ¬ Rescheduled config context answers) ∧
    ((∃ n ∈ job.children, job.Unprocessed answers n) → Rescheduled config context answers)

/-! ### The only call that schedules -/

abbrev Cancel.Passive {α : Type} (x : Cancel N α) : Prop := Dialog.Only (fun c => c.schedules = false) x

theorem query_passive (answer : Answer) : Passive (query answer : Cancel N _) := by
  unfold query
  split
  · exact .pure _
  · exact .throw _

theorem ofReply_passive (reply : LogReply) : Passive (ofReply reply : Cancel N _) := by
  unfold ofReply
  split
  · exact .throw _
  · exact .pure _

theorem cancelUnlessAborted_passive (n : N) (state : JobState) :
    Passive (cancelUnlessAborted context n state) := by
  unfold cancelUnlessAborted forwardCancel
  split
  · refine .bind (.ask rfl) fun reply => ?_
    split
    · exact .pure _
    · exact .bind (.ask rfl) fun _ => .pure _
  · exact .pure _

theorem considerEvents_passive (kind : CancelKind) (n : N) (state : JobState) (events : List LbEvent) :
    Passive (considerEvents kind context n state events) := by
  unfold considerEvents
  split_ifs
  · exact .pure _
  · exact .pure _
  · exact .bind (cancelUnlessAborted_passive n state) fun _ => .pure _
  · exact .bind (cancelUnlessAborted_passive n state) fun _ => .pure _
  · exact .pure _

theorem considerChildren_passive (kind : CancelKind) (nodes : List (N × JobState))
    (found : Bool × Target N) :
    Passive (considerChildren kind nodes found) := by
  induction nodes generalizing found with
  | nil => exact .pure _
  | cons node rest ih =>
    obtain ⟨child, state⟩ := node
    refine .bind (.ask rfl) fun _ => ?_
    split_ifs
    · exact .pure _
    · exact .bind (.ask rfl) fun answer => .bind (query_passive answer) fun events =>
        .bind (considerEvents_passive kind child state events) fun _ => ih _

theorem removePaths_passive (logging : PurgeLog) (nodes : List N) :
    Passive (removePaths logging nodes) := by
  induction nodes with
  | nil => exact .pure _
  | cons n rest ih => exact .bind (.ask rfl) fun _ => ih

theorem purge_passive (logging : PurgeLog) : Passive (purge logging : Cancel N _) := by
  refine .bind (.ask rfl) fun context => ?_
  split
  · refine .bind (.ask rfl) fun status => ?_
    split
    · exact .ask rfl
    · exact .pure _
    · rename_i isDag children
      cases isDag with
      | false => exact .ask rfl
      | true => exact .bind (removePaths_passive logging children) fun _ => .ask rfl
  · exact .pure _

theorem finishCollection_schedules (answers : CancelAnswers N) (config : Config) (incomplete : Bool)
    (after : Target N) : (∃ c ∈ (finishCollection config incomplete after).calls answers (),
      c.schedules = true) ↔
      incomplete = true := by
  cases incomplete with
  | true =>
    refine iff_of_true ⟨.scheduleSelf config.matchRetryPeriod, ?_, rfl⟩ rfl
    exact mem_singleton_self _
  | false =>
    refine iff_of_false ?_ Bool.false_ne_true
    rintro ⟨c, made, schedules⟩
    have passive : Passive (finishCollection config false after) :=
      .bind (.ask rfl) fun reply => .bind (ofReply_passive reply) fun _ => .bind (.ask rfl) fun reply =>
        .bind (ofReply_passive reply) fun _ => purge_passive .cancelDone
    exact Bool.false_ne_true ((passive.of_mem made).symm.trans schedules)

theorem cancelCollection_schedules (config : Config) (answered : job.Answered answers) :
    (∃ c ∈ (cancelCollection config context job.kind).calls answers (), c.schedules = true) ↔
      job.considered.any job.pending = true := by
  obtain ⟨⟨after, result⟩, -⟩ := considerChildren_run context answered .self job.children false
  rw [← finishCollection_schedules answers config (job.considered.any job.pending) after]
  have passive := considerChildren_passive job.kind
      (job.children.map fun n => (n, job.childState n)) (false, context)
  have calls : (cancelCollection config context job.kind).calls answers () = .collectionStatus ::
      ((considerChildren job.kind (job.children.map fun n => (n, job.childState n)) (false,
        context)).calls answers () ++
        (finishCollection config (job.considered.any job.pending) after).calls answers ()) := by
    rw [cancelCollection, Dialog.calls_ask_bind, answered.collectionStatus]
    exact congrArg _ (Dialog.calls_bind_ok result)
  rw [calls]
  constructor
  · rintro ⟨c, made, schedules⟩
    rcases mem_cons.mp made with rfl | made
    · exact absurd schedules Bool.false_ne_true
    · rcases mem_append.mp made with early | late
      · exact absurd schedules (Bool.eq_false_iff.mp (passive.of_mem early))
      · exact ⟨c, late, schedules⟩
  · rintro ⟨c, made, schedules⟩
    exact ⟨c, mem_cons_of_mem _ (mem_append_right _ made), schedules⟩

theorem rescheduled_iff (several : job.kind ≠ .single) (answered : job.Answered answers) :
    Rescheduled config context answers ↔ ∃ n ∈ job.considered, job.pending n = true := by
  rw [← any_eq_true, ← @cancelCollection_schedules N answers context job config answered]
  unfold Rescheduled
  have calls : (processor config context).calls answers () =
      .status :: (cancelCollection config context job.kind).calls answers () := by
    rw [processor, Dialog.calls_ask_bind, answered.status]
    cases kind : job.kind with
    | single => exact absurd kind several
    | collection | dag => rfl
  rw [calls]
  simp [CancelCall.schedules]

/-! ### The pass -/

theorem mem_considered_of_defined (defined : ∀ n ∈ job.children, job.childState n ≠ .undef) (n : N)
    (member : n ∈ job.children) : n ∈ job.considered := by
  have all : job.considered = job.children :=
    takeWhile_eq_self_iff.mpr fun n member => decide_eq_true (defined n member)
  rwa [all]

/-- A pass is right iff a child that the manager has neither cancelled nor enqueued goes with one
that has not ended, and where no such child is met every child has a state and no cancellation
fails. -/
theorem rightly_scheduled_iff (several : job.kind ≠ .single) (answered : job.Answered answers) :
    job.RightlyScheduled config context answers ↔
      ((∃ n ∈ job.considered, job.pending n = true) → ∃ n ∈ job.children, ¬ job.Terminal n) ∧
      ((∀ n ∈ job.considered, job.pending n = false) → (∀ n ∈ job.children, job.childState n ≠ .undef) ∧
        ∀ n, job.InTurn n → Forwarded answers n) := by
  unfold RightlyScheduled
  rw [rescheduled_iff several answered]
  refine and_congr ?_ ?_
  · constructor
    · intro ends pending
      by_contra nothing
      exact ends (fun n member => by_contra fun opened => nothing ⟨n, member, opened⟩) pending
    · rintro ended all pending
      obtain ⟨n, member, opened⟩ := ended pending
      exact opened (all n member)
  · constructor
    · intro goesOn quiet
      have processed (n : N) (member : n ∈ job.children) : ¬ job.Unprocessed answers n := by
        intro unprocessed
        obtain ⟨m, considered, pending⟩ := goesOn ⟨n, member, unprocessed⟩
        exact Bool.false_ne_true ((quiet m considered).symm.trans pending)
      have inside (n : N) (considered : n ∈ job.considered) : n ∈ job.children :=
        takeWhile_subset _ considered
      constructor
      · intro n member undefined
        have considered : n ∈ job.considered := by
          by_contra missed
          exact processed n member (.inl missed)
        exact of_decide_eq_true
          (mem_takeWhile_imp (p := fun n => decide (job.childState n ≠ .undef)) considered) undefined
      · intro n turn
        by_contra failed
        exact processed n (inside n turn.1) (.inr (.inr ⟨turn, failed⟩))
    · rintro settled ⟨n, member, unprocessed⟩
      by_contra nothing
      have quiet (m : N) (considered : m ∈ job.considered) : job.pending m ≠ true :=
        fun pending => nothing ⟨m, considered, pending⟩
      obtain ⟨defined, forwarded⟩ := settled fun m considered => Bool.eq_false_iff.mpr (quiet m considered)
      rcases unprocessed with missed | pending | ⟨turn, failed⟩
      · exact missed (mem_considered_of_defined defined n member)
      · exact quiet n (mem_considered_of_defined defined n member) pending
      · exact failed (forwarded n turn)

def CancelCase.onlyChild (state : JobState) (history : List LbEvent) : CancelCase Unit :=
  ⟨.collection, .running, [], false, [()], fun _ => state, fun _ => history⟩

theorem rightly_scheduled_enqueued : (onlyChild .aborted
    [⟨.workloadManager, .enqueued .ok⟩]).RightlyScheduled .sample .self
      (onlyChild .aborted [⟨.workloadManager, .enqueued .ok⟩]).favourable := by
  refine (rightly_scheduled_iff (by decide) (favourable_answered _)).mpr ⟨?_, fun _ => ⟨?_, ?_⟩⟩
  · rintro ⟨⟨⟩, -, pending⟩
    exact absurd pending (by decide)
  · rintro ⟨⟩ -
    decide
  · rintro ⟨⟩ turn
    exact absurd rfl turn.2.2.2

/-- An aborted child that has never been enqueued keeps the request alive; a child without a
state lets it end. -/
theorem wrongly_scheduled : ((∀ n ∈ (onlyChild .aborted []).children, (onlyChild .aborted []).Terminal n) ∧
      Rescheduled .sample .self (onlyChild .aborted []).favourable) ∧
        ((∃ n ∈ (onlyChild .undef []).children,
        (onlyChild .undef []).Unprocessed (onlyChild .undef []).favourable n) ∧
      ¬ Rescheduled .sample .self (onlyChild .undef []).favourable) := by
  refine ⟨⟨fun _ _ => .inr (.inl rfl), ?_⟩, ⟨(), by decide, .inl (by decide)⟩, ?_⟩
  · exact ⟨.scheduleSelf Config.sample.matchRetryPeriod, by decide, rfl⟩
  · have ends : ∀ c ∈ (processor .sample .self).calls (onlyChild .undef []).favourable (),
        c.schedules = false := by decide
    rintro ⟨c, made, schedules⟩
    exact Bool.false_ne_true ((ends c made).symm.trans schedules)

end Wms.Manager
