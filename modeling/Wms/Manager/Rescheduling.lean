import Wms.Manager.Resubmissions

/-! How often a submit request schedules itself again.

An activation may schedule its own request again in the middle of its work, and every
exception is answered by abandoning or by postponing the request. The request must have one
activation ahead at most, and none once it has come to an end.
-/

set_option autoImplicit false

namespace Wms.Manager

open Lib Dialog List

variable {N : Type} {config : Config} {env : Answers N} {s t : SubmitState N}

def schedulesSelf : Call N → Bool
  | .scheduleSelf _ => true
  | _ => false

def successors (calls : List (Call N)) : Nat := calls.countP schedulesSelf

/-- The call ends the request: it has been delivered, aborted or logged as completed. -/
def Ends (env : Answers N) : Call N → Prop
  | .submit isReplan => env (.submit isReplan) = .ok ()
  | .submitCollection => env .submitCollection = .ok []
  | .log (.abort _) | .log (.doneOk _) | .log .doneCancelled => True
  | _ => False

/-- At most one successor, and none of a request that has ended. -/
def OneSuccessor (env : Answers N) (calls : List (Call N)) : Prop :=
  successors calls ≤ 1 ∧ ((∃ c ∈ calls, Ends env c) → successors calls = 0)

theorem successors_append (first second : List (Call N)) :
    successors (first ++ second) = successors first + successors second := countP_append ..

variable {calls : List (Call N)}

theorem successors_within (kinds : List Kind) (within : ∀ c ∈ calls, Within kinds c)
    (apart : .postpone ∉ kinds) : successors calls = 0 := by
  apply countP_eq_zero.mpr
  intro c made schedules
  have same : kind c = .postpone := by
    cases c <;> first | rfl | cases schedules
  exact apart (same ▸ contains_iff_mem.mp (within c made))

def Quiet (env : Answers N) (calls : List (Call N)) : Prop :=
  ∀ c ∈ calls, schedulesSelf c = false ∧ ¬ Ends env c

theorem quiet_within (kinds : List Kind) (within : ∀ c ∈ calls, Within kinds c)
    (apart : ∀ k ∈ kinds, k ∉ [Kind.postpone, .abandon, .cancel, .submission, .collection, .graph]) :
    Quiet env calls := by
  intro c made
  have other := apart _ (contains_iff_mem.mp (within c made))
  cases c with
  | log entry => cases entry <;> first | exact ⟨rfl, id⟩ | exact absurd (by simp [kind]) other
  | _ => first | exact ⟨rfl, id⟩ | exact absurd (by simp [kind]) other

theorem Quiet.successors (quiet : Quiet env calls) : successors calls = 0 :=
  countP_eq_zero.mpr fun c made => by simp [(quiet c made).1]

theorem OneSuccessor.append_quiet {first second : List (Call N)} (quiet : Quiet env first)
    (one : OneSuccessor env second) : OneSuccessor env (first ++ second) := by
  unfold OneSuccessor
  rw [successors_append, quiet.successors, Nat.zero_add]
  refine ⟨one.1, ?_⟩
  rintro ⟨c, made, ends⟩
  rcases mem_append.mp made with before | after
  · exact absurd ends (quiet c before).2
  · exact one.2 ⟨c, after, ends⟩

theorem oneSuccessor_of_none (nothing : successors calls = 0) : OneSuccessor env calls :=
  ⟨by simp [nothing], fun _ => nothing⟩

/-! ### Answers to exceptions -/

def Exit.postpones : Exit → Bool
  | .thrown .lbQueryTemporarilyFailed | .thrown .cannotRetrieveJDL | .thrown (.helperError _)
  | .thrown .cannotCreateToken => true
  | _ => false

theorem postpone_successors (reason : String) : successors ((postpone config reason).calls env s) ≤ 1 := by
  unfold postpone Act.log
  split_ifs
  · cases reply : env (.log (.pending reason)) <;> simp [reply, successors, schedulesSelf]
  · simp [successors, schedulesSelf]

theorem handle_abandons (N : Type) (config : Config) {e : Exit} (abandons : e.postpones = false) :
    (handle config e : Act N Unit).Only (Within [.abandon]) := by
  cases e with
  | returned => exact .pure _
  | crashed => exact .throw _
  | thrown e =>
    unfold handle
    cases e <;> first | exact (unrecoverable_plain _).only | cases abandons

theorem handle_postpones (N : Type) (config : Config) {e : Exit} (postpones : e.postpones = true) :
    ∃ reason, (handle config e : Act N Unit) = postpone config reason := by
  cases e with
  | returned | crashed => cases postpones
  | thrown e =>
    unfold handle
    cases e <;> first | exact ⟨_, rfl⟩ | cases postpones

theorem handle_oneSuccessor (config : Config) (env : Answers N) (t : SubmitState N) (e : Exit) :
    OneSuccessor env ((handle config e).calls env t) := by
  cases answer : e.postpones with
  | false =>
    apply oneSuccessor_of_none
    exact successors_within [.abandon] (fun _ => (handle_abandons N config answer).of_mem) (by decide)
  | true =>
    obtain ⟨reason, same⟩ := handle_postpones N config answer
    rw [same]
    refine ⟨postpone_successors reason, ?_⟩
    rintro ⟨c, made, ends⟩
    exfalso
    have within := (postpone_plain reason).only.of_mem made
    cases c with
    | log entry => cases entry <;> first | exact ends.elim | cases within
    | _ => first | exact ends.elim | cases within

section After

variable {α : Type} {x : Act N α} {f : α → Act N Unit}

theorem OneSuccessor.after (quiet : Quiet env (x.calls env s)) (rest : ∀ a t, x.result env s = (.ok a, t) →
      OneSuccessor env ((tryCatch (f a) (handle config)).calls env t)) :
    OneSuccessor env ((tryCatch (x >>= f) (handle config)).calls env s) := by
  cases outcome : x.result env s with
  | mk result t =>
    cases result with
    | ok a =>
      rw [calls_tryCatch_bind_ok outcome]
      exact .append_quiet quiet (rest a t outcome)
    | error e =>
      rw [calls_tryCatch_bind_error outcome]
      exact .append_quiet quiet (handle_oneSuccessor config env t e)

theorem OneSuccessor.afterOnly (kinds : List Kind) (only : x.Only (Within kinds))
    (apart : ∀ k ∈ kinds, k ∉ [Kind.postpone, .abandon, .cancel, .submission, .collection, .graph])
    (rest : ∀ a t, OneSuccessor env ((tryCatch (f a) (handle config)).calls env t)) :
    OneSuccessor env ((tryCatch (x >>= f) (handle config)).calls env s) :=
  .after (quiet_within kinds (fun _ => only.of_mem) apart) fun a t _ => rest a t

end After

def Calm {α : Type} (env : Answers N) (s : SubmitState N) (x : Act N α) : Prop :=
  ∀ e t, x.result env s = (.error e, t) → e.postpones = false

namespace Calm

variable {α β : Type} {x : Act N α} {f : α → Act N β}

theorem bind (first : Calm env s x) (second : ∀ a t, Calm env t (f a)) : Calm env s (x >>= f) := by
  intro e u failed
  cases outcome : x.result env s with
  | mk result t =>
    cases result with
    | error e' =>
      rw [result_bind_error outcome] at failed
      cases failed
      exact first e u outcome
    | ok a =>
      rw [result_bind_ok outcome] at failed
      exact second a t e u failed

theorem pure (a : α) : Calm env s (Pure.pure a : Act N α) := by
  intro e t failed
  cases failed

theorem ask (c : Call N) : Calm env s (Act.ask c) := by
  intro e t failed
  cases failed

theorem throw {e : Exit} (calm : e.postpones = false) : Calm env s (Act.throw e : Act N α) := by
  rintro _ _ ⟨rfl⟩
  exact calm

theorem ofReply (reply : LogReply) : Calm env s (Act.ofReply reply) := by
  cases reply with
  | noContext code => exact .throw rfl
  | _ => exact .pure _

theorem log (entry : Log) : Calm env s (Act.log entry) :=
  (ask _).bind fun reply _ => ofReply reply

end Calm

/-! ### A single job -/

/-- The activation does not find the job in limbo and sees one token at most. -/
structure OrderlySingle (config : Config) (env : Answers N) (s : SubmitState N) : Prop where
  notInLimbo : s.lastCheckpointing = .limbo → ∀ status events, env .ownStatus = .ok status →
    doQueryEvents (env .ownRecoveryEvents) false = .ok events → inLimbo status events = false
  oneToken : ∀ leaves, env .scan = some leaves → (leaves.filter (isToken config)).length ≤ 1

theorem OrderlySingle.leaveLimbo_calls (orderly : OrderlySingle config env s) :
    ∀ c ∈ (leaveLimbo config).calls env s, Within [.limbo] c := by
  unfold leaveLimbo
  rw [calls_get_bind]
  split_ifs with limbo
  · rw [calls_ask_bind, forall_mem_cons]
    refine ⟨rfl, ?_⟩
    cases status : env .ownStatus with
    | error code => simp
    | ok status' =>
      rw [calls_ask_bind, forall_mem_cons]
      refine ⟨rfl, ?_⟩
      rcases answer : doQueryEvents (env .ownRecoveryEvents) false with (_ | _) | events
      · simp
      · simp
      · simp [orderly.notInLimbo limbo status' events status answer]
  · simp

theorem OrderlySingle.replansByToken_calls (orderly : OrderlySingle config env s) :
    (replansByToken config).calls env t = [.scan] := by
  simp only [replansByToken, findToken, bind_bind, calls_ask_bind]
  cases listed : env .scan with
  | none => rfl
  | some leaves =>
    dsimp only
    cases tokens : leaves.dropWhile fun leaf => !isToken config leaf with
    | nil => rfl
    | cons token rest =>
      simp only [complainAbout_quiet (no_further_token (orderly.oneToken leaves listed) tokens), bind_bind,
        calls_pure_bind]
      cases tokenNumber config token <;> simp

theorem stopIfCancelled_calm : Calm env s stopIfCancelled := by
  apply (Calm.ask _).bind
  intro present t
  cases present with
  | false => exact .pure _
  | true =>
    exact (Calm.log _).bind fun _ _ => (Calm.log _).bind fun _ _ => (Calm.ask _).bind fun _ _ => .throw rfl

theorem submit_oneSuccessor (isReplan : Bool) :
    OneSuccessor env ((tryCatch (submit isReplan) (handle config)).calls env s) := by
  have calls : (submit isReplan).calls env s = [.unlinkMaradona, .submit isReplan] := by
    rcases outcome : env (.submit isReplan) with e | _ <;> simp [submit, outcome]
  rcases outcome : env (.submit isReplan) with e | _
  · have failed : (submit isReplan).result env s = (.error (.thrown e), s) := by simp [submit, outcome]
    rw [calls_tryCatch_error failed, calls]
    refine .append_quiet ?_ (handle_oneSuccessor config env s _)
    simp [Quiet, schedulesSelf, Ends, outcome]
  · have done : (submit isReplan).result env s = (.ok (), s) := by simp [submit, outcome]
    rw [calls_tryCatch_ok done, calls]
    exact oneSuccessor_of_none rfl

theorem OrderlySingle.deliver_oneSuccessor (orderly : OrderlySingle config env s) (counts : Nat × Nat) :
    OneSuccessor env ((tryCatch (deliver config counts) (handle config)).calls env t) := by
  refine .after ?_ fun n t _ => ?_
  · rw [orderly.replansByToken_calls]
    exact quiet_within [.search] (by simp [Within, kind]) (by decide)
  refine .afterOnly [.token, .resubmission] (prepare_only _ _) (by decide) fun isReplan t => ?_
  exact .afterOnly [.token] (placeToken_plain _ _ _).only (by decide) fun _ t =>
    submit_oneSuccessor isReplan

theorem OrderlySingle.oneSuccessor (orderly : OrderlySingle config env s) :
    OneSuccessor env ((tryCatch (submitSingle config) (handle config)).calls env s) := by
  refine .after (quiet_within [.limbo] orderly.leaveLimbo_calls (by decide)) fun _ t _ => ?_
  refine .afterOnly [.info] retryCounts_only (by decide) fun counts t => ?_
  rcases @stopIfCancelled_calls _ env t with ⟨_, present⟩ | ⟨calls, passed, _⟩
  · -- the request has been cancelled: the activation stops here
    cases outcome : (stopIfCancelled).result env t with
    | mk result u =>
      cases result with
      | ok value =>
        simp only [stopIfCancelled, result_ask_bind, present, if_true,
          result_bind_eq_ok] at outcome
        obtain ⟨_, _, _, _, _, _, _, _, _, ⟨⟩⟩ := outcome
      | error e =>
        rw [calls_tryCatch_bind_error outcome]
        apply oneSuccessor_of_none
        apply successors_within [.cancel, .abandon] _ (by decide)
        intro c made
        rcases mem_append.mp made with stops | abandons
        · exact (Within.mono stopIfCancelled_only (by decide)).of_mem stops
        · have abandoned := handle_abandons N config (stopIfCancelled_calm e u outcome)
          exact (Within.mono abandoned (by decide)).of_mem abandons
  · refine .after ?_ fun _ u _ => orderly.deliver_oneSuccessor counts
    rw [calls]
    simp [Quiet, schedulesSelf, Ends]

/-! ### A collection -/

theorem queuePending_spec (nodes : List N) : Quiet env ((queuePending nodes).calls env s) ∧
    (queuePending nodes).result env s = (.ok (), s) := by
  induction nodes with
  | nil => exact ⟨by simp [queuePending, Quiet], rfl⟩
  | cons n rest ih =>
    obtain ⟨calls, result⟩ := @queueNewSubmitRequest_spec _ env n s
    rw [queuePending, calls_bind_ok result, result_bind_ok result, calls]
    refine ⟨forall_mem_append.mpr ⟨forall_mem_cons.mpr ⟨⟨rfl, id⟩, ?_⟩, ih.1⟩, ih.2⟩
    split_ifs
    · exact forall_mem_singleton.mpr ⟨rfl, id⟩
    · simp

theorem queueCollection_oneSuccessor (config : Config) (env : Answers N) (s : SubmitState N) :
    OneSuccessor env ((tryCatch (queueCollection config) (handle config)).calls env s) := by
  refine .after (by simp [Quiet]) fun state t got => ?_
  split_ifs with pending
  · obtain ⟨quiet, _⟩ := @queuePending_spec _ env t state.collectionPending
    refine .after quiet fun _ u _ => ?_
    rw [calls_tryCatch_ok rfl]
    exact ⟨by simp [successors, schedulesSelf], by simp [Ends]⟩
  · exact oneSuccessor_of_none rfl

theorem submitCollection_oneSuccessor (config : Config) (env : Answers N) (s : SubmitState N) :
    OneSuccessor env ((tryCatch (submitCollection config) (handle config)).calls env s) := by
  by_cases delivered : s.lastCheckpointing = .start ∧ env .submitCollection = .ok []
  · -- nothing is pending: the collection ends with this activation
    have absent : (submitCollection config).calls env s = [.submitCollection] := by
      simp [submitCollection, deliverCollection, queueCollection, delivered]
    have done : (submitCollection config).result env s = (.ok (), { s with collectionPending := [] }) := by
      simp [submitCollection, deliverCollection, queueCollection, delivered]
    rw [calls_tryCatch_ok done, absent]
    exact oneSuccessor_of_none rfl
  · refine .after ?_ fun _ t _ => queueCollection_oneSuccessor config env t
    intro c made
    simp only [deliverCollection, calls_get_bind] at made
    split_ifs at made with start
    · obtain rfl : c = .submitCollection := by
        cases answer : env .submitCollection <;> simpa [answer] using made
      exact ⟨rfl, fun ends => delivered ⟨start, ends⟩⟩
    · simp at made

/-! ### A graph of jobs -/

theorem quiet_nodes (nodes : ∀ c ∈ calls, concernsNode c = true) : Quiet env calls := by
  intro c made
  have node := nodes c made
  cases c <;> first | exact ⟨rfl, id⟩ | cases node

variable [DecidableEq N]

theorem assess_quiet {nodes : List N} {colours : N → Colour}
    (known : ∀ n ∈ nodes, ¬ TemporarilyUnknown env n) :
    ∀ c ∈ (assess config nodes colours).calls env s, concernsNode c = true := by
  induction nodes generalizing colours with
  | nil => simp [assess]
  | cons n rest ih =>
    have later (colours : N → Colour) := @ih colours fun m member => known m (by simp [member])
    rw [assess, calls_ask_bind, forall_mem_cons]
    refine ⟨rfl, ?_⟩
    cases status : env (.nodeStatus n) with
    | none => simp
    | some state =>
      dsimp only
      split_ifs with red done submitted
      · exact later _
      · rw [calls_ask_bind, forall_mem_cons]
        refine ⟨rfl, ?_⟩
        rcases answer : doQueryEvents (env (.nodeRecoveryEvents n)) false with (_ | _) | events
        · simp
        · exact absurd ⟨status.trans (congrArg some done), answer⟩ (known n (by simp))
        · exact later _
      · exact later _
      · exact later _

def OrderlyDag (env : Answers N) (graph : Dag N) : Prop :=
  ∀ n ∈ graph.nodes, ¬ TemporarilyUnknown env n

omit [DecidableEq N] in
theorem logged_oneSuccessor (entry : Log) :
    OneSuccessor env ((tryCatch (Act.log entry) (handle config)).calls env s) := by
  apply oneSuccessor_of_none
  have nothing : successors ((Act.log entry).calls env s) = 0 := by simp [successors, schedulesSelf]
  cases outcome : (Act.log entry).result env s with
  | mk result t =>
    cases result with
    | ok value => rw [calls_tryCatch_ok outcome, nothing]
    | error e =>
      rw [calls_tryCatch_error outcome, successors_append, nothing, Nat.zero_add]
      have abandoned := handle_abandons N config (Calm.log entry e t outcome)
      exact successors_within [.abandon] (fun _ => abandoned.of_mem) (by decide)

theorem OrderlyDag.considerNodes {graph : Dag N} (orderly : OrderlyDag env graph) :
    OneSuccessor env ((tryCatch (considerNodes config graph) (handle config)).calls env s) := by
  refine .after (quiet_nodes (assess_quiet orderly)) fun colours t _ => ?_
  refine .after (quiet_nodes fun _ => (plan_only _ _ _ _).of_mem) fun planned u _ => ?_
  obtain ⟨colours, completed⟩ := planned
  dsimp only
  split_ifs
  · exact logged_oneSuccessor _
  · exact logged_oneSuccessor _
  · rw [calls_tryCatch_ok rfl]
    exact ⟨by simp [successors, schedulesSelf], by simp [Ends]⟩

theorem OrderlyDag.oneSuccessor {graph : Dag N} (orderly : OrderlyDag env graph) :
    OneSuccessor env ((tryCatch (submitDag config graph) (handle config)).calls env s) := by
  refine .after (by simp [Quiet]) fun state t _ => ?_
  split_ifs
  · have starts : Quiet env ((logDagStart).calls env t) := by
      intro c made
      have start := logDagStart_only.of_mem made
      simp only [dagStartCalls, mem_cons, not_mem_nil, or_false] at start
      rcases start with rfl | rfl | rfl | rfl | rfl | rfl <;> exact ⟨rfl, id⟩
    exact .after starts fun _ u _ => orderly.considerNodes
  · exact orderly.considerNodes

/-! ### Every request -/

def Orderly (config : Config) (env : Answers N) (s : SubmitState N) : Prop :=
  match s.type with
  | .single => OrderlySingle config env s
  | .dag graph => OrderlyDag env graph
  | .collection _ => True

theorem Orderly.oneSuccessor (orderly : Orderly config env s) :
    OneSuccessor env ((activation config).calls env s) := by
  rcases activation_cases config env s with early | ⟨valid, fresh⟩
  · exact oneSuccessor_of_none (successors_within _ early (by decide))
  rw [activation_calls valid fresh]
  have guards : Quiet env [Call.isProxyExpired, .time] := by simp [Quiet, schedulesSelf, Ends]
  apply OneSuccessor.append_quiet guards
  unfold Orderly at orderly
  refine .after (by simp [Quiet]) fun state t got => ?_
  cases got
  cases type : s.type with
  | single => exact OrderlySingle.oneSuccessor (by simpa [type] using orderly)
  | dag graph => exact OrderlyDag.oneSuccessor (by simpa [type] using orderly)
  | collection nodes => exact submitCollection_oneSuccessor config env s

/-- A request with its activations that have been scheduled and not taken. -/
structure Scheduled (N : Type) where
  pending : Nat
  request : SubmitState N

def Scheduled.step (config : Config) (w : Scheduled N) (env : Answers N) : Option (Scheduled N) :=
  if w.pending = 0 then none
  else some {
    pending := w.pending - 1 + successors ((activation config).calls env w.request)
    request := ((activation config).result env w.request).2 }

/-- In every run of orderly activations one activation of the request is pending at most; each
activation has one successor at most, and none if it delivers, aborts or completes the request. -/
theorem one_activation_pending (config : Config) (request : SubmitState N) (w : Scheduled N)
    (run : Runs (Scheduled.step config) ⟨1, request⟩ (fun w env => Orderly config env w.request) w) :
    w.pending ≤ 1 ∧ ∀ env, Orderly config env w.request →
      OneSuccessor env ((activation config).calls env w.request) := by
  refine ⟨?_, fun env orderly => orderly.oneSuccessor⟩
  induction run with
  | start => exact le_refl 1
  | next _ orderly taken ih =>
    rename_i before after env
    unfold Scheduled.step at taken
    split_ifs at taken with nothing
    cases taken
    have one := orderly.oneSuccessor.1
    simp only
    omega

def helperless : Answers Unit
  | .submit _ => .error (.helperError "no match")
  | c => Answers.quiet c

theorem one_activation_pending_postponed : ∃ w,
    Runs (Scheduled.step .sample) ⟨1, jobRequest .start .empty⟩
      (fun w env => Orderly .sample env w.request) w ∧
    w.pending = 1 ∧ OneSuccessor helperless ((activation .sample).calls helperless w.request) := by
  have orderly {s : SubmitState Unit} (single : s.type = .single) (start : s.lastCheckpointing = .start) :
      Orderly .sample helperless s := by
    rw [Orderly, single]
    refine ⟨fun limbo => by simp [start] at limbo, ?_⟩
    rintro _ ⟨rfl⟩
    decide
  have run : Runs (Scheduled.step .sample) ⟨1, jobRequest .start .empty⟩
      (fun w env => Orderly .sample env w.request) ⟨1, jobRequest .start .empty⟩ :=
    .next .start (orderly rfl rfl) rfl
  exact ⟨_, run, rfl, (one_activation_pending _ _ _ run).2 _ (orderly rfl rfl)⟩

/-- A pass over a graph with a node that is temporarily unknown schedules the graph for that
node and once more at its end. -/
theorem two_activations_pending : ∃ w,
    Runs (Scheduled.step .sample) ⟨1, dagRequest (lonely ())⟩ Free w ∧ w.pending = 2 :=
  have taken : Scheduled.step .sample ⟨1, dagRequest (lonely ())⟩ doneButSilent =
      some ⟨2, dagRequest (lonely ())⟩ := rfl
  ⟨_, .next .start trivial taken, rfl⟩

end Wms.Manager
