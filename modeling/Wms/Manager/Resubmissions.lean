import Wms.Lib.Transition
import Wms.Manager.SingleJob

/-! How often a job is resubmitted.

The numbers of deep and shallow resubmissions are not stored: each activation for a
resubmission counts them anew in the events the L&B server has, the shallow ones from the
last deep one on. The server is assumed to return the resubmissions that have been logged,
in order, between any other events.
-/

set_option autoImplicit false

namespace Wms.Manager

open Lib Dialog List

inductive Resubmission where
  | deep
  | shallow
  deriving DecidableEq, Repr

namespace Resubmission

def ofEvent (event : LbEvent) : Option Resubmission :=
  if isDeepResubmission event then some .deep
  else if isShallowResubmission event then some .shallow
  else none

def sinceDeep (history : List Resubmission) : Nat :=
  (history.reverse.takeWhile (· = .shallow)).length

theorem sinceDeep_concat (history : List Resubmission) (r : Resubmission) :
    sinceDeep (history ++ [r]) = if r = .shallow then sinceDeep history + 1 else 0 := by
  cases r <;> simp [sinceDeep]

theorem length_le_sinceDeep (before : List Resubmission) {segment : List Resubmission}
    (noDeep : .deep ∉ segment) :
    segment.length ≤ sinceDeep (before ++ segment) := by
  have shallow : ∀ r ∈ segment.reverse, decide (r = .shallow) = true := by
    intro r member
    cases r with
    | shallow => rfl
    | deep => exact absurd (mem_reverse.mp member) noDeep
  have whole : segment.reverse.takeWhile (· = .shallow) = segment.reverse :=
    takeWhile_eq_self_iff.mpr shallow
  rw [sinceDeep, reverse_append, takeWhile_append]
  simp [whole]

end Resubmission

open Resubmission

/-! ### Counting -/

variable (events : List LbEvent)

theorem count_deep : (events.filterMap ofEvent).count .deep = events.countP isDeepResubmission := by
  induction events with
  | nil => rfl
  | cons e rest ih =>
    by_cases deep : isDeepResubmission e = true <;>
      by_cases shallow : isShallowResubmission e = true <;> simp [ofEvent, deep, shallow, ih]

theorem fromLastDeep_concat (e : LbEvent) :
    fromLastDeep (events ++ [e]) = if isDeepResubmission e then [e] else fromLastDeep events ++ [e] := by
  simp only [fromLastDeep, reverse_append, reverse_singleton, singleton_append, findIdx?_cons]
  cases isDeepResubmission e with
  | true => simp
  | false =>
    cases place : events.reverse.findIdx? isDeepResubmission with
    | none => simp
    | some i => simp [drop_append_of_le_length]

theorem countP_fromLastDeep :
    (fromLastDeep events).countP isShallowResubmission = sinceDeep (events.filterMap ofEvent) := by
  induction events using reverseRecOn with
  | nil => rfl
  | append_singleton events e ih =>
    rw [fromLastDeep_concat, filterMap_append]
    by_cases deep : isDeepResubmission e = true
    · have notShallow : isShallowResubmission e = false := by
        simp only [isDeepResubmission, isShallowResubmission, decide_eq_true_eq] at deep ⊢
        simp [deep]
      simp [ofEvent, deep, notShallow, sinceDeep_concat]
    · by_cases shallow : isShallowResubmission e = true
      · simp [ofEvent, deep, shallow, sinceDeep_concat, ih]
      · simp [ofEvent, deep, shallow, ih]

theorem getRetryCounts_eq : getRetryCounts events =
      ((events.filterMap ofEvent).count .deep, sinceDeep (events.filterMap ofEvent)) := by
  rw [getRetryCounts, count_deep, countP_fromLastDeep]

/-! ### One activation -/

variable {N : Type} {config : Config} {env : Answers N} {s t : SubmitState N}

def resubmissionCalls (calls : List (Call N)) : List (Call N) :=
  calls.filter fun c => kind c = .resubmission

theorem resubmissionCalls_append (first second : List (Call N)) :
    resubmissionCalls (first ++ second) = resubmissionCalls first ++ resubmissionCalls second :=
  filter_append ..

theorem resubmissionCalls_nil {calls : List (Call N)} (kinds : List Kind)
    (within : ∀ c ∈ calls, Within kinds c) (apart : .resubmission ∉ kinds) :
    resubmissionCalls calls = [] := by
  apply filter_eq_nil_iff.mpr
  intro c made logs
  have same : kind c = .resubmission := by simpa using logs
  exact apart (same ▸ contains_iff_mem.mp (within c made))

theorem resubmissionCalls_only {α : Type} {x : Act N α} {kinds : List Kind} (only : x.Only (Within kinds))
    (apart : .resubmission ∉ kinds) : resubmissionCalls (x.calls env s) = [] :=
  resubmissionCalls_nil kinds (fun _ => only.of_mem) apart

inductive Passes (config : Config) (ad : Ad) (counts : Nat × Nat) : Call N → Prop where
  | shallow (token : Bytes) : checkShallowCount config ad counts.2 = .ok () →
      Passes config ad counts (.log (.resubmissionShallow token))
  | deep (token : Option Bytes) : checkDeepCount config ad counts.1 = .ok () →
      Passes config ad counts (.log (.resubmissionDeep token))

variable {ad job : Ad} {counts : Nat × Nat} {count : Int}

theorem Passes.logs {c : Call N} (passes : Passes config ad counts c) : resubmissionCalls [c] = [c] := by
  cases passes <;> rfl

/-! ### Limits -/

def Thrown.isLimit : Thrown → Bool
  | .hitMaxRetryCount _ | .hitJobRetryCount _ | .hitMaxShallowCount _ | .hitJobShallowCount _ => true
  | _ => false

theorem checkDeepCount_error {e : Thrown} (failed : checkDeepCount config ad count = .error e) :
    e.isLimit = true := by
  unfold checkDeepCount at failed
  dsimp only at failed
  split_ifs at failed <;> cases failed <;> rfl

theorem checkShallowCount_error {e : Thrown} (failed : checkShallowCount config ad count = .error e) :
    e.isLimit = true := by
  unfold checkShallowCount at failed
  dsimp only at failed
  split_ifs at failed <;> cases failed <;> rfl

/-- The check that applies fails: the one for shallow resubmissions when the token is there,
the one for deep resubmissions when it has been taken or there are no tokens. -/
def HitsLimit (config : Config) (env : Answers N) (ad : Ad) (counts : Nat × Nat) (replansCount : Nat) :
    Prop :=
  if shallowResubmissionIsEnabled ad then
    (∀ code, env (.rename (tokenName config replansCount) (tmpTokenName config replansCount)) ≠
      some (.other code)) ∧
    if env (.fileExists (tmpTokenName config replansCount)) then
      checkShallowCount config ad counts.2 ≠ .ok ()
    else checkDeepCount config ad counts.1 ≠ .ok ()
  else checkDeepCount config ad counts.1 ≠ .ok ()

/-- The block fails, with a limit if one is hit, or logs a resubmission that has passed its check.
-/
def LogsChecked (config : Config) (env : Answers N) (s : SubmitState N) (counts : Nat × Nat) (hit : Prop)
    (x : Act N Unit) : Prop :=
  (∃ e, x.result env s = (.error (.thrown e), s) ∧ (hit → e.isLimit = true)) ∧
      resubmissionCalls (x.calls env s) = [] ∨
    ¬hit ∧ ∃ c, Passes config s.ad counts c ∧ resubmissionCalls (x.calls env s) = [c]

namespace LogsChecked

variable {hit : Prop}

theorem checked_log {checked : Except Thrown Unit} {entry : Log}
    (limits : ∀ e, checked = .error e → e.isLimit = true)
    (passes : checked = .ok () → Passes config s.ad counts (.log entry : Call N)) :
    LogsChecked config env s counts (checked ≠ .ok ()) (do check checked; Act.log entry) := by
  cases checked with
  | error e => exact .inl ⟨⟨e, rfl, fun _ => limits e rfl⟩, rfl⟩
  | ok value => exact .inr ⟨not_not_intro rfl, _, passes rfl, by simp [check, (passes rfl).logs]⟩

theorem ask_bind {c : Call N} {f : Reply c → Act N Unit} (apart : kind c ≠ .resubmission)
    (rest : LogsChecked config env s counts hit (f (env c))) :
    LogsChecked config env s counts hit (Act.ask c >>= f) := by
  simpa [LogsChecked, resubmissionCalls, apart] using rest

theorem bind {x : Act N Unit} {f : Unit → Act N Unit} (logs : LogsChecked config env s counts hit x)
    (quiet : ∀ t, resubmissionCalls ((f ()).calls env t) = []) : LogsChecked config env s counts hit
      (x >>= f) := by
  rcases logs with ⟨⟨e, failed, limit⟩, nothing⟩ | ⟨within, c, passes, one⟩
  · exact .inl ⟨⟨e, result_bind_error failed, limit⟩, by rwa [calls_bind_error failed]⟩
  · refine .inr ⟨within, c, passes, ?_⟩
    rcases outcome : x.result env s with ⟨_ | _, t⟩
    · rwa [calls_bind_error outcome]
    · rw [calls_bind_ok outcome, resubmissionCalls_append, one, quiet, append_nil]

end LogsChecked

section Logs

variable (deepCount shallowCount replansCount : Nat)

theorem deepResubmission_logs (token : Option Bytes) : LogsChecked config env s (deepCount, shallowCount)
    (checkDeepCount config s.ad deepCount ≠ .ok ()) (deepResubmission config deepCount token) :=
  LogsChecked.checked_log (fun _ => checkDeepCount_error) fun passed => .deep token passed

theorem resubmissionByToken_logs : LogsChecked config env s (deepCount, shallowCount)
    (if env (.fileExists (tmpTokenName config replansCount)) then
      checkShallowCount config s.ad shallowCount ≠ .ok ()
      else checkDeepCount config s.ad deepCount ≠ .ok ())
    (resubmissionByToken config deepCount shallowCount replansCount) := by
  apply LogsChecked.ask_bind (by simp [kind])
  cases env (.fileExists (tmpTokenName config replansCount)) with
  | true => exact LogsChecked.checked_log (fun _ => checkShallowCount_error) fun passed =>
      .shallow _ passed
  | false =>
    apply (deepResubmission_logs deepCount shallowCount _).bind
    exact fun _ => resubmissionCalls_only (Plain.createToken (by rfl : Within [.token] _)).only (by decide)

theorem resubmission_logs (config : Config) (env : Answers N) (s : SubmitState N) :
    LogsChecked config env s (deepCount, shallowCount)
      (HitsLimit config env s.ad (deepCount, shallowCount) replansCount)
      (resubmission config deepCount shallowCount replansCount) := by
  change LogsChecked config env s _ _ (if shallowResubmissionIsEnabled s.ad then _ else _)
  unfold HitsLimit
  by_cases enabled : shallowResubmissionIsEnabled s.ad = true
  · rw [if_pos enabled, if_pos enabled]
    apply LogsChecked.ask_bind (by simp [kind])
    cases env (.rename (tokenName config replansCount) (tmpTokenName config replansCount)) with
    | none => simpa using resubmissionByToken_logs deepCount shallowCount replansCount
    | some error =>
      cases error with
      | noEntry => simpa using resubmissionByToken_logs deepCount shallowCount replansCount
      | other code => exact .inl ⟨⟨_, rfl, fun hit => absurd rfl (hit.1 code)⟩, rfl⟩
  · rw [if_neg enabled, if_neg enabled]
    exact deepResubmission_logs _ _ _

end Logs

theorem handle_limit (config : Config) {e : Thrown} (limit : e.isLimit = true) :
    ∃ reason, (handle config (.thrown e) : Act N Unit) = unrecoverable reason := by
  cases e <;> first | exact ⟨_, rfl⟩ | cases limit

theorem checkDeepCount_congr (same : ad.retryCount = job.retryCount) :
    checkDeepCount config ad count = checkDeepCount config job count := by
  rw [checkDeepCount, checkDeepCount, same]

theorem checkShallowCount_congr (same : ad.shallowRetryCount = job.shallowRetryCount) :
    checkShallowCount config ad count = checkShallowCount config job count := by
  rw [checkShallowCount, checkShallowCount, same]

theorem Passes.congr {c : Call N} (passes : Passes config ad counts c)
    (deep : ad.retryCount = job.retryCount)
    (shallow : ad.shallowRetryCount = job.shallowRetryCount) : Passes config job counts c := by
  cases passes with
  | shallow token passed => exact .shallow token (checkShallowCount_congr shallow ▸ passed)
  | deep token passed => exact .deep token (checkDeepCount_congr deep ▸ passed)

theorem HitsLimit.congr {n : Nat} {env : Answers N} (hit : HitsLimit config env job counts n)
    (deep : ad.retryCount = job.retryCount) (shallow : ad.shallowRetryCount = job.shallowRetryCount) :
    HitsLimit config env ad counts n := by
  have enabled : shallowResubmissionIsEnabled ad = shallowResubmissionIsEnabled job := by
    rw [shallowResubmissionIsEnabled, shallowResubmissionIsEnabled, getJobShallowCount,
      getJobShallowCount, shallow]
  unfold HitsLimit
  rw [enabled, checkDeepCount_congr deep, checkShallowCount_congr shallow]
  exact hit

def logged (env : Answers N) : Call N → Option Resubmission
  | .log (.resubmissionShallow token) =>
    if env (.log (.resubmissionShallow token)) = .logged then some .shallow else none
  | .log (.resubmissionDeep token) =>
    if env (.log (.resubmissionDeep token)) = .logged then some .deep else none
  | _ => none

theorem filterMap_logged (env : Answers N) (calls : List (Call N)) :
    calls.filterMap (logged env) = (resubmissionCalls calls).filterMap (logged env) := by
  rw [resubmissionCalls, filterMap_filter]
  congr 1
  funext c
  cases c with
  | log entry => cases entry <;> rfl
  | _ => rfl

/-! ### The whole activation -/

def approach (config : Config) : Act N ((Nat × Nat) × Nat) := do
  leaveLimbo config
  let counts ← retryCounts
  stopIfCancelled
  let replansCount ← replansByToken config
  pure (counts, replansCount)

def proceed (config : Config) (replansCount : Nat) (isReplan : Bool) : Act N Unit := do
  placeToken config replansCount isReplan
  submit isReplan

theorem submitSingle_eq (config : Config) : (submitSingle config : Act N Unit) =
    approach config >>= fun found => prepare config found.1 found.2 >>= proceed config found.2 := by
  unfold submitSingle approach deliver proceed
  simp only [bind_bind]
  rfl

theorem leaveLimbo_ok (more : (leaveLimbo config).result env s = (.ok (), t)) :
    t = s ∨ t = { s with lastCheckpointing := .start } := by
  simp only [leaveLimbo, result_get_bind] at more
  split_ifs at more
  · cases status : env .ownStatus with
    | error code => simp [status] at more
    | ok status' =>
      simp only [result_ask_bind, status] at more
      rcases answer : doQueryEvents (env .ownRecoveryEvents) false with (_ | _) | events
      · simp [answer] at more
      · simp [answer] at more
      · simp only [answer] at more
        split_ifs at more
        · rcases (postpone_plain " waiting in limbo").clean with ⟨_, done⟩ | ⟨e, failed⟩
          · cases done.symm.trans more
            exact .inl rfl
          · cases failed.symm.trans more
        · cases more
          exact .inr rfl
  · cases more
    exact .inl rfl

theorem retryCounts_ok (command : s.command = .jobresubmit)
    (counted : (retryCounts).result env s = (.ok counts, t)) :
    ∃ events ad, doQueryEvents (env .interestingEvents) true = .ok events ∧
      env .originalJdl = .ok (some (.ok ad)) ∧ counts = getRetryCounts events ∧ t = { s with ad } := by
  simp only [retryCounts, result_get_bind, command, retrieveLbInfo, result_ask_bind] at counted
  cases answer : doQueryEvents (env .interestingEvents) true with
  | error e => simp [answer, Act.query] at counted
  | ok events =>
    simp only [answer, Act.query, result_pure_bind, result_ask_bind] at counted
    rcases jdl : env .originalJdl with e | _ | e | ad
    · simp [jdl] at counted
    · simp [jdl] at counted
    · simp [jdl] at counted
    · rw [jdl] at counted
      cases counted
      exact ⟨events, ad, rfl, rfl, rfl, rfl⟩

theorem stopIfCancelled_ok (passed : (stopIfCancelled).result env s = (.ok (), t)) : t = s := by
  simp only [stopIfCancelled, result_ask_bind] at passed
  split at passed
  · simp only [result_bind_eq_ok] at passed
    obtain ⟨_, _, _, _, _, _, _, _, _, stopped⟩ := passed
    cases stopped
  · cases passed
    rfl

theorem replansByToken_ok {n : Nat} (counted : (replansByToken config).result env s = (.ok n, t)) :
    t = s ∨ t = s.withCount n := by
  cases listed : env .scan with
  | none => simp [replansByToken, findToken, listed] at counted
  | some leaves =>
    rcases replansByToken_exits config s listed with ⟨_, nothing⟩ | ⟨_, _, _, _, found⟩ | ⟨e, failed⟩
    · cases nothing.symm.trans counted
      exact .inl rfl
    · cases found.symm.trans counted
      exact .inr rfl
    · cases failed.symm.trans counted

theorem approach_ok {n : Nat} (command : s.command = .jobresubmit)
    (found : (approach config).result env s = (.ok (counts, n), t)) :
    ∃ events ad, doQueryEvents (env .interestingEvents) true = .ok events ∧
      env .originalJdl = .ok (some (.ok ad)) ∧ counts = getRetryCounts events ∧
      t.ad.retryCount = ad.retryCount ∧ t.ad.shallowRetryCount = ad.shallowRetryCount ∧
      t.command = .jobresubmit ∧ t.type = s.type := by
  simp only [approach, result_bind_eq_ok] at found
  obtain ⟨_, u, more, counts', v, counted, _, w, passed, n', x, numbered, done⟩ := found
  cases done
  have resubmit : u.command = .jobresubmit := by
    rcases leaveLimbo_ok more with rfl | rfl <;> exact command
  have type : u.type = s.type := by
    rcases leaveLimbo_ok more with rfl | rfl <;> rfl
  obtain ⟨events, ad, answer, jdl, rfl, rfl⟩ := retryCounts_ok resubmit counted
  cases stopIfCancelled_ok passed
  refine ⟨events, ad, answer, jdl, rfl, ?_⟩
  rcases replansByToken_ok numbered with rfl | rfl <;> exact ⟨rfl, rfl, resubmit, type⟩

theorem prepare_resubmits (config : Config) (env : Answers N) (counts : Nat × Nat) (n : Nat)
    (command : s.command = .jobresubmit) :
    (prepare config counts n).calls env s = (resubmission config counts.1 counts.2 n).calls env s ∧
    ∀ e u, (resubmission config counts.1 counts.2 n).result env s = (.error e, u) →
      (prepare config counts n).result env s = (.error e, u) := by
  simp only [prepare, calls_get_bind, result_get_bind, command]
  refine ⟨?_, fun e u failed => result_bind_error failed⟩
  rcases (resubmission_plain counts.1 counts.2 n config).clean with ⟨_, done⟩ | ⟨e, failed⟩
  · rw [calls_bind_ok done, calls_pure, append_nil]
  · rw [calls_bind_error failed]

theorem approach_only : (approach config : Act N _).Only
    (Within [.limbo, .postpone, .info, .cancel, .search, .abandon]) := by
  apply (Within.mono leaveLimbo_only (by decide)).bind
  intro _
  apply (Within.mono retryCounts_only (by decide)).bind
  intro counts
  apply (Within.mono stopIfCancelled_only (by decide)).bind
  intro _
  exact (Within.mono replansByToken_only (by decide)).bind fun n => .pure _

theorem proceed_only (replansCount : Nat) (isReplan : Bool) :
    (proceed config replansCount isReplan : Act N Unit).Only (Within [.token, .submission]) :=
  (Within.mono (placeToken_plain _ _ _).only (by decide)).bind fun _ =>
    Within.mono (submit_only _) (by decide)

theorem handle_within (config : Config) (e : Exit) :
    (handle config e : Act N Unit).Only (Within [.abandon, .postpone]) := by
  rcases handle_only N config e with only | only <;> exact Within.mono only (by decide)

variable [DecidableEq N]

/-- The resubmissions an activation logs are those of the resubmission block, and it submits
only if the block has been left normally. -/
theorem activation_resubmissions (config : Config) (env : Answers N) (single : s.type = .single) :
    resubmissionCalls ((activation config).calls env s) = [] ∧
      (∀ isReplan, .submit isReplan ∉ (activation config).calls env s) ∨
    ∃ counts n t, (approach config).result env s = (.ok (counts, n), t) ∧
      resubmissionCalls ((activation config).calls env s) =
        resubmissionCalls ((prepare config counts n).calls env t) ∧
      ∀ isReplan, .submit isReplan ∈ (activation config).calls env s →
        ∃ r u, (prepare config counts n).result env t = (.ok r, u) := by
  have quiet {calls : List (Call N)} (kinds : List Kind) (within : ∀ c ∈ calls, Within kinds c)
      (apart : .resubmission ∉ kinds ∧ .submission ∉ kinds) :
      resubmissionCalls calls = [] ∧ ∀ isReplan, .submit isReplan ∉ calls :=
    ⟨resubmissionCalls_nil _ within apart.1, fun isReplan made =>
      apart.2 (by simpa [Within, kind] using within (.submit isReplan) made)⟩
  rcases activation_cases config env s with early | ⟨valid, fresh⟩
  · exact .inl (quiet _ early (by decide))
  rw [activation_calls valid fresh, tryCatch_process_single single, submitSingle_eq]
  rcases reached : (approach config).result env s with ⟨e | ⟨counts, n⟩, t⟩
  · left
    rw [calls_tryCatch_bind_error reached]
    refine quiet [.guard, .limbo, .postpone, .info, .cancel, .search, .abandon]
      (fun c made => ?_) (by decide)
    simp only [mem_cons, mem_append] at made
    rcases made with rfl | rfl | made | made
    · rfl
    · rfl
    · exact (Within.mono approach_only (by decide)).of_mem made
    · exact (Within.mono (handle_within config e) (by decide)).of_mem made
  refine .inr ⟨counts, n, t, rfl, ?_⟩
  rw [calls_tryCatch_bind_ok reached]
  have before : resubmissionCalls (.isProxyExpired :: .time :: (approach config).calls env s) = [] :=
    resubmissionCalls_only approach_only (by decide)
  rw [← cons_append, ← cons_append, resubmissionCalls_append, before, nil_append]
  rcases prepared : (prepare config counts n).result env t with ⟨e | r, u⟩
  · have handled : resubmissionCalls ((handle config e).calls env u) = [] :=
      resubmissionCalls_only (handle_within config e) (by decide)
    rw [calls_tryCatch_bind_error prepared, resubmissionCalls_append, handled]
    refine ⟨append_nil _, fun isReplan made => ?_⟩
    simp only [mem_append, mem_cons, reduceCtorEq, false_or] at made
    rcases made with made | made | made
    · cases approach_only.of_mem made
    · cases (prepare_only counts n).of_mem made
    · cases (handle_within config e).of_mem made
  · have after : (tryCatch (proceed config n r) (handle config)).Only
        (Within (N := N) [.token, .submission, .abandon, .postpone]) :=
      (Within.mono (proceed_only n r) (by decide)).tryCatch fun e => Within.mono
        (handle_within config e) (by decide)
    rw [calls_tryCatch_bind_ok prepared, resubmissionCalls_append,
      resubmissionCalls_only after (by decide)]
    exact ⟨append_nil _, fun _ _ => ⟨r, u, rfl⟩⟩

/-! ### Runs of resubmissions -/

structure Activation (N : Type) where
  env : Answers N
  request : SubmitState N

def Activation.calls (config : Config) (a : Activation N) : List (Call N) :=
  (Manager.activation config).calls a.env a.request

def resubmit (config : Config) (history : List Resubmission) (a : Activation N) :
    Option (List Resubmission) :=
  some (history ++ (a.calls config).filterMap (logged a.env))

omit [DecidableEq N] in
/-- An activation for a resubmission of the job: if it gets the events, these are the
resubmissions logged so far among others, and if it gets a description, this has the limits
of the job. -/
structure Resubmits (job : Ad) (history : List Resubmission) (a : Activation N) : Prop where
  single : a.request.type = .single
  command : a.request.command = .jobresubmit
  events : ∀ events, doQueryEvents (a.env .interestingEvents) true = .ok events →
    events.filterMap ofEvent = history
  jdl : ∀ ad, a.env .originalJdl = .ok (some (.ok ad)) →
    ad.retryCount = job.retryCount ∧ ad.shallowRetryCount = job.shallowRetryCount

def deepLimit (config : Config) (job : Ad) : Int :=
  max 0 (min (job.retryCount.getD 0) config.maxRetryCount)

def shallowLimit (config : Config) (job : Ad) : Int :=
  max 0 (min (job.shallowRetryCount.getD 0) config.maxShallowRetryCount)

theorem lt_deepLimit {count : Nat} (passed : checkDeepCount config job count = .ok ()) :
    (count : Int) < deepLimit config job := by
  unfold checkDeepCount jobLimit at passed
  unfold deepLimit
  cases limit : job.retryCount <;> simp only [limit, Option.getD] at passed ⊢ <;>
    split_ifs at passed <;> omega

theorem lt_shallowLimit {count : Nat} (passed : checkShallowCount config job count = .ok ()) :
    (count : Int) < shallowLimit config job := by
  unfold checkShallowCount jobLimit at passed
  unfold shallowLimit
  cases limit : job.shallowRetryCount <;> simp only [limit, Option.getD] at passed ⊢ <;>
    split_ifs at passed <;> omega

/-- What is logged stays within the limits: all deep resubmissions, and the shallow ones in
every part of the history without a deep one. -/
structure Bounded (config : Config) (job : Ad) (history : List Resubmission) : Prop where
  deep : (history.count .deep : Int) ≤ deepLimit config job
  shallow : ∀ part, part <:+: history → .deep ∉ part → (part.length : Int) ≤ shallowLimit config job

theorem Bounded.nil (config : Config) (job : Ad) : Bounded config job [] := by
  constructor
  · simp [deepLimit]
  · intro part inside _
    simp [infix_nil.mp inside, shallowLimit]

variable {history : List Resubmission}

theorem Bounded.deep_logged (bounded : Bounded config job history)
    (below : (history.count .deep : Int) < deepLimit config job) :
    Bounded config job (history ++ [.deep]) := by
  constructor
  · simp
    omega
  · intro part inside noDeep
    rcases infix_concat_iff.mp inside with atEnd | inside
    · rcases suffix_concat_iff.mp atEnd with rfl | ⟨_, rfl, _⟩
      · simp [shallowLimit]
      · simp at noDeep
    · exact bounded.shallow part inside noDeep

theorem Bounded.shallow_logged (bounded : Bounded config job history)
    (below : (sinceDeep history : Int) < shallowLimit config job) :
    Bounded config job (history ++ [.shallow]) := by
  constructor
  · simpa using bounded.deep
  · intro part inside noDeep
    rcases infix_concat_iff.mp inside with atEnd | inside
    · rcases suffix_concat_iff.mp atEnd with rfl | ⟨part, rfl, before, rfl⟩
      · simp [shallowLimit]
      · -- the part before the new event reaches back to the last deep one at most
        have noDeep : .deep ∉ part := fun member => noDeep (by simp [member])
        have := length_le_sinceDeep before noDeep
        simp
        omega
    · exact bounded.shallow part inside noDeep

variable {a : Activation N}

/-- One activation logs nothing, or one resubmission that has passed its check, and it
submits only in the second case. -/
theorem Resubmits.logs (config : Config) (resubmits : Resubmits job history a) :
    resubmissionCalls (a.calls config) = [] ∧ (∀ isReplan, .submit isReplan ∉ a.calls config) ∨
    ∃ c, resubmissionCalls (a.calls config) = [c] ∧
      Passes config job (history.count .deep, sinceDeep history) c := by
  rcases activation_resubmissions config a.env resubmits.single with absent | ⟨counts, n, t,
    reached, same, more⟩
  · exact .inl absent
  obtain ⟨events, ad, answer, jdl, rfl, deep, shallow, command, _⟩ := approach_ok resubmits.command reached
  obtain ⟨calls, fails⟩ := prepare_resubmits config a.env (getRetryCounts events) n command
  rcases resubmission_logs (getRetryCounts events).1 (getRetryCounts events).2 n config a.env t with
    ⟨⟨e, failed, _⟩, nothing⟩ | ⟨_, c, passes, one⟩
  · refine .inl ⟨by rw [Activation.calls, same, calls, nothing], fun isReplan made => ?_⟩
    obtain ⟨_, _, done⟩ := more isReplan made
    cases (fails _ _ failed).symm.trans done
  · refine .inr ⟨c, by rw [Activation.calls, same, calls, one], ?_⟩
    obtain ⟨sameDeep, sameShallow⟩ := resubmits.jdl ad jdl
    have passes := passes.congr (deep.trans sameDeep) (shallow.trans sameShallow)
    rwa [getRetryCounts_eq, resubmits.events events answer] at passes

theorem Bounded.step {next : List Resubmission} (bounded : Bounded config job history)
    (resubmits : Resubmits job history a) (taken : resubmit config history a = some next) :
    Bounded config job next := by
  cases taken
  rw [filterMap_logged]
  rcases resubmits.logs config with ⟨nothing, _⟩ | ⟨c, one, passes⟩
  · simpa [nothing] using bounded
  · rw [one]
    cases passes with
    | shallow token passed =>
      by_cases known : a.env (.log (.resubmissionShallow token)) = .logged
      · simpa [logged, known] using bounded.shallow_logged (lt_shallowLimit passed)
      · simpa [logged, known] using bounded
    | deep token passed =>
      by_cases known : a.env (.log (.resubmissionDeep token)) = .logged
      · simpa [logged, known] using bounded.deep_logged (lt_deepLimit passed)
      · simpa [logged, known] using bounded

/-- The activation gets to the resubmission with the token of some number, and the check that
applies fails on the counts of the history. -/
structure LimitHit (config : Config) (job : Ad) (history : List Resubmission) (a : Activation N) :
    Prop where
  valid : a.env .isProxyExpired = .ok false
  fresh : expired config a.env a.request = false
  hit : ∃ counts n t, (approach config).result a.env a.request = (.ok (counts, n), t) ∧
    HitsLimit config a.env job (history.count .deep, sinceDeep history) n

theorem Resubmits.aborted (resubmits : Resubmits job history a) (hit : LimitHit config job history a) :
    (∃ reason, .log (.abort reason) ∈ a.calls config) ∧ ∀ isReplan, .submit isReplan ∉ a.calls config := by
  obtain ⟨counts, n, t, reached, hits⟩ := hit.hit
  obtain ⟨events, ad, answer, jdl, rfl, deep, shallow, command, type⟩ :=
    approach_ok resubmits.command reached
  obtain ⟨sameDeep, sameShallow⟩ := resubmits.jdl ad jdl
  rw [← resubmits.events events answer, ← getRetryCounts_eq] at hits
  have hits := hits.congr (deep.trans sameDeep) (shallow.trans sameShallow)
  rcases resubmission_logs (getRetryCounts events).1 (getRetryCounts events).2 n config a.env t with
    ⟨⟨e, failed, limit⟩, _⟩ | ⟨passed, _⟩
  swap
  · exact absurd hits passed
  have prepared := (prepare_resubmits config a.env (getRetryCounts events) n command).2 _ _ failed
  constructor
  · obtain ⟨reason, handled⟩ := handle_limit (N := N) config (limit hits)
    refine ⟨reason, ?_⟩
    rw [Activation.calls, activation_calls hit.valid hit.fresh, tryCatch_process_single resubmits.single,
      submitSingle_eq, calls_tryCatch_bind_ok reached, calls_tryCatch_bind_error prepared,
      handled]
    have aborts : .log (.abort reason) ∈ (unrecoverable reason).calls a.env t := by
      simp [unrecoverable, type.trans resubmits.single, Act.log]
    simp [aborts]
  · intro isReplan made
    rcases activation_resubmissions config a.env resubmits.single with ⟨_, nothing⟩ | ⟨counts, m, u,
      again, _, more⟩
    · exact nothing isReplan made
    · cases reached.symm.trans again
      obtain ⟨_, _, done⟩ := more isReplan made
      cases prepared.symm.trans done

/-- Along every run of resubmissions the limits are kept; an activation submits only if the
check that applies to it has passed, and aborts the job if it has failed. -/
theorem resubmissions_bounded (config : Config) (job : Ad) (history : List Resubmission)
    (run : Runs (resubmit (N := N) config) [] (Resubmits job) history) :
    Bounded config job history ∧ ∀ a : Activation N, Resubmits job history a →
      (∀ isReplan, .submit isReplan ∈ a.calls config → ∃ c, resubmissionCalls (a.calls config) = [c] ∧
        Passes config job (history.count .deep, sinceDeep history) c) ∧
      (LimitHit config job history a → (∃ reason, .log (.abort reason) ∈ a.calls config) ∧
        ∀ isReplan, .submit isReplan ∉ a.calls config) := by
  constructor
  · exact run.invariant (.nil config job) fun _ _ _ bounded resubmits taken => bounded.step resubmits taken
  · intro a resubmits
    refine ⟨fun isReplan made => ?_, resubmits.aborted⟩
    rcases resubmits.logs config with ⟨_, nothing⟩ | logs
    · exact absurd made (nothing isReplan)
    · exact logs

def retriedJob : Ad := { Ad.empty with retryCount := some 1, shallowRetryCount := some 1 }

def retry (events : List LbEvent) (tokenThere : Bool) : Activation Unit where
  env
    | .interestingEvents => .ok events
    | .originalJdl => .ok (some (.ok retriedJob))
    | .rename _ _ => if tokenThere then none else some .noEntry
    | .fileExists _ => tokenThere
    | c => Answers.quiet c
  request := { jobRequest .start .empty with command := .jobresubmit }

theorem retry_resubmits {events : List LbEvent} {tokenThere : Bool}
    (all : events.filterMap ofEvent = history) :
    Resubmits retriedJob history (retry events tokenThere) where
  single := rfl
  command := rfl
  events := by
    rintro _ ⟨rfl⟩
    exact all
  jdl := by
    rintro _ ⟨rfl⟩
    exact ⟨rfl, rfl⟩

theorem resubmissions_bounded_retried :
    Runs (resubmit (N := Unit) .sample) [] (Resubmits retriedJob) [.deep, .shallow] ∧
    Bounded .sample retriedJob [.deep, .shallow] := by
  have first := Runs.next .start (retry_resubmits rfl)
    (show resubmit .sample [] (retry [] false) = some [.deep] from rfl)
  have second := Runs.next first (retry_resubmits rfl)
    (show resubmit .sample [.deep] (retry [⟨.workloadManager, .resubmission .willResub⟩] true) =
      some [.deep, .shallow] from rfl)
  exact ⟨second, (resubmissions_bounded _ _ _ second).1⟩

end Wms.Manager
