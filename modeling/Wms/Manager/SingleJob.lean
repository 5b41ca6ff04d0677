import Wms.Manager.DagPass

/-! The submission of a single job (`SubmitProcessor::operator()`, jobs without structure).

The blocks of the operator follow one another with early exits between them. Here each block
is described by the exits it has, and the activation is put together from the blocks.
-/

set_option autoImplicit false

namespace Wms.Manager

open Lib Dialog List

variable {N : Type} {config : Config} {env : Answers N} {s t : SubmitState N}

/-! ### Exits of the blocks -/

def Clean {α : Type} (env : Answers N) (x : Act N α) (s : SubmitState N) : Prop :=
  (∃ a, x.result env s = (.ok a, s)) ∨ ∃ e, x.result env s = (.error (.thrown e), s)

namespace Clean

variable {α β : Type} {x : Act N α} {f : α → Act N β}

theorem bind (first : Clean env x s)
    (second : ∀ a, x.result env s = (.ok a, s) → Clean env (f a) s) : Clean env (x >>= f) s := by
  rcases first with ⟨a, done⟩ | ⟨e, failed⟩
  · unfold Clean
    rw [result_bind_ok done]
    exact second a done
  · exact .inr ⟨e, result_bind_error failed⟩

theorem pure (a : α) : Clean env (Pure.pure a : Act N α) s := .inl ⟨a, rfl⟩

theorem get_bind {f : SubmitState N → Act N β} (rest : Clean env (f s) s) :
    Clean env (Act.get >>= f) s := rest

end Clean

theorem Plain.clean {allowed : Call N → Prop} {α : Type} {x : Act N α} (plain : Plain allowed x) :
    Clean env x s := by
  induction plain with
  | pure a => exact .inl ⟨a, rfl⟩
  | throw e => exact .inr ⟨e, rfl⟩
  | get => exact .inl ⟨s, rfl⟩
  | ask holds => exact .inl ⟨_, rfl⟩
  | bind _ _ first second => exact first.bind fun a _ => second a

theorem detectReplan_clean {replansCount : Nat}
    (same : replansCount = 0 ∨ s.ad.replansCount = some (replansCount : Int)) :
    Clean env (detectReplan config replansCount) s := by
  unfold detectReplan
  apply Clean.get_bind
  dsimp only
  split_ifs with replan stale shallow
  · exact .pure _
  · exfalso
    rcases same with rfl | same
    · omega
    · rw [same] at stale
      simp at stale
  · exact (ensureTmpToken_plain _).clean.bind fun _ _ => .pure _
  · exact .pure _

theorem prepare_clean (config : Config) (env : Answers N) (counts : Nat × Nat) {replansCount : Nat}
    (same : replansCount = 0 ∨ s.ad.replansCount = some (replansCount : Int)) :
    Clean env (prepare config counts replansCount) s := by
  unfold prepare
  apply Clean.get_bind
  cases s.command with
  | jobsubmit => exact detectReplan_clean same
  | jobresubmit => exact (resubmission_plain _ _ _ _).clean.bind fun _ _ => .pure _

def firstToken (config : Config) (leaves : List Bytes) : Option Bytes :=
  (leaves.dropWhile fun leaf => !isToken config leaf).head?

theorem complainAbout_quiet {rest : List Bytes} (nothing : ∀ leaf ∈ rest, isToken config leaf = false) :
    (complainAbout config rest : Act N Unit) = pure () := by
  induction rest with
  | nil => rfl
  | cons leaf rest ih =>
    rw [forall_mem_cons] at nothing
    simp [complainAbout, nothing.1, ih nothing.2]

theorem filter_dropWhile_not {α : Type} (p : α → Bool) (l : List α) :
    (l.dropWhile fun a => !p a).filter p = l.filter p := by
  induction l with
  | nil => rfl
  | cons a l ih =>
    cases holds : p a with
    | true => simp [holds]
    | false => simp [holds, ih]

theorem no_further_token {leaves rest : List Bytes} {token : Bytes}
    (one : (leaves.filter (isToken config)).length ≤ 1)
    (found : (leaves.dropWhile fun leaf => !isToken config leaf) = token :: rest) :
    ∀ leaf ∈ rest, isToken config leaf = false := by
  have first : isToken config token = true := by
    have := head?_dropWhile_not (fun leaf => !isToken config leaf) leaves
    simpa [found] using this
  have empty : rest.filter (isToken config) = [] := by
    rw [← filter_dropWhile_not, found, filter_cons, if_pos first, length_cons] at one
    exact eq_nil_of_length_eq_zero (by omega)
  simpa using filter_eq_nil_iff.mp empty

def SubmitState.withCount (s : SubmitState N) (n : Nat) : SubmitState N :=
  { s with ad := { s.ad with replansCount := some (n : Int) } }

theorem replansByToken_exits (config : Config) (s : SubmitState N) {leaves : List Bytes}
    (listed : env .scan = some leaves) :
    firstToken config leaves = none ∧ (replansByToken config).result env s = (.ok 0, s) ∨
    (∃ token n, firstToken config leaves = some token ∧ tokenNumber config token = some n ∧
      (replansByToken config).result env s = (.ok n, s.withCount n)) ∨
    ∃ e, (replansByToken config).result env s = (.error (.thrown e), s) := by
  simp only [replansByToken, findToken, firstToken, bind_bind, result_ask_bind, listed]
  cases leaves.dropWhile fun leaf => !isToken config leaf with
  | nil => exact .inl ⟨rfl, rfl⟩
  | cons token rest =>
    right
    simp only [bind_bind]
    rcases (complainAbout_plain config rest).clean with ⟨_, done⟩ | ⟨e, failed⟩
    · rw [result_bind_ok done]
      cases number : tokenNumber config token with
      | none => exact .inr ⟨_, by simp [number]; rfl⟩
      | some n => exact .inl ⟨token, n, rfl, number, by simp [number]; rfl⟩
    · exact .inr ⟨e, result_bind_error failed⟩

/-! ### What an activation does apart from asking -/

def asks : Call N → Bool
  | .isProxyExpired | .time | .ownStatus | .ownRecoveryEvents | .interestingEvents | .originalJdl
  | .cancelTokenExists | .scan | .fileExists _ | .nodeStatus _ | .nodeRecoveryEvents _
  | .children => true
  | _ => false

def effects (calls : List (Call N)) : List (Call N) := calls.filter fun c => !asks c

theorem deliver_acts {counts : Nat × Nat} {leaves : List Bytes} (listed : env .scan = some leaves) :
    effects ((deliver config counts).calls env s) ≠ [] ∨
    ∃ e t, (deliver config counts).result env s = (.error (.thrown e), t) := by
  unfold deliver
  have exits : (∃ n t, (replansByToken config).result env s = (.ok n, t) ∧
      (n = 0 ∨ t.ad.replansCount = some (n : Int))) ∨
      ∃ e, (replansByToken config).result env s = (.error (.thrown e), s) := by
    rcases replansByToken_exits config s listed with ⟨_, counted⟩ | ⟨_, n, _, _, counted⟩ | failed
    · exact .inl ⟨0, s, counted, .inl rfl⟩
    · exact .inl ⟨n, _, counted, .inr rfl⟩
    · exact .inr failed
  rcases exits with ⟨n, t, counted, same⟩ | ⟨e, failed⟩
  · rw [calls_bind_ok counted, result_bind_ok counted]
    rcases prepare_clean config env counts same with ⟨isReplan, ready⟩ | ⟨e, failed⟩
    · rw [calls_bind_ok ready, result_bind_ok ready]
      rcases (placeToken_plain n config isReplan).clean with ⟨_, placed⟩ | ⟨e, failed⟩
      · left
        rw [calls_bind_ok placed]
        simp [submit, effects, asks]
      · exact .inr ⟨e, t, result_bind_error failed⟩
    · exact .inr ⟨e, t, result_bind_error failed⟩
  · exact .inr ⟨e, s, result_bind_error failed⟩

theorem effects_append (first second : List (Call N)) :
    effects (first ++ second) = effects first ++ effects second := filter_append ..

theorem abortChildren_acts {reason : String} {children : List (N × JobState)} {e : Exit}
    (failed : (abortChildren reason children).result env s = (.error e, t)) :
    effects ((abortChildren reason children).calls env s) ≠ [] := by
  induction children with
  | nil => simp [abortChildren] at failed
  | cons child rest ih =>
    obtain ⟨child, state⟩ := child
    unfold abortChildren at failed ⊢
    split_ifs at failed ⊢
    · simp at failed
    · simp [effects, asks]
    · exact ih failed

theorem unrecoverable_acts (reason : String) : effects ((unrecoverable reason).calls env s) ≠ [] := by
  have ends : effects ((do Act.log (.abort reason); Act.ask .unlinkCancelToken : Act N Unit).calls env s) ≠
      [] := by
    simp [Act.log, effects, asks]
  simp only [unrecoverable, calls_get_bind]
  cases s.type with
  | collection nodes =>
    simp only [unrecoverableCollection, bind_bind, calls_ask_bind]
    rcases env .children with _ | _ | children
    · exact ends
    · exact ends
    · dsimp only
      rcases (abortChildren_plain (s.id ++ " failed (" ++ reason ++ ")") children).clean with ⟨_,
        done⟩ | ⟨e, failed⟩
      · rw [calls_bind_ok done]
        intro nothing
        rw [← cons_append, effects_append, append_eq_nil_iff] at nothing
        exact ends nothing.2
      · rw [calls_bind_error failed]
        exact abortChildren_acts failed
  | _ => exact ends

theorem postpone_acts (reason : String) : effects ((postpone config reason).calls env s) ≠ [] := by
  unfold postpone Act.log
  split_ifs <;> simp [effects, asks]

theorem handle_acts (e : Thrown) : effects ((handle config (.thrown e)).calls env s) ≠ [] := by
  unfold handle
  cases e <;> first | exact unrecoverable_acts _ | exact postpone_acts _

/-! ### A job in limbo -/

def expired (config : Config) (env : Answers N) (s : SubmitState N) : Bool :=
  match s.ad.expiryTime with
  | none => decide (env .time - s.createdAt > config.expiryPeriod)
  | some expiryTime => decide (expiryTime < env .time)

theorem isRequestExpired_spec : (isRequestExpired config).result env s = (.ok (expired config env s), s) ∧
    (isRequestExpired config).calls env s = [.time] := by
  unfold isRequestExpired expired
  simp only [result_get_bind, result_ask_bind, calls_get_bind, calls_ask_bind]
  cases s.ad.expiryTime <;> exact ⟨rfl, rfl⟩

structure FoundInLimbo (config : Config) (env : Answers N) (s : SubmitState N) : Prop where
  single : s.type = .single
  valid : env .isProxyExpired = .ok false
  fresh : expired config env s = false
  limbo : s.lastCheckpointing = .limbo
  inLimbo : ∃ status events, env .ownStatus = .ok status ∧
    doQueryEvents (env .ownRecoveryEvents) false = .ok events ∧ inLimbo status events = true

def InfoRetrieved (env : Answers N) : Prop :=
  (∃ events, doQueryEvents (env .interestingEvents) true = .ok events) ∧
    ∃ ad, env .originalJdl = .ok (some (.ok ad))

theorem leaveLimbo_calls (found : FoundInLimbo config env s) : (leaveLimbo config).calls env s =
      .ownStatus :: .ownRecoveryEvents :: (postpone config " waiting in limbo").calls env s ∧
    (leaveLimbo config).result env s = (postpone config " waiting in limbo").result env s := by
  obtain ⟨status, events, answer, history, inside⟩ := found.inLimbo
  simp [leaveLimbo, found.limbo, answer, history, inside]

theorem retryCounts_exits (env : Answers N) (s : SubmitState N) :
    effects ((retryCounts).calls env s) = [] ∧
    ((∃ counts t, (retryCounts).result env s = (.ok counts, t)) ∧
      (s.command = .jobresubmit → InfoRetrieved env) ∨
      (∃ e t, (retryCounts).result env s = (.error (.thrown e), t)) ∧
        ¬ (s.command = .jobresubmit → InfoRetrieved env)) := by
  unfold retryCounts InfoRetrieved
  simp only [calls_get_bind, result_get_bind]
  cases command : s.command with
  | jobsubmit => simp [effects]
  | jobresubmit =>
    simp only [retrieveLbInfo, calls_ask_bind, result_ask_bind, forall_const]
    cases events : doQueryEvents (env .interestingEvents) true with
    | error e => simp [Act.query, effects, asks]
    | ok events =>
      simp only [Act.query, calls_pure_bind, result_pure_bind, calls_ask_bind,
        result_ask_bind]
      rcases answer : env .originalJdl with e | _ | e | ad <;> simp [effects, asks]

theorem stopIfCancelled_calls : effects ((stopIfCancelled).calls env s) ≠ [] ∧
    env .cancelTokenExists = true ∨
    (stopIfCancelled).calls env s = [.cancelTokenExists] ∧
      (stopIfCancelled).result env s = (.ok (), s) ∧ env .cancelTokenExists = false := by
  unfold stopIfCancelled Act.log
  cases present : env .cancelTokenExists <;> simp [present, effects, asks]

theorem effects_mono {calls more : List (Call N)} (acts : effects calls ≠ []) (kept : calls ⊆ more) :
    effects more ≠ [] := by
  obtain ⟨c, made⟩ := exists_mem_of_ne_nil _ acts
  obtain ⟨member, acting⟩ := mem_filter.mp made
  exact ne_nil_of_mem (mem_filter.mpr ⟨kept member, acting⟩)

theorem effects_bind {α β : Type} {x : Act N α} {f : α → Act N β} (acts : effects (x.calls env s) ≠ []) :
    effects ((x >>= f).calls env s) ≠ [] :=
  effects_mono acts fun _ made => mem_calls_bind.mpr (.inl made)

theorem effects_tryCatch {x : Act N Unit} (acts : effects (x.calls env s) ≠ []) :
    effects ((tryCatch x (handle config)).calls env s) ≠ [] :=
  effects_mono acts fun _ made => mem_calls_tryCatch.mpr (.inl made)

/-- After the limbo an activation does nothing only if it cannot read the directory. -/
theorem quiet_after_limbo_iff (config : Config) (env : Answers N) (s : SubmitState N) :
    effects ((tryCatch (do
      let counts ← retryCounts
      stopIfCancelled
      deliver config counts) (handle config)).calls env s) = [] ↔
    (s.command = .jobresubmit → InfoRetrieved env) ∧ env .cancelTokenExists = false ∧
      env .scan = none := by
  obtain ⟨quiet, ⟨⟨counts, t, counted⟩, retrieved⟩ | ⟨⟨e, t, failed⟩, missing⟩⟩ := retryCounts_exits env s
  · rw [calls_tryCatch_bind_ok counted, effects_append, quiet]
    rw [nil_append, and_iff_right retrieved]
    rcases @stopIfCancelled_calls _ env t with ⟨acts, present⟩ | ⟨calls, result, absent⟩
    · simpa [present] using effects_tryCatch (effects_bind acts)
    · rw [calls_tryCatch_bind_ok result, calls, effects_append]
      cases listed : env .scan with
      | none =>
        have stopped : (deliver config counts).result env t = (.error .returned, t) := by
          simp [deliver, replansByToken, findToken, listed]
        have asked : (deliver config counts).calls env t = [.scan] := by
          simp [deliver, replansByToken, findToken, listed]
        rw [calls_tryCatch_error stopped, asked]
        simp [handle, absent, effects, asks]
      | some leaves =>
        have acts : effects ((tryCatch (deliver config counts) (handle config)).calls env t) ≠ [] := by
          rcases @deliver_acts _ config env t counts _ listed with acts | ⟨e, u, failed⟩
          · exact effects_tryCatch acts
          · rw [calls_tryCatch_error failed, effects_append]
            simp [handle_acts]
        simp [acts]
  · rw [calls_tryCatch_bind_error failed, effects_append]
    simp [missing, handle_acts]

/-! ### Answers that nothing stops at -/

def undeterred (config : Config) (s : SubmitState N) (leaves : List Bytes) : Answers N
  | .scan => some leaves
  | .time => match s.ad.expiryTime with
    | none => s.createdAt + config.expiryPeriod
    | some expiryTime => expiryTime
  | c => Answers.quiet c

variable {leaves : List Bytes} {u : SubmitState N}

theorem undeterred_complains (rest : List Bytes) (single : u.type = .single) :
    (complainAbout config rest).result (undeterred config s leaves) u = (.ok (), u) := by
  have reported (reason : String) :
      (unrecoverable reason).result (undeterred config s leaves) u = (.ok (), u) := by
    simp [unrecoverable, single, Act.log, undeterred, Answers.quiet]
  induction rest with
  | nil => rfl
  | cons leaf rest ih =>
    unfold complainAbout
    split_ifs
    · rw [result_bind_ok (reported _)]
      exact ih
    · exact ih

theorem undeterred_counts (s : SubmitState N) (single : u.type = .single)
    (readable : ∀ token, firstToken config leaves = some token → tokenNumber config token ≠ none) :
    ∃ n v, (replansByToken config).result (undeterred config s leaves) u = (.ok n, v) ∧
      v.command = u.command ∧ (n = 0 ∨ v.ad.replansCount = some (n : Int)) := by
  have listed : (undeterred config s leaves) .scan = some leaves := rfl
  simp only [replansByToken, findToken, bind_bind, result_ask_bind, listed]
  unfold firstToken at readable
  cases tokens : leaves.dropWhile fun leaf => !isToken config leaf with
  | nil => exact ⟨0, u, rfl, rfl, .inl rfl⟩
  | cons token rest =>
    simp only [bind_bind]
    rw [result_bind_ok (undeterred_complains rest single)]
    cases number : tokenNumber config token with
    | none => exact absurd number (readable token (by simp [tokens]))
    | some n => exact ⟨n, u.withCount n, by simp [number]; rfl, rfl, .inr rfl⟩

theorem undeterred_finishes (leaves : List Bytes) (s : SubmitState N) {n : Nat}
    (command : u.command = .jobsubmit)
    (counts : Nat × Nat) (same : n = 0 ∨ u.ad.replansCount = some (n : Int)) :
    ∃ isReplan, .submit isReplan ∈ (do
      let isReplan ← prepare config counts n
      placeToken config n isReplan
      submit isReplan : Act N Unit).calls (undeterred config s leaves) u := by
  have absent (file : Bytes) : (undeterred config s leaves) (.fileExists file) = false := rfl
  have created (file : Bytes) : (undeterred config s leaves) (.create file) = true := rfl
  have renamed (source target : Bytes) :
      (undeterred config s leaves) (.rename source target) = none := rfl
  have prepared : ∃ isReplan,
      (prepare config counts n).result (undeterred config s leaves) u = (.ok isReplan, u) := by
    rcases prepare_clean config (undeterred config s leaves) counts same with done | ⟨e, failed⟩
    · exact done
    · exfalso
      simp only [prepare, result_get_bind, command, detectReplan, ensureTmpToken,
        createToken, bind_bind] at failed
      split_ifs at failed <;> simp [absent, created] at failed
  obtain ⟨isReplan, prepared⟩ := prepared
  have placed :
      (placeToken config n isReplan).result (undeterred config s leaves) u = (.ok (), u) := by
    simp only [placeToken, result_get_bind, putTokenInPlace]
    split_ifs <;> simp [renamed]
  refine ⟨isReplan, ?_⟩
  rw [calls_bind_ok prepared, calls_bind_ok placed]
  simp [submit]

theorem undeterred_delivers (s : SubmitState N) (single : u.type = .single)
    (command : u.command = .jobsubmit)
    (counts : Nat × Nat) (readable : ∀ token, firstToken config leaves = some token →
      tokenNumber config token ≠ none) :
    ∃ isReplan, .submit isReplan ∈ (deliver config counts).calls (undeterred config s leaves) u := by
  obtain ⟨n, v, counted, kept, same⟩ := undeterred_counts s single readable
  obtain ⟨isReplan, made⟩ := undeterred_finishes leaves s (kept.trans command) counts same
  refine ⟨isReplan, ?_⟩
  rw [deliver, calls_bind_ok counted]
  exact mem_append_right _ made

variable [DecidableEq N]

theorem activation_calls (valid : env .isProxyExpired = .ok false) (fresh : expired config env s = false) :
    (activation config).calls env s = .isProxyExpired :: .time ::
      (tryCatch (process config) (handle config)).calls env s := by
  unfold activation
  simp only [calls_ask_bind, valid]
  rw [calls_bind_ok isRequestExpired_spec.1, isRequestExpired_spec.2]
  simp [fresh]

/-- An activation abandons the request at once, or gets to process it. -/
theorem activation_cases (config : Config) (env : Answers N) (s : SubmitState N) :
    (∀ c ∈ (activation config).calls env s, Within [.guard, .abandon] c) ∨
    env .isProxyExpired = .ok false ∧ expired config env s = false := by
  have abandoned {reason : String} {c : Call N} (made : c ∈ (unrecoverable reason).calls env s) :
      Within [.guard, .abandon] c := (Within.mono (unrecoverable_plain reason).only
        (by decide)).of_mem made
  have guarded {rest : List (Call N)} (ends : ∀ c ∈ rest, Within [.guard, .abandon] c)
      {first : Call N} (guard : Within [.guard, .abandon] first) :
      ∀ c ∈ first :: rest, Within [.guard, .abandon] c := by
    simpa using ⟨guard, ends⟩
  simp only [activation, calls_ask_bind]
  rcases env .isProxyExpired with (_ | _) | _ | _
  · exact .inl (guarded (fun c => abandoned) rfl)
  · exact .inl (guarded (fun c => abandoned) rfl)
  · cases old : expired config env s with
    | false => exact .inr ⟨rfl, rfl⟩
    | true =>
      left
      dsimp only
      rw [calls_bind_ok isRequestExpired_spec.1, isRequestExpired_spec.2, old]
      exact guarded (guarded (fun c => abandoned) (by rfl)) rfl
  · exact .inl (guarded (fun c => abandoned) rfl)

theorem tryCatch_process_single {handler : Exit → Act N Unit} (single : s.type = .single) :
    (tryCatch (process config) handler).calls env s =
      (tryCatch (submitSingle config) handler).calls env s := by
  rw [process, calls_tryCatch_bind_ok result_get, calls_get]
  simp only [single, nil_append]

/-- The activation has postponed itself and has done nothing else. -/
def OnlyPostponed (config : Config) (env : Answers N) (s : SubmitState N) : Prop :=
  effects ((activation config).calls env s) =
    [.log (.pending " waiting in limbo"), .scheduleSelf config.matchRetryPeriod]

/-- A job found in limbo is only postponed when the activation cannot go on: the directory
of the job cannot be read, and nothing stops the activation before. -/
theorem limbo_only_postponed_iff (config : Config) (env : Answers N) (s : SubmitState N)
    (found : FoundInLimbo config env s) : OnlyPostponed config env s ↔
      (∀ code, env (.log (.pending " waiting in limbo")) ≠ .noContext code) ∧
      (s.command = .jobresubmit → InfoRetrieved env) ∧ env .cancelTokenExists = false ∧
        env .scan = none := by
  obtain ⟨calls, result⟩ := leaveLimbo_calls found
  unfold OnlyPostponed
  rw [activation_calls found.valid found.fresh, tryCatch_process_single found.single, submitSingle]
  cases reply : env (.log (.pending " waiting in limbo")) with
  | noContext code =>
    -- the exception is answered by aborting the job
    have failed : (leaveLimbo config).result env s =
        (.error (.thrown (.cannotCreateLBContext code)), s) := by
      simp [result, postpone, Act.log, reply]
    have posted : (leaveLimbo config).calls env s =
        [.ownStatus, .ownRecoveryEvents, .log (.pending " waiting in limbo")] := by
      simp [calls, postpone, Act.log, reply]
    rw [calls_tryCatch_bind_error failed, posted]
    simp [handle, unrecoverable, found.single, Act.log, effects, asks]
  | _ =>
    have passed : (leaveLimbo config).result env s = (.ok (), s) := by
      simp [result, postpone, Act.log, reply]
    have posted : (leaveLimbo config).calls env s =
        [.ownStatus, .ownRecoveryEvents, .log (.pending " waiting in limbo"),
          .scheduleSelf config.matchRetryPeriod] := by
      simp [calls, postpone, Act.log, reply]
    rw [calls_tryCatch_bind_ok passed, posted, ← quiet_after_limbo_iff config env s]
    simp [effects, asks]

def jobRequest (checkpoint : Checkpoint) (ad : Ad) : SubmitState Unit :=
  ⟨.jobsubmit, "job", .single, ad, checkpoint, [], 0⟩

def halfEnqueued (listing : Option (List Bytes)) : Answers Unit
  | .ownStatus => .ok (some .ready)
  | .ownRecoveryEvents => .ok [⟨.workloadManager, .enqueued .start⟩]
  | .scan => listing
  | c => Answers.quiet c

theorem halfEnqueued_inLimbo (listing : Option (List Bytes)) :
    FoundInLimbo .sample (halfEnqueued listing) (jobRequest .limbo .empty) :=
  ⟨rfl, rfl, rfl, rfl, _, _, rfl, rfl, rfl⟩

theorem limbo_only_postponed_unreadable : FoundInLimbo .sample (halfEnqueued none)
    (jobRequest .limbo .empty) ∧
    OnlyPostponed .sample (halfEnqueued none) (jobRequest .limbo .empty) := by
  refine ⟨halfEnqueued_inLimbo none, ?_⟩
  apply (limbo_only_postponed_iff _ _ _ (halfEnqueued_inLimbo none)).mpr
  exact ⟨fun _ => LogReply.noConfusion, nofun, rfl, rfl⟩

/-- A job in limbo gets a token and is submitted by the activation that postpones it. -/
theorem limbo_submitted : FoundInLimbo .sample (halfEnqueued (some [])) (jobRequest .limbo .empty) ∧
    effects ((activation .sample).calls (halfEnqueued (some [])) (jobRequest .limbo .empty)) =
      [.log (.pending " waiting in limbo"), .scheduleSelf 600, .create (tmpTokenName .sample 0),
        .rename (tmpTokenName .sample 0) (tokenName .sample 0), .unlinkMaradona, .submit false] :=
  ⟨halfEnqueued_inLimbo (some []), rfl⟩

/-! ### The count a request carries -/

/-- Whatever else happens while the directory has these entries, the request is submitted only
if the number of the token is the count it carries. -/
def SubmittedAtCount (config : Config) (s : SubmitState N) (leaves : List Bytes) : Prop :=
  ∀ env, env .scan = some leaves → ∀ isReplan, .submit isReplan ∈ (activation config).calls env s →
    ∃ n, (firstToken config leaves).bind (tokenNumber config) = some n ∧ s.ad.replansCount = some (n : Int)

theorem submit_in_deliver {isReplan : Bool} (single : s.type = .single)
    (made : .submit isReplan ∈ (activation config).calls env s) :
    ∃ counts t, .submit isReplan ∈ (deliver config counts).calls env t := by
  rcases activation_cases config env s with early | ⟨valid, fresh⟩
  · cases early _ made
  rw [activation_calls valid fresh, tryCatch_process_single single] at made
  have made : .submit isReplan ∈
      (tryCatch (submitSingle config) (handle config)).calls env s := by simpa using made
  rcases mem_calls_tryCatch.mp made with made | ⟨e, t, _, handled⟩
  · rw [submitSingle, mem_calls_bind] at made
    rcases made with early | ⟨_, t, _, made⟩
    · cases leaveLimbo_only.of_mem early
    rcases mem_calls_bind.mp made with early | ⟨counts, u, _, made⟩
    · cases retryCounts_only.of_mem early
    rcases mem_calls_bind.mp made with early | ⟨_, v, _, made⟩
    · cases stopIfCancelled_only.of_mem early
    exact ⟨counts, v, made⟩
  · rcases handle_only N config e with only | only <;> cases only.of_mem handled

theorem undeterred_reaches (config : Config) (leaves : List Bytes) (single : s.type = .single) :
    ∃ before counts u, u.type = .single ∧ u.command = s.command ∧
      (s.command = .jobresubmit → u.ad = .empty) ∧
      (activation config).calls (undeterred config s leaves) s = before ++
        (tryCatch (deliver config counts) (handle config)).calls (undeterred config s leaves) u := by
  have fresh : expired config (undeterred config s leaves) s = false := by
    unfold expired
    cases expiry : s.ad.expiryTime <;> simp [undeterred, expiry]
  rw [activation_calls rfl fresh, tryCatch_process_single single, submitSingle]
  obtain ⟨u, more, kept⟩ : ∃ u, (leaveLimbo config).result (undeterred config s leaves) s = (.ok (), u) ∧
      u.type = s.type ∧ u.command = s.command := by
    by_cases limbo : s.lastCheckpointing = .limbo
    · exact ⟨{ s with lastCheckpointing := .start }, by simp [leaveLimbo, limbo, undeterred,
        Answers.quiet, doQueryEvents, inLimbo, isIn], rfl, rfl⟩
    · exact ⟨s, by simp [leaveLimbo, limbo], rfl, rfl⟩
  obtain ⟨counts, v, counted, type, command, empty⟩ : ∃ counts v,
      (retryCounts).result (undeterred config s leaves) u = (.ok counts, v) ∧ v.type = u.type ∧
        v.command = u.command ∧ (u.command = .jobresubmit → v.ad = .empty) := by
    have retrieved : (retrieveLbInfo).result (undeterred config s leaves) u =
        (.ok (getRetryCounts []), { u with ad := .empty }) := rfl
    cases asked : u.command with
    | jobsubmit => exact ⟨(0, 0), u, by simp [retryCounts, asked], rfl, asked, by simp⟩
    | jobresubmit =>
      refine ⟨getRetryCounts [], { u with ad := .empty }, ?_, rfl, asked, fun _ => rfl⟩
      rw [← retrieved, retryCounts, result_get_bind, asked]
  have passed : (stopIfCancelled).result (undeterred config s leaves) v = (.ok (), v) := rfl
  rw [calls_tryCatch_bind_ok more, calls_tryCatch_bind_ok counted,
    calls_tryCatch_bind_ok passed]
  refine ⟨.isProxyExpired :: .time :: ((leaveLimbo config).calls (undeterred config s leaves) s ++
      ((retryCounts).calls (undeterred config s leaves) u ++
        (stopIfCancelled).calls (undeterred config s leaves) v)), counts, v,
          type.trans (kept.1.trans single),
    command.trans kept.2, fun resubmit => empty (kept.2.trans resubmit), by simp⟩

theorem undeterred_submits (single : s.type = .single) (command : s.command = .jobsubmit)
    (readable : ∀ token, firstToken config leaves = some token → tokenNumber config token ≠ none) :
    ∃ isReplan, .submit isReplan ∈ (activation config).calls (undeterred config s leaves) s := by
  obtain ⟨before, counts, u, type, kept, _, calls⟩ := undeterred_reaches config leaves single
  obtain ⟨isReplan, made⟩ := undeterred_delivers s type (kept.trans command) counts readable
  exact ⟨isReplan, by simp [calls, mem_calls_tryCatch, made]⟩

/-- A request is submitted with the count of the token, whatever it carries. -/
theorem submitted_at_count_iff (config : Config) (s : SubmitState N) (leaves : List Bytes) (k : Nat)
    (single : s.type = .single) (command : s.command = .jobsubmit)
      (carried : s.ad.replansCount = some (k : Int)) :
    SubmittedAtCount config s leaves ↔ ∃ token, firstToken config leaves = some token ∧
      (tokenNumber config token = some k ∨ tokenNumber config token = none) := by
  constructor
  · intro atCount
    by_contra! other
    have readable (token : Bytes) (first : firstToken config leaves = some token) :
        tokenNumber config token ≠ none := (other token first).2
    obtain ⟨isReplan, made⟩ := undeterred_submits single command readable
    obtain ⟨n, found, same⟩ := atCount _ rfl isReplan made
    obtain ⟨token, first, number⟩ := Option.bind_eq_some_iff.mp found
    obtain rfl : k = n := by simpa [carried] using same
    exact (other token first).1 number
  · rintro ⟨token, first, number | unreadable⟩ env listed isReplan made
    · exact ⟨k, by simp [first, number], carried⟩
    · exfalso
      obtain ⟨counts, t, made⟩ := submit_in_deliver single made
      rcases mem_calls_bind.mp made with early | ⟨n, u, counted, _⟩
      · cases replansByToken_only.of_mem early
      · rcases replansByToken_exits config t listed with ⟨nothing, _⟩ | ⟨_, _, found, readable,
          _⟩ | ⟨e, failed⟩
        · simp [first] at nothing
        · simp [first] at found
          simp [← found, unreadable] at readable
        · simp [failed] at counted

def replanRequest : SubmitState Unit := jobRequest .start { Ad.empty with replansCount := some 1 }

theorem submitted_at_count_one : SubmittedAtCount .sample replanRequest [tokenName .sample 1] :=
  (submitted_at_count_iff _ _ _ 1 rfl rfl rfl).mpr ⟨tokenName .sample 1, by decide, .inl (by decide)⟩

/-- The job has been replanned again before the request is processed, and the request is
submitted as a replan all the same. -/
theorem stale_request_submitted : (firstToken .sample [tokenName .sample 2]).bind
    (tokenNumber .sample) = some 2 ∧
    ¬ SubmittedAtCount .sample replanRequest [tokenName .sample 2] := by
  have number : (firstToken .sample [tokenName .sample 2]).bind (tokenNumber .sample) = some 2 := by decide
  refine ⟨number, fun atCount => ?_⟩
  let env := undeterred .sample replanRequest [tokenName .sample 2]
  have calls : (activation .sample).calls env replanRequest =
      [.isProxyExpired, .time, .cancelTokenExists, .scan, .unlinkMaradona, .submit true] := by rfl
  obtain ⟨n, found, same⟩ := atCount env rfl true (by simp [calls])
  obtain rfl : 2 = n := by simpa [number] using found
  cases same

end Wms.Manager
