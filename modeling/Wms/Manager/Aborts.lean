import Wms.Manager.SingleJob

/-! An abort is the last thing an activation does to its job, unless there are two tokens.

`unrecoverable` returns like any other function. Everywhere but in the scan of the directory it
is the last call of the activation; there the loop goes on, and with it the submission.
-/

set_option autoImplicit false

namespace Wms.Manager

open Lib Dialog List

variable {N : Type} {config : Config} {leaves : Option (List Bytes)}

def Call.isAbort : Call N → Bool
  | .log (.abort _) => true
  | _ => false

/-- The job is delivered, a token is created or renamed, or a resubmission is logged. -/
def Call.isDeed : Call N → Bool
  | .submit _ | .submitCollection | .create _ | .rename _ _ | .log (.resubmissionShallow _)
  | .log (.resubmissionDeep _) => true
  | _ => false

def finalAbort (leaves : Option (List Bytes)) : Monitor (Call N) Reply Bool where
  allows aborted c := aborted = true → c.isDeed = false
  trusts
    | _, .scan, reply => reply = leaves
    | _, _, _ => True
  after aborted c _ := aborted || c.isAbort

/-- Whatever is answered while the directory has these entries, nothing is done after an abort. -/
def AbortIsFinal [DecidableEq N] (config : Config) (s : SubmitState N)
    (leaves : Option (List Bytes)) : Prop :=
  (activation config).Obeys (finalAbort leaves) false s fun _ _ _ => True

def harmless : List Kind := [.guard, .abandon, .postpone, .limbo, .info, .cancel, .search, .graph]

def abortless : List Kind :=
  [.guard, .postpone, .limbo, .info, .cancel, .search, .token, .resubmission, .submission,
    .collection, .graph]

theorem isDeed_of_harmless {c : Call N} (within : Within harmless c) : c.isDeed = false := by
  cases c with
  | log entry => cases entry <;> first | rfl | cases within
  | submit | submitCollection | create | rename => cases within
  | _ => rfl

theorem isAbort_of_abortless {c : Call N} (within : Within abortless c) : c.isAbort = false := by
  cases c with
  | log entry => cases entry <;> first | rfl | cases within
  | _ => rfl

section Watched

variable {α β : Type} {x : Act N α} {s : SubmitState N}

variable {kinds : List Kind}

theorem obeys_of_harmless (only : x.Only (Within kinds)) (subset : kinds ⊆ harmless) (aborted : Bool) :
    x.Obeys (finalAbort leaves) aborted s fun _ _ _ => True := by
  apply only.invariant (fun _ _ c within _ => isDeed_of_harmless (within.weaken subset)) _ trivial s
  exact fun _ _ _ _ _ => trivial

theorem abortless_ignored (subset : kinds ⊆ abortless) : (finalAbort (N := N) leaves).Ignores false
    (Within kinds) :=
  fun _ within => ⟨by rintro ⟨⟩, fun _ => isAbort_of_abortless (within.weaken subset)⟩

theorem obeys_abortless_bind {f : α → Act N β} (only : x.Only (Within kinds)) (subset : kinds ⊆ abortless)
    (rest : ∀ a t, (f a).Obeys (finalAbort leaves) false t fun _ _ _ => True) :
    (x >>= f).Obeys (finalAbort leaves) false s fun _ _ _ => True :=
  only.obeys_bind (abortless_ignored subset) rest fun _ _ => trivial

end Watched

/-- The directory does not make the scan abort the job, or the scan is left by an exception. -/
def ScanIsSafe (config : Config) (leaves : List Bytes) : Prop :=
  (leaves.filter (isToken config)).length ≤ 1 ∨
    ∃ token, firstToken config leaves = some token ∧ tokenNumber config token = none

/-! ### Safe directories -/

section Safe

variable {s : SubmitState N} {listing : List Bytes}

/-- The scan of a safe directory returns only if it has aborted nothing. -/
theorem replansByToken_obeys (safe : ∀ listing ∈ leaves, ScanIsSafe config listing) :
    (replansByToken config).Obeys (finalAbort leaves) false s fun aborted outcome _ =>
      outcome.isOk = true → aborted = false := by
  simp only [replansByToken, findToken, bind_bind]
  refine .asks (by rintro ⟨⟩) fun reply trusted => ?_
  obtain rfl : reply = leaves := trusted
  change Obeys _ _ false _ _
  cases reply with
  | none => simp
  | some listing =>
    have safe := safe listing rfl
    unfold ScanIsSafe firstToken at safe
    dsimp only
    cases found : listing.dropWhile fun leaf => !isToken config leaf with
    | nil => simp
    | cons token others =>
      simp only [found, head?_cons] at safe
      simp only [bind_bind]
      rcases safe with one | ⟨_, ⟨⟩, unreadable⟩
      · -- the first token is the only one
        simp only [complainAbout_quiet (no_further_token one found), obeys_bind, obeys_pure]
        cases tokenNumber config token <;> simp
      · -- whatever has been aborted, the number of the token raises an exception
        refine (obeys_of_harmless (complainAbout_plain _ others).only (by decide) false).bind ?_ ?_
        · simp [unreadable, Except.isOk, Except.toBool]
        · simp [Except.isOk, Except.toBool]

theorem submitSingle_obeys (safe : ∀ listing ∈ leaves, ScanIsSafe config listing) :
    (submitSingle config).Obeys (finalAbort leaves) false s fun _ _ _ => True := by
  refine obeys_abortless_bind leaveLimbo_only (by decide) fun _ _ => ?_
  refine obeys_abortless_bind retryCounts_only (by decide) fun counts _ => ?_
  refine obeys_abortless_bind stopIfCancelled_only (by decide) fun _ _ => ?_
  refine (replansByToken_obeys safe).bind (fun _ n _ returned => ?_) fun _ _ _ _ => trivial
  obtain rfl := returned rfl
  refine obeys_abortless_bind (prepare_only counts n) (by decide) fun isReplan _ => ?_
  refine obeys_abortless_bind (placeToken_plain n _ isReplan).only (by decide) fun _ _ => ?_
  exact ((submit_only isReplan).obeys (abortless_ignored (by decide)) _).mono fun _ _ _ _ => trivial

theorem handle_obeys (e : Exit) (aborted : Bool) :
    (handle config e : Act N Unit).Obeys (finalAbort leaves) aborted s fun _ _ _ => True := by
  rcases handle_only N config e with only | only
  · exact obeys_of_harmless only (by decide) aborted
  · exact obeys_of_harmless only (by decide) aborted

variable [DecidableEq N]

theorem process_obeys (safe : s.type = .single → ∀ listing ∈ leaves, ScanIsSafe config listing) :
    (process config).Obeys (finalAbort leaves) false s fun _ _ _ => True := by
  rw [process]
  refine .gets ?_
  cases type : s.type with
  | dag graph => exact obeys_of_harmless (submitDag_only graph) (by decide) false
  | collection nodes =>
    exact (submitCollection_only.obeys (abortless_ignored (by decide)) _).mono fun _ _ _ _ => trivial
  | single => exact submitSingle_obeys (safe type)

theorem activation_obeys_finalAbort (safe : s.type = .single → ∀ listing ∈ leaves,
    ScanIsSafe config listing) :
    AbortIsFinal config s leaves := by
  have abandons (reason : String) : (unrecoverable reason).Obeys
      (finalAbort leaves) false s fun _ _ _ => True :=
    obeys_of_harmless (unrecoverable_plain reason).only (by decide) false
  have asksTheTime : (isRequestExpired config).Obeys (finalAbort leaves) false s fun aborted _ t =>
      aborted = false ∧ t = s := by
    refine .gets (.asks (by rintro ⟨⟩) fun now _ => ?_)
    cases s.ad.expiryTime <;> exact ⟨rfl, rfl⟩
  unfold AbortIsFinal activation
  refine .asks (by rintro ⟨⟩) fun reply _ => ?_
  rcases reply with (_ | _) | _ | _
  · exact abandons _
  · exact abandons _
  · refine asksTheTime.bind ?_ fun _ _ _ _ => trivial
    rintro _ late _ ⟨rfl, rfl⟩
    refine .branch (fun _ => abandons _) fun _ => obeys_tryCatch.mpr ?_
    refine (process_obeys safe).mono fun aborted outcome _ _ => ?_
    cases outcome with
    | ok _ => trivial
    | error e => exact handle_obeys e aborted
  · exact abandons _

end Safe

/-! ### Unsafe directories -/

section Unsafe

variable {s : SubmitState N} {listing : List Bytes}

theorem undeterred_trusted (aborted : Bool) (c : Call N) :
    (finalAbort (some listing)).trusts aborted c (undeterred config s listing c) := by
  cases c <;> trivial

theorem follow_aborted {env : Answers N} {calls : List (Call N)} {reason : String} (aborted : Bool)
    (made : .log (.abort reason) ∈ calls) : (finalAbort leaves).follow env aborted calls = true := by
  have stays (calls : List (Call N)) : (finalAbort leaves).follow env true calls = true := by
    induction calls with
    | nil => rfl
    | cons c calls ih => exact ih
  induction calls generalizing aborted with
  | nil => cases made
  | cons c calls ih =>
    rcases mem_cons.mp made with rfl | later
    · change (finalAbort leaves).follow env (aborted || true) calls = true
      rw [Bool.or_true]
      exact stays calls
    · exact ih _ later

variable {u : SubmitState N}

theorem unrecoverable_logs {env : Answers N} (single : u.type = .single) (reason : String) :
    .log (.abort reason) ∈ (unrecoverable reason).calls env u := by
  simp [unrecoverable, single, Act.log]

theorem complainAbout_aborts (single : u.type = .single) {others : List Bytes}
    (another : ∃ leaf ∈ others, isToken config leaf = true) :
    ∃ reason, .log (.abort reason) ∈ (complainAbout config others).calls
      (undeterred config s listing) u := by
  induction others with
  | nil => simp at another
  | cons leaf others ih =>
    unfold complainAbout
    split_ifs with token
    · exact ⟨_, mem_calls_bind.mpr (.inl (unrecoverable_logs single _))⟩
    · exact ih (by simpa [token] using another)

/-- With a second token, the scan aborts the job and returns the number of the first. -/
theorem replansByToken_aborts (single : u.type = .single)
    (two : 1 < (listing.filter (isToken config)).length)
    (readable : ∀ token, firstToken config listing = some token → tokenNumber config token ≠ none) :
    (∃ reason, .log (.abort reason) ∈ (replansByToken config).calls (undeterred config s listing) u) ∧
      ∃ n, (replansByToken config).result (undeterred config s listing) u = (.ok n, u.withCount n) := by
  have listed : (undeterred config s listing) .scan = some listing := rfl
  obtain ⟨token, others, found⟩ : ∃ token others,
      (listing.dropWhile fun leaf => !isToken config leaf) = token :: others := by
    rw [← filter_dropWhile_not] at two
    cases found : listing.dropWhile fun leaf => !isToken config leaf with
    | nil => simp [found] at two
    | cons token others => exact ⟨token, others, rfl⟩
  have another : ∃ leaf ∈ others, isToken config leaf = true := by
    rw [← filter_dropWhile_not, found] at two
    by_contra! nothing
    have empty : others.filter (isToken config) = [] := filter_eq_nil_iff.mpr nothing
    rw [filter_cons, empty] at two
    split_ifs at two <;> simp at two
  constructor
  · obtain ⟨reason, aborted⟩ := complainAbout_aborts single another
    refine ⟨reason, ?_⟩
    simp only [replansByToken, findToken, bind_bind, calls_ask_bind, listed, found]
    exact mem_cons_of_mem _ (mem_calls_bind.mpr (.inl aborted))
  · obtain ⟨_, _, counted, _⟩ := undeterred_counts s single readable
    rcases replansByToken_exits config u listed with ⟨nothing, _⟩ | ⟨_, n, _, _, result⟩ | ⟨e, failed⟩
    · simp [firstToken, found] at nothing
    · exact ⟨n, result⟩
    · simp [failed] at counted

theorem undeterred_deed (counts : Nat × Nat) (n : Nat)
    (resubmit : u.command = .jobresubmit → u.ad = .empty) :
    ∃ c, c.isDeed = true ∧ c ∈ (do
      let isReplan ← prepare config counts n
      placeToken config n isReplan
      submit isReplan : Act N Unit).calls (undeterred config s listing) (u.withCount n) := by
  cases command : u.command with
  | jobsubmit =>
    have asked : (u.withCount n).command = .jobsubmit := command
    obtain ⟨isReplan, made⟩ := undeterred_finishes listing s asked counts (.inr rfl)
    exact ⟨_, rfl, made⟩
  | jobresubmit =>
    refine ⟨.rename (tokenName config n) (tmpTokenName config n), rfl, ?_⟩
    refine mem_calls_bind.mpr (.inl (mem_calls_bind.mpr (.inr ⟨_, _, rfl, ?_⟩)))
    have enabled : shallowResubmissionIsEnabled (u.withCount n).ad = true := by
      simp [SubmitState.withCount, resubmit command, shallowResubmissionIsEnabled,
        getJobShallowCount, Ad.empty]
    have asked : (u.withCount n).command = .jobresubmit := command
    simp [asked, resubmission, enabled]

variable [DecidableEq N]

theorem AbortIsFinal.no_deed (final : AbortIsFinal config s (some listing))
    {before middle after : List (Call N)}
    (split : (activation config).calls (undeterred config s listing) s = before ++ (middle ++ after))
    {reason : String} (aborted : .log (.abort reason) ∈ middle) {c : Call N} (made : c ∈ after) :
    c.isDeed = false := by
  obtain ⟨first, last, rfl⟩ := append_of_mem made
  have allowed := Obeys.allows_at final undeterred_trusted
    (split.trans (by simp) : _ = (before ++ (middle ++ first)) ++ c :: last)
  have earlier : .log (.abort reason) ∈ before ++ (middle ++ first) := by simp [aborted]
  exact allowed (follow_aborted _ earlier)

/-- An abort ends what an activation does to its job exactly when the job is not a single one or
its directory holds at most one token, or the first has no number. -/
theorem abort_is_final_iff (config : Config) (s : SubmitState N) (leaves : Option (List Bytes)) :
    AbortIsFinal config s leaves ↔ (s.type = .single → ∀ listing ∈ leaves, ScanIsSafe config listing) := by
  refine ⟨?_, activation_obeys_finalAbort⟩
  rintro final single listing rfl
  by_contra found
  obtain ⟨two, readable⟩ := not_or.mp found
  obtain ⟨before, counts, u, type, command, resubmit, calls⟩ := undeterred_reaches config listing single
  obtain ⟨⟨reason, aborted⟩, n, counted⟩ := replansByToken_aborts (s := s) type (not_le.mp two)
    fun token first unreadable => readable ⟨token, first, unreadable⟩
  obtain ⟨c, deed, made⟩ := undeterred_deed counts n fun asked => resubmit (command.symm.trans asked)
  rw [deliver, calls_tryCatch_bind_ok counted] at calls
  have nothing := final.no_deed calls aborted (mem_calls_tryCatch.mpr (.inl made))
  rw [deed] at nothing
  cases nothing

end Unsafe

/-- Two tokens in the directory: the job is aborted, a token is made, and the job is submitted. -/
theorem aborted_and_submitted : (activation .sample).calls
        (undeterred .sample (jobRequest .start .empty) [tokenName .sample 0, tokenName .sample 1])
        (jobRequest .start .empty) = [.isProxyExpired, .time, .cancelTokenExists, .scan,
        .log (.abort "token_1: at least two shallow resubmit tokens are present at the same time!"),
        .unlinkCancelToken, .fileExists (tmpTokenName .sample 0), .create (tmpTokenName .sample 0),
        .rename (tmpTokenName .sample 0) (tokenName .sample 0), .unlinkMaradona, .submit false] ∧
      ¬ AbortIsFinal .sample (jobRequest .start .empty)
        (some [tokenName .sample 0, tokenName .sample 1]) := by
  have calls : (activation .sample).calls
      (undeterred .sample (jobRequest .start .empty) [tokenName .sample 0, tokenName .sample 1])
      (jobRequest .start .empty) = [.isProxyExpired, .time, .cancelTokenExists, .scan] ++
        ([.log (.abort "token_1: at least two shallow resubmit tokens are present at the same time!")] ++
        [.unlinkCancelToken, .fileExists (tmpTokenName .sample 0), .create (tmpTokenName .sample 0),
          .rename (tmpTokenName .sample 0) (tokenName .sample 0), .unlinkMaradona,
            .submit false]) := by rfl
  refine ⟨calls, fun final => ?_⟩
  have nothing := final.no_deed calls (mem_singleton_self _) (c := .submit false) (by simp)
  cases nothing

end Wms.Manager
