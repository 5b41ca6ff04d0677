import Wms.Manager.Replanner

/-! What a pass of the replanner does with the number of a token and with its request.

The token is renamed before the request is delivered, and the test that follows the rename reads
an error number that a rename without an error leaves as it was. So a number can be used up
without a request, and the pass that follows a failed delivery goes on from the number of the
renamed token.
-/

set_option autoImplicit false

namespace Wms.Manager.Replan

open Lib Dialog List

variable {config : Config} {answers : ReplanAnswers}

def Advanced (config : Config) (answers : ReplanAnswers) (n : Nat) : Prop :=
  ∃ token, tokenNumber config token = some n ∧
    .rename token (plusOne token n) ∈ (pass config).calls answers () ∧
    answers (.rename token (plusOne token n)) = none

def Attempted (config : Config) (answers : ReplanAnswers) (count : Nat) : Prop :=
  .deliver count ∈ (pass config).calls answers ()

/-- A number is taken exactly for a request that is delivered with it, and the next pass tries
again what was not delivered. -/
structure KeepsPace (config : Config) (answers next : ReplanAnswers) : Prop where
  advanced : ∀ n, Advanced config answers n ↔ Attempted config answers (n + 1)
  retried : ∀ n, Attempted config answers (n + 1) → answers (.deliver (n + 1)) = false →
    Attempted config next (n + 1)

/-! ### What lets a pass go on -/

def Logs (answers : ReplanAnswers) (entry : ReplanLog) : Prop :=
  ∀ code, answers (.log entry) ≠ .noContext code

def twoTokens (leaf : Bytes) : ReplanLog :=
  .abort (String.ofList leaf ++ ": two shallow resubmit tokens are present at the same time!")

/-- The pass gets to the token, the first one listed, and reads its number. -/
structure Picks (config : Config) (answers : ReplanAnswers) (token : Bytes) (n : Nat) : Prop where
  asked : ∃ ad, answers .originalJdl = some (true, ad) ∧ shallowResubmissionIsEnabled ad = true
  context : answers .createContext = .ok ()
  cream : ∃ events, doQueryEvents (answers .matchedEvents) false = .ok events ∧
    isCreamCe (lastMatchedCeid events) = true
  first : ∃ leaves rest, answers .scan = some leaves ∧
    leaves.dropWhile (fun leaf => !isToken config leaf) = token :: rest ∧
    ∀ leaf ∈ rest, isToken config leaf = true → Logs answers (twoTokens leaf)
  number : tokenNumber config token = some n

structure Prepared (config : Config) (answers : ReplanAnswers) (n : Nat) : Prop where
  aborts : config.maxReplansCount ≤ (n : Int) → Logs answers (.abort hitMax)
  input : answers .openInput = .ok ()
  resubmission : Logs answers .resubmissionShallow
  enqueued : Logs answers .enqueuedStart

/-! ### The calls of a pass -/

theorem result_bind_unit {β : Type} {x : Replan Unit} {f : Unit → Replan β} {b : β} :
    (x >>= f).result answers () = (.ok b, ()) ↔
      x.result answers () = (.ok (), ()) ∧ (f ()).result answers () = (.ok b, ()) := by
  rw [result_bind_eq_ok]
  constructor
  · rintro ⟨_, _, first, second⟩
    exact ⟨first, second⟩
  · rintro ⟨first, second⟩
    exact ⟨_, _, first, second⟩

theorem log_result (entry : ReplanLog) : (log entry).result answers () = (.ok (), ()) ↔
    Logs answers entry := by
  rw [log, result_ask_bind, Logs]
  cases answers (.log entry) <;> simp

theorem complainAbout_result (leaves : List Bytes) : (complainAbout config leaves).result answers
    () = (.ok (), ()) ↔
      ∀ leaf ∈ leaves, isToken config leaf = true → Logs answers (twoTokens leaf) := by
  induction leaves with
  | nil => exact iff_of_true rfl nofun
  | cons leaf rest ih =>
    rw [forall_mem_cons, ← ih, complainAbout]
    split_ifs with token
    · rw [result_bind_unit, ← log_result]
      simp only [token, true_imp_iff]
      rfl
    · simp [token]

theorem findToken_result (token : Bytes) (n : Nat) : (findToken config).result answers
    () = (.ok (token, n), ()) ↔
      (∃ leaves rest, answers .scan = some leaves ∧
        leaves.dropWhile (fun leaf => !isToken config leaf) = token :: rest ∧
        ∀ leaf ∈ rest, isToken config leaf = true → Logs answers (twoTokens leaf)) ∧
          tokenNumber config token = some n := by
  rw [findToken, result_ask_bind]
  cases answers .scan with
  | none => simp
  | some leaves =>
    simp only [Option.some.injEq, exists_and_left, exists_eq_left']
    cases leaves.dropWhile fun leaf => !isToken config leaf with
    | nil => simp
    | cons first rest =>
      simp only [result_bind_unit, complainAbout_result, List.cons.injEq, and_assoc, exists_and_left,
        exists_eq_left']
      cases number : tokenNumber config first with
      | none =>
        refine iff_of_false (fun found => ?_) ?_
        · cases found.2
        · rintro ⟨rfl, -, number'⟩
          rw [number] at number'
          cases number'
      | some k =>
        constructor
        · rintro ⟨quiet, found⟩
          cases found
          exact ⟨rfl, quiet, number⟩
        · rintro ⟨rfl, quiet, number'⟩
          rw [number] at number'
          cases number'
          exact ⟨quiet, rfl⟩

theorem passes {x : Replan Unit} {fact : Prop} (tests : ReplanRun.Tests answers x fact) :
    x.result answers () = (.ok (), ()) ↔ fact := by
  have outcome := ((tests (.start ∅)).run fun _ _ => rfl).2
  rw [← outcome]
  exact ⟨fun result => congrArg Prod.fst result, fun result => Prod.ext result rfl⟩

section Aside

variable {α β : Type} {x : Replan α} {c : ReplanCall}

theorem mem_calls_aside {f : α → Replan β} (aside : x.Only Aside) (other : ¬ Aside c) :
    c ∈ (x >>= f).calls answers () ↔ ∃ a, x.result answers () = (.ok a, ()) ∧
      c ∈ (f a).calls answers () := by
  rw [mem_calls_bind]
  constructor
  · rintro (early | ⟨a, _, result, late⟩)
    · exact absurd (aside.of_mem early) other
    · exact ⟨a, result, late⟩
  · rintro ⟨a, result, late⟩
    exact .inr ⟨a, (), result, late⟩

theorem mem_calls_test {f : Unit → Replan β} {x : Replan Unit} {fact : Prop} (aside : x.Only Aside)
    (goesOn : x.result answers () = (.ok (), ()) ↔ fact) (other : ¬ Aside c) :
    c ∈ (x >>= f).calls answers () ↔ fact ∧ c ∈ (f ()).calls answers () := by
  rw [mem_calls_aside aside other, ← goesOn]
  constructor
  · rintro ⟨_, result, late⟩
    exact ⟨result, late⟩
  · rintro ⟨result, late⟩
    exact ⟨_, result, late⟩

end Aside

theorem enqueue_acts {n : Nat} {c : ReplanCall} (other : ¬ Aside c) : c ∈ (enqueue n).calls answers () ↔
    c = .deliver (n + 1) ∧ answers .openInput = .ok () ∧ Logs answers .resubmissionShallow ∧
      Logs answers .enqueuedStart := by
  have opens : c ≠ .openInput := by
    rintro rfl
    exact other trivial
  have logged (entry : ReplanLog) : c ∉ (log entry).calls answers () :=
    fun made => other ((log_aside entry).of_mem made)
  rw [enqueue, calls_ask_bind, mem_cons, or_iff_right opens]
  cases answers .openInput with
  | error e => exact iff_of_false not_mem_nil fun acts => by cases acts.2.1
  | ok _ =>
    dsimp only
    rw [mem_calls_test (log_aside _) (log_result _) other,
      mem_calls_test (log_aside _) (log_result _) other,
      calls_ask_bind, mem_cons]
    split_ifs
    · rw [or_iff_left (logged _)]
      tauto
    · rw [or_iff_left (logged _)]
      tauto

theorem stopAtMax_result {token : Bytes} {n : Nat} : (stopAtMax config token n).result answers
    () = (.ok (), ()) ↔
      (config.maxReplansCount ≤ (n : Int) → Logs answers (.abort hitMax)) := by
  unfold stopAtMax
  split_ifs with reached
  · rw [result_ask_bind, log_result]
    exact ⟨fun logs _ => logs, fun logs => logs reached⟩
  · exact iff_of_true rfl fun high => absurd high reached

theorem useToken_acts {token : Bytes} {n : Nat} {c : ReplanCall} (other : ¬ Aside c) :
    c ∈ (useToken config token n).calls answers () ↔ c = .rename token (plusOne token n) ∨
      c = .deliver (n + 1) ∧ ReplanRun.Moves answers token n ∧ Prepared config answers n := by
  have reads : c ≠ .errno := by
    rintro rfl
    exact other trivial
  rw [useToken, renameToken]
  simp only [bind_bind]
  rw [calls_ask_bind, mem_cons]
  refine or_congr_right ?_
  cases renamed : answers (.rename token (plusOne token n)) with
  | some e => exact iff_of_false not_mem_nil fun made => by cases renamed.symm.trans made.2.1.renamed
  | none =>
    dsimp only
    rw [bind_bind, calls_ask_bind, mem_cons, or_iff_right reads]
    split_ifs with stale
    · exact iff_of_false not_mem_nil fun made => made.2.1.errno stale
    · change c ∈ calls answers (stopAtMax config token n >>= fun _ => enqueue n) () ↔ _
      rw [mem_calls_test (stopAtMax_aside _ _) stopAtMax_result other, enqueue_acts other]
      constructor
      · rintro ⟨aborts, rfl, input, resubmission, enqueued⟩
        exact ⟨rfl, ⟨renamed, stale⟩, aborts, input, resubmission, enqueued⟩
      · rintro ⟨rfl, -, prepared⟩
        exact ⟨prepared.aborts, rfl, prepared.input, prepared.resubmission, prepared.enqueued⟩

theorem findToken_only : (findToken config).Only fun c => c = .scan ∨ Aside c := by
  refine (Only.ask (.inl rfl)).bind fun listing => ?_
  cases listing with
  | none => exact .throw _
  | some leaves =>
    dsimp only
    split
    · exact .throw _
    · refine ((complainAbout_aside _).mono fun _ => .inr).bind fun _ => ?_
      split
      · exact .throw _
      · exact .pure _

/-- A pass renames and delivers only what it does with the token it picks. -/
theorem pass_acts (c : ReplanCall) (other : ¬ Aside c) (act : c ≠ .scan) :
    c ∈ (pass config).calls answers () ↔ ∃ token n, Picks config answers token n ∧
      (c = .rename token (plusOne token n) ∨
        c = .deliver (n + 1) ∧ ReplanRun.Moves answers token n ∧ Prepared config answers n) := by
  rw [pass, mem_calls_test retrieveAd_aside (passes ReplanRun.retrieveAd_tests) other,
    mem_calls_test createContext_aside (passes ReplanRun.createContext_tests) other,
    mem_calls_test checkCe_aside (passes ReplanRun.checkCe_tests) other, mem_calls_bind]
  constructor
  · rintro ⟨asked, context, cream, early | ⟨⟨token, n⟩, _, found, late⟩⟩
    · exact absurd (findToken_only.of_mem early) (not_or_intro act other)
    · obtain ⟨first, number⟩ := (findToken_result token n).mp found
      exact ⟨token, n, ⟨asked, context, cream, first, number⟩, (useToken_acts other).mp late⟩
  · rintro ⟨token, n, picks, late⟩
    have found := (findToken_result token n).mpr ⟨picks.first, picks.number⟩
    exact ⟨picks.asked, picks.context, picks.cream,
      .inr ⟨(token, n), (), found, (useToken_acts other).mpr late⟩⟩

/-! ### Numbers and requests -/

theorem advanced_iff {n : Nat} : Advanced config answers n ↔
    ∃ token, Picks config answers token n ∧ answers (.rename token (plusOne token n)) = none := by
  have renames (token : Bytes) := @pass_acts config answers (.rename token (plusOne token n)) id nofun
  constructor
  · rintro ⟨token, number, made, renamed⟩
    obtain ⟨token', n', picks, same | ⟨deliver, -⟩⟩ := (renames token).mp made
    · injection same with same
      subst same
      cases number.symm.trans picks.number
      exact ⟨token, picks, renamed⟩
    · cases deliver
  · rintro ⟨token, picks, renamed⟩
    exact ⟨token, picks.number, (renames token).mpr ⟨token, n, picks, .inl rfl⟩, renamed⟩

theorem attempted_iff {n : Nat} : Attempted config answers (n + 1) ↔
    ∃ token, Picks config answers token n ∧ ReplanRun.Moves answers token n ∧
      Prepared config answers n := by
  rw [Attempted, pass_acts (.deliver (n + 1)) id nofun]
  constructor
  · rintro ⟨token, n', picks, rename | ⟨same, moves, prepared⟩⟩
    · cases rename
    · cases same
      exact ⟨token, picks, moves, prepared⟩
  · rintro ⟨token, picks, moves, prepared⟩
    exact ⟨token, n, picks, .inr ⟨rfl, moves, prepared⟩⟩

/-- The pass and the next one keep pace exactly if, once the token is renamed, the error number
is not by chance the one of a missing file, nothing is thrown before the delivery, and the
delivery succeeds or the next pass picks a token that has the old number and gets as far. -/
theorem keepsPace_iff (config : Config) (answers next : ReplanAnswers) : KeepsPace config answers next ↔
    ∀ token n, Picks config answers token n → answers (.rename token (plusOne token n)) = none →
      answers .errno ≠ .noEntry ∧ Prepared config answers n ∧ (answers (.deliver (n + 1)) = true ∨
        ∃ other, Picks config next other n ∧ ReplanRun.Moves next other n ∧ Prepared config next n) := by
  constructor
  · intro keeps token n picks renamed
    have attempted := (keeps.advanced n).mp (advanced_iff.mpr ⟨token, picks, renamed⟩)
    obtain ⟨token', picks', moves, prepared⟩ := attempted_iff.mp attempted
    refine ⟨moves.errno, prepared, ?_⟩
    cases delivered : answers (.deliver (n + 1)) with
    | true => exact .inl rfl
    | false => exact .inr (attempted_iff.mp (keeps.retried n attempted delivered))
  · intro holds
    refine ⟨fun n => ⟨fun advanced => ?_, fun attempted => ?_⟩, fun n attempted failed => ?_⟩
    · obtain ⟨token, picks, renamed⟩ := advanced_iff.mp advanced
      obtain ⟨errno, prepared, -⟩ := holds token n picks renamed
      exact attempted_iff.mpr ⟨token, picks, ⟨renamed, errno⟩, prepared⟩
    · obtain ⟨token, picks, moves, -⟩ := attempted_iff.mp attempted
      exact advanced_iff.mpr ⟨token, picks, moves.renamed⟩
    · obtain ⟨token, picks, moves, -⟩ := attempted_iff.mp attempted
      rcases (holds token n picks moves.renamed).2.2 with delivered | again
      · rw [failed] at delivered
        cases delivered
      · exact attempted_iff.mpr again

def stale (leaves : List Bytes) : ReplanAnswers
  | .errno => .noEntry
  | c => ReplanRun.willing leaves c

def refused (leaves : List Bytes) : ReplanAnswers
  | .deliver _ => false
  | c => ReplanRun.willing leaves c

/-- A number is taken without a request, and after a failed delivery the next pass has another
number in its request. -/
theorem falls_out_of_pace :
    (Advanced .sample (stale [tokenName .sample 0]) 0 ∧
      ¬ Attempted .sample (stale [tokenName .sample 0]) 1) ∧
    (Attempted .sample (refused [tokenName .sample 0]) 1 ∧
      ¬ Attempted .sample (ReplanRun.willing [tokenName .sample 1]) 1 ∧
      Attempted .sample (ReplanRun.willing [tokenName .sample 1]) 2) ∧
    ¬ KeepsPace .sample (stale [tokenName .sample 0]) (ReplanRun.willing [tokenName .sample 1]) ∧
    ¬ KeepsPace .sample (refused [tokenName .sample 0]) (ReplanRun.willing [tokenName .sample 1]) := by
  have taken : Advanced .sample (stale [tokenName .sample 0]) 0 :=
    ⟨tokenName .sample 0, by decide, by decide, rfl⟩
  have unsaid : ¬ Attempted .sample (stale [tokenName .sample 0]) 1 := by
    unfold Attempted
    decide
  have tried : Attempted .sample (refused [tokenName .sample 0]) 1 := by
    unfold Attempted
    decide
  have other : ¬ Attempted .sample (ReplanRun.willing [tokenName .sample 1]) 1 := by
    unfold Attempted
    decide
  have later : Attempted .sample (ReplanRun.willing [tokenName .sample 1]) 2 := by
    unfold Attempted
    decide
  exact ⟨⟨taken, unsaid⟩, ⟨tried, other, later⟩, fun keeps => unsaid ((keeps.advanced 0).mp taken),
    fun keeps => other (keeps.retried 0 tried rfl)⟩

/-- Where the job has one token, which the manager has named and whose number a float can tell
from the next, no later pass picks the old number in what a pass leaves of the directory. -/
theorem old_number_not_picked {dir more : Finset Bytes} {token other : Bytes} {n : Nat}
    {next : ReplanAnswers}
    (own : ReplanRun.OwnToken config dir) (small : n < 2 ^ 24) (isFirst : isToken config token = true)
    (inDir : token ∈ dir) (inside : more ⊆ insert (plusOne token n) (dir.erase token))
    (reads : ReplanRun.Reads more next) : ¬ Picks config next other n := by
  intro picks
  obtain ⟨leaves, rest, listed, found, -⟩ := picks.first
  have sublist : (other :: rest).Sublist leaves := found ▸ dropWhile_sublist _
  have isOther : isToken config other = true := by
    have := head?_dropWhile_not (fun leaf => !isToken config leaf) leaves
    simpa [found] using this
  unfold ReplanRun.Reads at reads
  simp only [listed] at reads
  have member : other ∈ more := reads.2 ▸ mem_toFinset.mpr (sublist.subset (by simp))
  obtain ⟨m, named⟩ := own.2 token inDir isFirst
  rcases Finset.mem_insert.mp (inside member) with rfl | old
  · have number := picks.number
    rw [ReplanRun.plusOne_eq named, IsTokenOf.tokenNumber (.inl rfl), toFloat_exact (by omega)] at number
    injection number with number
    omega
  · obtain ⟨different, inDir'⟩ := Finset.mem_erase.mp old
    exact different (own.1 other inDir' token inDir isOther isFirst)

theorem first_number_not_picked : ¬ Picks .sample (ReplanRun.willing [tokenName .sample 1])
    (tokenName .sample 1) 0 :=
  old_number_not_picked (ReplanRun.ownToken_singleton .sample 0) (by decide) (by decide)
    (Finset.mem_singleton_self _)
    Finset.Subset.rfl (by decide)

end Wms.Manager.Replan
