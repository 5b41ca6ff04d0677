import Wms.Lib.Pool
import Wms.Lib.Transition
import Wms.Manager.SubmitRequest
import Wms.Manager.Submission

/-! The replanner (`replanner.cpp`).

A pass over a job that has been waiting for long in the queue of a CREAM element takes its
token, renames it to the next number and writes a new submit request for the job. The number
of requests is limited through the number in the name of the token.
-/

set_option autoImplicit false

namespace Wms.Manager

open Lib Dialog List

inductive ReplanLog where
  | abort (reason : String)
  | resubmissionShallow
  | enqueuedStart
  | enqueuedFail
  | enqueuedOk
  deriving DecidableEq, Repr

inductive ReplanCall where
  | originalJdl
  | createContext
  | matchedEvents
  | scan
  | rename (source target : Bytes)
  | errno
  | unlink (file : Bytes)
  | log (entry : ReplanLog)
  | openInput
  | deliver (replansCount : Nat)
  deriving DecidableEq

@[reducible] def ReplanReply : ReplanCall → Type
  -- whether the feedback is enabled and the description; nothing for any exception
  | .originalJdl => Option (Bool × Ad)
  | .createContext | .openInput => Except Thrown Unit
  | .matchedEvents => Answer
  | .scan => Option (List Bytes)
  | .rename _ _ => Option FsErrno
  | .errno => FsErrno
  | .unlink _ => Unit
  | .log _ => LogReply
  | .deliver _ => Bool

abbrev Replan := Dialog ReplanCall ReplanReply Unit Exit

abbrev ReplanAnswers := (c : ReplanCall) → ReplanReply c

/-! ### A pass -/

namespace Replan

abbrev ask (c : ReplanCall) : Replan (ReplanReply c) := Dialog.ask c

abbrev throw {α : Type} (e : Exit) : Replan α := Dialog.throw e

def log (entry : ReplanLog) : Replan Unit := do
  match ← ask (.log entry) with
  | .noContext code => throw (.thrown (.cannotCreateLBContext code))
  | _ => pure ()

/-- Only jobs that ask for the feedback and may be resubmitted without having run. -/
def retrieveAd : Replan Unit := do
  match ← ask .originalJdl with
  | none => throw .returned
  | some (feedback, ad) =>
    if feedback && shallowResubmissionIsEnabled ad then pure () else throw .returned

def createContext : Replan Unit := do
  match ← ask .createContext with
  | .ok _ => pure ()
  | .error (.cannotCreateLBContext _) => throw .returned
  | .error e => throw (.thrown e)

/-- `get_last_matched_ceid`; the events are matches of the workload manager. -/
def lastMatchedCeid (events : List LbEvent) : Bytes :=
  match events.getLast? with
  | some ⟨_, .matched destId⟩ => destId
  | _ => []

def isCreamCe (ceid : Bytes) : Bool :=
  (ceid.drop 1).tails.any fun rest =>
    ['/', 'c', 'r', 'e', 'a', 'm', '-'].isPrefixOf rest && decide (7 < rest.length)

def checkCe : Replan Unit := do
  match doQueryEvents (← ask .matchedEvents) false with
  | .error e => throw (.thrown e.thrown)
  | .ok events => if isCreamCe (lastMatchedCeid events) then pure () else throw .returned

def complainAbout (config : Config) : List Bytes → Replan Unit
  | [] => pure ()
  | leaf :: rest => do
    if isToken config leaf then
      log (.abort (String.ofList leaf ++ ": two shallow resubmit tokens are present at the same time!"))
    complainAbout config rest

def findToken (config : Config) : Replan (Bytes × Nat) := do
  match ← ask .scan with
  | none => throw .returned
  | some leaves =>
    match leaves.dropWhile fun leaf => !isToken config leaf with
    | [] => throw .returned
    | token :: rest => do
      complainAbout config rest
      match tokenNumber config token with
      | none => throw .returned
      | some n => pure (token, n)

def plusOne (token : Bytes) (n : Nat) : Bytes :=
  (token.reverse.dropWhile (· ≠ '_')).reverse ++ numeral 10 1 (n + 1)

/-- The job is held to be running when the error number says that there is no such file, also
when it says so of an earlier call. -/
def renameToken (token : Bytes) (n : Nat) : Replan Unit := do
  match ← ask (.rename token (plusOne token n)) with
  | some _ => throw .returned
  | none => if (← ask .errno) = .noEntry then throw .returned else pure ()

def hitMax : String := "hit max number of replans"

/-- The unlinked name is the one the token had before it was renamed, and the pass goes on. -/
def stopAtMax (config : Config) (token : Bytes) (n : Nat) : Replan Unit := do
  if (n : Int) ≥ config.maxReplansCount then do
    ask (.unlink token)
    log (.abort hitMax)
  else pure ()

def enqueue (n : Nat) : Replan Unit := do
  match ← ask .openInput with
  | .error e => throw (.thrown e)
  | .ok _ => do
    log .resubmissionShallow
    log .enqueuedStart
    if ← ask (.deliver (n + 1)) then log .enqueuedOk else log .enqueuedFail

def useToken (config : Config) (token : Bytes) (n : Nat) : Replan Unit := do
  renameToken token n
  stopAtMax config token n
  enqueue n

/-- `Replan::operator()` -/
def pass (config : Config) : Replan Unit := do
  retrieveAd
  createContext
  checkCe
  let found ← findToken config
  useToken config found.1 found.2

/-! The blocks that ask and log without touching a file of the job or the input. -/

def Aside : ReplanCall → Prop
  | .scan | .rename _ _ | .deliver _ => False
  | _ => True

theorem log_aside (entry : ReplanLog) : (log entry).Only Aside := by
  refine Only.asks (by trivial) fun reply => ?_
  cases reply with
  | noContext code => exact .throw _
  | _ => exact .pure _

theorem complainAbout_aside {config : Config} (leaves : List Bytes) :
    (complainAbout config leaves).Only Aside := by
  induction leaves with
  | nil => exact .pure _
  | cons leaf rest ih =>
    exact Only.branch ((log_aside _).bind fun _ => ih) ih

theorem retrieveAd_aside : retrieveAd.Only Aside := by
  refine Only.asks (by trivial) fun reply => ?_
  rcases reply with _ | ⟨feedback, ad⟩
  · exact .throw _
  · exact .branch (.pure _) (.throw _)

theorem createContext_aside : createContext.Only Aside := by
  refine Only.asks (by trivial) fun reply => ?_
  split
  · exact .pure _
  · exact .throw _
  · exact .throw _

theorem checkCe_aside : checkCe.Only Aside := by
  refine Only.asks (by trivial) fun reply => ?_
  rcases doQueryEvents reply false with e | events
  · exact .throw _
  · exact .branch (.pure _) (.throw _)

theorem stopAtMax_aside {config : Config} (token : Bytes) (n : Nat) :
    (stopAtMax config token n).Only Aside :=
  .branch (.asks (by trivial) fun _ => log_aside _) (.pure _)

end Replan

/-! ### Passes over one job -/

namespace ReplanRun

structure World where
  dir : Finset Bytes
  delivered : Nat
  aborted : Bool
  reached : Bool
  deliveredSince : Nat

def World.start (dir : Finset Bytes) : World := ⟨dir, 0, false, false, 0⟩

/-- The job takes the token away when it starts, at the latest before a rename that fails. -/
def World.renamed (w : World) (source target : Bytes) : Option FsErrno → World
  | none => { w with dir := insert target (w.dir.erase source) }
  | some .noEntry => { w with dir := w.dir.erase source }
  | some (.other _) => w

def World.logged (w : World) : ReplanLog → World
  | .abort _ => { w with aborted := true }
  | _ => w

def World.deliver (w : World) (done : Bool) : World :=
  if done then { w with
    delivered := w.delivered + 1
    deliveredSince := if w.reached then w.deliveredSince + 1 else w.deliveredSince }
  else w

def World.after (w : World) : (c : ReplanCall) → ReplanReply c → World
  | .rename source target, reply => w.renamed source target reply
  -- a pass unlinks a file only when it finds the maximum reached
  | .unlink file, _ => { w with dir := w.dir.erase file, reached := true }
  | .log entry, _ => w.logged entry
  | .deliver _, done => w.deliver done
  | _, _ => w

inductive Action where
  | pass (answers : ReplanAnswers)
  | tokenTaken (file : Bytes)

def Reads (dir : Finset Bytes) (answers : ReplanAnswers) : Prop :=
  match answers .scan with
  | some leaves => leaves.Nodup ∧ leaves.toFinset = dir
  | none => True

instance (dir : Finset Bytes) (answers : ReplanAnswers) : Decidable (Reads dir answers) := by
  unfold Reads
  split <;> infer_instance

def watch (answers : ReplanAnswers) : Monitor ReplanCall ReplanReply World :=
  .following answers World.after

def step (config : Config) (w : World) : Action → Option World
  | .pass answers =>
    if Reads w.dir answers then
      some ((watch answers).follow answers w ((Replan.pass config).calls answers ()))
    else none
  | .tokenTaken file => some { w with dir := w.dir.erase file }

/-- At most the maximum of requests; once it is reached the job is aborted, nothing more is
delivered and no token is left. -/
structure Limited (config : Config) (w : World) : Prop where
  delivered : (w.delivered : Int) ≤ config.maxReplansCount
  stopped : w.reached = true → w.aborted = true ∧ w.deliveredSince = 0 ∧
    ∀ file ∈ w.dir, isToken config file = false

structure Finds (config : Config) (dir : Finset Bytes) (answers : ReplanAnswers) (token : Bytes)
    (n : Nat) : Prop where
  asked : ∃ ad, answers .originalJdl = some (true, ad) ∧ shallowResubmissionIsEnabled ad = true
  context : answers .createContext = .ok ()
  cream : ∃ events, doQueryEvents (answers .matchedEvents) false = .ok events ∧
    Replan.isCreamCe (Replan.lastMatchedCeid events) = true
  listed : answers .scan ≠ none
  inDir : token ∈ dir
  isToken : isToken config token = true
  number : tokenNumber config token = some n

structure Moves (answers : ReplanAnswers) (token : Bytes) (n : Nat) : Prop where
  renamed : answers (.rename token (Replan.plusOne token n)) = none
  errno : answers .errno ≠ .noEntry

/-- A pass that gets to the test of the maximum finds a number below it. -/
def BelowMax (config : Config) (w : World) : Action → Prop
  | .pass answers => ∀ token n, Finds config w.dir answers token n → Moves answers token n →
      (n : Int) < config.maxReplansCount
  | .tokenTaken _ => True

variable {config : Config} {answers : ReplanAnswers} {w : World}

/-! Blocks that only find out whether the pass goes on. -/

def Tests (answers : ReplanAnswers) (x : Replan Unit) (fact : Prop) : Prop :=
  ∀ w, x.Obeys (watch answers) w () fun v outcome _ => v = w ∧ (outcome = .ok () ↔ fact)

variable {post : World → Prop} {token : Bytes} {n : Nat}

theorem Tests.bind {x rest : Replan Unit} {fact : Prop} (tests : Tests answers x fact)
    (stops : ¬ fact → post w) (goesOn : fact → rest.Obeys (watch answers) w () fun v _ _ => post v) :
    (x >>= fun _ => rest).Obeys (watch answers) w () fun v _ _ => post v := by
  refine (tests w).bind ?_ ?_
  · rintro _ _ _ ⟨rfl, iff⟩
    exact goesOn (iff.mp rfl)
  · rintro _ _ _ ⟨rfl, iff⟩
    exact stops fun holds => by cases iff.mpr holds

theorem retrieveAd_tests : Tests answers Replan.retrieveAd
    (∃ ad, answers .originalJdl = some (true, ad) ∧ shallowResubmissionIsEnabled ad = true) := by
  intro w
  refine .followed ?_
  dsimp only [World.after]
  cases answers .originalJdl with
  | none => simp
  | some reply =>
    obtain ⟨feedback, ad⟩ := reply
    cases feedback <;> cases enabled : shallowResubmissionIsEnabled ad <;> simp [enabled]

theorem createContext_tests : Tests answers Replan.createContext (answers .createContext = .ok ()) := by
  intro w
  refine .followed ?_
  dsimp only [World.after]
  split <;> simp_all

theorem checkCe_tests : Tests answers Replan.checkCe
    (∃ events, doQueryEvents (answers .matchedEvents) false = .ok events ∧
      Replan.isCreamCe (Replan.lastMatchedCeid events) = true) := by
  intro w
  refine .followed ?_
  dsimp only [World.after]
  cases doQueryEvents (answers .matchedEvents) false with
  | error e => simp
  | ok events => by_cases cream : Replan.isCreamCe (Replan.lastMatchedCeid events) = true <;> simp [cream]

theorem log_obeys {entry : ReplanLog} :
    (Replan.log entry).Obeys (watch answers) w () fun v _ _ => v = w.logged entry := by
  refine .followed ?_
  split <;> rfl

theorem complainAbout_none {leaves : List Bytes} (nothing : ∀ leaf ∈ leaves, isToken config leaf = false) :
    Replan.complainAbout config leaves = pure () := by
  induction leaves with
  | nil => rfl
  | cons leaf rest ih =>
    unfold Replan.complainAbout
    simp only [nothing leaf (by simp), Bool.false_eq_true, if_false]
    exact ih fun leaf member => nothing leaf (by simp [member])

def OneToken (config : Config) (dir : Finset Bytes) : Prop :=
  ∀ f ∈ dir, ∀ g ∈ dir, isToken config f = true → isToken config g = true → f = g

theorem findToken_obeys (one : OneToken config w.dir) (reads : Reads w.dir answers) :
    (Replan.findToken config).Obeys (watch answers) w () fun v outcome _ => v = w ∧
      ∀ token n, outcome = .ok (token, n) ↔ answers .scan ≠ none ∧ token ∈ w.dir ∧
        isToken config token = true ∧ tokenNumber config token = some n := by
  refine .followed ?_
  dsimp only [World.after]
  unfold Reads at reads
  cases listing : answers .scan with
  | none => simp
  | some leaves =>
    simp only [listing] at reads
    obtain ⟨nodup, same⟩ := reads
    have members (leaf : Bytes) : leaf ∈ w.dir ↔ leaf ∈ leaves := by rw [← same, mem_toFinset]
    dsimp only
    cases found : leaves.dropWhile fun leaf => !isToken config leaf with
    | nil =>
      have nothing := dropWhile_eq_nil_iff.mp found
      simp only [Bool.not_eq_eq_eq_not, Bool.not_true] at nothing
      refine ⟨rfl, fun token n => ⟨nofun, fun ⟨_, inDir, isToken, _⟩ => ?_⟩⟩
      rw [nothing token ((members token).mp inDir)] at isToken
      cases isToken
    | cons first rest =>
      have sublist : (first :: rest).Sublist leaves := found ▸ dropWhile_sublist _
      have isFirst : isToken config first = true := by
        have := head?_dropWhile_not (fun leaf => !isToken config leaf) leaves
        simpa [found] using this
      have inDir : first ∈ w.dir := (members first).mpr (sublist.subset (by simp))
      -- the directory has no other token, and a name is listed once
      have others : ∀ leaf ∈ rest, isToken config leaf = false := by
        intro leaf member
        by_contra other
        have same := one leaf ((members leaf).mpr (sublist.subset (by simp [member]))) first inDir
          (by simpa using other) isFirst
        exact (nodup_cons.mp (sublist.nodup nodup)).1 (same ▸ member)
      have only (token : Bytes) (inDir' : token ∈ w.dir) (isToken : isToken config token = true) :
          token = first := one token inDir' first inDir isToken isFirst
      simp only [complainAbout_none others, obeys_bind, obeys_pure]
      cases number : tokenNumber config first with
      | none =>
        refine ⟨rfl, fun token n => ⟨nofun, fun ⟨_, inDir', isToken, number'⟩ => ?_⟩⟩
        rw [only token inDir' isToken, number] at number'
        cases number'
      | some k =>
        refine ⟨rfl, fun token n => ⟨?_, fun ⟨_, inDir', isToken, number'⟩ => ?_⟩⟩
        · rintro ⟨rfl, rfl⟩
          exact ⟨by simp, inDir, isFirst, number⟩
        · have same := only token inDir' isToken
          subst same
          rw [number] at number'
          cases number'
          rfl

/-! The number of the token bounds the number of requests. -/

structure Sound (config : Config) (w : World) : Prop where
  unique : OneToken config w.dir
  named : ∀ f ∈ w.dir, isToken config f = true → ∃ n, IsTokenOf config n f ∧ w.delivered ≤ n
  limited : (w.delivered : Int) ≤ config.maxReplansCount
  unreached : w.reached = false

theorem Sound.logged (sound : Sound config w) (entry : ReplanLog) : Sound config (w.logged entry) := by
  cases entry <;> exact ⟨sound.unique, sound.named, sound.limited, sound.unreached⟩

theorem Sound.erase (sound : Sound config w) (file : Bytes) :
    Sound config { w with dir := w.dir.erase file } where
  unique f inDir g inDir' :=
    sound.unique f (Finset.mem_of_mem_erase inDir) g (Finset.mem_of_mem_erase inDir')
  named f inDir := sound.named f (Finset.mem_of_mem_erase inDir)
  limited := sound.limited
  unreached := sound.unreached

theorem Sound.read (sound : Sound config w) (small : config.maxReplansCount ≤ 2 ^ 24)
    (inDir : token ∈ w.dir) (isToken : isToken config token = true) :
    ∃ m n, IsTokenOf config m token ∧ tokenNumber config token = some n ∧ w.delivered ≤ n := by
  obtain ⟨m, named, bound⟩ := sound.named token inDir isToken
  have limited := sound.limited
  exact ⟨m, toFloat m, named, named.tokenNumber, le_toFloat (by omega) bound⟩

theorem plusOne_eq {m : Nat} (named : IsTokenOf config m token) (n : Nat) :
    Replan.plusOne token n = tokenName config (n + 1) := by
  rw [Replan.plusOne, named.upToUnderscore, tokenName, append_assoc]
  rfl

structure Renamed (config : Config) (n : Nat) (w : World) : Prop where
  only : ∀ f ∈ w.dir, isToken config f = true → f = tokenName config (n + 1)
  delivered : w.delivered ≤ n
  limited : (w.delivered : Int) ≤ config.maxReplansCount
  unreached : w.reached = false

theorem Sound.of_only (only : ∀ f ∈ w.dir, isToken config f = true → f = tokenName config n)
    (delivered : w.delivered ≤ n)
    (limited : (w.delivered : Int) ≤ config.maxReplansCount) (unreached : w.reached = false) :
    Sound config w where
  unique f inDir g inDir' first second := (only f inDir first).trans (only g inDir' second).symm
  named f inDir token := ⟨n, .inl (only f inDir token), delivered⟩
  limited := limited
  unreached := unreached

theorem Renamed.sound (renamed : Renamed config n w) : Sound config w :=
  .of_only renamed.only (Nat.le_succ_of_le renamed.delivered) renamed.limited renamed.unreached

theorem Renamed.deliver (renamed : Renamed config n w) (below : (n : Int) < config.maxReplansCount)
    (done : Bool) : Sound config (w.deliver done) := by
  cases done with
  | false => exact renamed.sound
  | true =>
    have count : w.delivered + 1 ≤ n + 1 := Nat.succ_le_succ renamed.delivered
    exact .of_only renamed.only count (show ((w.delivered + 1 : Nat) : Int) ≤ _ by omega) renamed.unreached

theorem Renamed.logged (renamed : Renamed config n w) (entry : ReplanLog) :
    Renamed config n (w.logged entry) := by
  cases entry <;> exact ⟨renamed.only, renamed.delivered, renamed.limited, renamed.unreached⟩

theorem Sound.renamed {m : Nat} (sound : Sound config w) (inDir : token ∈ w.dir)
    (named : IsTokenOf config m token) (delivered : w.delivered ≤ n) :
    Renamed config n (w.renamed token (Replan.plusOne token n) none) where
  only := by
    rw [plusOne_eq named]
    intro f inDir' isToken
    rcases Finset.mem_insert.mp inDir' with same | other
    · exact same
    · -- the token was the only one
      obtain ⟨different, inDir'⟩ := Finset.mem_erase.mp other
      exact absurd (sound.unique f inDir' token inDir isToken named.isToken) different
  delivered := delivered
  limited := sound.limited
  unreached := sound.unreached

theorem logged_bind {rest : Unit → Replan Unit} {entry : ReplanLog} (stops : post (w.logged entry))
    (goesOn : (rest ()).Obeys (watch answers) (w.logged entry) () fun v _ _ => post v) :
    (Replan.log entry >>= rest).Obeys (watch answers) w () fun v _ _ => post v := by
  refine log_obeys.bind ?_ ?_ <;> rintro _ _ _ rfl
  · exact goesOn
  · exact stops

theorem enqueue_obeys {before : World → Prop} (kept : ∀ v entry, before v → before (v.logged entry))
    (keeps : ∀ v entry, post v → post (v.logged entry))
    (delivers : ∀ v done, before v → post (v.deliver done)) (holds : before w) :
    (Replan.enqueue n).Obeys (watch answers) w () fun v _ _ => post v := by
  have stays (v : World) (holds : before v) : post v := delivers v false holds
  refine .followed ?_
  dsimp only [World.after]
  split
  · exact stays w holds
  · apply logged_bind (stays _ (kept _ _ holds))
    apply logged_bind (stays _ (kept _ _ (kept _ _ holds)))
    refine .followed ?_
    have delivered :=
      delivers _ (answers (.deliver (n + 1))) (kept _ .enqueuedStart (kept _ .resubmissionShallow holds))
    split_ifs <;> exact log_obeys.mono fun _ _ _ same => same ▸ keeps _ _ delivered

theorem useToken_obeys {m : Nat} (sound : Sound config w) (inDir : token ∈ w.dir)
    (named : IsTokenOf config m token) (delivered : w.delivered ≤ n)
    (below : Moves answers token n → (n : Int) < config.maxReplansCount) :
    (Replan.useToken config token n).Obeys (watch answers) w () fun v _ _ => Sound config v := by
  have renamed := sound.renamed inDir named delivered
  rw [Replan.useToken, Replan.renameToken]
  simp only [bind_bind]
  refine .followed ?_
  dsimp only [World.after]
  cases moved : answers (.rename token (Replan.plusOne token n)) with
  | some e =>
    cases e with
    | noEntry => exact sound.erase token
    | other code => exact sound
  | none =>
    simp only [bind_bind]
    refine .followed ?_
    split_ifs with stale
    · exact renamed.sound
    · have low := below ⟨moved, stale⟩
      rw [obeys_bind, obeys_pure]
      simp only [Replan.stopAtMax, show ¬ (n : Int) ≥ config.maxReplansCount by omega, if_false]
      exact enqueue_obeys (fun _ entry kept => kept.logged entry) (fun _ entry kept => kept.logged entry)
        (fun _ done kept => kept.deliver low done) renamed

/-- A pass comes to nothing or uses the token of the directory. -/
theorem pass_obeys (one : OneToken config w.dir) (reads : Reads w.dir answers)
    (idle : (∀ token n, ¬ Finds config w.dir answers token n) → post w)
    (uses : ∀ token n, Finds config w.dir answers token n →
      (Replan.useToken config token n).Obeys (watch answers) w () fun v _ _ => post v) :
    (Replan.pass config).Obeys (watch answers) w () fun v _ _ => post v := by
  rw [Replan.pass]
  apply retrieveAd_tests.bind fun fails => idle fun _ _ finds => fails finds.asked
  intro asked
  apply createContext_tests.bind fun fails => idle fun _ _ finds => fails finds.context
  intro context
  apply checkCe_tests.bind fun fails => idle fun _ _ finds => fails finds.cream
  intro cream
  refine (findToken_obeys one reads).bind ?_ ?_
  · rintro _ pair _ ⟨rfl, found⟩
    obtain ⟨listed, inDir, isToken, number⟩ := (found pair.1 pair.2).mp rfl
    exact uses _ _ ⟨asked, context, cream, listed, inDir, isToken, number⟩
  · rintro _ e _ ⟨rfl, found⟩
    refine idle fun token n finds => ?_
    cases (found token n).mpr ⟨finds.listed, finds.inDir, finds.isToken, finds.number⟩

theorem Sound.step {v : World} {a : Action} (sound : Sound config w)
    (small : config.maxReplansCount ≤ 2 ^ 24)
    (below : BelowMax config w a) (taken : step config w a = some v) : Sound config v := by
  cases a with
  | tokenTaken file =>
    cases taken
    exact sound.erase file
  | pass answers =>
    simp only [ReplanRun.step] at taken
    split_ifs at taken with reads
    cases taken
    have obeys : (Replan.pass config).Obeys (watch answers) w () fun v _ _ => Sound config v := by
      apply pass_obeys sound.unique reads fun _ => sound
      intro token n finds
      obtain ⟨m, k, named, number, delivered⟩ := sound.read small finds.inDir finds.isToken
      cases finds.number.symm.trans number
      exact useToken_obeys sound finds.inDir named delivered (below token n finds)
    exact obeys.run fun _ _ => rfl

/-- The directory of a job with at most one token, which bears a name of the manager. -/
def OwnToken (config : Config) (dir : Finset Bytes) : Prop :=
  OneToken config dir ∧ ∀ f ∈ dir, isToken config f = true → ∃ n, IsTokenOf config n f

/-- Along every run of passes none of which gets to the test of the maximum with a number
that has reached it, at most the maximum of requests is delivered. -/
theorem replans_limited (config : Config) (dir : Finset Bytes) (own : OwnToken config dir)
    (nonneg : 0 ≤ config.maxReplansCount) (small : config.maxReplansCount ≤ 2 ^ 24) (w : World)
    (run : Runs (step config) (.start dir) (BelowMax config) w) : Limited config w := by
  have initial : Sound config (.start dir) := by
    refine ⟨own.1, fun f inDir isToken => ?_, nonneg, rfl⟩
    obtain ⟨n, named⟩ := own.2 f inDir isToken
    exact ⟨n, named, Nat.zero_le n⟩
  have sound : Sound config w :=
    run.invariant initial fun _ _ _ sound below taken => sound.step small below taken
  refine ⟨sound.limited, fun reached => ?_⟩
  rw [sound.unreached] at reached
  cases reached

/-- A pass that finds the maximum reached leaves the renamed token behind. -/
theorem useToken_reached (moves : Moves answers token n) (reached : config.maxReplansCount ≤ (n : Int))
    (other : token ≠ Replan.plusOne token n) : (Replan.useToken config token n).Obeys (watch answers) w ()
      fun v _ _ => v.reached = true ∧ Replan.plusOne token n ∈ v.dir := by
  have kept (v : World) (entry : ReplanLog) (holds : v.reached = true ∧ Replan.plusOne token n ∈ v.dir) :
      (v.logged entry).reached = true ∧ Replan.plusOne token n ∈ (v.logged entry).dir := by
    cases entry <;> exact holds
  have delivers (v : World) (done : Bool) (holds : v.reached = true ∧ Replan.plusOne token n ∈ v.dir) :
      (v.deliver done).reached = true ∧ Replan.plusOne token n ∈ (v.deliver done).dir := by
    cases done <;> exact holds
  rw [Replan.useToken, Replan.renameToken]
  simp only [bind_bind]
  refine .followed ?_
  simp only [World.after, moves.renamed, bind_bind]
  refine .followed ?_
  simp only [World.after, moves.errno, if_false]
  rw [obeys_bind, obeys_pure]
  simp only [Replan.stopAtMax, show (n : Int) ≥ config.maxReplansCount from reached, if_true,
    bind_bind]
  refine .followed ?_
  -- what is unlinked is the old name
  have more : Replan.plusOne token n ∈
      (insert (Replan.plusOne token n) (w.dir.erase token)).erase token :=
    Finset.mem_erase.mpr ⟨other.symm, Finset.mem_insert_self _ _⟩
  apply logged_bind ⟨rfl, more⟩
  exact enqueue_obeys kept kept delivers ⟨rfl, more⟩

/-- The condition cannot be spared: the first pass that gets to the test of the maximum with
a number that has reached it breaks the limit, whatever else it is answered. -/
theorem maximum_not_enforced {m : Nat} {v : World} (one : OneToken config w.dir)
    (finds : Finds config w.dir answers token n) (moves : Moves answers token n)
    (reached : config.maxReplansCount ≤ (n : Int)) (named : IsTokenOf config m token)
    (other : token ≠ Replan.plusOne token n) (taken : step config w (.pass answers) = some v) :
    ¬ Limited config v := by
  simp only [ReplanRun.step] at taken
  split_ifs at taken with reads
  cases taken
  have obeys : (Replan.pass config).Obeys (watch answers) w ()
      fun v _ _ => v.reached = true ∧ Replan.plusOne token n ∈ v.dir := by
    apply pass_obeys one reads fun idle => absurd finds (idle token n)
    intro token' n' finds'
    have same := one token' finds'.inDir token finds.inDir finds'.isToken finds.isToken
    subst same
    cases finds.number.symm.trans finds'.number
    exact useToken_reached moves reached other
  obtain ⟨found, more⟩ := obeys.run fun _ _ => rfl
  intro limited
  have nothing := (limited.stopped found).2.2 _ more
  rw [plusOne_eq named, (IsTokenOf.isToken (.inl rfl))] at nothing
  cases nothing

def willing (leaves : List Bytes) : ReplanAnswers
  | .originalJdl => some (true, .empty)
  | .createContext | .openInput => .ok ()
  | .matchedEvents => .ok [⟨.workloadManager, .matched ['a', '/', 'c', 'r', 'e', 'a', 'm', '-', 'b']⟩]
  | .scan => some leaves
  | .rename _ _ => none
  | .errno => .other 0
  | .unlink _ => ()
  | .log _ => .logged
  | .deliver _ => true

def once : Config := { Config.sample with maxReplansCount := 1 }

theorem ownToken_singleton (config : Config) (n : Nat) : OwnToken config {tokenName config n} := by
  refine ⟨fun f inDir g inDir' _ _ => ?_, fun f inDir _ => ⟨n, .inl (Finset.mem_singleton.mp inDir)⟩⟩
  rw [Finset.mem_singleton.mp inDir, Finset.mem_singleton.mp inDir']

theorem replans_limited_once : ∃ w,
    Runs (step once) (.start {tokenName once 0}) (BelowMax once) w ∧ w.delivered = 1 ∧ Limited once w := by
  have below : BelowMax once (.start {tokenName once 0}) (.pass (willing [tokenName once 0])) := by
    intro token n finds _
    have number := finds.number
    rw [Finset.mem_singleton.mp finds.inDir] at number
    cases number
    decide
  have run := Runs.next .start below (rfl : step once _ _ = some _)
  exact ⟨_, run, rfl, replans_limited once _ (ownToken_singleton once 0) (by decide) (by decide) _ run⟩

/-- The second pass finds the maximum reached, aborts the job and delivers all the same. -/
theorem replanned_beyond_max : ∃ w,
    Runs (step once) (.start {tokenName once 0}) Free w ∧ OwnToken once {tokenName once 0} ∧
      w.delivered = 2 ∧ w.aborted = true ∧ tokenName once 2 ∈ w.dir ∧ ¬ Limited once w := by
  obtain ⟨w, done⟩ : ∃ w, execute (step once) Free (.start {tokenName once 0})
      [.pass (willing [tokenName once 0]), .pass (willing [tokenName once 1])] = some w := ⟨_, rfl⟩
  have run := Runs.start.execute done
  cases done
  refine ⟨_, run, ownToken_singleton once 0, rfl, rfl, by decide, fun limited => ?_⟩
  exact absurd limited.delivered (by decide)

end ReplanRun

end Wms.Manager
