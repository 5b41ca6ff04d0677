import Wms.Manager.TokenRuns

/-! Submissions and replans of one job that share its token file.

Any number of activations and of passes of the replanner are under way at the same time; each
step is one call of one of them, and the running job may take the token away at any moment.
-/

set_option autoImplicit false

namespace Wms.Manager.TokenRun

open Lib Dialog Replan Function List

variable {N : Type} {config : Config}

/-! ### Parties -/

inductive Task (N : Type) where
  | submission (rest : Interact (Call N) Reply (Except Exit Unit × SubmitState N))
  | replan (rest : Interact ReplanCall ReplanReply (Except Exit Unit × Unit))

structure Replies (N : Type) where
  submission : Answers N
  replan : ReplanAnswers

def Task.next (replies : Replies N) : Task N → Option (FileOp × Task N)
  | .submission (.call c next) =>
    some (submissionOp c (replies.submission c), .submission (next (replies.submission c)))
  | .replan (.call c next) => some (replanOp c (replies.replan c), .replan (next (replies.replan c)))
  | _ => none

def Task.ended : Task N → Bool
  | .submission (.ret _) | .replan (.ret _) => true
  | _ => false

structure Party (N : Type) where
  task : Task N
  scanned : Bool
  between : Bool

structure World (N : Type) where
  dir : Finset Bytes
  parties : Nat → Option (Party N)

def World.start (dir : Finset Bytes) : World N := ⟨dir, fun _ => none⟩

inductive Action (N : Type) where
  | submission (p : Nat) (request : SubmitState N)
  | replan (p : Nat)
  | call (p : Nat) (replies : Replies N)
  | finish (p : Nat)
  | remove (file : Bytes)

def World.enter (w : World N) (p : Nat) (task : Task N) : Option (World N) :=
  match w.parties p with
  | some _ => none
  | none => some { w with parties := update w.parties p (some ⟨task, false, false⟩) }

def World.call (w : World N) (p : Nat) (replies : Replies N) : Option (World N) := do
  let party ← w.parties p
  let (op, rest) ← party.task.next replies
  let dir ← op.effect w.dir
  pure ⟨dir, update w.parties p
    (some ⟨rest, party.scanned || op.isScan, op.between party.between⟩)⟩

def step [DecidableEq N] (config : Config) (w : World N) : Action N → Option (World N)
  | .submission p request => w.enter p (.submission (activation config request))
  | .replan p => w.enter p (.replan (Replan.pass config ()))
  | .call p replies => w.call p replies
  | .finish p =>
    match w.parties p with
    | some party =>
      if party.task.ended then some { w with parties := update w.parties p none } else none
    | none => none
  | .remove file => some { w with dir := w.dir.erase file }

/-! ### One step of a party -/

variable {dir dir' : Finset Bytes}

theorem OneToken.subset (one : ReplanRun.OneToken config dir) (subset : dir' ⊆ dir) :
    ReplanRun.OneToken config dir' :=
  fun f inDir g inDir' => one f (subset inDir) g (subset inDir')

variable {g : Phase}

theorem Fits.subset (fits : Fits config dir g) (subset : dir' ⊆ dir) : Fits config dir' g := by
  cases g with
  | unread => exact fits
  | one => exact OneToken.subset fits subset
  | known n => exact ⟨OneToken.subset fits.1 subset, fun f inDir => fits.2 f (subset inDir)⟩
  | double n => exact fun f inDir => fits f (subset inDir)

theorem OneToken.rename {source : Bytes} (one : ReplanRun.OneToken config dir) (inDir : source ∈ dir)
    (isSource : isToken config source = true) (target : Bytes) :
    ReplanRun.OneToken config (insert target (dir.erase source)) := by
  have nothing : ∀ f ∈ dir.erase source, isToken config f = true → False := fun f member isToken =>
    (Finset.mem_erase.mp member).1 (one f (Finset.mem_of_mem_erase member) source inDir isToken isSource)
  intro f inDir g inDir' first second
  rcases Finset.mem_insert.mp inDir with rfl | inDir
  · rcases Finset.mem_insert.mp inDir' with rfl | inDir'
    · rfl
    · exact (nothing g inDir' second).elim
  · exact (nothing f inDir first).elim

theorem OneToken.of_name {name : Bytes} (only : ∀ f ∈ dir, isToken config f = true → f = name) :
    ReplanRun.OneToken config dir :=
  fun f inDir g inDir' first second => (only f inDir first).trans (only g inDir' second).symm

variable {read : Option (List Bytes) → Phase}

theorem Fits.rename {source target : Bytes} (fits : Fits config dir g)
    (permitted : g.permits config (.rename source target none)) (inDir : source ∈ dir) :
    Fits config (insert target (dir.erase source)) (g.after read (.rename source target none)) := by
  cases g with
  | unread => exact fits
  | one => exact OneToken.rename fits inDir permitted target
  | known n =>
    refine ⟨OneToken.rename fits.1 inDir permitted.1 target, fun f member isToken => ?_⟩
    rcases Finset.mem_insert.mp member with rfl | member
    · exact permitted.2
    · exact fits.2 f (Finset.mem_of_mem_erase member) isToken
  | double n =>
    -- the temporary name is gone, and the other one is in place
    obtain ⟨rfl, rfl⟩ := permitted
    have only : ∀ f ∈ insert (tokenName config n) (dir.erase (tmpTokenName config n)),
        isToken config f = true → f = tokenName config n := by
      intro f member isToken
      rcases Finset.mem_insert.mp member with same | member
      · exact same
      · obtain ⟨different, inDir⟩ := Finset.mem_erase.mp member
        exact (fits f inDir isToken).resolve_right different
    exact ⟨OneToken.of_name only, fun f member isToken => .inl (only f member isToken)⟩

theorem Fits.missing {e : FsErrno} {source target : Bytes} (fits : Fits config dir g)
    (permitted : g.permits config (.rename source target (some e))) (absent : source ∉ dir) :
    Fits config dir (g.after read (.rename source target (some e))) := by
  cases g with
  | unread | one | known => exact fits
  | double n =>
    obtain ⟨rfl, rfl⟩ := permitted
    have only (f : Bytes) (inDir : f ∈ dir) (isToken : isToken config f = true) : f = tokenName config n :=
      (fits f inDir isToken).resolve_right fun same => absent (same ▸ inDir)
    exact ⟨OneToken.of_name only, fits⟩

theorem Fits.create {file : Bytes} {done : Bool} (fits : Fits config dir g)
    (permitted : g.permits config (.create file done)) :
    Fits config (if done then insert file dir else dir) (g.after read (.create file done)) := by
  cases g with
  | known n =>
    cases done with
    | false => exact fits
    | true =>
      intro f member isToken
      rcases Finset.mem_insert.mp member with rfl | inDir
      · exact .inr permitted
      · exact fits.2 f inDir isToken
  | _ => exact permitted.elim

variable {op : FileOp}

theorem Fits.after (fits : Fits config dir g) (permitted : g.permits config op) (trusted : op.trusted)
    (effect : op.effect dir = some dir') : Fits config dir' (g.after read op) := by
  cases op with
  | scan leaves => cases g <;> first | exact fits.elim | exact permitted.elim
  | rename source target failed =>
    rcases failed with _ | _ | code
    · simp only [FileOp.effect] at effect
      split_ifs at effect with inDir
      cases effect
      exact fits.rename permitted inDir
    · simp only [FileOp.effect] at effect
      split_ifs at effect with inDir
      cases effect
      exact fits.missing permitted inDir
    · exact trusted.elim
  | look file present =>
    simp only [FileOp.effect] at effect
    split_ifs at effect
    cases effect
    cases g <;> exact fits
  | create file done =>
    cases effect
    exact fits.create permitted
  | unlink file =>
    cases effect
    have smaller := fits.subset (Finset.erase_subset file dir)
    cases g <;> exact smaller
  | other =>
    cases effect
    cases g <;> exact fits

/-! ### Runs -/

/-- The names of the tokens are those the manager writes, with numbers that a `float` holds. -/
def Readable (config : Config) (dir : Finset Bytes) : Prop :=
  ∀ f ∈ dir, isToken config f = true → ∃ n ≤ 2 ^ 24, IsTokenOf config n f

/-- A party scans only while no other one is between its scan and its end, and a rename fails
only because there is no such file. -/
def Orderly (config : Config) (w : World N) : Action N → Prop
  | .call p replies => ∀ party op rest, w.parties p = some party →
      party.task.next replies = some (op, rest) → op.trusted ∧ (op.isScan = true →
        Readable config w.dir ∧ ∀ q other, q ≠ p → w.parties q = some other → other.scanned = false)
  | _ => True

def Task.Obeys (config : Config) (g : Phase) : Task N → Prop
  | .submission rest => rest.Obeys (submissionPhases config) g fun g _ => g.settled
  | .replan rest => rest.Obeys (replanPhases config) g fun g _ => g.settled

structure Party.Sound (config : Config) (dir : Finset Bytes) (party : Party N) (g : Phase) : Prop where
  obeys : party.task.Obeys config g
  unread : party.scanned = false → g = .unread
  fits : party.scanned = true → Fits config dir g
  between : ¬ g.settled → party.between = true

structure World.Sound (config : Config) (w : World N) : Prop where
  parties : ∀ p party, w.parties p = some party → ∃ g, party.Sound config w.dir g
  alone : ∀ p q party other, w.parties p = some party → w.parties q = some other →
    party.scanned = true → other.scanned = true → p = q
  one : (∀ p party, w.parties p = some party → party.scanned = false) → ReplanRun.OneToken config w.dir

def Reading (config : Config) (read : Option (List Bytes) → Phase) : Prop :=
  ∀ leaves, read leaves = .one ∨
    ∃ names, leaves = some names ∧ read leaves = .known (readNumber config names)

theorem Reading.settled (reading : Reading config read) (leaves : Option (List Bytes)) :
    (read leaves).settled := by
  rcases reading leaves with one | ⟨names, _, known⟩
  · rw [one]
    trivial
  · rw [known]
    trivial

theorem Task.Obeys.next {task rest : Task N} {replies : Replies N} (obeys : task.Obeys config g)
    (next : task.next replies = some (op, rest)) (trusted : op.trusted) :
    g.permits config op ∧ ∃ read, Reading config read ∧ rest.Obeys config (g.after read op) := by
  rcases task with (outcome | ⟨c, continuation⟩) | (outcome | ⟨c, continuation⟩)
  · cases next
  · cases next
    refine ⟨obeys.1 _, _, fun leaves => ?_, obeys.2 _ trusted⟩
    cases leaves with
    | none => exact .inl rfl
    | some names => exact .inr ⟨names, rfl, rfl⟩
  · cases next
  · cases next
    exact ⟨obeys.1 _, _, fun _ => .inl rfl, obeys.2 _ trusted⟩

theorem fits_read {leaves : Option (List Bytes)} (reading : Reading config read)
    (one : ReplanRun.OneToken config dir) (readable : Readable config dir)
    (effect : (FileOp.scan leaves).effect dir = some dir') : dir' = dir ∧
      Fits config dir (read leaves) := by
  rcases reading leaves with isOne | ⟨names, rfl, isKnown⟩
  · rw [isOne]
    cases leaves with
    | none =>
      cases effect
      exact ⟨rfl, one⟩
    | some names =>
      simp only [FileOp.effect] at effect
      split_ifs at effect
      cases effect
      exact ⟨rfl, one⟩
  · simp only [FileOp.effect] at effect
    split_ifs at effect with listed
    cases effect
    rw [isKnown]
    refine ⟨rfl, one, fun f inDir isToken => ?_⟩
    have member : f ∈ names := by rwa [← mem_toFinset, listed.2]
    obtain ⟨first, found⟩ := Option.isSome_iff_exists.mp
      (find?_isSome.mpr ⟨f, member, isToken⟩ : (names.find? (Manager.isToken config)).isSome)
    have same : first = f := by
      apply one first ?_ f inDir (find?_some found) isToken
      rw [← listed.2, mem_toFinset]
      exact mem_of_find?_eq_some found
    obtain ⟨n, bound, named⟩ := readable f inDir isToken
    have number : readNumber config names = n := by
      rw [readNumber, firstToken, ← find?_eq_head?_dropWhile_not, found, same, Option.bind_some,
        named.tokenNumber, toFloat_exact bound, Option.getD_some]
    rwa [number]

/-- Both names are there only for an activation between its renames. -/
theorem between_after {before : Bool} (reading : Reading config read) (permitted : g.permits config op)
    (between : ¬ g.settled → before = true) (double : ¬ (g.after read op).settled) :
    op.between before = true := by
  cases g with
  | unread =>
    cases op with
    | scan leaves => exact absurd (reading.settled leaves) double
    | _ => exact absurd trivial double
  | one => cases op <;> exact absurd trivial double
  | known n =>
    cases op with
    | create file done =>
      cases done with
      | true => rfl
      | false => exact absurd trivial double
    | _ => exact absurd trivial double
  | double n =>
    cases op with
    | rename source target failed => exact absurd trivial double
    | scan | create => exact permitted.elim
    | _ => exact between id

variable {w v : World N} {p : Nat}

theorem World.call_eq {replies : Replies N} (called : w.call p replies = some v) :
    ∃ party op rest dir, w.parties p = some party ∧ party.task.next replies = some (op, rest) ∧
      op.effect w.dir = some dir ∧ v = ⟨dir, update w.parties p
        (some ⟨rest, party.scanned || op.isScan, op.between party.between⟩)⟩ := by
  simp only [World.call, Option.bind_eq_bind, Option.bind_eq_some_iff] at called
  obtain ⟨party, isParty, ⟨op, rest⟩, next, dir, effect, result⟩ := called
  cases result
  exact ⟨party, op, rest, dir, isParty, next, effect, rfl⟩

def World.Others (w : World N) (p : Nat) : Prop :=
  ∀ q other, q ≠ p → w.parties q = some other → other.scanned = false

variable {party : Party N}

theorem World.Others.all (others : w.Others p) (here : ∀ party, w.parties p = some party →
    party.scanned = false)
    (q : Nat) (other : Party N) (isOther : w.parties q = some other) : other.scanned = false := by
  by_cases same : q = p
  · exact here other (same ▸ isOther)
  · exact others q other same isOther

theorem updated_iff {q : Nat} {new : Option (Party N)} {other : Party N} :
    update w.parties p new q = some other ↔
    q = p ∧ new = some other ∨ q ≠ p ∧ w.parties q = some other := by
  by_cases same : q = p
  · simp [same]
  · simp [same]

theorem World.Sound.update (sound : w.Sound config) (self : ∃ g, party.Sound config dir g)
    (others : ∀ q other, q ≠ p → w.parties q = some other → ∃ g, other.Sound config dir g)
    (alone : party.scanned = true → w.Others p)
    (one : party.scanned = false → w.Others p → ReplanRun.OneToken config dir) :
    World.Sound config ⟨dir, update w.parties p (some party)⟩ where
  parties := by
    intro q other isOther
    rcases updated_iff.mp isOther with ⟨-, ⟨⟩⟩ | ⟨different, before⟩
    · exact self
    · exact others q other different before
  alone := by
    intro q r first second isFirst isSecond scanned scanned'
    rcases updated_iff.mp isFirst with ⟨rfl, ⟨⟩⟩ | ⟨different, before⟩ <;>
      rcases updated_iff.mp isSecond with ⟨rfl, ⟨⟩⟩ | ⟨different', before'⟩
    · rfl
    · cases (alone scanned r second different' before').symm.trans scanned'
    · cases (alone scanned' q first different before).symm.trans scanned
    · exact sound.alone q r first second before before' scanned scanned'
  one := by
    intro unscanned
    apply one (unscanned p party (update_self p _ _))
    exact fun q other different isOther => unscanned q other (updated_iff.mpr (.inr ⟨different, isOther⟩))

theorem Party.Sound.unscanned (sound : party.Sound config dir g) (scanned : party.scanned = false) :
    party.Sound config dir' g :=
  ⟨sound.obeys, sound.unread, fun yes => absurd (scanned.symm.trans yes) (by decide), sound.between⟩

theorem Party.Sound.subset (sound : party.Sound config dir g) (subset : dir' ⊆ dir) :
    party.Sound config dir' g :=
  ⟨sound.obeys, sound.unread, fun scanned => (sound.fits scanned).subset subset, sound.between⟩

/-- Before its scan a party does not change the tokens. -/
theorem unread_effect (permitted : Phase.unread.permits config op) (noScan : op.isScan = false)
    (effect : op.effect dir = some dir') : dir' ⊆ dir ∧ ∀ read, Phase.unread.after read op = .unread := by
  cases op with
  | scan leaves => cases noScan
  | rename | create => exact permitted.elim
  | look file present =>
    simp only [FileOp.effect] at effect
    split_ifs at effect
    cases effect
    exact ⟨Finset.Subset.refl _, fun _ => rfl⟩
  | unlink file =>
    cases effect
    exact ⟨Finset.erase_subset _ _, fun _ => rfl⟩
  | other =>
    cases effect
    exact ⟨Finset.Subset.refl _, fun _ => rfl⟩

theorem World.Sound.call {replies : Replies N} (sound : w.Sound config)
    (orderly : Orderly config w (.call p replies)) (called : w.call p replies = some v) :
    v.Sound config := by
  obtain ⟨party, op, rest, dir, isParty, next, effect, rfl⟩ := World.call_eq called
  obtain ⟨trusted, exclusive⟩ := orderly party op rest isParty next
  obtain ⟨g, here⟩ := sound.parties p party isParty
  obtain ⟨permitted, read, reading, goesOn⟩ := here.obeys.next next trusted
  have between := between_after reading permitted here.between
  cases scan : op.isScan with
  | true =>
    -- the scan of a party that is alone with the directory
    obtain ⟨leaves, rfl⟩ : ∃ leaves, op = .scan leaves := by
      cases op <;> first | exact ⟨_, rfl⟩ | cases scan
    obtain ⟨readable, others⟩ := exclusive rfl
    obtain rfl : g = .unread := by cases g <;> first | rfl | exact permitted.elim
    have unscanned : party.scanned = false := by
      cases scanned : party.scanned with
      | false => rfl
      | true => exact (here.fits scanned).elim
    have here : ∀ other, w.parties p = some other → other.scanned = false := by
      simpa [isParty] using unscanned
    have one := sound.one (World.Others.all others here)
    obtain ⟨rfl, fits⟩ := fits_read reading one readable effect
    refine sound.update ⟨_, goesOn, by simp, fun _ => fits, between⟩ ?_ (fun _ => others) (by simp)
    exact fun q other _ isOther => sound.parties q other isOther
  | false =>
    simp only [Bool.or_false]
    cases scanned : party.scanned with
    | true =>
      have others : w.Others p := by
        intro q other different isOther
        by_contra yes
        exact different (sound.alone q p other party isOther isParty (by simpa using yes) scanned)
      refine sound.update ⟨_, goesOn, by simp,
        fun _ => (here.fits scanned).after permitted trusted effect, between⟩ ?_
          (fun _ => others) (by simp)
      intro q other different isOther
      obtain ⟨g, elsewhere⟩ := sound.parties q other isOther
      exact ⟨g, elsewhere.unscanned (others q other different isOther)⟩
    | false =>
      obtain rfl := here.unread scanned
      obtain ⟨subset, stays⟩ := unread_effect permitted scan effect
      refine sound.update ⟨_, goesOn, fun _ => stays read, by simp, between⟩ ?_ ?_ ?_
      · intro q other different isOther
        obtain ⟨g, elsewhere⟩ := sound.parties q other isOther
        exact ⟨g, elsewhere.subset subset⟩
      · simp
      · exact fun _ others => OneToken.subset
          (sound.one (others.all (by simpa [isParty] using scanned))) subset

theorem World.Sound.enter {task : Task N} (sound : w.Sound config) (obeys : task.Obeys config .unread)
    (entered : w.enter p task = some v) : v.Sound config := by
  unfold World.enter at entered
  cases vacant : w.parties p with
  | some party => simp [vacant] at entered
  | none =>
    simp only [vacant, Option.some.injEq] at entered
    subst entered
    refine sound.update ⟨.unread, obeys, fun _ => rfl, by
      simp, fun double => absurd trivial double⟩ ?_ ?_ ?_
    · exact fun q other _ isOther => sound.parties q other isOther
    · simp
    · exact fun _ others => sound.one (others.all (by simp [vacant]))

theorem Fits.oneToken (fits : Fits config dir g) (settled : g.settled) :
    ReplanRun.OneToken config dir := by
  cases g with
  | unread => exact fits.elim
  | one => exact fits
  | known n => exact fits.1
  | double n => exact settled.elim

theorem Task.Obeys.settled {task : Task N} (obeys : task.Obeys config g)
    (ended : task.ended = true) : g.settled := by
  rcases task with (outcome | _) | (outcome | _)
  · exact obeys
  · cases ended
  · exact obeys
  · cases ended

/-- When no party is between its renames there is one token, whoever has scanned. -/
theorem World.Sound.oneToken (sound : w.Sound config)
    (settled : ∀ p party g, w.parties p = some party → party.Sound config w.dir g → g.settled) :
    ReplanRun.OneToken config w.dir := by
  by_cases unscanned : ∀ p party, w.parties p = some party → party.scanned = false
  · exact sound.one unscanned
  · push Not at unscanned
    obtain ⟨p, party, isParty, scanned⟩ := unscanned
    obtain ⟨g, here⟩ := sound.parties p party isParty
    exact (here.fits (by simpa using scanned)).oneToken (settled p party g isParty here)

theorem World.Sound.finish (sound : w.Sound config) (isParty : w.parties p = some party)
    (ended : party.task.ended = true) :
    World.Sound config { w with parties := Function.update w.parties p none } := by
  have elsewhere {q : Nat} {other : Party N} (isOther : Function.update w.parties p none q = some other) :
      w.parties q = some other := by
    rcases updated_iff.mp isOther with ⟨-, ⟨⟩⟩ | ⟨-, before⟩
    exact before
  refine ⟨?_, ?_, ?_⟩
  · exact fun q other isOther => sound.parties q other (elsewhere isOther)
  · exact fun q r first second isFirst isSecond =>
      sound.alone q r first second (elsewhere isFirst) (elsewhere isSecond)
  · intro unscanned
    obtain ⟨g, here⟩ := sound.parties p party isParty
    cases scanned : party.scanned with
    | true => exact (here.fits scanned).oneToken (here.obeys.settled ended)
    | false =>
      have others : w.Others p := fun q other different isOther =>
        unscanned q other (updated_iff.mpr (.inr ⟨different, isOther⟩))
      exact sound.one (others.all (by simpa [isParty] using scanned))

theorem World.Sound.step [DecidableEq N] {a : Action N} (sound : w.Sound config)
    (orderly : Orderly config w a) (taken : step config w a = some v) : v.Sound config := by
  cases a with
  | submission p request =>
    have obeys : Task.Obeys config .unread (.submission (activation config request)) :=
      activation_obeys request
    exact sound.enter obeys taken
  | replan p =>
    have obeys : Task.Obeys (N := N) config .unread (.replan (Replan.pass config ())) := pass_obeys
    exact sound.enter obeys taken
  | call p replies => exact sound.call orderly taken
  | finish p =>
    simp only [TokenRun.step] at taken
    split at taken
    · rename_i party isParty
      split_ifs at taken with ended
      cases taken
      exact sound.finish isParty ended
    · cases taken
  | remove file =>
    cases taken
    refine ⟨fun p party isParty => ?_, sound.alone, fun unscanned => ?_⟩
    · obtain ⟨g, here⟩ := sound.parties p party isParty
      exact ⟨g, here.subset (Finset.erase_subset _ _)⟩
    · exact OneToken.subset (sound.one unscanned) (Finset.erase_subset _ _)

def tokens (config : Config) (dir : Finset Bytes) : Finset Bytes := dir.filter fun f => isToken config f

theorem oneToken_iff : ReplanRun.OneToken config dir ↔ (tokens config dir).card ≤ 1 := by
  simp only [Finset.card_le_one, tokens, Finset.mem_filter, ReplanRun.OneToken]
  exact ⟨fun one f first g second => one f first.1 g second.1 first.2 second.2,
    fun one f inDir g inDir' first second => one f ⟨inDir, first⟩ g ⟨inDir', second⟩⟩

/-- Along every orderly run there is at most one token whenever no activation is between its
renames. -/
theorem one_token [DecidableEq N] (config : Config) (dir : Finset Bytes)
    (single : (tokens config dir).card ≤ 1)
    (w : World N) (run : Runs (step config) (.start dir) (Orderly config) w)
    (between : ∀ p party, w.parties p = some party → party.between = false) :
    (tokens config w.dir).card ≤ 1 := by
  have initial : World.Sound config (World.start dir : World N) :=
    ⟨nofun, nofun, fun _ => oneToken_iff.mpr single⟩
  have sound : w.Sound config :=
    run.invariant initial fun _ _ _ sound orderly taken => sound.step orderly taken
  apply oneToken_iff.mp (sound.oneToken fun p party g isParty here => ?_)
  by_contra double
  have yes := here.between double
  rw [between p party isParty] at yes
  cases yes

/-! Concrete runs. -/

def request (command : Command) : SubmitState Unit :=
  ⟨command, "job", .single, ⟨some 3, some 3, none, none⟩, .start, [], 0⟩

def replies (leaves : List Bytes) : Replies Unit where
  submission
    | .originalJdl => .ok (some (.ok ⟨some 3, some 3, none, none⟩))
    | .scan => some leaves
    | .rename source _ => if source = tokenName .sample 0 then some .noEntry else none
    | c => Answers.quiet c
  replan := ReplanRun.willing leaves

instance (op : FileOp) : Decidable op.trusted := by
  unfold FileOp.trusted
  split <;> infer_instance

def Solo (w : World Unit) : Action Unit → Prop
  | .submission p _ => p = 0
  | .call p both => p = 0 ∧ ∀ party ∈ w.parties p, ∀ next ∈ party.task.next both,
      next.1.trusted ∧ (next.1.isScan = true → w.dir = ∅)
  | _ => False

instance (w : World Unit) (a : Action Unit) : Decidable (Solo w a) := by
  unfold Solo
  split <;> infer_instance

def World.Lone (w : World Unit) : Prop := ∀ q, q ≠ 0 → w.parties q = none

theorem World.Lone.step {w v : World Unit} {a : Action Unit} (lone : w.Lone) (solo : Solo w a)
    (taken : step config w a = some v) : v.Lone := by
  cases a with
  | submission p request =>
    obtain rfl : p = 0 := solo
    simp only [TokenRun.step, World.enter] at taken
    split at taken
    · cases taken
    · cases taken
      exact fun q other => (update_of_ne other _ _).trans (lone q other)
  | call p both =>
    obtain ⟨rfl, _⟩ := solo
    obtain ⟨party, op, rest, dir, _, _, _, rfl⟩ := World.call_eq taken
    exact fun q other => (update_of_ne other _ _).trans (lone q other)
  | _ => exact solo.elim

theorem World.Lone.orderly {w : World Unit} {a : Action Unit} (lone : w.Lone) (solo : Solo w a) :
    Orderly config w a := by
  cases a with
  | call p both =>
    obtain ⟨rfl, allowed⟩ := solo
    intro party op rest isParty next
    obtain ⟨trusted, empty⟩ := allowed party isParty (op, rest) next
    refine ⟨trusted, fun scan => ⟨?_, fun q other different isOther => ?_⟩⟩
    · rw [empty scan]
      exact fun f member => absurd member (Finset.notMem_empty f)
    · rw [lone q different] at isOther
      cases isOther
  | _ => trivial

/-- The submission of a job, from an empty directory to the token in place. -/
theorem one_token_submitted : ∃ w : World Unit,
    Runs (step .sample) (.start ∅) (Orderly .sample) w ∧ w.dir = {tokenName .sample 0} ∧
      (tokens .sample w.dir).card ≤ 1 := by
  obtain ⟨w, done⟩ : ∃ w, execute (step .sample) Solo (.start ∅)
      (.submission 0 (request .jobsubmit) :: List.replicate 9 (.call 0 (replies []))) = some w := ⟨_, rfl⟩
  have run : Runs (step .sample) (.start ∅) (Orderly .sample) w :=
    (Runs.start.execute done).guarded (fun _ _ => rfl)
      (fun _ _ _ lone solo taken => World.Lone.step lone solo taken)
      (fun _ _ _ lone solo _ => World.Lone.orderly lone solo)
  cases done
  refine ⟨_, run, rfl, one_token .sample ∅ (by decide) _ run ?_⟩
  intro p party isParty
  rcases p with _ | p
  · cases isParty
    rfl
  · cases isParty

/-- A resubmission and a replan have read the same number; the replan renames the token, and
the resubmission takes it for missing and makes a new one. -/
theorem two_tokens : ∃ w : World Unit, Runs (step .sample) (.start {tokenName .sample 0}) Free w ∧
      (∀ p, w.parties p = none) ∧ w.dir = {tokenName .sample 0, tokenName .sample 1} ∧
      ¬ (tokens .sample w.dir).card ≤ 1 := by
  let both := replies [tokenName .sample 0]
  obtain ⟨w, done⟩ : ∃ w, execute (step .sample) Free (.start {tokenName .sample 0})
      (.submission 0 (request .jobresubmit) :: List.replicate 6 (.call 0 both) ++
        .replan 1 :: List.replicate 11 (.call 1 both) ++ .finish 1 ::
        List.replicate 7 (.call 0 both) ++ [.finish 0]) = some w := ⟨_, rfl⟩
  have run := Runs.start.execute done
  have dir : w.dir = {tokenName .sample 0, tokenName .sample 1} := by
    cases done
    rfl
  refine ⟨w, run, ?_, dir, ?_⟩
  · cases done
    intro p
    rcases p with _ | _ | p <;> rfl
  · rw [dir]
    decide

end Wms.Manager.TokenRun
