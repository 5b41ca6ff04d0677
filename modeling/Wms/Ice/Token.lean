import Mathlib.Data.List.Forall2
import Wms.Ice.EventQuery
import Wms.Lib.Pattern

/-! The tokens of a job.

The name of a token ends in an underscore and a number, which grows each time the job is scheduled
again. The events of a job whose token is gone are discarded if the directory holds a file that fits
an expression made of the name.
-/

set_option autoImplicit false

namespace Wms.Ice

open Lib List

def basename (path : Bytes) : Bytes :=
  if path = [] then ['.']
  else match path.reverse.dropWhile (· = '/') with
    | [] => ['/']
    | last => (last.takeWhile (· ≠ '/')).reverse

def dirname (path : Bytes) : Bytes :=
  match ((path.reverse.dropWhile (· = '/')).dropWhile (· ≠ '/')).dropWhile (· = '/') with
  | [] => if path.head? = some '/' then ['/'] else ['.']
  | front => front.reverse

/-- At the last underscore, which is dropped. -/
def cutLast : Bytes → Option (Bytes × Bytes)
  | [] => none
  | c :: rest =>
    match cutLast rest with
    | some (front, back) => some (c :: front, back)
    | none => if c = '_' then some ([], rest) else none

def baseTokenFile (name : Bytes) : Bytes :=
  match cutLast name with
  | some (front, _) => front
  | none => name

def isNumber (digits : Bytes) : Bool := !digits.isEmpty && digits.all (isDigitOf 10)

/-- The characters that stand for themselves in a regular expression, and the one
that stands for any. -/
def ordinary (c : Char) : Bool := c ∉ "[]{}()\\*+?|^$".toList

/-- The expression `base_[0-9]+` for a base of ordinary characters. -/
def fits : Bytes → Bytes → Bool
  | [], c :: digits => c = '_' && isNumber digits
  | c :: base, d :: leaf => (c = '.' || c = d) && fits base leaf
  | _, [] => false

structure FileSystem where
  present : Bytes → Bool
  /-- Until the directory ends or cannot be read further. -/
  leaves : Bytes → List Bytes
  /-- The names that an expression with operators describes, unless `boost::regex` refuses it. -/
  regex : Bytes → Option (Bytes → Bool)

namespace FileSystem

variable (fs : FileSystem)

def filter (base : Bytes) : Option (Bytes → Bool) :=
  if base.all ordinary then some (fits base) else fs.regex (base ++ "_[0-9]+".toList)

/-- Nothing is returned where the expression is refused: this is not caught. -/
def existsSubsequentToken (token : Bytes) : Option Bool :=
  (fs.filter (baseTokenFile (basename token))).map (fs.leaves (dirname token)).any

/-- The table and the files answer; a command that only looks at these is told nothing else. -/
def answers (jobs : Jobs) (other : (c : Call) → Reply c) : (c : Call) → Reply c
  | .fileExists file => fs.present file.toList
  | .existsSubsequentToken file => fs.existsSubsequentToken file.toList == some true
  | c => jobs.reply other c

end FileSystem

/-! ### Tokens of the same job -/

/-- The job of a token and its number, which is 0 for a name without one. -/
def numbered (name : Bytes) : Bytes × Nat :=
  match cutLast name with
  | some (front, back) => if isNumber back then (front, numeralValue 10 back) else (name, 0)
  | none => (name, 0)

def Later (name leaf : Bytes) : Prop :=
  (numbered leaf).1 = (numbered name).1 ∧ (numbered name).2 < (numbered leaf).2
  deriving Decidable

theorem fits_append (base : Bytes) {digits : Bytes} (number : isNumber digits = true) :
    fits base (base ++ '_' :: digits) = true := by
  induction base with
  | nil => simpa [fits] using number
  | cons c base ih => simpa [fits] using ih

theorem cutLast_some {name front back : Bytes} (cut : cutLast name = some (front, back)) :
    name = front ++ '_' :: back := by
  induction name generalizing front with
  | nil => cases cut
  | cons c rest ih =>
    rw [cutLast] at cut
    split at cut
    · next found => cases cut; rw [ih found, cons_append]
    · split at cut
      · next underscore => cases cut; rw [underscore, nil_append]
      · cases cut

theorem cutLast_append (front : Bytes) {digits : Bytes} (number : isNumber digits = true) :
    cutLast (front ++ '_' :: digits) = some (front, digits) := by
  have whole : cutLast digits = none := by
    have digit : ∀ c ∈ digits, isDigitOf 10 c = true := all_eq_true.mp ((Bool.and_eq_true _ _).mp number).2
    clear number
    induction digits with
    | nil => rfl
    | cons c rest ih =>
      have other : c ≠ '_' := by
        rintro rfl
        exact absurd (digit _ mem_cons_self) (by decide)
      simp [cutLast, ih fun d member => digit d (mem_cons_of_mem _ member), other]
  induction front with
  | nil => simp [cutLast, whole]
  | cons c front ih => simp [cutLast, ih]

theorem numbered_append (front : Bytes) {digits : Bytes} (number : isNumber digits = true) :
    numbered (front ++ '_' :: digits) = (front, numeralValue 10 digits) := by
  simp [numbered, cutLast_append front number, number]

def Alike (base front : Bytes) : Prop := Forall₂ (fun c d => c = '.' ∨ c = d) base front

theorem fits_iff {base leaf : Bytes} : fits base leaf = true ↔
    ∃ front digits, leaf = front ++ '_' :: digits ∧ isNumber digits = true ∧ Alike base front := by
  constructor
  · intro fit
    fun_induction fits base leaf with
    | case1 c digits =>
      obtain ⟨same, number⟩ := (Bool.and_eq_true _ _).mp fit
      exact ⟨[], digits, by simpa using same, number, .nil⟩
    | case2 c base d leaf ih =>
      obtain ⟨same, rest⟩ := (Bool.and_eq_true _ _).mp fit
      obtain ⟨front, digits, rfl, number, alike⟩ := ih rest
      exact ⟨d :: front, digits, rfl, number, .cons (by simpa using same) alike⟩
    | case3 => cases fit
  · rintro ⟨front, digits, rfl, number, alike⟩
    induction alike with
    | nil => simpa [fits] using number
    | cons same _ ih => simpa [fits, ih] using same

/-- What is left of the name is the job, or shorter. -/
theorem base_cases (name : Bytes) : baseTokenFile name = (numbered name).1 ∨
    (baseTokenFile name).length < (numbered name).1.length := by
  unfold baseTokenFile numbered
  split
  · next cut =>
    split
    · exact .inl rfl
    · right
      rw [cutLast_some cut, length_append, length_cons]
      omega
  · exact .inl rfl

theorem Alike.base_eq {name : Bytes} (alike : Alike (baseTokenFile name) (numbered name).1) :
    baseTokenFile name = (numbered name).1 := by
  have same := alike.length_eq
  rcases base_cases name with equal | shorter
  · exact equal
  · omega

/-- The token itself or an older one of its job. -/
def Stale (name leaf : Bytes) : Prop :=
  ∃ digits, leaf = baseTokenFile name ++ '_' :: digits ∧ isNumber digits = true ∧
    baseTokenFile name = (numbered name).1 ∧ numeralValue 10 digits ≤ (numbered name).2

/-- A token of another job, whose name differs from what is left of this one at most where this has
dots. -/
def Lookalike (name leaf : Bytes) : Prop :=
  ∃ front digits, leaf = front ++ '_' :: digits ∧ isNumber digits = true ∧ front ≠ (numbered name).1 ∧
    Alike (baseTokenFile name) front

theorem Later.fits {name leaf : Bytes} (later : Later name leaf) : fits (numbered name).1 leaf = true := by
  obtain ⟨same, less⟩ := later
  rw [← same]
  unfold numbered at less ⊢
  split
  · next cut =>
    split
    · next number => rw [cutLast_some cut]; exact fits_append _ number
    · next text => simp [cut, text] at less
  · next whole => simp [whole] at less

def FileSystem.Holds (fs : FileSystem) (token : Bytes) (p : Bytes → Prop) : Prop :=
  ∃ leaf ∈ fs.leaves (dirname token), p leaf

theorem fits_cases {name leaf : Bytes} : fits (baseTokenFile name) leaf = true ↔
    (Later name leaf ∧ baseTokenFile name = (numbered name).1) ∨ Stale name leaf ∨
      Lookalike name leaf := by
  constructor
  · intro fit
    obtain ⟨front, digits, rfl, number, alike⟩ := fits_iff.mp fit
    by_cases same : front = (numbered name).1
    · subst same
      have base := alike.base_eq
      by_cases less : (numbered name).2 < numeralValue 10 digits
      · exact .inl ⟨by simpa [Later, numbered_append _ number] using less, base⟩
      · exact .inr (.inl ⟨digits, by rw [base], number, base, Nat.le_of_not_lt less⟩)
    · exact .inr (.inr ⟨front, digits, rfl, number, same, alike⟩)
  · rintro (⟨later, base⟩ | ⟨digits, rfl, number, -⟩ | ⟨front, digits, rfl, number, -, alike⟩)
    · exact base ▸ later.fits
    · exact fits_append _ number
    · exact fits_iff.mpr ⟨front, digits, rfl, number, alike⟩

namespace FileSystem

variable (fs : FileSystem) (token : Bytes)

/-- A file with a later number is recognised as a token: no part of the name but its number is cut
off, or another file makes up for it. -/
def Recognised : Prop :=
  if (baseTokenFile (basename token)).all ordinary then
    baseTokenFile (basename token) = (numbered (basename token)).1 ∨
      fs.Holds token (Lookalike (basename token))
  else ∃ names, fs.regex (baseTokenFile (basename token) ++ "_[0-9]+".toList) = some names ∧
    fs.Holds token (names · = true)

/-- Neither the token, an older one nor one of a job with a similar name is in the directory. -/
def Apart : Prop :=
  if (baseTokenFile (basename token)).all ordinary then
    ¬fs.Holds token (Stale (basename token)) ∧ ¬fs.Holds token (Lookalike (basename token))
  else ∀ names, fs.regex (baseTokenFile (basename token) ++ "_[0-9]+".toList) = some names →
    ¬fs.Holds token (names · = true)

/-- The name makes an expression. -/
def Wellformed : Prop :=
  (baseTokenFile (basename token)).all ordinary = true ∨
    fs.regex (baseTokenFile (basename token) ++ "_[0-9]+".toList) ≠ none

end FileSystem

variable {fs : FileSystem} {token : Bytes} {jobs : Jobs} {other : (c : Call) → Reply c}
  {cid : String} {job : CreamJob}

theorem any_eq_true_iff {names : Bytes → Bool} :
    (fs.leaves (dirname token)).any names = true ↔ fs.Holds token (names · = true) := by
  simp [FileSystem.Holds]

theorem existsSubsequentToken_eq_none_iff : fs.existsSubsequentToken token = none ↔
    ¬fs.Wellformed token := by
  unfold FileSystem.existsSubsequentToken FileSystem.filter FileSystem.Wellformed
  split <;> simp_all

/-- Without a later token an answer of true needs a file that is not apart. -/
theorem apart_iff (missing : ¬fs.Holds token (Later (basename token))) :
    fs.Apart token ↔ fs.existsSubsequentToken token ≠ some true := by
  unfold FileSystem.existsSubsequentToken FileSystem.filter FileSystem.Apart
  split
  · rw [Option.map_some, ne_eq, Option.some.injEq, any_eq_true_iff, ← not_or, not_iff_not]
    constructor
    · rintro (⟨leaf, member, stale⟩ | ⟨leaf, member, alike⟩)
      · exact ⟨leaf, member, fits_cases.mpr (.inr (.inl stale))⟩
      · exact ⟨leaf, member, fits_cases.mpr (.inr (.inr alike))⟩
    · rintro ⟨leaf, member, fit⟩
      rcases fits_cases.mp fit with ⟨later, -⟩ | stale | alike
      · exact absurd ⟨leaf, member, later⟩ missing
      · exact .inl ⟨leaf, member, stale⟩
      · exact .inr ⟨leaf, member, alike⟩
  · simp only [ne_eq, Option.map_eq_some_iff, any_eq_true_iff, not_exists, not_and]

/-- With a later token it is found if it is recognised. -/
theorem recognised_iff (there : fs.Holds token (Later (basename token))) :
    fs.Recognised token ↔ fs.existsSubsequentToken token = some true := by
  unfold FileSystem.existsSubsequentToken FileSystem.filter FileSystem.Recognised
  split
  · rw [Option.map_some, Option.some.injEq, any_eq_true_iff]
    obtain ⟨leaf, member, later⟩ := there
    constructor
    · rintro (base | ⟨leaf, member, alike⟩)
      · exact ⟨leaf, member, fits_cases.mpr (.inl ⟨later, base⟩)⟩
      · exact ⟨leaf, member, fits_cases.mpr (.inr (.inr alike))⟩
    · rintro ⟨leaf, member, fit⟩
      rcases fits_cases.mp fit with ⟨-, base⟩ | ⟨_, _, _, base, _⟩ | alike
      · exact .inl base
      · exact .inl base
      · exact .inr ⟨leaf, member, alike⟩
  · simp only [Option.map_eq_some_iff, any_eq_true_iff]

theorem ignoreJob_none_iff (found : jobs.getJobByCid cid = some job) (started : job.creamJobId ≠ "")
    (named : job.tokenFile ≠ "") : (ignoreJob cid).result (fs.answers jobs other) () = (.ok none, ()) ↔
      fs.present job.tokenFile.toList = false ∧
        fs.existsSubsequentToken job.tokenFile.toList = some true := by
  have asked : fs.answers jobs other (.getJobByCid cid) = some job := found
  refine (iff_of_eq (congrArg (· = _) (Dialog.result_bind_ok
    (congrArg (·, ()) (congrArg _ asked))))).trans ?_
  simp only [started, named, if_false]
  refine (iff_of_eq (congrArg (· = _) (Dialog.result_bind_ok rfl))).trans ?_
  change Dialog.result _ (if fs.present _ = true then _ else _) () = _ ↔ _
  cases fs.present job.tokenFile.toList with
  | true => simp
  | false =>
    refine (iff_of_eq (congrArg (· = _) (Dialog.result_bind_ok rfl))).trans ?_
    change Dialog.result _ (pure (if (fs.existsSubsequentToken _ == some true) = true then _
      else _)) () = _ ↔ _
    by_cases told : fs.existsSubsequentToken job.tokenFile.toList = some true <;> simp [told]

/-- A later token is found exactly if it is recognised, and its absence is told exactly if the name
makes an expression and the directory holds neither the token, an older one nor one of a job with a
similar name. The events of a job whose token is gone are discarded without a later token exactly if
it holds one of these. -/
theorem subsequent_token_iff_later (found : jobs.getJobByCid cid = some job)
    (started : job.creamJobId ≠ "") (named : job.tokenFile ≠ "") :
    let token := job.tokenFile.toList
    let later := fs.Holds token (Later (basename token))
    ((∃ answer, fs.existsSubsequentToken token = some answer ∧ (answer = true ↔ later)) ↔
      (later ∧ fs.Recognised token) ∨ (¬later ∧ fs.Wellformed token ∧ fs.Apart token)) ∧
    (((ignoreJob cid).result (fs.answers jobs other) () = (.ok none, ()) → later) ↔
      fs.present token = true ∨ later ∨ fs.Apart token) := by
  intro token later
  have refused : fs.existsSubsequentToken token = none ↔ ¬fs.Wellformed token :=
    existsSubsequentToken_eq_none_iff
  rw [ignoreJob_none_iff found started named]
  by_cases there : later
  · have recognised : fs.Recognised token ↔ _ := recognised_iff there
    simp [there, recognised]
  · have apart : fs.Apart token ↔ _ := apart_iff there
    cases told : fs.existsSubsequentToken token with
    | none =>
      have broken := refused.mp told
      simp [there, apart, broken, told, token]
    | some answer =>
      have wellformed : fs.Wellformed token := by
        by_contra broken
        cases told.symm.trans (refused.mpr broken)
      cases answer <;> simp [there, apart, wellformed, told, token]

def tokenJob : CreamJob := { doneJob with tokenFile := "job/token.txt_2" }

def oneFile (leaf : String) : FileSystem := ⟨fun _ => false, fun _ => [leaf.toList], fun _ => none⟩

theorem later_token_found :
    ∃ answer, (oneFile "token.txt_3").existsSubsequentToken "job/token.txt_2".toList = some answer ∧
      (answer = true ↔ (oneFile "token.txt_3").Holds "job/token.txt_2".toList
        (Later "token.txt_2".toList)) :=
  (@subsequent_token_iff_later _ [tokenJob] obliging "https://ce/CREAM1" tokenJob rfl (by decide)
    (by decide)).1.mpr
    (.inl ⟨⟨_, mem_cons_self, by decide⟩, .inl rfl⟩)

/-- The events are discarded because of an older token; a later one is not found
if the name has no number. -/
theorem older_token_found :
    (ignoreJob "https://ce/CREAM1").result ((oneFile "token.txt_1").answers [tokenJob] obliging)
      () = (.ok none, ()) ∧
    ¬(oneFile "token.txt_1").Holds "job/token.txt_2".toList (Later "token.txt_2".toList) ∧
    (oneFile "my_token_1").existsSubsequentToken "job/my_token".toList = some false ∧
    (oneFile "my_token_1").Holds "job/my_token".toList (Later "my_token".toList) := by
  refine ⟨rfl, ?_, by decide, ⟨_, mem_cons_self, by decide⟩⟩
  rintro ⟨leaf, member, later⟩
  cases mem_singleton.mp member
  revert later
  decide

end Wms.Ice
