import Mathlib.Tactic.Positivity
import Wms.Manager.Bookkeeping

/-! Limits and token files of a job (`submission_utils.cpp`).

A job that may be resubmitted without having run is marked by a token file in its
directory; the number in the name of the file is the number of replans of the job. The
submit processor and the replanner find the number by scanning the directory and reading
the end of the name as a `float`.
-/

set_option autoImplicit false

namespace Wms.Manager

open Lib

structure Config where
  maxRetryCount : Int
  maxShallowRetryCount : Int
  maxReplansCount : Int
  expiryPeriod : Int
  matchRetryPeriod : Int
  tokenFile : Bytes
  /-- The number that a text is read as which the manager does not put at the end of a name; nothing
  where `lexical_cast` throws. Negative numbers are left out. -/
  otherNumber : Bytes → Option Nat

def Config.sample : Config := ⟨10, 10, 5, 86400, 600, ['t', 'o', 'k', 'e', 'n'], fun _ => none⟩

structure Ad where
  retryCount : Option Int
  shallowRetryCount : Option Int
  replansCount : Option Int
  expiryTime : Option Int
  deriving DecidableEq, Repr

def Ad.empty : Ad := ⟨none, none, none, none⟩

inductive Thrown where
  | invalidArgument (what : String)
  | manipulation (what : String)
  | wmsException (what : String)
  | lbQueryFailed
  | lbQueryTemporarilyFailed
  | hitMaxRetryCount (count : Int)
  | hitJobRetryCount (count : Int)
  | hitMaxShallowCount (count : Int)
  | hitJobShallowCount (count : Int)
  | cannotRetrieveJDL
  | helperError (what : String)
  | cannotCreateToken
  | cannotDeliverFatal
  | cannotCreateLBContext (code : Int)
  | stdException (what : String)
  | unknown
  deriving DecidableEq, Repr

def QueryError.thrown : QueryError → Thrown
  | .failed => .lbQueryFailed
  | .temporarilyFailed => .lbQueryTemporarilyFailed

/-- An absent or negative limit of the job counts as zero. -/
def jobLimit (limit : Option Int) : Int :=
  match limit with
  | some n => if n < 0 then 0 else n
  | none => 0

def checkShallowCount (config : Config) (ad : Ad) (count : Int) : Except Thrown Unit :=
  let jobShallowCount := jobLimit ad.shallowRetryCount
  let maxShallowCount := if config.maxShallowRetryCount < 0 then 0 else config.maxShallowRetryCount
  if count ≥ jobShallowCount then .error (.hitJobShallowCount jobShallowCount)
  else if count ≥ maxShallowCount then .error (.hitMaxShallowCount maxShallowCount)
  else .ok ()

def checkDeepCount (config : Config) (ad : Ad) (count : Int) : Except Thrown Unit :=
  let jobRetryCount := jobLimit ad.retryCount
  -- unlike the shallow maximum this one is not raised to zero
  let maxRetryCount := config.maxRetryCount
  if count ≥ jobRetryCount then .error (.hitJobRetryCount jobRetryCount)
  else if count ≥ maxRetryCount then .error (.hitMaxRetryCount maxRetryCount)
  else .ok ()

def getJobShallowCount (ad : Ad) : Int := ad.shallowRetryCount.getD 0

def shallowResubmissionIsEnabled (ad : Ad) : Bool := getJobShallowCount ad ≠ -1

/-! ### Token files -/

def tokenName (config : Config) (replansCount : Nat) : Bytes :=
  config.tokenFile ++ '_' :: numeral 10 1 replansCount

/-- The token while a submission works on it; the trailing point keeps it a number. -/
def tmpTokenName (config : Config) (replansCount : Nat) : Bytes :=
  tokenName config replansCount ++ ['.']

/-- The regular expression `token_file + "_.*"`, in which a point matches any character. -/
def isToken (config : Config) (leaf : Bytes) : Bool :=
  let stem := config.tokenFile ++ ['_']
  decide (stem.length ≤ leaf.length) &&
    (List.zipWith (fun expected c => expected = '.' || expected = c) stem leaf).all id

/-- The nearest number a `float` represents, half way to the even neighbour. -/
def toFloat (n : Nat) : Nat :=
  let unit := 2 ^ (Nat.log2 n - 23)
  let low := n / unit
  let rest := n % unit
  if 2 * rest < unit ∨ 2 * rest = unit ∧ low % 2 = 0 then low * unit else (low + 1) * unit

/-- `int(lexical_cast<float>(...))` of what follows the last underscore: the names made
here end in digits, with a point behind them while a submission is under way. -/
def tokenNumber (config : Config) (leaf : Bytes) : Option Nat :=
  let digits := (leaf.reverse.takeWhile (· ≠ '_')).reverse
  let whole := digits.takeWhile (isDigitOf 10)
  if whole ≠ [] ∧ (digits.drop whole.length = [] ∨ digits.drop whole.length = ['.']) then
    some (toFloat (numeralValue 10 whole))
  else config.otherNumber digits

/-! The names of token files can be read back as long as a `float` holds their number. -/

open List

variable {config : Config}

variable {n : Nat} {rest file : Bytes}

/-- A `float` has 24 significant bits. -/
theorem toFloat_exact (small : n ≤ 2 ^ 24) : toFloat n = n := by
  rcases Nat.eq_or_lt_of_le small with rfl | small
  · decide
  have log : Nat.log2 n - 23 = 0 := by
    rcases Nat.eq_zero_or_pos n with rfl | positive
    · rfl
    · have := (Nat.log2_lt (by omega)).mpr small
      omega
  simp [toFloat, log, Nat.mod_one]

theorem le_toFloat {k : Nat} (small : k ≤ 2 ^ 24) (le : k ≤ n) : k ≤ toFloat n := by
  rcases le_or_gt n (2 ^ 24) with below | large
  · rwa [toFloat_exact below]
  have log : 24 ≤ Nat.log2 n := (Nat.le_log2 (by omega)).mpr large.le
  -- more than 23 bits are left before the unit, which is even
  have unit : 2 ^ 24 ≤ n / 2 ^ (Nat.log2 n - 23) * 2 ^ (Nat.log2 n - 23) := by
    have low : 2 ^ 23 ≤ n / 2 ^ (Nat.log2 n - 23) := by
      rw [Nat.le_div_iff_mul_le (by positivity), ← pow_add,
        show 23 + (Nat.log2 n - 23) = Nat.log2 n by omega]
      exact Nat.log2_self_le (by omega)
    calc 2 ^ 24 = 2 ^ 23 * 2 ^ 1 := by norm_num
      _ ≤ _ := Nat.mul_le_mul low (Nat.pow_le_pow_right (by omega) (by omega))
  unfold toFloat
  dsimp only
  split_ifs
  · exact small.trans unit
  · rw [Nat.add_mul]
    omega

theorem isToken_stem (rest : Bytes) : isToken config (config.tokenFile ++ '_' :: rest) = true := by
  have same (stem rest : Bytes) :
      (List.zipWith (fun expected c => expected = '.' || expected = c) stem (stem ++ rest)).all id =
        true := by
    induction stem with
    | nil => rfl
    | cons c stem ih => simpa using ih
  have split : config.tokenFile ++ '_' :: rest = (config.tokenFile ++ ['_']) ++ rest := by simp
  simp only [isToken, split, same, Bool.and_true, decide_eq_true_eq]
  simp

theorem afterUnderscore {stem : Bytes} (nothing : ∀ c ∈ rest, c ≠ '_') :
    ((stem ++ '_' :: rest).reverse.takeWhile (· ≠ '_')).reverse = rest := by
  have split : (stem ++ '_' :: rest).reverse = rest.reverse ++ '_' :: stem.reverse := by simp
  rw [split, takeWhile_run, reverse_reverse]
  · intro c member
    simpa using nothing c (mem_reverse.mp member)
  · rintro c ⟨⟩
    rfl

theorem upToUnderscore {stem : Bytes} (nothing : ∀ c ∈ rest, c ≠ '_') :
    ((stem ++ '_' :: rest).reverse.dropWhile (· ≠ '_')).reverse = stem ++ ['_'] := by
  have split : (stem ++ '_' :: rest).reverse = rest.reverse ++ '_' :: stem.reverse := by simp
  rw [split, dropWhile_append_of_pos]
  · simp
  · intro c member
    simpa using nothing c (mem_reverse.mp member)

theorem digits_ne_underscore (n : Nat) : ∀ c ∈ numeral 10 1 n, c ≠ '_' := by
  rintro c member rfl
  have digit := isDigitOf_numeral (by omega) (by omega) 1 n '_' member
  revert digit
  decide

theorem digits_takeWhile (n : Nat) (stop : rest = [] ∨ rest = ['.']) :
    (numeral 10 1 n ++ rest).takeWhile (isDigitOf 10) = numeral 10 1 n := by
  apply takeWhile_run (isDigitOf_numeral (by omega) (by omega) 1 n)
  rcases stop with rfl | rfl
  · simp
  · rintro c ⟨⟩
    decide

def IsTokenOf (config : Config) (n : Nat) (file : Bytes) : Prop :=
  file = tokenName config n ∨ file = tmpTokenName config n

theorem IsTokenOf.eq (named : IsTokenOf config n file) :
    ∃ rest, (rest = [] ∨ rest = ['.']) ∧ file = config.tokenFile ++ '_' :: (numeral 10 1 n ++ rest) := by
  rcases named with rfl | rfl
  · exact ⟨[], .inl rfl, by simp [tokenName]⟩
  · exact ⟨['.'], .inr rfl, by simp [tmpTokenName, tokenName]⟩

theorem suffix_ne_underscore (n : Nat) (stop : rest = [] ∨ rest = ['.']) :
    ∀ c ∈ numeral 10 1 n ++ rest, c ≠ '_' := by
  intro c member
  rcases mem_append.mp member with digit | last
  · exact digits_ne_underscore n c digit
  · rcases stop with rfl | rfl
    · cases last
    · rw [mem_singleton.mp last]
      decide

theorem IsTokenOf.isToken (named : IsTokenOf config n file) : isToken config file = true := by
  obtain ⟨rest, _, rfl⟩ := named.eq
  exact isToken_stem _

theorem IsTokenOf.tokenNumber (named : IsTokenOf config n file) : tokenNumber config file = some
    (toFloat n) := by
  obtain ⟨rest, stop, rfl⟩ := named.eq
  simp only [Manager.tokenNumber, afterUnderscore (suffix_ne_underscore n stop), digits_takeWhile n stop,
    numeralValue_numeral (by omega : 1 < 10) (by omega)]
  rw [if_pos]
  exact ⟨numeral_ne_nil 10 1 n, by simpa using stop⟩

theorem IsTokenOf.upToUnderscore (named : IsTokenOf config n file) :
    (file.reverse.dropWhile (· ≠ '_')).reverse = config.tokenFile ++ ['_'] := by
  obtain ⟨rest, stop, rfl⟩ := named.eq
  exact Manager.upToUnderscore (suffix_ne_underscore n stop)

end Wms.Manager
