import Mathlib.Data.List.Induction
import Mathlib.Data.List.TakeWhile
import Mathlib.Data.List.TakeDrop
import Mathlib.Data.Nat.Digits.Defs

/-! Fixed-width numerals as a formatted stream prints and reads them.

A number is printed in a base with a minimal width and zero fill. Reading takes
the longest run of digits of the base. A number that fits its width is read back
exactly, whatever follows the run.
-/

set_option autoImplicit false

namespace Wms.Lib

open List

abbrev Bytes := List Char

/-- The value of a digit; both cases of the hexadecimal letters are read. -/
def digitVal (c : Char) : Option Nat :=
  if '0' ≤ c ∧ c ≤ '9' then some (c.toNat - 48)
  else if 'a' ≤ c ∧ c ≤ 'f' then some (c.toNat - 87)
  else if 'A' ≤ c ∧ c ≤ 'F' then some (c.toNat - 55)
  else none

def isDigitOf (base : Nat) (c : Char) : Bool :=
  match digitVal c with
  | some d => d < base
  | none => false

def numeralValue (base : Nat) (digits : Bytes) : Nat :=
  digits.foldl (fun acc c => acc * base + (digitVal c).getD 0) 0

/-- `setfill('0') << setw(width)`: longer numbers are printed in full. -/
def numeral (base width n : Nat) : Bytes := (Nat.toDigits base n).leftpad width '0'

theorem isDigitOf_mono {low high : Nat} {c : Char} (le : low ≤ high) (digit : isDigitOf low c = true) :
    isDigitOf high c = true := by
  unfold isDigitOf at digit ⊢
  cases value : digitVal c with
  | none => simp [value] at digit
  | some d => simp only [value, decide_eq_true_eq] at digit ⊢; exact Nat.lt_of_lt_of_le digit le

theorem digitVal_digitChar {d : Nat} (small : d < 16) : digitVal d.digitChar = some d := by
  revert d
  decide

variable {base : Nat}

theorem isDigitOf_digitChar {d : Nat} (bound : base ≤ 16) (small : d < base) :
    isDigitOf base d.digitChar = true := by
  simp [isDigitOf, digitVal_digitChar (Nat.lt_of_lt_of_le small bound), small]

theorem numeralValue_append (base : Nat) (front : Bytes) (c : Char) :
    numeralValue base (front ++ [c]) = numeralValue base front * base + (digitVal c).getD 0 := by
  simp [numeralValue]

theorem numeralValue_toDigits (low : 1 < base) (high : base ≤ 16) (n : Nat) :
    numeralValue base (Nat.toDigits base n) = n := by
  induction n using Nat.strong_induction_on with
  | _ n ih =>
    rw [Nat.toDigits_eq_if low]
    split
    · rename_i small
      simp [numeralValue, digitVal_digitChar (Nat.lt_of_lt_of_le small high)]
    · rename_i large
      have last : n % base < 16 := Nat.lt_of_lt_of_le (Nat.mod_lt _ (by omega)) high
      rw [numeralValue_append, ih (n / base) (Nat.div_lt_self (by omega) low),
        digitVal_digitChar last, Option.getD_some]
      exact Nat.div_add_mod' n base

theorem isDigitOf_toDigits (low : 1 < base) (high : base ≤ 16) (n : Nat) :
    ∀ c ∈ Nat.toDigits base n, isDigitOf base c = true := by
  induction n using Nat.strong_induction_on with
  | _ n ih =>
    rw [Nat.toDigits_eq_if low]
    split
    · rename_i small
      intro c member
      rw [mem_singleton] at member
      subst c
      exact isDigitOf_digitChar high small
    · intro c member
      rcases mem_append.mp member with front | last
      · exact ih _ (Nat.div_lt_self (by omega) low) c front
      · rw [mem_singleton] at last
        subst c
        exact isDigitOf_digitChar high (Nat.mod_lt _ (by omega))

theorem numeralValue_zeros (base k : Nat) (digits : Bytes) :
    numeralValue base (List.replicate k '0' ++ digits) = numeralValue base digits := by
  have zeros : numeralValue base (List.replicate k '0') = 0 := by
    induction k with
    | zero => rfl
    | succ k ih => rw [replicate_succ', numeralValue_append, ih]; simp [digitVal]
  simp only [numeralValue] at zeros
  simp only [numeralValue, foldl_append, zeros]

theorem isDigitOf_zero (low : 1 < base) : isDigitOf base '0' = true := by
  simp only [isDigitOf, digitVal]
  simp
  omega

theorem isDigitOf_numeral (low : 1 < base) (high : base ≤ 16) (width n : Nat) :
    ∀ c ∈ numeral base width n, isDigitOf base c = true := by
  intro c member
  rcases mem_append.mp member with zero | digit
  · rw [(mem_replicate.mp zero).2]
    exact isDigitOf_zero low
  · exact isDigitOf_toDigits low high n c digit

theorem numeralValue_numeral (low : 1 < base) (high : base ≤ 16) (width n : Nat) :
    numeralValue base (numeral base width n) = n := by
  simp only [numeral, List.leftpad, numeralValue_zeros, numeralValue_toDigits low high]

theorem length_numeral {width n : Nat} (low : 1 < base) (positive : 0 < width) (fits : n < base ^ width) :
    (numeral base width n).length = width := by
  have bound := (Nat.length_toDigits_le_iff low positive).mpr fits
  simp only [numeral, List.leftpad, length_append, length_replicate]
  omega

theorem numeral_ne_nil (base width n : Nat) : numeral base width n ≠ [] := by
  simp [numeral, List.leftpad]

theorem takeWhile_run {p : Char → Bool} {run rest : Bytes} (inside : ∀ c ∈ run, p c = true)
    (stop : ∀ c ∈ rest.head?, p c = false) : (run ++ rest).takeWhile p = run := by
  rw [takeWhile_append_of_pos inside]
  cases rest with
  | nil => simp
  | cons c rest => simp [stop c rfl]

theorem dropWhile_run {p : Char → Bool} {run rest : Bytes} (inside : ∀ c ∈ run, p c = true)
    (stop : ∀ c ∈ rest.head?, p c = false) : (run ++ rest).dropWhile p = rest := by
  rw [dropWhile_append_of_pos inside]
  cases rest with
  | nil => rfl
  | cons c rest => simp [stop c rfl]

end Wms.Lib
