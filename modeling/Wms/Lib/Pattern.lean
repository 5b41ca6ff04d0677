import Wms.Lib.Numeral

/-! Anchored patterns: a sequence of runs of character classes.

A run takes as many characters of its class as it may. This decides the usual
regular expression exactly when the classes of adjacent runs are disjoint, as
they are in a sequence of fields and separators.
-/

set_option autoImplicit false

namespace Wms.Lib

open List

variable {base : Nat}

structure Run where
  cls : Char → Bool
  low : Nat
  high : Option Nat

def Run.some (cls : Char → Bool) : Run := ⟨cls, 1, none⟩

def Run.many (cls : Char → Bool) : Run := ⟨cls, 0, none⟩

def Run.one (cls : Char → Bool) : Run := ⟨cls, 1, Option.some 1⟩

def Run.take (r : Run) (l : Bytes) : Bytes :=
  match r.high with
  | none => l.takeWhile r.cls
  | Option.some k => (l.take k).takeWhile r.cls

def matchRuns : List Run → Bytes → Bool
  | [], l => l.isEmpty
  | r :: rs, l => decide (r.low ≤ (r.take l).length) && matchRuns rs (l.drop (r.take l).length)

variable {cls : Char → Bool} {rs : List Run} {rest : Bytes}

theorem matchRuns_some {run : Bytes} (inside : ∀ c ∈ run, cls c = true) (nonempty : run ≠ [])
    (stop : ∀ c ∈ rest.head?, cls c = false) : matchRuns (Run.some cls :: rs)
      (run ++ rest) = matchRuns rs rest := by
  have taken : (Run.some cls).take (run ++ rest) = run := takeWhile_run inside stop
  have positive : 1 ≤ run.length := length_pos_iff.mpr nonempty
  rw [matchRuns, taken, drop_left]
  simp [Run.some, positive]

theorem matchRuns_many {run : Bytes} (inside : ∀ c ∈ run, cls c = true)
    (stop : ∀ c ∈ rest.head?, cls c = false) :
    matchRuns (Run.many cls :: rs) (run ++ rest) = matchRuns rs rest := by
  have taken : (Run.many cls).take (run ++ rest) = run := takeWhile_run inside stop
  rw [matchRuns, taken, drop_left]
  simp [Run.many]

theorem matchRuns_one {c : Char} (inside : cls c = true) :
    matchRuns (Run.one cls :: rs) (c :: rest) = matchRuns rs rest := by
  simp [matchRuns, Run.take, Run.one, inside]

/-! Runs that are numerals and blanks. -/

section Numerals

variable (low : 1 < base) (high : base ≤ 16)
include low high

theorem head_numeral (width n : Nat) (rest : Bytes) :
    ∀ c ∈ (numeral base width n ++ rest).head?, isDigitOf base c = true := by
  obtain ⟨first, others, shape⟩ := exists_cons_of_ne_nil (numeral_ne_nil base width n)
  intro c member
  rw [shape, cons_append, head?_cons, Option.mem_some] at member
  exact isDigitOf_numeral low high width n c (by rw [shape, member]; exact mem_cons_self)

theorem matchRuns_numeral {width n : Nat} (stop : ∀ c ∈ rest.head?, isDigitOf base c = false) :
    matchRuns (Run.some (isDigitOf base) :: rs) (numeral base width n ++ rest) = matchRuns rs rest :=
  matchRuns_some (isDigitOf_numeral low high width n) (numeral_ne_nil base width n) stop

theorem matchRuns_numeral_end (width n : Nat) :
    matchRuns [Run.some (isDigitOf base)] (numeral base width n) = true := by
  rw [← append_nil (numeral base width n), matchRuns_numeral low high (by simp)]
  rfl

end Numerals

theorem matchRuns_blank (stop : ∀ c ∈ rest.head?, (c == ' ') = false) :
    matchRuns (Run.some (· == ' ') :: rs) (' ' :: rest) = matchRuns rs rest :=
  matchRuns_some (show ∀ c ∈ [' '], (c == ' ') = true by simp) (by simp) stop

end Wms.Lib
