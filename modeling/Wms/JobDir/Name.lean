import Mathlib.Data.List.Sort
import Wms.Lib.Files
import Wms.Lib.Transition

/-! The names of request files (`JobDir::deliver` in `jobdir.cpp`).

A name is a clock reading in microseconds, the identifier of the thread that built the
`JobDir` object and an optional tag of the caller. The parts can be read back from the
name, so two names are equal only when all three parts are.
-/

set_option autoImplicit false

namespace Wms.JobDir

open Lib List

structure Ptime where
  year : Fin 10000
  month : Fin 13
  day : Fin 32
  hours : Fin 24
  minutes : Fin 60
  seconds : Fin 61
  microseconds : Fin 1000000
  deriving DecidableEq, Repr

/-- The fraction is left out when it is zero. -/
def toIsoString (t : Ptime) : Bytes :=
  numeral 10 4 t.year ++ (numeral 10 2 t.month ++ (numeral 10 2 t.day ++ 'T' ::
    (numeral 10 2 t.hours ++ (numeral 10 2 t.minutes ++ (numeral 10 2 t.seconds ++
      if t.microseconds.val = 0 then [] else '.' :: numeral 10 6 t.microseconds)))))

def fileName (t : Ptime) (id : Nat) (tag : Bytes) : Bytes :=
  let iso := toIsoString t
  let stamp := if iso.length = 15 then iso ++ '.' :: List.replicate 6 '0' else iso
  stamp ++ '_' :: (numeral 10 1 id ++ if tag = [] then [] else '_' :: tag)

/-! ### Names can be read back -/

def stamp (t : Ptime) : Bytes :=
  numeral 10 4 t.year ++ (numeral 10 2 t.month ++ (numeral 10 2 t.day ++ 'T' ::
    (numeral 10 2 t.hours ++ (numeral 10 2 t.minutes ++ (numeral 10 2 t.seconds ++
      '.' :: numeral 10 6 t.microseconds)))))

section Widths

variable {width a b : Nat}

theorem length_decimal (positive : 0 < width) (fits : a < 10 ^ width) :
    (numeral 10 width a).length = width :=
  length_numeral (by omega) positive fits

theorem decimal_append_inj (positive : 0 < width) (first : a < 10 ^ width) (second : b < 10 ^ width)
    {x y : Bytes} (same : numeral 10 width a ++ x = numeral 10 width b ++ y) : a = b ∧ x = y := by
  have lengths : (numeral 10 width a).length = (numeral 10 width b).length := by
    rw [length_decimal positive first, length_decimal positive second]
  obtain ⟨digits, rest⟩ := append_inj same lengths
  have values := congrArg (numeralValue 10) digits
  rw [numeralValue_numeral (by omega) (by omega), numeralValue_numeral (by omega) (by omega)] at values
  exact ⟨values, rest⟩

end Widths

theorem length_toIsoString (t : Ptime) : (toIsoString t).length = if t.microseconds.val = 0 then 15
    else 22 := by
  obtain ⟨year, month, day, hours, minutes, seconds, microseconds⟩ := t
  have fields : (numeral 10 4 year).length = 4 ∧ (numeral 10 2 month).length = 2 ∧
      (numeral 10 2 day).length = 2 ∧ (numeral 10 2 hours).length = 2 ∧
      (numeral 10 2 minutes).length = 2 ∧ (numeral 10 2 seconds).length = 2 ∧
      (numeral 10 6 microseconds).length = 6 := by
    refine ⟨?_, ?_, ?_, ?_, ?_, ?_, ?_⟩ <;> exact length_decimal (by omega) (by omega)
  obtain ⟨y, mo, d, h, mi, s, us⟩ := fields
  unfold toIsoString
  split <;> simp [y, mo, d, h, mi, s, us]

theorem stamp_eq (t : Ptime) : (if (toIsoString t).length = 15 then
    toIsoString t ++ '.' :: List.replicate 6 '0' else toIsoString t) = stamp t := by
  have zeros : numeral 10 6 0 = List.replicate 6 '0' := by decide
  rw [length_toIsoString]
  by_cases whole : t.microseconds.val = 0
  · simp [whole, toIsoString, stamp, zeros]
  · simp [whole, toIsoString, stamp]

theorem fileName_eq (t : Ptime) (id : Nat) (tag : Bytes) : fileName t id tag =
    stamp t ++ '_' :: (numeral 10 1 id ++ if tag = [] then [] else '_' :: tag) := by
  rw [← stamp_eq]
  rfl

theorem stamp_append_inj {t u : Ptime} {x y : Bytes} (same : stamp t ++ x = stamp u ++ y) :
    t = u ∧ x = y := by
  unfold stamp at same
  simp only [append_assoc, cons_append] at same
  obtain ⟨year, same⟩ := decimal_append_inj (by omega) (by omega) (by omega) same
  obtain ⟨month, same⟩ := decimal_append_inj (by omega) (by omega) (by omega) same
  obtain ⟨day, same⟩ := decimal_append_inj (by omega) (by omega) (by omega) same
  obtain ⟨hours, same⟩ := decimal_append_inj (by omega) (by omega) (by omega) (List.cons.inj same).2
  obtain ⟨minutes, same⟩ := decimal_append_inj (by omega) (by omega) (by omega) same
  obtain ⟨seconds, same⟩ := decimal_append_inj (by omega) (by omega) (by omega) same
  obtain ⟨microseconds, rest⟩ :=
    decimal_append_inj (by omega) (by omega) (by omega) (List.cons.inj same).2
  cases t
  cases u
  simp only [Ptime.mk.injEq, Fin.ext_iff]
  exact ⟨⟨year, month, day, hours, minutes, seconds, microseconds⟩, rest⟩

theorem isDigitOf_underscore : isDigitOf 10 '_' = false := by decide

/-- Digits end at the first underscore, so the identifier and the tag are read back. -/
theorem suffix_inj {id id' : Nat} {tag tag' : Bytes}
    (same : (numeral 10 1 id ++ if tag = [] then [] else '_' :: tag) =
      numeral 10 1 id' ++ if tag' = [] then [] else '_' :: tag') : id = id' ∧ tag = tag' := by
  have stops (tag : Bytes) :
      ∀ c ∈ (if tag = [] then [] else '_' :: tag : Bytes).head?, isDigitOf 10 c = false := by
    split
    · simp
    · rintro c ⟨⟩
      exact isDigitOf_underscore
  have run (id : Nat) (tag : Bytes) :
      (numeral 10 1 id ++ if tag = [] then [] else '_' :: tag).takeWhile (isDigitOf 10) =
        numeral 10 1 id :=
    takeWhile_run (isDigitOf_numeral (by omega) (by omega) 1 id) (stops tag)
  have digits : numeral 10 1 id = numeral 10 1 id' := by rw [← run id tag, same, run id' tag']
  have ids : id = id' := by
    rw [← numeralValue_numeral (by omega : 1 < 10) (by omega) 1 id, digits,
      numeralValue_numeral (by omega) (by omega)]
  subst ids
  have tags := append_cancel_left same
  refine ⟨rfl, ?_⟩
  by_cases first : tag = [] <;> by_cases second : tag' = []
  · rw [first, second]
  · simp [first, second] at tags
  · simp [first, second] at tags
  · simpa [first, second] using tags

theorem fileName_inj {t t' : Ptime} {id id' : Nat} {tag tag' : Bytes}
    (same : fileName t id tag = fileName t' id' tag') : t = t' ∧ id = id' ∧ tag = tag' := by
  rw [fileName_eq, fileName_eq] at same
  obtain ⟨times, rest⟩ := stamp_append_inj same
  obtain ⟨ids, tags⟩ := suffix_inj (List.cons.inj rest).2
  exact ⟨times, ids, tags⟩

end Wms.JobDir
