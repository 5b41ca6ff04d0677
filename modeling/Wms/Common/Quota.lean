import Mathlib

/-! The tool that adjusts a user's quota (`glite_wms_quota_adjust`).

An increase must leave the sum of all limits within the file system. The sum is an unsigned long,
the blocks of the file system and those left are ints. The width of a limit and the size of a quota
block depend on the quota interface.
-/

set_option autoImplicit false

namespace Wms.Common.Quota

/-- The conversion to `int`. -/
def toInt (n : Int) : Int := (n + 2 ^ 31) % 2 ^ 32 - 2 ^ 31

structure FileSystem where
  bsize : Int
  blocks : Nat

/-- What the password file, the quota interface and the mount table answer; a
limit is absent if it cannot be read. -/
structure Tables (width : Nat) where
  entries : List (Nat × Option (Fin (2 ^ width)))
  own : Option (Fin (2 ^ width))
  mounted : Bool
  statfs : Option FileSystem

variable {width : Nat} (bits : Nat) (uid : Int) (tables : Tables width) (adjustment : Int)

namespace Tables

def allocated : List Nat := tables.entries.filterMap fun entry => entry.2.map Fin.val

/-- The last entry of the user counts. -/
def listed : Option (Fin (2 ^ width)) :=
  (tables.entries.reverse.find? fun e => e.1 = uid && e.2.isSome).bind Prod.snd

def target : Option (Fin (2 ^ width)) := if 0 < adjustment then tables.listed uid else tables.own

end Tables

def totalAllocated : Nat := tables.allocated.foldl (fun total limit => (total + limit) % 2 ^ 64) 0

def blockMultiplier (bsize : Int) : Int :=
  let multiplier := toInt (bsize / 2 ^ bits)
  if multiplier ≤ 0 then 1 else multiplier

def fsTotalBlocks (fs : FileSystem) : Int := toInt (fs.blocks * blockMultiplier bits fs.bsize % 2 ^ 64)

def leftBlocks (fs : FileSystem) : Int := toInt ((fsTotalBlocks bits fs - totalAllocated tables) % 2 ^ 64)

/-- The value that the limit is set to, or the status that the tool exits with. -/
def adjust : Except Nat Int :=
  if uid ≤ 0 then .error 2
  else if adjustment = 0 then .error 3
  else match tables.target uid adjustment with
    | none => .error 4
    | some old =>
      let new := (old.val + adjustment) % 2 ^ width
      if adjustment < 0 then
        if old.val < adjustment.natAbs then .error 5 else .ok new
      else if !tables.mounted then .error 12
      else match tables.statfs with
        | none => .error 6
        | some fs => if leftBlocks bits tables fs < adjustment then .error 7 else .ok new

/-- The number of quota blocks that the file system has. -/
def exactBlocks (fs : FileSystem) : Int := fs.blocks * fs.bsize / 2 ^ bits

def Sound : Prop := ∀ new, adjust bits uid tables adjustment = .ok new →
  ∃ old, tables.target uid adjustment = some old ∧ new = old.val + adjustment ∧ 0 ≤ new ∧
    (0 < adjustment → ∃ fs, tables.statfs = some fs ∧
      tables.allocated.sum + adjustment ≤ exactBlocks bits fs)

/-- The blocks that are free, without overflow; negative if more has been promised than there is. -/
def freeBlocks (fs : FileSystem) : Int := fs.blocks * blockMultiplier bits fs.bsize - tables.allocated.sum

theorem totalAllocated_mod : totalAllocated tables % 2 ^ 64 = tables.allocated.sum % 2 ^ 64 := by
  have from_total (limits : List Nat) : ∀ total,
      limits.foldl (fun total limit => (total + limit) % 2 ^ 64) total % 2 ^ 64 =
        (total + limits.sum) % 2 ^ 64 := by
    induction limits with
    | nil => simp
    | cons limit limits ih =>
      intro total
      rw [List.foldl_cons, ih, List.sum_cons, Nat.mod_add_mod, Nat.add_assoc]
  rw [totalAllocated, from_total, Nat.zero_add]

/-- The conversions on the way lose nothing that the last one keeps. -/
theorem leftBlocks_eq (fs : FileSystem) : leftBlocks bits tables fs = toInt
    (freeBlocks bits tables fs) := by
  have total := totalAllocated_mod tables
  simp only [leftBlocks, fsTotalBlocks, freeBlocks, toInt]
  omega

theorem decrease_sound (user : 0 < uid) (decrease : adjustment < 0) :
    Sound bits uid tables adjustment := by
  intro new set
  have kept : tables.target uid adjustment = tables.own := if_neg (by omega)
  rw [adjust, if_neg (by omega), if_neg (by omega), kept] at set
  cases own : tables.own with
  | none => simp [own] at set
  | some old =>
    simp only [own, if_pos decrease] at set
    split_ifs at set with short
    injection set with set
    have bound : (old.val : Int) < 2 ^ width := by exact_mod_cast old.isLt
    have inside : (old.val + adjustment) % 2 ^ width = old.val + adjustment :=
      Int.emod_eq_of_lt (by omega) (by omega)
    exact ⟨old, kept.trans own, by omega, by omega, fun increase => absurd increase (by omega)⟩

section Increase

variable (user : 0 < uid) (increase : 0 < adjustment)
include user increase

theorem increase_ok_iff (new : Int) : adjust bits uid tables adjustment = .ok new ↔
    ∃ old fs, tables.listed uid = some old ∧ tables.mounted ∧ tables.statfs = some fs ∧
      adjustment ≤ toInt (freeBlocks bits tables fs) ∧ new = (old.val + adjustment) % 2 ^ width := by
  have read : tables.target uid adjustment = tables.listed uid := if_pos increase
  rw [adjust, if_neg (by omega), if_neg (by omega), read]
  cases tables.listed uid with
  | none => simp
  | some old =>
    cases tables.statfs with
    | none => by_cases mounted : tables.mounted <;> simp [mounted, show ¬adjustment < 0 by omega]
    | some fs =>
      by_cases mounted : tables.mounted <;>
        simp [mounted, show ¬adjustment < 0 by omega, leftBlocks_eq, apply_ite, eq_comm]

theorem increase_sound_iff : Sound bits uid tables adjustment ↔
    ∀ old fs, tables.listed uid = some old → tables.mounted → tables.statfs = some fs →
      toInt (freeBlocks bits tables fs) < adjustment ∨
        tables.allocated.sum + adjustment ≤ exactBlocks bits fs ∧ old.val + adjustment < 2 ^ width := by
  have read : tables.target uid adjustment = tables.listed uid := if_pos increase
  have positive : (0 : Int) < 2 ^ width := Int.pow_pos (by decide)
  constructor
  · intro sound old fs listed mounted found
    refine or_iff_not_imp_left.mpr fun within => ?_
    obtain ⟨old', target, same, -, fits⟩ :=
      sound _ ((increase_ok_iff bits uid tables adjustment user increase _).2
      ⟨old, fs, listed, mounted, found, not_lt.mp within, rfl⟩)
    obtain ⟨fs', found', fits⟩ := fits increase
    obtain rfl : old = old' := Option.some.inj (listed.symm.trans (read.symm.trans target))
    obtain rfl : fs = fs' := Option.some.inj (found.symm.trans found')
    exact ⟨fits, same ▸ Int.emod_lt_of_pos _ positive⟩
  · intro fits new set
    obtain ⟨old, fs, listed, mounted, found, within, rfl⟩ :=
      (increase_ok_iff bits uid tables adjustment user increase _).1 set
    obtain ⟨total, inside⟩ := (fits old fs listed mounted found).resolve_left (not_lt.mpr within)
    exact ⟨old, read.trans listed, Int.emod_eq_of_lt (by omega) inside, Int.emod_nonneg _ positive.ne',
      fun _ => ⟨fs, found, total⟩⟩

end Increase

end Wms.Common.Quota
