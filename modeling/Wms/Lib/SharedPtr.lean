import Mathlib.Data.List.Perm.Basic

/-! Shared pointers with counted owners.

A pointer has an address and, apart from it, the block in which its owners are counted: a pointer
with no address can be counted all the same, and an empty pointer is counted nowhere. `Counts` says
that the counts are those of a list of all the pointers there are.
-/

set_option autoImplicit false

namespace Wms.Lib

open Function List

structure SharedPtr where
  address : Option Nat
  block : Option Nat
  deriving DecidableEq, Repr

/-- The blocks made so far, numbered in the order they were made, and their counts. -/
structure Blocks where
  made : Nat
  count : Nat → Nat

namespace Blocks

def useCount (blocks : Blocks) (pointer : SharedPtr) : Nat := pointer.block.elim 0 blocks.count

def own (blocks : Blocks) : Blocks where
  made := blocks.made + 1
  count := update blocks.count blocks.made 1

def acquire (blocks : Blocks) (pointer : SharedPtr) : Blocks :=
  match pointer.block with
  | none => blocks
  | some block => { blocks with count := update blocks.count block (blocks.count block + 1) }

def release (blocks : Blocks) (pointer : SharedPtr) : Blocks :=
  match pointer.block with
  | none => blocks
  | some block => { blocks with count := update blocks.count block (blocks.count block - 1) }

@[simp] theorem acquire_made (blocks : Blocks) (pointer : SharedPtr) :
    (blocks.acquire pointer).made = blocks.made := by
  unfold acquire
  split <;> rfl

@[simp] theorem release_made (blocks : Blocks) (pointer : SharedPtr) :
    (blocks.release pointer).made = blocks.made := by
  unfold release
  split <;> rfl

structure Counts (blocks : Blocks) (owners : List SharedPtr) : Prop where
  counts : ∀ block, blocks.count block = owners.countP (fun pointer => pointer.block = some block)
  made : ∀ pointer ∈ owners, ∀ block, pointer.block = some block → block < blocks.made

variable {blocks : Blocks} {owners others : List SharedPtr} {pointer : SharedPtr}

theorem Counts.perm (counts : blocks.Counts owners) (same : owners.Perm others) :
    blocks.Counts others where
  counts block := (counts.counts block).trans (same.countP_eq _)
  made pointer member := counts.made pointer (same.mem_iff.mpr member)

theorem Counts.own (counts : blocks.Counts owners) (address : Option Nat) :
    blocks.own.Counts (⟨address, some blocks.made⟩ :: owners) where
  counts block := by
    by_cases new : block = blocks.made
    · subst new
      have nothing : owners.countP (fun pointer => pointer.block = some blocks.made) = 0 := by
        refine countP_eq_zero.mpr fun pointer member owned => ?_
        exact Nat.lt_irrefl _ (counts.made pointer member _ (by simpa using owned))
      simp [Blocks.own, nothing]
    · simp [Blocks.own, update_of_ne new, counts.counts, Ne.symm new]
  made := by
    intro pointer member block owned
    rcases mem_cons.mp member with rfl | member
    · cases owned
      exact Nat.lt_succ_self _
    · exact Nat.lt_succ_of_lt (counts.made pointer member block owned)

theorem Counts.acquire (counts : blocks.Counts owners) (member : pointer ∈ owners) :
    (blocks.acquire pointer).Counts (pointer :: owners) where
  counts block := by
    have before := counts.counts
    unfold Blocks.acquire
    split
    · rename_i empty
      simp [empty, before]
    · rename_i owned equal
      by_cases same : block = owned
      · subst same
        simp [equal, before]
      · simp [equal, update_of_ne same, before, Ne.symm same]
  made := by
    intro other mem block owned
    rw [acquire_made]
    rcases mem_cons.mp mem with rfl | mem
    · exact counts.made _ member block owned
    · exact counts.made other mem block owned

theorem Counts.release (counts : blocks.Counts (pointer :: owners)) :
    (blocks.release pointer).Counts owners where
  counts block := by
    have before := counts.counts
    unfold Blocks.release
    split
    · rename_i empty
      simpa [empty] using before block
    · rename_i owned equal
      by_cases same : block = owned
      · subst same
        simp [equal, before]
      · simpa [equal, update_of_ne same, Ne.symm same] using before block
  made other member block owned := by
    rw [release_made]
    exact counts.made other (mem_cons_of_mem _ member) block owned

end Blocks

end Wms.Lib
