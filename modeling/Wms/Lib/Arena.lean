import Mathlib.Data.List.Perm.Basic
import Mathlib.Data.List.Nodup
import Wms.Lib.SortedVector

/-! Lists whose elements are reached by references that stay valid.

The nodes of a linked list keep their address while others come and go. An arena is such a
list: every element has a reference of its own, references are not used twice, and erasing an
element leaves the others where they are.
-/

set_option autoImplicit false

namespace Wms.Lib

open List

structure Arena (α : Type) where
  entries : List (Nat × α)
  next : Nat
  unused : ∀ e ∈ entries, e.1 < next
  nodup : (entries.map Prod.fst).Nodup

namespace Arena

variable {α β : Type} {a : Arena α} {ref : Nat} {x y : α}

def empty : Arena α := ⟨[], 0, by simp, by simp⟩

def values (a : Arena α) : List α := a.entries.map Prod.snd

def get? (a : Arena α) (ref : Nat) : Option α := a.entries.lookup ref

def pushBack (a : Arena α) (x : α) : Arena α where
  entries := a.entries ++ [(a.next, x)]
  next := a.next + 1
  unused := by
    intro e member
    rcases mem_append.mp member with old | new
    · exact Nat.lt_succ_of_lt (a.unused e old)
    · rw [mem_singleton.mp new]
      exact Nat.lt_succ_self _
  nodup := by
    rw [map_append, map_singleton]
    refine nodup_append.mpr ⟨a.nodup, nodup_singleton _, ?_⟩
    rintro ref member _ new rfl
    rw [mem_singleton.mp new] at member
    obtain ⟨e, old, same⟩ := mem_map.mp member
    exact Nat.lt_irrefl _ (same ▸ a.unused e old)

def erase (a : Arena α) (ref : Nat) : Arena α where
  entries := a.entries.filter (·.1 ≠ ref)
  next := a.next
  unused := fun e member => a.unused e (mem_of_mem_filter member)
  nodup := a.nodup.sublist (filter_sublist.map Prod.fst)

def set (a : Arena α) (ref : Nat) (x : α) : Arena α where
  entries := a.entries.map fun e => (e.1, if e.1 = ref then x else e.2)
  next := a.next
  unused := by
    intro e member
    obtain ⟨old, present, rfl⟩ := mem_map.mp member
    exact a.unused old present
  nodup := by
    rw [map_map]
    exact a.nodup

/-- Without elements; the references that were in use stay used. -/
def clear (a : Arena α) : Arena α := ⟨[], a.next, by simp, by simp⟩

def renumber (a : Arena α) : Arena α := a.values.foldl pushBack a.clear

theorem get?_eq_some_iff : a.get? ref = some x ↔ (ref, x) ∈ a.entries := by
  obtain ⟨entries, next, unused, nodup⟩ := a
  change entries.lookup ref = some x ↔ (ref, x) ∈ entries
  clear unused
  induction entries with
  | nil => simp
  | cons e rest ih =>
    obtain ⟨key, value⟩ := e
    rw [map_cons, nodup_cons] at nodup
    rw [lookup_cons]
    by_cases same : ref = key
    · subst same
      have later : (ref, x) ∉ rest := fun member => nodup.1 (mem_map.mpr ⟨_, member, rfl⟩)
      simp [later, eq_comm]
    · simp [beq_eq_false_iff_ne.mpr same, same, ih nodup.2]

theorem split_of_get? (found : a.get? ref = some x) : ∃ before after,
    a.entries = before ++ (ref, x) :: after ∧
      (∀ e ∈ before, e.1 ≠ ref) ∧ ∀ e ∈ after, e.1 ≠ ref := by
  obtain ⟨before, after, split⟩ := append_of_mem (get?_eq_some_iff.mp found)
  have nodup := a.nodup
  rw [split, map_append, map_cons] at nodup
  obtain ⟨first, second, apart⟩ := nodup_append.mp nodup
  refine ⟨before, after, split, ?_, ?_⟩
  · rintro e member rfl
    exact apart _ (mem_map.mpr ⟨e, member, rfl⟩) _ (mem_cons_self ..) rfl
  · rintro e member rfl
    exact (nodup_cons.mp second).1 (mem_map.mpr ⟨e, member, rfl⟩)

theorem entries_erase {before after : List (Nat × α)} (split : a.entries = before ++ (ref, x) :: after)
    (first : ∀ e ∈ before, e.1 ≠ ref) (second : ∀ e ∈ after, e.1 ≠ ref) :
    (a.erase ref).entries = before ++ after := by
  change a.entries.filter _ = _
  rw [split, filter_append, filter_cons_of_neg (by simp),
    filter_eq_self.mpr (by simpa using first), filter_eq_self.mpr (by simpa using second)]

theorem perm_erase (found : a.get? ref = some x) : a.entries.Perm ((ref, x) :: (a.erase ref).entries) := by
  obtain ⟨before, after, split, first, second⟩ := split_of_get? found
  rw [entries_erase split first second, split]
  exact perm_middle

theorem perm_set (found : a.get? ref = some x) (y : α) :
    (a.set ref y).entries.Perm ((ref, y) :: (a.erase ref).entries) := by
  obtain ⟨before, after, split, first, second⟩ := split_of_get? found
  have kept {l : List (Nat × α)} (others : ∀ e ∈ l, e.1 ≠ ref) :
      l.map (fun e => (e.1, if e.1 = ref then y else e.2)) = l := by
    refine (map_congr_left fun e member => ?_).trans (map_id l)
    simp [others e member]
  have changed : (a.set ref y).entries = before ++ (ref, y) :: after := by
    change a.entries.map _ = _
    rw [split, map_append, map_cons, kept first, kept second, if_pos rfl]
  rw [changed, entries_erase split first second]
  exact perm_middle

@[simp] theorem entries_pushBack (a : Arena α) (x : α) :
    (a.pushBack x).entries = a.entries ++ [(a.next, x)] := rfl

theorem perm_pushBack (a : Arena α) (x : α) : (a.pushBack x).entries.Perm ((a.next, x) :: a.entries) :=
  perm_append_singleton _ _

theorem lt_next (found : a.get? ref = some x) : ref < a.next := a.unused _ (get?_eq_some_iff.mp found)

theorem get?_pushBack_iff : (a.pushBack y).get? ref = some x ↔ a.get? ref = some x ∨
    ref = a.next ∧ x = y := by
  simp [get?_eq_some_iff]

theorem get?_erase_iff {gone : Nat} : (a.erase gone).get? ref = some x ↔ a.get? ref = some x ∧
    ref ≠ gone := by
  simp [get?_eq_some_iff, erase]

theorem get?_set_iff (found : a.get? ref = some x) {other : Nat} {z : α} :
    (a.set ref y).get? other = some z ↔ (other = ref ∧ z = y) ∨ (a.get? other = some z ∧ other ≠ ref) := by
  rw [← get?_erase_iff, get?_eq_some_iff, get?_eq_some_iff, (perm_set found y).mem_iff, mem_cons,
    Prod.mk.injEq]

theorem values_renumber (a : Arena α) : a.renumber.values = a.values := by
  have pushed (l : List α) (b : Arena α) : (l.foldl pushBack b).values = b.values ++ l := by
    induction l generalizing b with
    | nil => simp
    | cons x l ih =>
      rw [foldl_cons, ih]
      simp [values]
  exact pushed a.values a.clear

end Arena

end Wms.Lib
