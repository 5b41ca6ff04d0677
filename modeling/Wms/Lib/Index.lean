import Wms.Lib.Arena

/-! Sorted vectors that index a list by a key of its elements.

The vector holds copies of the keys and references to the elements. It stays an index as long as
each change of the list is made in the vector as well, at the lower bound of the key.
-/

set_option autoImplicit false

namespace Wms.Lib

open List Arena SortedVector

variable {α κ : Type} [LinearOrder κ]

/-- The index is sorted by the keys, none of which occurs twice, and has one entry for each element.
-/
structure Indexes (key : α → κ) (index : List (κ × Nat)) (a : Arena α) : Prop where
  sorted : Sorted index
  perm : index.Perm (a.entries.map fun e => (key e.2, e.1))

namespace Indexes

variable {key : α → κ} {index : List (κ × Nat)} {a : Arena α} {ref : Nat} {x y : α} {k : κ}

theorem nil (empty : a.entries = []) : Indexes key [] a := ⟨List.Pairwise.nil, by simp [empty]⟩

theorem sort (filled : index = a.entries.map fun e => (key e.2, e.1)) (nodup : (a.values.map key).Nodup) :
    Indexes key (sort index) a := by
  refine ⟨sorted_sort ?_, filled ▸ perm_sort _⟩
  rw [values, map_map] at nodup
  rw [filled, map_map]
  exact nodup

variable (indexes : Indexes key index a)
include indexes

theorem find_iff : find k index = some ref ↔ ∃ x, a.get? ref = some x ∧ key x = k := by
  rw [indexes.sorted.find_eq_some_iff, indexes.perm.mem_iff]
  simp only [get?_eq_some_iff, mem_map, Prod.exists, Prod.mk.injEq]
  constructor
  · rintro ⟨ref, x, member, same, rfl⟩
    exact ⟨x, member, same⟩
  · rintro ⟨x, member, same⟩
    exact ⟨ref, x, member, same, rfl⟩

theorem find (got : a.get? ref = some x) : find (key x) index = some ref :=
  indexes.find_iff.mpr ⟨x, got, rfl⟩

theorem mem_keys_iff : k ∈ index.map Prod.fst ↔ ∃ ref x, a.get? ref = some x ∧ key x = k := by
  simp only [List.mem_map, Prod.exists, exists_and_right, exists_eq_right,
    ← indexes.sorted.find_eq_some_iff,
    indexes.find_iff]

theorem find_bind_iff :
    (SortedVector.find k index).bind a.get? = some x ↔ ∃ ref, a.get? ref = some x ∧ key x = k := by
  rw [Option.bind_eq_some_iff]
  constructor
  · rintro ⟨ref, found, got⟩
    obtain ⟨y, same, rfl⟩ := indexes.find_iff.mp found
    cases got.symm.trans same
    exact ⟨ref, got, rfl⟩
  · rintro ⟨ref, got, rfl⟩
    exact ⟨ref, indexes.find got, got⟩

theorem find_eq_none_iff : SortedVector.find k index = none ↔ ∀ ref x, a.get? ref = some x →
    key x ≠ k := by
  rw [Option.eq_none_iff_forall_not_mem]
  constructor
  · rintro nothing ref x got rfl
    exact nothing ref (indexes.find got)
  · intro nothing ref found
    obtain ⟨x, got, same⟩ := indexes.find_iff.mp found
    exact nothing ref x got same

theorem unique {other : Nat} (got : a.get? ref = some x) (got' : a.get? other = some y)
    (same : key x = key y) :
    ref = other :=
  Option.some.inj ((indexes.find got).symm.trans (same ▸ indexes.find got'))

theorem nodup_keys : (a.values.map key).Nodup := by
  have keys := (indexes.perm.map Prod.fst).nodup_iff.mp indexes.sorted.nodup_keys
  simpa [values, map_map, Function.comp_def] using keys

theorem insert (x : α) (fresh : SortedVector.find (key x) index = none) :
    Indexes key (insert (key x) a.next index) (a.pushBack x) := by
  refine ⟨indexes.sorted.insert fresh, ?_⟩
  have pushed := (a.perm_pushBack x).map fun e => (key e.2, e.1)
  exact (perm_insert _ _ _).trans ((indexes.perm.cons _).trans pushed.symm)

theorem erase (got : a.get? ref = some x) : Indexes key (erase (key x) index) (a.erase ref) := by
  refine ⟨indexes.sorted.erase, ?_⟩
  have both := (perm_erase (indexes.find got)).symm.trans
    (indexes.perm.trans ((perm_erase got).map fun e => (key e.2, e.1)))
  exact both.cons_inv

theorem find_erased (got : a.get? ref = some x) :
    SortedVector.find (key x) (SortedVector.erase (key x) index) = none := by
  refine (indexes.erase got).find_eq_none_iff.mpr fun other y more same => ?_
  obtain ⟨kept, apart⟩ := get?_erase_iff.mp more
  exact apart (indexes.unique kept got same)

theorem set (got : a.get? ref = some x) (same : key y = key x) : Indexes key index (a.set ref y) := by
  refine ⟨indexes.sorted, indexes.perm.trans ?_⟩
  have old := (perm_erase got).map fun e => (key e.2, e.1)
  have new := (perm_set got y).map fun e => (key e.2, e.1)
  refine old.trans (List.Perm.trans ?_ new.symm)
  simp [same]

/-- An element goes, another comes, and the index is told of the second only: the entry of the
first stays, and there is no element with its key. -/
theorem dangling (got : a.get? ref = some x) (fresh : SortedVector.find (key y) index = none) :
    SortedVector.find (key x) (SortedVector.insert (key y) a.next index) = some ref ∧
      ((a.erase ref).pushBack y).get? ref = none ∧
      ∀ other z, ((a.erase ref).pushBack y).get? other = some z → key z ≠ key x := by
  have entry := indexes.sorted.find_eq_some_iff.mp (indexes.find got)
  refine ⟨?_, ?_, ?_⟩
  · rw [(indexes.sorted.insert fresh).find_eq_some_iff, (perm_insert _ _ _).mem_iff]
    exact mem_cons_of_mem _ entry
  · rw [Option.eq_none_iff_forall_not_mem]
    intro z there
    rcases get?_pushBack_iff.mp there with kept | ⟨new, _⟩
    · exact (get?_erase_iff.mp kept).2 rfl
    · exact absurd (lt_next got) (Nat.not_lt.mpr (Nat.le_of_eq new.symm))
  · intro other z there same
    rcases get?_pushBack_iff.mp there with kept | ⟨_, rfl⟩
    · obtain ⟨old, apart⟩ := get?_erase_iff.mp kept
      exact apart (indexes.unique old got same)
    · rw [same, indexes.find got] at fresh
      cases fresh

end Indexes

end Wms.Lib
