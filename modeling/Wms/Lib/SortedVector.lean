import Wms.Lib.Multimap

/-! Vectors of entries kept sorted by a key without duplicates.

Entries are looked up, inserted and erased at the lower bound of a key. A vector that has been
filled in any order is sorted afterwards.
-/

set_option autoImplicit false

namespace Wms.Lib.SortedVector

open List

variable {κ ν : Type} [LinearOrder κ]

def below (k : κ) (l : List (κ × ν)) : List (κ × ν) := Multimap.below (· < ·) k l

def above (k : κ) (l : List (κ × ν)) : List (κ × ν) := Multimap.above (· < ·) k l

def find (k : κ) (l : List (κ × ν)) : Option ν :=
  match above k l with
  | (key, v) :: _ => if key = k then some v else none
  | [] => none

def insert (k : κ) (v : ν) (l : List (κ × ν)) : List (κ × ν) := below k l ++ (k, v) :: above k l

def erase (k : κ) (l : List (κ × ν)) : List (κ × ν) := below k l ++ (above k l).tail

def sort (l : List (κ × ν)) : List (κ × ν) := l.insertionSort fun a b => a.1 ≤ b.1

def Sorted (l : List (κ × ν)) : Prop := l.Pairwise fun a b => a.1 < b.1

variable {k : κ} {v : ν} {l : List (κ × ν)} {e : κ × ν}

theorem below_append_above (k : κ) (l : List (κ × ν)) : below k l ++ above k l = l :=
  Multimap.below_append_above _ k l

theorem Sorted.nodup_keys (sorted : Sorted l) : (l.map Prod.fst).Nodup :=
  (pairwise_map.mpr sorted).imp ne_of_lt

theorem lt_of_mem_below (member : e ∈ below k l) : e.1 < k := Multimap.comp_of_mem_below member

theorem Sorted.le_of_mem_above (sorted : Sorted l) (member : e ∈ above k l) : k ≤ e.1 :=
  not_lt.mp (Multimap.Sorted.not_comp_of_mem_above (· < ·) sorted (fun _ _ _ => lt_trans) member)

theorem mem_iff : e ∈ l ↔ e ∈ below k l ∨ e ∈ above k l := by
  rw [← mem_append, below_append_above]

theorem Sorted.find_eq_some_iff (sorted : Sorted l) : find k l = some v ↔ (k, v) ∈ l := by
  have upper : Sorted (above k l) := Multimap.Sorted.above sorted k
  have least {e : κ × ν} (member : e ∈ above k l) : k ≤ e.1 := sorted.le_of_mem_above member
  have above_only : (k, v) ∉ below k l := fun below => lt_irrefl _ (lt_of_mem_below below)
  rw [mem_iff (k := k), or_iff_right above_only]
  unfold find
  cases entries : above k l with
  | nil => simp
  | cons first rest =>
    rw [entries] at upper least
    obtain ⟨key, value⟩ := first
    have later : (k, v) ∉ rest := fun member =>
      absurd ((pairwise_cons.mp upper).1 _ member) (not_lt.mpr (least (mem_cons_self ..)))
    simp only [mem_cons, later, or_false, Prod.mk.injEq]
    split_ifs with same
    · simp [same, eq_comm]
    · simp [Ne.symm same]

theorem Sorted.find_eq_none_iff (sorted : Sorted l) : find k l = none ↔ ∀ e ∈ l, e.1 ≠ k := by
  rw [Option.eq_none_iff_forall_not_mem]
  constructor
  · rintro nothing ⟨key, v⟩ member rfl
    exact nothing v (sorted.find_eq_some_iff.mpr member)
  · intro nothing v found
    exact nothing _ (sorted.find_eq_some_iff.mp found) rfl

theorem perm_insert (k : κ) (v : ν) (l : List (κ × ν)) : (insert k v l).Perm ((k, v) :: l) := by
  unfold insert
  nth_rewrite 3 [← below_append_above k l]
  exact perm_middle

theorem Sorted.insert (sorted : Sorted l) (fresh : find k l = none) : Sorted (insert k v l) := by
  have absent := sorted.find_eq_none_iff.mp fresh
  have split := sorted
  rw [← below_append_above k l] at split
  obtain ⟨lower, upper, _⟩ := pairwise_append.mp split
  have up {e : κ × ν} (member : e ∈ above k l) : k < e.1 :=
    lt_of_le_of_ne (sorted.le_of_mem_above member) (absent e (mem_iff.mpr (.inr member))).symm
  refine pairwise_append.mpr ⟨lower, pairwise_cons.mpr ⟨fun e => up, upper⟩, ?_⟩
  intro a below b member
  rcases mem_cons.mp member with rfl | above
  · exact lt_of_mem_below below
  · exact (lt_of_mem_below below).trans (up above)

theorem perm_erase (found : find k l = some v) : l.Perm ((k, v) :: erase k l) := by
  unfold find at found
  unfold erase
  nth_rewrite 1 [← below_append_above k l]
  cases entries : above k l with
  | nil => simp [entries] at found
  | cons first rest =>
    obtain ⟨key, value⟩ := first
    simp only [entries] at found
    split_ifs at found with same
    · cases same
      cases found
      exact perm_middle

theorem Sorted.erase (sorted : Sorted l) : Sorted (erase k l) := by
  have kept : (SortedVector.erase k l).Sublist l := by
    unfold SortedVector.erase
    nth_rewrite 3 [← below_append_above k l]
    exact (List.Sublist.refl _).append (tail_sublist _)
  exact List.Pairwise.sublist kept sorted

theorem perm_sort (l : List (κ × ν)) : (sort l).Perm l := perm_insertionSort _ l

theorem sorted_sort (nodup : (l.map Prod.fst).Nodup) : Sorted (sort l) := by
  have weak : (sort l).Pairwise fun a b => a.1 ≤ b.1 :=
    pairwise_insertionSort (fun a b : κ × ν => a.1 ≤ b.1) l
  have distinct : (sort l).Pairwise fun a b => a.1 ≠ b.1 :=
    pairwise_map.mp (((perm_sort l).map Prod.fst).nodup_iff.mpr nodup)
  exact (weak.and distinct).imp fun both => lt_of_le_of_ne both.1 both.2

end Wms.Lib.SortedVector
