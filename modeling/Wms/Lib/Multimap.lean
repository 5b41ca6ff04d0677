import Mathlib.Data.List.Sort
import Mathlib.Data.List.TakeWhile

/-! Ordered multimaps, as the list of their entries in iteration order.

A tree insertion descends to the left of every entry that the comparator puts after the
new one, so in iteration order the new entry stands before the first such entry. A lower
bound is the first entry the comparator does not put before the probe. Both descriptions
need a sorted list only, so they also cover a comparator that is not strict: entries equal
to the new one then stand after it instead of before it.
-/

set_option autoImplicit false

namespace Wms.Lib.Multimap

open List

variable {κ ν : Type}

def insert (comp : κ → κ → Prop) [DecidableRel comp] (e : κ × ν) (entries : List (κ × ν)) :
    List (κ × ν) :=
  entries.orderedInsert (fun a b => comp a.1 b.1) e

def insertRange (comp : κ → κ → Prop) [DecidableRel comp] (range entries : List (κ × ν)) :
    List (κ × ν) :=
  range.foldl (fun m e => insert comp e m) entries

def below (comp : κ → κ → Prop) [DecidableRel comp] (probe : κ) (entries : List (κ × ν)) :
    List (κ × ν) :=
  entries.takeWhile fun e => comp e.1 probe

def above (comp : κ → κ → Prop) [DecidableRel comp] (probe : κ) (entries : List (κ × ν)) :
    List (κ × ν) :=
  entries.dropWhile fun e => comp e.1 probe

def Sorted (le : κ → κ → Prop) (entries : List (κ × ν)) : Prop :=
  entries.Pairwise fun a b => le a.1 b.1

/-- The comparator decides a transitive order, strictly or not. -/
structure Decides (comp le : κ → κ → Prop) : Prop where
  before : ∀ a b, comp a b → le a b
  after : ∀ a b, ¬ comp a b → le b a
  transitive : ∀ a b c, le a b → le b c → le a c

variable {comp le : κ → κ → Prop} [DecidableRel comp]

theorem perm_insert (e : κ × ν) (entries : List (κ × ν)) : (insert comp e entries).Perm (e :: entries) :=
  perm_orderedInsert _ e entries

theorem insert_ne_nil (e : κ × ν) (entries : List (κ × ν)) : insert comp e entries ≠ [] := by
  intro empty
  have size := (perm_orderedInsert (fun a b => comp a.1 b.1) e entries).length_eq
  rw [show entries.orderedInsert _ e = [] from empty] at size
  simp at size

variable {entries : List (κ × ν)}

theorem Decides.sorted_insert (decides : Decides comp le) (sorted : Sorted le entries) (e : κ × ν) :
    Sorted le (insert comp e entries) := by
  unfold Sorted insert at *
  induction entries with
  | nil => simp
  | cons first rest ih =>
    obtain ⟨least, ordered⟩ := pairwise_cons.mp sorted
    rw [orderedInsert_cons]
    split
    · rename_i ahead
      refine pairwise_cons.mpr ⟨fun other member => ?_, sorted⟩
      rcases mem_cons.mp member with rfl | later
      · exact decides.before _ _ ahead
      · exact decides.transitive _ _ _ (decides.before _ _ ahead) (least other later)
    · rename_i behind
      refine pairwise_cons.mpr ⟨fun other member => ?_, ih ordered⟩
      rcases (mem_orderedInsert _).mp member with rfl | later
      · exact decides.after _ _ behind
      · exact least other later

theorem Decides.sorted_insertRange (decides : Decides comp le) (range : List (κ × ν))
    (sorted : Sorted le entries) : Sorted le (insertRange comp range entries) := by
  induction range generalizing entries with
  | nil => exact sorted
  | cons e range ih => exact ih (decides.sorted_insert sorted e)

theorem perm_insertRange (range entries : List (κ × ν)) :
    (insertRange comp range entries).Perm (range ++ entries) := by
  induction range generalizing entries with
  | nil => exact .refl _
  | cons e range ih =>
    have moved : (range ++ insert comp e entries).Perm (range ++ e :: entries) :=
      (perm_insert e entries).append_left range
    exact ((ih _).trans moved).trans perm_middle

theorem below_append_above (comp : κ → κ → Prop) [DecidableRel comp] (probe : κ)
    (entries : List (κ × ν)) : below comp probe entries ++ above comp probe entries = entries :=
  takeWhile_append_dropWhile

theorem comp_of_mem_below {probe : κ} {e : κ × ν} (member : e ∈ below comp probe entries) :
    comp e.1 probe := by
  simpa using mem_takeWhile_imp member

/-- In a sorted multimap the lower bound separates: nothing after it is before the probe. -/
theorem Sorted.not_comp_of_mem_above (comp : κ → κ → Prop) [DecidableRel comp] (sorted : Sorted le entries)
    (closed : ∀ a b probe, le a b → comp b probe → comp a probe) {probe : κ} {e : κ × ν}
    (member : e ∈ Multimap.above comp probe entries) : ¬ comp e.1 probe := by
  unfold Sorted Multimap.above at *
  induction entries with
  | nil => cases member
  | cons first rest ih =>
    obtain ⟨least, ordered⟩ := pairwise_cons.mp sorted
    rw [dropWhile_cons] at member
    split at member
    · exact ih ordered member
    · rename_i stop
      have bound : ¬ comp first.1 probe := by simpa using stop
      rcases mem_cons.mp member with rfl | later
      · exact bound
      · exact fun within => bound (closed _ _ _ (least e later) within)

theorem Sorted.above (sorted : Sorted le entries) (probe : κ) : Sorted le (above comp probe entries) :=
  List.Pairwise.sublist (dropWhile_sublist _) sorted

end Wms.Lib.Multimap
