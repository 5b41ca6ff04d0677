import Mathlib.Data.List.Nodup
import Mathlib.Algebra.BigOperators.Group.List.Basic
import Mathlib.Algebra.GroupWithZero.Nat

/-! Items of positive size stored one after another from a base offset.

An item is found by the offset it starts at. Changing an item without changing its size
moves no other item, appending adds one offset, and an item that ends inside the first of
two parts is found there.
-/

set_option autoImplicit false

namespace Wms.Lib.Layout

open Layout List

variable {α : Type} (size : α → Nat)

def total (l : List α) : Nat := (l.map size).sum

def locate : Nat → List α → Nat → Option α
  | _, [], _ => none
  | base, r :: rs, offset => if offset = base then some r else locate (base + size r) rs offset

def modifyAt (change : α → α) : Nat → List α → Nat → List α
  | _, [], _ => []
  | base, r :: rs, offset =>
    if offset = base then change r :: rs else r :: modifyAt change (base + size r) rs offset

@[simp] theorem total_nil : total size ([] : List α) = 0 := rfl

@[simp] theorem total_cons (r : α) (l : List α) : total size (r :: l) = size r + total size l := by
  simp [total]

@[simp] theorem total_append (a b : List α) : total size (a ++ b) = total size a + total size b := by
  simp [total]

variable {size} {change : α → α} {base offset other stop : Nat} {l : List α} {r : α}

theorem locate_split (found : locate size base l offset = some r) :
    ∃ a b, l = a ++ r :: b ∧ offset = base + total size a := by
  induction l generalizing base with
  | nil => simp [locate] at found
  | cons first rest ih =>
    simp only [locate] at found
    split at found
    · cases found
      exact ⟨[], rest, rfl, by simpa⟩
    · obtain ⟨a, b, same, position⟩ := ih found
      exact ⟨first :: a, b, by simp [same], by simp [position, Nat.add_assoc]⟩

theorem locate_bound (found : locate size base l offset = some r) :
    base ≤ offset ∧ offset + size r ≤ base + total size l := by
  obtain ⟨a, b, rfl, rfl⟩ := locate_split found
  simp only [total_append, total_cons]
  omega

theorem modifyAt_middle (positive : ∀ r : α, 0 < size r) (a b : List α) (r : α) :
    modifyAt size change base (a ++ r :: b) (base + total size a) = a ++ change r :: b := by
  induction a generalizing base with
  | nil => simp [modifyAt]
  | cons first rest ih =>
    have later : ¬ base + total size (first :: rest) = base := by
      have := positive first
      simp only [total_cons]
      omega
    rw [cons_append, modifyAt, if_neg later, total_cons, ← Nat.add_assoc, ih, cons_append]

theorem locate_append (a b : List α) : locate size base (a ++ b) offset =
    (locate size base a offset).or (locate size (base + total size a) b offset) := by
  induction a generalizing base with
  | nil => rfl
  | cons first rest ih =>
    simp only [cons_append, locate, total_cons, ih, Nat.add_assoc]
    split <;> rfl

theorem locate_append_one (positive : ∀ r : α, 0 < size r) :
    locate size base (l ++ [r]) offset =
      if offset = base + total size l then some r else locate size base l offset := by
  rw [locate_append]
  cases found : locate size base l offset with
  | none => rfl
  | some s =>
    have bound := (locate_bound found).2
    have := positive s
    rw [if_neg (by omega)]
    rfl

theorem locate_modifyAt (keeps : ∀ r, size (change r) = size r) :
    locate size base (modifyAt size change base l offset) other =
      if other = offset then (locate size base l offset).map change
      else locate size base l other := by
  induction l generalizing base with
  | nil => simp [modifyAt, locate]
  | cons first rest ih =>
    by_cases here : offset = base
    · subst here
      by_cases same : other = offset <;> simp [modifyAt, locate, same, keeps]
    · simp only [modifyAt, if_neg here, locate, ih]
      by_cases same : other = offset
      · subst same
        simp [here]
      · simp [same]

theorem map_modifyAt {β : Type} {f : α → β} (keeps : ∀ r, f (change r) = f r) :
    (modifyAt size change base l offset).map f = l.map f := by
  induction l generalizing base with
  | nil => rfl
  | cons first rest ih =>
    simp only [modifyAt]
    split <;> simp [keeps, ih]

theorem total_modifyAt (keeps : ∀ r, size (change r) = size r) :
    total size (modifyAt size change base l offset) = total size l :=
  congrArg sum (map_modifyAt keeps)

theorem forall_modifyAt {p : α → Prop} (all : ∀ r ∈ l, p r) (changed : ∀ r, p r → p (change r)) :
    ∀ r ∈ modifyAt size change base l offset, p r := by
  induction l generalizing base with
  | nil => exact all
  | cons first rest ih =>
    have head := all first mem_cons_self
    have others := fun r member => all r (mem_cons_of_mem first member)
    simp only [modifyAt]
    split
    · exact forall_mem_cons.mpr ⟨changed first head, others⟩
    · exact forall_mem_cons.mpr ⟨head, ih others⟩

theorem modifyAt_append_left {b : List α} (found : locate size base l offset = some r) :
    modifyAt size change base (l ++ b) offset = modifyAt size change base l offset ++ b := by
  induction l generalizing base with
  | nil => simp [locate] at found
  | cons first rest ih =>
    simp only [locate] at found
    simp only [cons_append, modifyAt]
    split
    · rfl
    · rename_i later
      rw [if_neg later] at found
      rw [ih found, cons_append]

theorem locate_append_left {b : List α} (found : locate size base l offset = some r) :
    locate size base (l ++ b) offset = some r := by
  rw [locate_append, found]
  rfl

theorem locate_of_append {b : List α} (positive : ∀ r : α, 0 < size r)
    (found : locate size base (l ++ b) offset = some r)
    (inside : offset + size r ≤ base + total size l) : locate size base l offset = some r := by
  rw [locate_append] at found
  rcases Option.or_eq_some_iff.mp found with here | ⟨-, later⟩
  · exact here
  · have bound := (locate_bound later).1
    have := positive r
    omega

theorem sum_located_le {β : Type} (base : Nat) {weight : Nat × β → Nat} {items : List (Nat × β)}
    (nodup : (items.map Prod.fst).Nodup)
    (found : ∀ x ∈ items, ∃ r, locate size base l x.1 = some r ∧ weight x ≤ size r) :
    (items.map weight).sum ≤ total size l := by
  induction l generalizing base items with
  | nil =>
    cases items with
    | nil => exact Nat.le_refl _
    | cons x rest =>
      obtain ⟨r, located, -⟩ := found x mem_cons_self
      cases located
  | cons first rest ih =>
    have later (x : Nat × β) (member : x ∈ items) (other : x.1 ≠ base) :
        ∃ r, locate size (base + size first) rest x.1 = some r ∧ weight x ≤ size r := by
      obtain ⟨r, located, fits⟩ := found x member
      rw [locate, if_neg other] at located
      exact ⟨r, located, fits⟩
    rw [total_cons]
    by_cases here : base ∈ items.map Prod.fst
    · obtain ⟨x, member, rfl⟩ := mem_map.mp here
      obtain ⟨a, b, rfl⟩ := append_of_mem member
      rw [map_append, map_cons, nodup_middle, nodup_cons, ← map_append] at nodup
      have others := ih _ nodup.2 fun y inside =>
        later y (by simpa using (mem_append.mp inside).imp_right .inr)
          fun same => nodup.1 (same ▸ mem_map_of_mem inside)
      obtain ⟨r, located, fits⟩ := found x member
      rw [locate, if_pos rfl] at located
      cases located
      simp only [map_append, map_cons, sum_append, sum_cons] at others ⊢
      omega
    · have all := ih _ nodup fun x member => later x member fun same => here (same ▸ mem_map_of_mem member)
      omega

/-! Two layouts with items related one by one, at the same offsets. -/

section Pointwise

variable {rel other : Nat → α → α → Prop} {m : List α}

def Pointwise (size : α → Nat) (rel : Nat → α → α → Prop) : Nat → List α → List α → Prop
  | _, [], [] => True
  | base, r :: rs, s :: ss => rel base r s ∧ size s = size r ∧ Pointwise size rel (base + size r) rs ss
  | _, _, _ => False

theorem Pointwise.refl (same : ∀ offset r, rel offset r r) : Pointwise size rel base l l := by
  induction l generalizing base with
  | nil => trivial
  | cons first rest ih => exact ⟨same base first, rfl, ih⟩

section

variable (related : Pointwise size rel base l m)
include related

theorem Pointwise.mono (weaker : ∀ offset r s, base ≤ offset → rel offset r s → other offset r s) :
    Pointwise size other base l m := by
  induction l generalizing base m with
  | nil =>
    cases m with
    | nil => trivial
    | cons => exact related
  | cons first rest ih =>
    cases m with
    | nil => exact related
    | cons second others =>
      refine ⟨weaker _ _ _ (Nat.le_refl _) related.1, related.2.1, ih related.2.2 ?_⟩
      exact fun offset r s later => weaker offset r s (Nat.le_trans (Nat.le_add_right _ _) later)

theorem Pointwise.total : total size m = total size l := by
  induction l generalizing base m with
  | nil =>
    cases m with
    | nil => rfl
    | cons => exact related.elim
  | cons first rest ih =>
    cases m with
    | nil => exact related.elim
    | cons second others => rw [total_cons, total_cons, related.2.1, ih related.2.2]

theorem Pointwise.map_eq {β : Type} {f : α → β} (equal : ∀ offset r s, rel offset r s → f s = f r) :
    m.map f = l.map f := by
  induction l generalizing base m with
  | nil =>
    cases m with
    | nil => rfl
    | cons => exact related.elim
  | cons first rest ih =>
    cases m with
    | nil => exact related.elim
    | cons second others => rw [map_cons, map_cons, equal base first second related.1, ih related.2.2]

theorem Pointwise.eq (equal : ∀ offset r s, rel offset r s → s = r) : m = l := by
  simpa using related.map_eq (f := id) equal

theorem Pointwise.locate (found : locate size base l offset = some r) :
    ∃ s, locate size base m offset = some s ∧ rel offset r s := by
  induction l generalizing base m with
  | nil => simp [locate] at found
  | cons first rest ih =>
    cases m with
    | nil => exact related.elim
    | cons second others =>
      simp only [locate] at found ⊢
      split at found
      · rename_i here
        cases found
        exact ⟨second, by rw [if_pos here], here ▸ related.1⟩
      · rename_i later
        rw [if_neg later, related.2.1]
        exact ih related.2.2 found

end

theorem Pointwise.modifyAt (positive : ∀ r : α, 0 < size r) (keeps : ∀ r, size (change r) = size r)
    (related : Pointwise size rel base l m)
    (here : ∀ r s, Layout.locate size base l offset = some r → rel offset r s → other offset r (change s))
    (elsewhere : ∀ position r s, position ≠ offset → rel position r s → other position r s) :
    Pointwise size other base l (modifyAt size change base m offset) := by
  induction l generalizing base m with
  | nil =>
    cases m with
    | nil => trivial
    | cons => exact related.elim
  | cons first rest ih =>
    cases m with
    | nil => exact related.elim
    | cons second others =>
      obtain ⟨head, same, rest⟩ := related
      simp only [modifyAt]
      split
      · rename_i equal
        subst equal
        refine ⟨here first second (by simp [Layout.locate]) head, (keeps second).trans same, ?_⟩
        refine rest.mono fun position r s later => elsewhere position r s ?_
        have := positive first
        omega
      · rename_i later
        refine ⟨elsewhere _ _ _ (Ne.symm later) head, same, ?_⟩
        rw [same]
        exact ih rest fun r s found => here r s (by simpa [Layout.locate, later] using found)

end Pointwise

end Wms.Lib.Layout
