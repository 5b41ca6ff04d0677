import Mathlib.Data.Finset.Card

/-! Following a partial function from point to point.

Inside a finite set a walk comes to an end exactly when it meets no point twice.
-/

set_option autoImplicit false

namespace Wms.Lib

variable {α : Type}

def follow (next : α → Option α) : Nat → α → Option α
  | 0, a => some a
  | n + 1, a => (next a).bind (follow next n)

def Straight (next : α → Option α) (a : α) : Prop :=
  ∀ m n b, follow next m a = some b → follow next n a = some b → m = n

variable {next : α → Option α} {a b : α} {m n : Nat}

theorem follow_add (m n : Nat) (a : α) : follow next (m + n) a = (follow next m a).bind
    (follow next n) := by
  induction m generalizing a with
  | zero => simp [follow]
  | succ m ih =>
    rw [Nat.succ_add, follow, follow]
    cases next a with
    | none => rfl
    | some b => simpa using ih b

theorem follow_none_of_le (ends : follow next m a = none) (later : m ≤ n) : follow next n a = none := by
  obtain ⟨d, rfl⟩ := Nat.exists_eq_add_of_le later
  rw [follow_add, ends]
  rfl

theorem follow_mul (again : follow next n a = some a) (k : Nat) : follow next (n * k) a = some a := by
  induction k with
  | zero => rfl
  | succ k ih =>
    rw [Nat.mul_succ, follow_add, ih]
    exact again

theorem straight_of_ends (ends : follow next n a = none) : Straight next a := by
  have apart (i j : Nat) (b : α) (first : follow next i a = some b)
      (second : follow next j a = some b) : ¬ i < j := by
    intro earlier
    obtain ⟨d, rfl⟩ := Nat.exists_eq_add_of_lt earlier
    -- the walk from `b` to itself, taken so often that it is longer than the whole
    have loop : follow next (d + 1) b = some b := by
      rw [Nat.add_assoc, follow_add, first] at second
      exact second
    have round : follow next (i + (d + 1) * n) a = some b := by
      rw [follow_add, first]
      exact follow_mul loop n
    have long : n ≤ i + (d + 1) * n := by
      have : n ≤ (d + 1) * n := Nat.le_mul_of_pos_left n (Nat.succ_pos d)
      omega
    rw [follow_none_of_le ends long] at round
    cases round
  intro i j b first second
  have before := apart i j b first second
  have after := apart j i b second first
  omega

theorem ends_of_straight {points : Finset α} (inside : ∀ a b, next a = some b → b ∈ points)
    (straight : Straight next a) : ∃ n, follow next n a = none := by
  by_contra goes
  have met (n : Nat) : ∃ b, follow next n a = some b :=
    Option.ne_none_iff_exists'.mp fun ends => goes ⟨n, ends⟩
  choose point here using met
  have lands (n : Nat) : point (n + 1) ∈ points := by
    have step := here (n + 1)
    rw [follow_add, here n, Option.bind_some, follow] at step
    obtain ⟨b, taken, same⟩ := Option.bind_eq_some_iff.mp step
    rw [follow, Option.some.injEq] at same
    exact same ▸ inside _ _ taken
  have more : points.card < (Finset.range (points.card + 1)).card := by simp
  obtain ⟨i, -, j, -, different, same⟩ :=
    Finset.exists_ne_map_eq_of_card_lt_of_maps_to (f := fun n => point (n + 1)) more fun n _ => lands n
  have together : i + 1 = j + 1 := straight (i + 1) (j + 1) (point (i + 1)) (here (i + 1)) (by
    rw [here (j + 1)]
    exact congrArg some same.symm)
  omega

/-- In a finite set, to end is to meet no point twice. -/
theorem straight_iff_ends {points : Finset α} (inside : ∀ a b, next a = some b → b ∈ points) :
    Straight next a ↔ ∃ n, follow next n a = none :=
  ⟨ends_of_straight inside, fun ⟨_, ends⟩ => straight_of_ends ends⟩

end Wms.Lib
