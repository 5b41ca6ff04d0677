import Mathlib.Data.List.Infix

/-! Systems that move by one action at a time.

`Runs` collects the states reached from a start by actions that meet a guard in the state
they are taken in; with the guard `Free` these are all states of all interleavings. An
invariant of a system is proved for one action and holds along every run.
-/

set_option autoImplicit false

namespace Wms.Lib

open List

section Runs

variable {σ α : Type}

inductive Runs (step : σ → α → Option σ) (start : σ) (guard : σ → α → Prop) : σ → Prop where
  | start : Runs step start guard start
  | next {s t : σ} {a : α} : Runs step start guard s → guard s a → step s a = some t →
      Runs step start guard t

def Free (_ : σ) (_ : α) : Prop := True

instance (s : σ) (a : α) : Decidable (Free s a) := instDecidableTrue

variable {step : σ → α → Option σ} {start : σ} {guard : σ → α → Prop}

variable {holds : σ → Prop} {s : σ} {actions : List α} {t : σ}

theorem Runs.invariant (initial : holds start)
    (preserved : ∀ s a t, holds s → guard s a → step s a = some t → holds t)
      (run : Runs step start guard s) :
    holds s := by
  induction run with
  | start => exact initial
  | next _ met taken ih => exact preserved _ _ _ ih met taken

/-- A guard that an invariant implies may be assumed of every action. -/
theorem Runs.guarded {guard' : σ → α → Prop} (initial : holds start)
    (preserved : ∀ s a t, holds s → guard s a → step s a = some t → holds t)
    (implied : ∀ s a t, holds s → guard s a → step s a = some t → guard' s a)
      (run : Runs step start guard s) :
    Runs step start guard' s := by
  induction run with
  | start => exact .start
  | next before met taken ih =>
    exact .next ih (implied _ _ _ (before.invariant initial preserved) met taken) taken

/-- Take the actions of a list in turn; an action outside the guard is not taken. -/
def execute (step : σ → α → Option σ) (guard : σ → α → Prop) [∀ s a, Decidable (guard s a)] :
    σ → List α → Option σ
  | s, [] => some s
  | s, a :: rest => if guard s a then (step s a).bind (execute step guard · rest) else none

section Execute

variable [∀ s a, Decidable (guard s a)] {a : α} {rest : List α}

theorem execute_cons_iff : execute step guard s (a :: rest) = some t ↔
    guard s a ∧ ∃ u, step s a = some u ∧ execute step guard u rest = some t := by
  rw [execute]
  split_ifs with met
  · rw [Option.bind_eq_some_iff, and_iff_right met]
  · exact iff_of_false id fun both => met both.1

theorem Runs.execute (run : Runs step start guard s) (done : execute step guard s actions = some t) :
    Runs step start guard t := by
  induction actions generalizing s with
  | nil =>
    cases done
    exact run
  | cons a rest ih =>
    obtain ⟨met, u, taken, remaining⟩ := execute_cons_iff.mp done
    exact ih (.next run met taken) remaining

theorem execute_invariant (holds : σ → Prop) (initial : holds s)
    (preserved : ∀ s a t, a ∈ actions → holds s → step s a = some t → holds t)
    (done : execute step guard s actions = some t) : holds t := by
  induction actions generalizing s with
  | nil =>
    cases done
    exact initial
  | cons a rest ih =>
    obtain ⟨_, u, taken, remaining⟩ := execute_cons_iff.mp done
    exact ih (preserved _ _ _ (mem_cons_self ..) initial taken)
      (fun s a t member => preserved s a t (mem_cons_of_mem _ member)) remaining

theorem execute_split {before after : List α}
    (done : execute step guard s (before ++ a :: after) = some t) :
    ∃ u v, execute step guard s before = some u ∧ step u a = some v ∧
      execute step guard s (before ++ [a]) = some v := by
  induction before generalizing s with
  | nil =>
    obtain ⟨met, v, taken, _⟩ := execute_cons_iff.mp done
    exact ⟨s, v, rfl, taken, execute_cons_iff.mpr ⟨met, v, taken, rfl⟩⟩
  | cons b before ih =>
    obtain ⟨met, next, taken, rest⟩ := execute_cons_iff.mp done
    obtain ⟨u, v, reached, last, all⟩ := ih rest
    exact ⟨u, v, execute_cons_iff.mpr ⟨met, next, taken, reached⟩, last,
      execute_cons_iff.mpr ⟨met, next, taken, all⟩⟩

section Cons

variable (met : guard s a) (taken : step s a = some t)
include met taken

theorem execute_cons (rest : List α) : execute step guard s (a :: rest) = execute step guard t rest := by
  simp [execute, met, taken]

theorem forall_moments_cons : (∀ before u, before <+: a :: rest →
    execute step guard s before = some u → holds u) ↔
    holds s ∧ ∀ before u, before <+: rest → execute step guard t before = some u → holds u := by
  constructor
  · refine fun all => ⟨all [] s nil_prefix rfl, fun before u part reached => ?_⟩
    exact all (a :: before) u ((prefix_cons_inj a).mpr part)
      ((execute_cons met taken before).trans reached)
  · rintro ⟨first, later⟩ (_ | ⟨b, before⟩) u part reached
    · cases reached
      exact first
    · obtain ⟨rfl, shorter⟩ := cons_prefix_cons.mp part
      exact later before u shorter (execute_cons met taken before ▸ reached)

theorem forall_steps_cons {meets : σ → α → Prop} : (∀ before b after u, a :: rest = before ++ b :: after →
      execute step guard s before = some u → meets u b) ↔
    meets s a ∧ ∀ before b after u, rest = before ++ b :: after →
      execute step guard t before = some u → meets u b := by
  constructor
  · refine fun all => ⟨all [] a rest s rfl rfl, fun before b after u split reached => ?_⟩
    exact all (a :: before) b after u (by rw [split]; rfl) ((execute_cons met taken before).trans reached)
  · rintro ⟨first, later⟩ (_ | ⟨c, before⟩) b after u split reached <;> cases split
    · cases reached
      exact first
    · exact later before b after u rfl (execute_cons met taken before ▸ reached)

end Cons

/-- A property that every step from a sound state keeps or breaks, as a condition of the step says,
holds at every moment exactly if every step meets the condition. -/
theorem execute_holds_iff {sound : σ → Prop} {meets : σ → α → Prop} (implied : ∀ s, sound s → holds s)
    (decided : ∀ s a t, sound s → guard s a → step s a = some t → sound t ∧ meets s a ∨
      ¬holds t ∧ ¬meets s a)
    (initial : sound s) (done : execute step guard s actions = some t) :
    (∀ before u, before <+: actions → execute step guard s before = some u → holds u) ↔
      ∀ before a after u, actions = before ++ a :: after → execute step guard s before = some u →
        meets u a := by
  induction actions generalizing s with
  | nil =>
    constructor
    · intro _ before a after u split
      cases before <;> cases split
    · intro _ before u part reached
      cases prefix_nil.mp part
      cases reached
      exact implied s initial
  | cons a rest ih =>
    obtain ⟨met, v, taken, remaining⟩ := execute_cons_iff.mp done
    rw [forall_moments_cons met taken, forall_steps_cons met taken, and_iff_right (implied s initial)]
    rcases decided s a v initial met taken with ⟨sound, meets⟩ | ⟨broken, misses⟩
    · rw [ih sound remaining, and_iff_right meets]
    · exact iff_of_false (fun later => broken (later [] v nil_prefix rfl)) fun all => misses all.1

end Execute

end Runs

end Wms.Lib
