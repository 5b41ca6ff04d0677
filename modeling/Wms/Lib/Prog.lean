import Wms.Lib.FileStream

/-! Programs over an environment and a state.

A run returns a value, stops with an error code, or does not return. An error
keeps the state reached when it was raised: nothing is rolled back.
-/

set_option autoImplicit false

namespace Wms.Lib

inductive Outcome (σ ε α : Type) where
  | ok (value : α) (state : σ)
  | error (code : ε) (state : σ)
  | hang
  deriving Repr

def Outcome.final? {σ ε α : Type} : Outcome σ ε α → Option σ
  | .ok _ s => some s
  | .error _ s => some s
  | .hang => none

def Outcome.value? {σ ε α : Type} : Outcome σ ε α → Option α
  | .ok a _ => some a
  | _ => none

def Prog (ρ σ ε α : Type) := ρ → σ → Outcome σ ε α

namespace Prog

variable {ρ σ ε α β : Type}

instance : Monad (Prog ρ σ ε) where
  pure a := fun _ s => .ok a s
  bind x f := fun e s =>
    match x e s with
    | .ok a t => f a e t
    | .error c t => .error c t
    | .hang => .hang

def throw (code : ε) : Prog ρ σ ε α := fun _ s => .error code s

/-- The run has no result; a loop whose fuel is used up ends here. -/
def diverge : Prog ρ σ ε α := fun _ _ => .hang

def ask : Prog ρ σ ε ρ := fun e s => .ok e s

def get : Prog ρ σ ε σ := fun _ s => .ok s s

def attempt (x : Prog ρ σ ε α) : Prog ρ σ ε (Except ε α) := fun e s =>
  match x e s with
  | .ok a t => .ok (.ok a) t
  | .error c t => .ok (.error c) t
  | .hang => .hang

def ofExcept : Except ε α → Prog ρ σ ε α
  | .ok a => fun _ s => .ok a s
  | .error c => fun _ s => .error c s

variable {x : Prog ρ σ ε α} {f : α → Prog ρ σ ε β} {e : ρ} {s t : σ} {a : α} {c : ε}

theorem bind_ok (run : x e s = .ok a t) : (x >>= f) e s = f a e t := by
  simp only [bind, run]

theorem bind_error (run : x e s = .error c t) : (x >>= f) e s = .error c t := by
  simp only [bind, run]

theorem bind_hang (run : x e s = .hang) : (x >>= f) e s = .hang := by
  simp only [bind, run]

/-- What ends in an error before two programs part ends both. -/
theorem bind_error_of {γ : Type} {g : α → Prog ρ σ ε γ} (run : (x >>= f) e s = .error c t)
    (rest : ∀ a u, f a e u = .error c t → g a e u = .error c t) : (x >>= g) e s = .error c t := by
  cases first : x e s with
  | ok a u =>
    rw [bind_ok first] at run ⊢
    exact rest a u run
  | error =>
    rw [bind_error first] at run ⊢
    cases run
    rfl
  | hang => rw [bind_hang first] at run; cases run

theorem bind_eq_ok {b : β} {u : σ} (run : (x >>= f) e s = .ok b u) : ∃ a t, x e s = .ok a t ∧
    f a e t = .ok b u := by
  cases first : x e s with
  | ok a t =>
    rw [bind_ok first] at run
    exact ⟨a, t, rfl, run⟩
  | error c t => rw [bind_error first] at run; cases run
  | hang => rw [bind_hang first] at run; cases run

theorem attempt_ok (run : x e s = .ok a t) : attempt x e s = .ok (.ok a) t := by
  simp only [attempt, run]

theorem attempt_error (run : x e s = .error c t) : attempt x e s = .ok (.error c) t := by
  simp only [attempt, run]

/-- The run ends, with or without an error, whatever it starts from. -/
def Prompt (x : Prog ρ σ ε α) : Prop := ∀ e s, x e s ≠ .hang

theorem bind_ne_hang (first : x e s ≠ .hang) (second : ∀ a, Prompt (f a)) : (x >>= f) e s ≠ .hang := by
  cases run : x e s with
  | ok a t =>
    rw [bind_ok run]
    exact second a e t
  | error c t =>
    rw [bind_error run]
    exact nofun
  | hang => exact absurd run first

theorem Prompt.bind (first : Prompt x) (second : ∀ a, Prompt (f a)) : Prompt (x >>= f) :=
  fun e s => bind_ne_hang (first e s) second

theorem Prompt.branch {p : Prop} [Decidable p] {x y : Prog ρ σ ε α} (yes : Prompt x) (no : Prompt y) :
    Prompt (if p then x else y) := by
  split
  · exact yes
  · exact no

end Prog

end Wms.Lib
