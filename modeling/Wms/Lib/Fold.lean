import Mathlib.Logic.Basic

/-! Loops over a list whose steps may fail. -/

set_option autoImplicit false

namespace Wms.Lib

open List

variable {α σ ε : Type} {l : List α}

theorem exists_foldlM {m : Type → Type} [Monad m] [LawfulMonad m] {f : σ → α → m σ}
    (steps : ∀ x ∈ l, ∀ s, ∃ t, f s x = pure t) (s : σ) : ∃ t, l.foldlM f s = pure t := by
  induction l generalizing s with
  | nil => exact ⟨s, foldlM_nil⟩
  | cons x rest ih =>
    obtain ⟨mid, first⟩ := steps x mem_cons_self s
    obtain ⟨t, later⟩ := ih (fun y member => steps y (mem_cons_of_mem _ member)) mid
    exact ⟨t, by rw [foldlM_cons, first, pure_bind, later]⟩

theorem foldlM_keeps {f : σ → α → Except ε σ} (kept : List α → σ → Prop) {b b' : σ}
    (start : kept [] b) (step : ∀ done x b b', kept done b → f b x = .ok b' → kept (done ++ [x]) b')
    (runs : l.foldlM f b = .ok b') : kept l b' := by
  -- The induction is on what is left; the invariant speaks about what is done.
  have folds (rest done : List α) (b : σ) (so : kept done b) (more : rest.foldlM f b = .ok b') :
      kept (done ++ rest) b' := by
    induction rest generalizing done b with
    | nil =>
      cases more
      rwa [append_nil]
    | cons x rest ih =>
      rw [foldlM_cons] at more
      cases one : f b x with
      | error e =>
        rw [one] at more
        cases more
      | ok next =>
        rw [one] at more
        rw [append_cons]
        exact ih _ next (step _ _ _ _ so one) more
  exact folds l [] b start runs

/-- What every step keeps holds after the loop if it held before or one step establishes it. -/
theorem foldlM_establishes {f : σ → α → Option σ} {good : σ → Prop} {s t : σ}
    (keeps : ∀ s x t, good s → f s x = some t → good t)
    (makes : good s ∨ ∃ x ∈ l, ∀ s t, f s x = some t → good t) (done : l.foldlM f s = some t) :
    good t := by
  induction l generalizing s with
  | nil =>
    cases done
    exact makes.resolve_right (by simp)
  | cons y rest ih =>
    rw [foldlM_cons] at done
    obtain ⟨mid, first, later⟩ := Option.bind_eq_some_iff.mp done
    refine ih ?_ later
    rcases makes with already | ⟨x, member, made⟩
    · exact .inl (keeps s y mid already first)
    · rcases mem_cons.mp member with rfl | member
      · exact .inl (made s mid first)
      · exact .inr ⟨x, member, made⟩

end Wms.Lib
