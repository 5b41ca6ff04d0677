import Mathlib.Logic.Basic

/-! Programs that talk to their surroundings.

A program either returns or makes a call and goes on with the reply; nothing is assumed
about replies. `run` answers every call by one function and collects the calls made. A
task also carries a state of its own and may stop with an error code, which keeps the state.
-/

set_option autoImplicit false

namespace Wms.Lib

inductive Interact (C : Type) (R : C → Type) (α : Type) : Type where
  | ret (value : α)
  | call (c : C) (next : R c → Interact C R α)

namespace Interact

variable {C : Type} {R : C → Type} {α β : Type}

def bind : Interact C R α → (α → Interact C R β) → Interact C R β
  | .ret a, f => f a
  | .call c next, f => .call c fun reply => (next reply).bind f

def run (answer : (c : C) → R c) : Interact C R α → List C × α
  | .ret a => ([], a)
  | .call c next => (c :: (run answer (next (answer c))).1, (run answer (next (answer c))).2)

def calls (answer : (c : C) → R c) (t : Interact C R α) : List C := (t.run answer).1

def value (answer : (c : C) → R c) (t : Interact C R α) : α := (t.run answer).2

variable {answer : (c : C) → R c}

@[simp] theorem calls_ret (a : α) : (ret a : Interact C R α).calls answer = [] := rfl

@[simp] theorem value_ret (a : α) : (ret a : Interact C R α).value answer = a := rfl

@[simp] theorem calls_call (c : C) (next : R c → Interact C R α) :
    (call c next).calls answer = c :: (next (answer c)).calls answer := rfl

@[simp] theorem value_call (c : C) (next : R c → Interact C R α) :
    (call c next).value answer = (next (answer c)).value answer := rfl

@[simp] theorem call_bind (c : C) (next : R c → Interact C R α) (f : α → Interact C R β) :
    (call c next).bind f = .call c fun reply => (next reply).bind f := rfl

variable (t : Interact C R α) (f : α → Interact C R β)

theorem bind_assoc {δ : Type} (g : β → Interact C R δ) : (t.bind f).bind g = t.bind fun a =>
    (f a).bind g := by
  induction t with
  | ret a => rfl
  | call c next ih => simp [ih]

theorem calls_bind : (t.bind f).calls answer = t.calls answer ++ (f (t.value answer)).calls answer := by
  induction t with
  | ret a => rfl
  | call c next ih => simp [ih]

theorem value_bind : (t.bind f).value answer = (f (t.value answer)).value answer := by
  induction t with
  | ret a => rfl
  | call c next ih => simp [ih]

/-- The value returned when the surroundings have a state, and the state left behind. -/
def serve {σ : Type} (answer : σ → (c : C) → R c × σ) : Interact C R α → σ → α × σ
  | .ret a, s => (a, s)
  | .call c next, s => serve answer (next (answer s c).1) (answer s c).2

end Interact

/-- A program with a state of its own that may stop with an error code. -/
def Dialog (C : Type) (R : C → Type) (σ ε α : Type) := σ → Interact C R (Except ε α × σ)

namespace Dialog

variable {C : Type} {R : C → Type} {σ ε α β : Type}

instance : Monad (Dialog C R σ ε) where
  pure a := fun s => .ret (.ok a, s)
  bind x f := fun s => (x s).bind fun
    | (.ok a, t) => f a t
    | (.error e, t) => .ret (.error e, t)

def throw (e : ε) : Dialog C R σ ε α := fun s => .ret (.error e, s)

def get : Dialog C R σ ε σ := fun s => .ret (.ok s, s)

def modify (f : σ → σ) : Dialog C R σ ε Unit := fun s => .ret (.ok (), f s)

def ask (c : C) : Dialog C R σ ε (R c) := fun s => .call c fun reply => .ret (.ok reply, s)

def ofExcept : Except ε α → Dialog C R σ ε α
  | .ok a => pure a
  | .error e => throw e

/-- `try x catch handler`; the handler sees the state in which the code was raised. -/
def tryCatch (x : Dialog C R σ ε α) (handler : ε → Dialog C R σ ε α) : Dialog C R σ ε α := fun s =>
  (x s).bind fun
    | (.ok a, t) => .ret (.ok a, t)
    | (.error e, t) => handler e t

/-! What a dialog does when its calls are answered by one function. -/

def calls (answer : (c : C) → R c) (x : Dialog C R σ ε α) (s : σ) : List C := (x s).calls answer

def result (answer : (c : C) → R c) (x : Dialog C R σ ε α) (s : σ) : Except ε α × σ :=
  (x s).value answer

variable {answer : (c : C) → R c} {x : Dialog C R σ ε α} {f : α → Dialog C R σ ε β} {s t : σ}
  {a : α} {e : ε}

@[simp] theorem calls_pure (a : α) : (pure a : Dialog C R σ ε α).calls answer s = [] := rfl

@[simp] theorem result_pure (a : α) : (pure a : Dialog C R σ ε α).result answer s = (.ok a, s) := rfl

@[simp] theorem calls_throw (e : ε) : (throw e : Dialog C R σ ε α).calls answer s = [] := rfl

@[simp] theorem result_throw (e : ε) : (throw e : Dialog C R σ ε α).result answer s = (.error e, s) := rfl

@[simp] theorem calls_get : (get : Dialog C R σ ε σ).calls answer s = [] := rfl

@[simp] theorem result_get : (get : Dialog C R σ ε σ).result answer s = (.ok s, s) := rfl

@[simp] theorem calls_modify (f : σ → σ) : (modify f : Dialog C R σ ε Unit).calls answer s = [] := rfl

@[simp] theorem result_modify (f : σ → σ) : (modify f : Dialog C R σ ε Unit).result answer s =
    (.ok (), f s) := rfl

@[simp] theorem calls_ask (c : C) : (ask c : Dialog C R σ ε (R c)).calls answer s = [c] := rfl

@[simp] theorem result_ask (c : C) : (ask c : Dialog C R σ ε (R c)).result answer s =
    (.ok (answer c), s) := rfl

theorem calls_bind_ok (first : x.result answer s = (.ok a, t)) :
    (x >>= f).calls answer s = x.calls answer s ++ (f a).calls answer t := by
  change ((x s).bind _).calls answer = _
  rw [Interact.calls_bind, show (x s).value answer = (.ok a, t) from first]
  rfl

theorem result_bind_ok (first : x.result answer s = (.ok a, t)) :
    (x >>= f).result answer s = (f a).result answer t := by
  change ((x s).bind _).value answer = _
  rw [Interact.value_bind, show (x s).value answer = (.ok a, t) from first]
  rfl

theorem calls_bind_error (first : x.result answer s = (.error e, t)) :
    (x >>= f).calls answer s = x.calls answer s := by
  change ((x s).bind _).calls answer = _
  rw [Interact.calls_bind, show (x s).value answer = (.error e, t) from first]
  exact List.append_nil _

theorem result_bind_error (first : x.result answer s = (.error e, t)) :
    (x >>= f).result answer s = (.error e, t) := by
  change ((x s).bind _).value answer = _
  rw [Interact.value_bind, show (x s).value answer = (.error e, t) from first]
  rfl

theorem result_bind_eq_ok {b : β} {u : σ} : (x >>= f).result answer s = (.ok b, u) ↔
    ∃ a t, x.result answer s = (.ok a, t) ∧ (f a).result answer t = (.ok b, u) := by
  cases outcome : x.result answer s with
  | mk result t =>
    cases result with
    | ok a => simp [result_bind_ok outcome, and_assoc]
    | error e => simp [result_bind_error outcome]

theorem mem_calls_bind {c : C} : c ∈ (x >>= f).calls answer s ↔
    c ∈ x.calls answer s ∨ ∃ a t, x.result answer s = (.ok a, t) ∧ c ∈ (f a).calls answer t := by
  cases outcome : x.result answer s with
  | mk result t =>
    cases result with
    | ok a => simp [calls_bind_ok outcome, and_assoc]
    | error e => simp [calls_bind_error outcome]

@[simp] theorem bind_bind {δ : Type} {g : β → Dialog C R σ ε δ} : (x >>= f) >>= g = x >>= fun a =>
    f a >>= g := by
  funext s
  change ((x s).bind _).bind _ = (x s).bind _
  rw [Interact.bind_assoc]
  congr 1
  funext outcome
  obtain ⟨result, t⟩ := outcome
  cases result <;> rfl

/-! A first step that makes at most one call. -/

@[simp] theorem calls_pure_bind : (pure a >>= f).calls answer s = (f a).calls answer s := rfl

@[simp] theorem result_pure_bind : (pure a >>= f).result answer s = (f a).result answer s := rfl

@[simp] theorem calls_throw_bind : (throw e >>= f).calls answer s = [] := rfl

@[simp] theorem result_throw_bind : (throw e >>= f).result answer s = (.error e, s) := rfl

@[simp] theorem calls_get_bind {f : σ → Dialog C R σ ε β} :
    (get >>= f).calls answer s = (f s).calls answer s := rfl

@[simp] theorem result_get_bind {f : σ → Dialog C R σ ε β} :
    (get >>= f).result answer s = (f s).result answer s := rfl

@[simp] theorem calls_modify_bind {g : σ → σ} {f : Unit → Dialog C R σ ε β} :
    (modify g >>= f).calls answer s = (f ()).calls answer (g s) := rfl

@[simp] theorem result_modify_bind {g : σ → σ} {f : Unit → Dialog C R σ ε β} :
    (modify g >>= f).result answer s = (f ()).result answer (g s) := rfl

@[simp] theorem calls_ask_bind {c : C} {f : R c → Dialog C R σ ε β} :
    (ask c >>= f).calls answer s = c :: (f (answer c)).calls answer s := rfl

@[simp] theorem result_ask_bind {c : C} {f : R c → Dialog C R σ ε β} :
    (ask c >>= f).result answer s = (f (answer c)).result answer s := rfl

section TryCatch

variable {handler : ε → Dialog C R σ ε α}

theorem calls_tryCatch_ok (first : x.result answer s = (.ok a, t)) :
    (tryCatch x handler).calls answer s = x.calls answer s := by
  change ((x s).bind _).calls answer = _
  rw [Interact.calls_bind, show (x s).value answer = (.ok a, t) from first]
  exact List.append_nil _

theorem calls_tryCatch_error (first : x.result answer s = (.error e, t)) :
    (tryCatch x handler).calls answer s = x.calls answer s ++ (handler e).calls answer t := by
  change ((x s).bind _).calls answer = _
  rw [Interact.calls_bind, show (x s).value answer = (.error e, t) from first]
  rfl

theorem mem_calls_tryCatch {c : C} : c ∈ (tryCatch x handler).calls answer s ↔
    c ∈ x.calls answer s ∨ ∃ e t, x.result answer s = (.error e, t) ∧ c ∈ (handler e).calls answer t := by
  cases outcome : x.result answer s with
  | mk result t =>
    cases result with
    | ok a => simp [calls_tryCatch_ok outcome]
    | error e => simp [calls_tryCatch_error outcome, and_assoc]

theorem calls_tryCatch_bind_ok {y : Dialog C R σ ε β} {g : β → Dialog C R σ ε α} {b : β}
    (first : y.result answer s = (.ok b, t)) : (tryCatch (y >>= g) handler).calls answer s =
      y.calls answer s ++ (tryCatch (g b) handler).calls answer t := by
  cases outcome : (g b).result answer t with
  | mk result u =>
    have whole := (result_bind_ok first).trans outcome
    cases result with
    | ok a => rw [calls_tryCatch_ok whole, calls_tryCatch_ok outcome, calls_bind_ok first]
    | error e =>
      rw [calls_tryCatch_error whole, calls_tryCatch_error outcome, calls_bind_ok first, List.append_assoc]

theorem calls_tryCatch_bind_error {y : Dialog C R σ ε β} {g : β → Dialog C R σ ε α}
    (first : y.result answer s = (.error e, t)) : (tryCatch (y >>= g) handler).calls answer s =
      y.calls answer s ++ (handler e).calls answer t := by
  rw [calls_tryCatch_error (result_bind_error first), calls_bind_error first]

end TryCatch

end Dialog

end Wms.Lib
