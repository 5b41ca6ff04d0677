import Wms.Lib.Monitor

/-! Programs that run beside each other.

In one step of a pool one of its programs makes its next call; an effect says
which replies the shared surroundings may give and what becomes of them. A
monitor follows every program and keeps its phase. An invariant of the pool may
then use that each call is allowed in the phase its program is in.
-/

set_option autoImplicit false

namespace Wms.Lib

open Function

variable {σ C γ : Type} {R : C → Type}

structure Pool (σ C : Type) (R : C → Type) (γ : Type) where
  shared : σ
  program : Nat → Interact C R Unit
  phase : Nat → γ

structure Exchanged (C : Type) (R : C → Type) where
  pid : Nat
  call : C
  reply : R call

abbrev Effect (σ C : Type) (R : C → Type) := σ → Nat → (c : C) → R c → Option σ

namespace Interact

def Running : Interact C R Unit → Prop
  | .ret _ => False
  | .call _ _ => True

instance (t : Interact C R Unit) : Decidable t.Running :=
  match t with
  | .ret _ => instDecidableFalse
  | .call _ _ => instDecidableTrue

end Interact

namespace Pool

structure Stepped (effect : Effect σ C R) (m : Monitor C R γ) (p : Pool σ C R γ) (a : Exchanged C R)
    (q : Pool σ C R γ) : Prop where
  running : (p.program a.pid).Running
  effect : effect p.shared a.pid a.call a.reply = some q.shared
  program : ∀ pid, pid ≠ a.pid → q.program pid = p.program pid
  phase : q.phase = update p.phase a.pid (m.after (p.phase a.pid) a.call a.reply)

variable {effect : Effect σ C R} {m : Monitor C R γ} {p q : Pool σ C R γ} {a : Exchanged C R}

theorem Stepped.phase_self (stepped : Stepped effect m p a q) :
    q.phase a.pid = m.after (p.phase a.pid) a.call a.reply := by
  rw [stepped.phase, update_self]

theorem Stepped.phase_other (stepped : Stepped effect m p a q) {pid : Nat} (other : pid ≠ a.pid) :
    q.phase pid = p.phase pid := by
  rw [stepped.phase, update_of_ne other]

variable [DecidableEq C]

def step (effect : Effect σ C R) (m : Monitor C R γ) (p : Pool σ C R γ) (a : Exchanged C R) :
    Option (Pool σ C R γ) :=
  match p.program a.pid with
  | .ret _ => none
  | .call c next =>
    if same : a.call = c then
      (effect p.shared a.pid a.call a.reply).map fun s => {
        shared := s
        program := update p.program a.pid (next (same ▸ a.reply))
        phase := update p.phase a.pid (m.after (p.phase a.pid) a.call a.reply) }
    else none

def Obeys (m : Monitor C R γ) (p : Pool σ C R γ) : Prop :=
  ∀ pid, (p.program pid).Obeys m (p.phase pid) fun _ _ => True

theorem step_stepped (taken : step effect m p a = some q) : Stepped effect m p a q := by
  unfold step at taken
  split at taken
  · cases taken
  · rename_i c next asked
    split at taken
    · obtain ⟨s, reached, rfl⟩ := Option.map_eq_some_iff.mp taken
      exact ⟨by rw [asked]; trivial, reached, fun other different => update_of_ne different _ _, rfl⟩
    · cases taken

theorem step_obeys (obeys : p.Obeys m) (taken : step effect m p a = some q) :
    m.allows (p.phase a.pid) a.call ∧ (m.trusts (p.phase a.pid) a.call a.reply → q.Obeys m) := by
  obtain ⟨pid, call, reply⟩ := a
  unfold step at taken
  split at taken
  · cases taken
  · rename_i c next asked
    split at taken
    · rename_i same
      cases same
      obtain ⟨s, reached, rfl⟩ := Option.map_eq_some_iff.mp taken
      have here := obeys pid
      rw [asked] at here
      refine ⟨here.1, fun trusted other => ?_⟩
      by_cases different : other = pid
      · subst different
        simpa using here.2 reply trusted
      · simpa [update_of_ne different] using obeys other
    · cases taken

/-- An invariant of a pool of programs that obey a monitor: the replies are to be trusted where it
holds, and each allowed call keeps it. -/
theorem runs_invariant {start : Pool σ C R γ} {guard : Pool σ C R γ → Exchanged C R → Prop}
    {holds : Pool σ C R γ → Prop} (obeys : start.Obeys m) (initial : holds start)
    (trusted : ∀ p a q, holds p → guard p a → Stepped effect m p a q →
      m.trusts (p.phase a.pid) a.call a.reply)
    (preserved : ∀ p a q, holds p → guard p a → m.allows (p.phase a.pid) a.call →
      Stepped effect m p a q → holds q)
    (run : Runs (step effect m) start guard p) : holds p := by
  have kept (p : Pool σ C R γ) (a : Exchanged C R) (q : Pool σ C R γ) (both : p.Obeys m ∧ holds p)
      (met : guard p a) (taken : step effect m p a = some q) : q.Obeys m ∧ holds q := by
    have stepped := step_stepped taken
    obtain ⟨allowed, next⟩ := step_obeys both.1 taken
    exact ⟨next (trusted p a q both.2 met stepped), preserved p a q both.2 met allowed stepped⟩
  exact (Runs.invariant ⟨obeys, initial⟩ kept run).2

theorem runs_single {start : Pool σ C R γ} {guard guard' : Pool σ C R γ → Exchanged C R → Prop} (pid : Nat)
    (single : ∀ p a, guard p a → a.pid = pid)
    (implied : ∀ p a, (∀ other, other ≠ pid → p.phase other = start.phase other) → guard p a → guard' p a)
    (run : Runs (step effect m) start guard p) : Runs (step effect m) start guard' p := by
  refine (?_ : Runs (step effect m) start guard' p ∧ ∀ other, other ≠ pid →
    p.phase other = start.phase other).1
  induction run with
  | start => exact ⟨.start, fun _ _ => rfl⟩
  | next _ met taken ih =>
    refine ⟨.next ih.1 (implied _ _ ih.2 met) taken, fun other different => ?_⟩
    rw [(step_stepped taken).phase_other (single _ _ met ▸ different)]
    exact ih.2 other different

end Pool

end Wms.Lib
