import Wms.Lib.Interact
import Wms.Lib.Transition

/-! Programs watched by a monitor.

A monitor keeps a state of its own. In each state it says which calls are allowed and which
replies are trusted, and it moves on with every call and its reply. A program that obeys a
monitor makes only allowed calls as long as it is given trusted replies, and then ends in a
state of the monitor and with a value that satisfy a postcondition. The rules are those of
weakest preconditions.
-/

set_option autoImplicit false

namespace Wms.Lib

structure Monitor (C : Type) (R : C → Type) (γ : Type) where
  allows : γ → C → Prop
  trusts : γ → (c : C) → R c → Prop
  after : γ → (c : C) → R c → γ

namespace Monitor

variable {C : Type} {R : C → Type} {γ : Type}

def follow (m : Monitor C R γ) (answer : (c : C) → R c) (g : γ) (calls : List C) : γ :=
  calls.foldl (fun g c => m.after g c (answer c)) g

/-- Keeps account of the calls when every one is answered by one function. -/
def following (answer : (c : C) → R c) (after : γ → (c : C) → R c → γ) : Monitor C R γ where
  allows _ _ := True
  trusts _ c reply := reply = answer c
  after := after

def serving (answer : γ → (c : C) → R c × γ) : Monitor C R γ where
  allows _ _ := True
  trusts g c reply := reply = (answer g c).1
  after g c _ := (answer g c).2

def only (R : C → Type) (allowed : C → Prop) : Monitor C R Unit where
  allows _ c := allowed c
  trusts _ _ _ := True
  after _ _ _ := ()

/-- Calls that are allowed and of which no account is kept. -/
def Ignores (m : Monitor C R γ) (g : γ) (allowed : C → Prop) : Prop :=
  ∀ c, allowed c → m.allows g c ∧ ∀ reply, m.after g c reply = g

end Monitor

namespace Interact

variable {C : Type} {R : C → Type} {γ α β : Type} {m : Monitor C R γ} {g : γ}
  {answer : (c : C) → R c}

def Obeys (m : Monitor C R γ) : Interact C R α → γ → (γ → α → Prop) → Prop
  | .ret a, g, post => post g a
  | .call c next, g, post =>
    m.allows g c ∧ ∀ reply, m.trusts g c reply → (next reply).Obeys m (m.after g c reply) post

variable {t : Interact C R α} {post : γ → α → Prop}

theorem Obeys.mono {post' : γ → α → Prop} (obeys : t.Obeys m g post)
    (weaker : ∀ g a, post g a → post' g a) :
    t.Obeys m g post' := by
  induction t generalizing g with
  | ret a => exact weaker g a obeys
  | call c next ih => exact ⟨obeys.1, fun reply trusted => ih reply (obeys.2 reply trusted)⟩

theorem obeys_bind {f : α → Interact C R β} {post : γ → β → Prop} :
    (t.bind f).Obeys m g post ↔ t.Obeys m g fun g a => (f a).Obeys m g post := by
  induction t generalizing g with
  | ret a => exact Iff.rfl
  | call c next ih =>
    exact and_congr_right fun _ => forall_congr' fun reply => imp_congr_right fun _ => ih reply

/-- What a program that obeys does when every call is answered by one function. -/
theorem Obeys.run (obeys : t.Obeys m g post) (trusted : ∀ g c, m.trusts g c (answer c)) :
    post (m.follow answer g (t.calls answer)) (t.value answer) := by
  induction t generalizing g with
  | ret a => exact obeys
  | call c next ih => exact ih _ (obeys.2 _ (trusted g c))

/-- What a program that obeys does in surroundings with a state. -/
theorem Obeys.serve {answer : γ → (c : C) → R c × γ} (obeys : t.Obeys (.serving answer) g post) :
    post (t.serve answer g).2 (t.serve answer g).1 := by
  induction t generalizing g with
  | ret a => exact obeys
  | call c next ih => exact ih _ (obeys.2 _ rfl)

theorem Obeys.allows_at (obeys : t.Obeys m g post) (trusted : ∀ g c, m.trusts g c (answer c))
    {before after : List C} {c : C} (split : t.calls answer = before ++ c :: after) :
    m.allows (m.follow answer g before) c := by
  induction t generalizing g before with
  | ret a => simp at split
  | call d next ih =>
    cases before with
    | nil =>
      obtain ⟨rfl, _⟩ := List.cons.inj split
      exact obeys.1
    | cons b before =>
      obtain ⟨rfl, later⟩ := List.cons.inj split
      exact ih _ (obeys.2 _ (trusted g d)) later

theorem Obeys.allows_of_mem (obeys : t.Obeys m g post) (trusted : ∀ g c, m.trusts g c (answer c)) {c : C}
    (made : c ∈ t.calls answer) : ∃ g, m.allows g c := by
  obtain ⟨before, after, split⟩ := List.append_of_mem made
  exact ⟨_, obeys.allows_at trusted split⟩

end Interact

namespace Dialog

variable {C : Type} {R : C → Type} {γ σ ε α β : Type} {m : Monitor C R γ} {g : γ} {s : σ}
  {answer : (c : C) → R c} {x : Dialog C R σ ε α} {f : α → Dialog C R σ ε β}

def Obeys (m : Monitor C R γ) (x : Dialog C R σ ε α) (g : γ) (s : σ)
    (post : γ → Except ε α → σ → Prop) : Prop :=
  (x s).Obeys m g fun g outcome => post g outcome.1 outcome.2

section Rules

variable {post : γ → Except ε α → σ → Prop}

theorem Obeys.mono {post' : γ → Except ε α → σ → Prop} (obeys : x.Obeys m g s post)
    (weaker : ∀ g outcome t, post g outcome t → post' g outcome t) : x.Obeys m g s post' :=
  Interact.Obeys.mono obeys fun g outcome => weaker g outcome.1 outcome.2

@[simp] theorem obeys_pure {a : α} : (pure a : Dialog C R σ ε α).Obeys m g s post ↔
    post g (.ok a) s := Iff.rfl

@[simp] theorem obeys_throw {e : ε} : (throw e : Dialog C R σ ε α).Obeys m g s post ↔
    post g (.error e) s := Iff.rfl

theorem obeys_tryCatch {handler : ε → Dialog C R σ ε α} :
    (tryCatch x handler).Obeys m g s post ↔ x.Obeys m g s fun g outcome t =>
      match outcome with
      | .ok a => post g (.ok a) t
      | .error e => (handler e).Obeys m g t post := by
  unfold tryCatch Obeys
  rw [Interact.obeys_bind]
  constructor <;> intro obeys <;> apply obeys.mono <;> rintro g ⟨outcome, t⟩ holds <;>
    cases outcome <;> exact holds

end Rules

@[simp] theorem obeys_modify {u : σ → σ} {post : γ → Except ε Unit → σ → Prop} :
    (modify u : Dialog C R σ ε Unit).Obeys m g s post ↔ post g (.ok ()) (u s) := Iff.rfl

variable {c : C} {post : γ → Except ε α → σ → Prop}

@[simp] theorem obeys_ask {post : γ → Except ε (R c) → σ → Prop} :
    (ask c : Dialog C R σ ε (R c)).Obeys m g s post ↔
      m.allows g c ∧ ∀ reply, m.trusts g c reply → post (m.after g c reply) (.ok reply) s := Iff.rfl

@[simp] theorem obeys_bind {post : γ → Except ε β → σ → Prop} :
    (x >>= f).Obeys m g s post ↔ x.Obeys m g s fun g outcome t =>
      match outcome with
      | .ok a => (f a).Obeys m g t post
      | .error e => post g (.error e) t := by
  change ((x s).bind _).Obeys m g _ ↔ _
  rw [Interact.obeys_bind]
  constructor <;> intro obeys <;> apply Interact.Obeys.mono obeys <;> rintro g ⟨outcome, t⟩ holds <;>
    cases outcome <;> exact holds

theorem Obeys.bind {mid : γ → Except ε α → σ → Prop} {post : γ → Except ε β → σ → Prop}
    (first : x.Obeys m g s mid) (next : ∀ g' a t, mid g' (.ok a) t → (f a).Obeys m g' t post)
    (stops : ∀ g' e t, mid g' (.error e) t → post g' (.error e) t) : (x >>= f).Obeys m g s post := by
  refine obeys_bind.mpr (first.mono fun g' outcome t holds => ?_)
  cases outcome with
  | ok a => exact next g' a t holds
  | error e => exact stops g' e t holds

theorem Obeys.run (obeys : x.Obeys m g s post) (trusted : ∀ g c, m.trusts g c (answer c)) :
    post (m.follow answer g (x.calls answer s)) (x.result answer s).1 (x.result answer s).2 :=
  Interact.Obeys.run obeys trusted

theorem Obeys.allows_at (obeys : x.Obeys m g s post) (trusted : ∀ g c, m.trusts g c (answer c))
    {before after : List C} (split : x.calls answer s = before ++ c :: after) :
    m.allows (m.follow answer g before) c :=
  Interact.Obeys.allows_at obeys trusted split

theorem Obeys.allows_of_mem (obeys : x.Obeys m g s post) (trusted : ∀ g c, m.trusts g c (answer c))
    (made : c ∈ x.calls answer s) : ∃ g, m.allows g c :=
  Interact.Obeys.allows_of_mem obeys trusted made

def Only (allowed : C → Prop) (x : Dialog C R σ ε α) : Prop :=
  ∀ s, x.Obeys (.only R allowed) () s fun _ _ _ => True

variable {allowed : C → Prop}

theorem only_anything (x : Dialog C R σ ε α) : x.Only fun _ => True := by
  intro s
  have obeys (t : Interact C R (Except ε α × σ)) : t.Obeys (.only R fun _ => True) () fun _ _ => True := by
    induction t with
    | ret outcome => trivial
    | call c next ih => exact ⟨trivial, fun reply _ => ih reply⟩
  exact obeys _

theorem Only.of_mem (only : x.Only allowed) (made : c ∈ x.calls answer s) : allowed c :=
  ((only s).allows_of_mem (fun _ _ => trivial) made).choose_spec

theorem Only.mono {allowed' : C → Prop} (only : x.Only allowed) (weaker : ∀ c, allowed c → allowed' c) :
    x.Only allowed' := by
  intro s
  have obeys (t : Interact C R (Except ε α × σ)) (only : t.Obeys (.only R allowed) () fun _ _ => True) :
      t.Obeys (.only R allowed') () fun _ _ => True := by
    induction t with
    | ret outcome => trivial
    | call c next ih => exact ⟨weaker c only.1, fun reply _ => ih reply (only.2 reply trivial)⟩
  exact obeys _ (only s)

/-- Calls that a monitor allows wherever an invariant holds, and that keep the invariant. -/
theorem Only.invariant {inv : γ → Prop} (only : x.Only allowed)
    (allows : ∀ g, inv g → ∀ c, allowed c → m.allows g c)
    (keeps : ∀ g, inv g → ∀ c, allowed c → ∀ reply, inv (m.after g c reply)) (holds : inv g) (s : σ) :
    x.Obeys m g s fun g' _ _ => inv g' := by
  have obeys (t : Interact C R (Except ε α × σ)) (only : t.Obeys (.only R allowed) () fun _ _ => True)
      {g : γ} (holds : inv g) : t.Obeys m g fun g' _ => inv g' := by
    induction t generalizing g with
    | ret outcome => exact holds
    | call c next ih =>
      exact ⟨allows g holds c only.1, fun reply _ =>
        ih reply (only.2 reply trivial) (keeps g holds c only.1 reply)⟩
  exact obeys _ (only s) holds

theorem Only.obeys (only : x.Only allowed) (ignores : m.Ignores g allowed) (s : σ) :
    x.Obeys m g s fun g' _ _ => g' = g := by
  have here : ∀ g', g' = g → m.Ignores g' allowed := fun _ same => same ▸ ignores
  exact only.invariant (fun g' same c made => (here g' same c made).1)
    (fun g' same c made reply => ((here g' same c made).2 reply).trans same) rfl s

theorem Only.obeys_bind {post : γ → Except ε β → σ → Prop} (only : x.Only allowed)
    (ignores : m.Ignores g allowed)
    (next : ∀ a t, (f a).Obeys m g t post) (stops : ∀ e t, post g (.error e) t) :
    (x >>= f).Obeys m g s post := by
  refine (only.obeys ignores s).bind ?_ ?_
  · rintro _ a t rfl
    exact next a t
  · rintro _ e t rfl
    exact stops e t

theorem Only.pure (a : α) : (Pure.pure a : Dialog C R σ ε α).Only allowed := fun _ => trivial

theorem Only.throw (e : ε) : (Dialog.throw e : Dialog C R σ ε α).Only allowed := fun _ => trivial

theorem Only.get : (Dialog.get : Dialog C R σ ε σ).Only allowed := fun _ => trivial

theorem Only.modify (u : σ → σ) : (Dialog.modify u : Dialog C R σ ε Unit).Only allowed :=
  fun _ => trivial

theorem Only.ask (holds : allowed c) : (Dialog.ask c : Dialog C R σ ε (R c)).Only allowed :=
  fun _ => ⟨holds, fun _ _ => trivial⟩

theorem Only.bind (first : x.Only allowed) (second : ∀ a, (f a).Only allowed) : (x >>= f).Only allowed :=
  fun s => (first s).bind (fun _ a t _ => second a t) fun _ _ _ _ => trivial

theorem Only.asks {f : R c → Dialog C R σ ε α} (holds : allowed c)
    (next : ∀ reply, (f reply).Only allowed) :
    (Dialog.ask c >>= f).Only allowed :=
  (Only.ask holds).bind next

theorem Only.gets {f : σ → Dialog C R σ ε α} (next : ∀ s, (f s).Only allowed) :
    (Dialog.get >>= f).Only allowed :=
  Only.get.bind next

theorem Only.branch {b : Prop} [Decidable b] {y : Dialog C R σ ε α} (yes : x.Only allowed)
    (no : y.Only allowed) :
    (if b then x else y).Only allowed := by
  split
  · exact yes
  · exact no

theorem Only.tryCatch {handler : ε → Dialog C R σ ε α} (first : x.Only allowed)
    (second : ∀ e, (handler e).Only allowed) : (Dialog.tryCatch x handler).Only allowed := by
  intro s
  rw [obeys_tryCatch]
  apply (first s).mono
  intro g outcome t _
  cases outcome with
  | ok a => trivial
  | error e => exact second e t

/-- A program obeys, and if it returns, then to a good state of the monitor and with a good value.
-/
def Leads (m : Monitor C R γ) (x : Dialog C R σ ε α) (g : γ) (s : σ) (good : γ → α → Prop) : Prop :=
  x.Obeys m g s fun g' outcome _ => ∀ a, outcome = .ok a → good g' a

section Leads

variable {good : γ → α → Prop}

theorem Leads.pure {a : α} (holds : good g a) : (Pure.pure a : Dialog C R σ ε α).Leads m g s good := by
  intro b same
  cases same
  exact holds

theorem Leads.throw (e : ε) : (Dialog.throw e : Dialog C R σ ε α).Leads m g s good := by
  intro a same
  cases same

theorem Leads.mono {good' : γ → α → Prop} (leads : x.Leads m g s good)
    (weaker : ∀ g a, good g a → good' g a) :
    x.Leads m g s good' :=
  Obeys.mono leads fun g' _ _ holds a same => weaker g' a (holds a same)

theorem Leads.bind {good' : γ → β → Prop} (first : x.Leads m g s good)
    (second : ∀ g' a t, good g' a → (f a).Leads m g' t good') : (x >>= f).Leads m g s good' :=
  Obeys.bind first (fun g' a t holds => second g' a t (holds a rfl)) fun _ _ _ _ _ same => by cases same

theorem Only.leads (only : x.Only allowed) (ignores : m.Ignores g allowed) (s : σ) :
    x.Leads m g s fun g' _ => g' = g :=
  (only.obeys ignores s).mono fun _ _ _ same _ _ => same

theorem Only.leads_bind {good : γ → β → Prop} (only : x.Only allowed) (ignores : m.Ignores g allowed)
    (next : ∀ a t, (f a).Leads m g t good) : (x >>= f).Leads m g s good :=
  only.obeys_bind ignores next fun _ _ _ same => by cases same

variable {post : γ → Except ε α → σ → Prop}

theorem Obeys.asks {c : C} {f : R c → Dialog C R σ ε α} (allowed : m.allows g c)
    (next : ∀ reply, m.trusts g c reply → (f reply).Obeys m (m.after g c reply) s post) :
    (ask c >>= f).Obeys m g s post :=
  ⟨allowed, next⟩

theorem Obeys.gets {f : σ → Dialog C R σ ε α} (next : (f s).Obeys m g s post) :
    (get >>= f).Obeys m g s post :=
  next

theorem Obeys.modifies {u : σ → σ} {f : Unit → Dialog C R σ ε α} (next : (f ()).Obeys m g (u s) post) :
    (modify u >>= f).Obeys m g s post :=
  next

theorem Obeys.followed {c : C} {after : γ → (c : C) → R c → γ} {f : R c → Dialog C R σ ε α}
    (next : (f (answer c)).Obeys (.following answer after) (after g c (answer c)) s post) :
    (ask c >>= f).Obeys (.following answer after) g s post :=
  .asks trivial fun _ same => same ▸ next

theorem Obeys.served {c : C} {answer : γ → (c : C) → R c × γ} {f : R c → Dialog C R σ ε α}
    (next : (f (answer g c).1).Obeys (.serving answer) (answer g c).2 s post) :
    (ask c >>= f).Obeys (.serving answer) g s post :=
  .asks trivial fun _ same => same ▸ next

theorem Obeys.branch {b : Bool} {y : Dialog C R σ ε α} (yes : b = true → x.Obeys m g s post)
    (no : b = false → y.Obeys m g s post) : (if b = true then x else y).Obeys m g s post := by
  cases b with
  | true => exact yes rfl
  | false => exact no rfl

theorem Leads.asks {c : C} {f : R c → Dialog C R σ ε α} (allowed : m.allows g c)
    (next : ∀ reply, m.trusts g c reply → (f reply).Leads m (m.after g c reply) s good) :
    (ask c >>= f).Leads m g s good :=
  Obeys.asks allowed next

end Leads

end Dialog

end Wms.Lib
