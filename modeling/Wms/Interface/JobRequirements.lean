import Wms.Lib.Condition

/-! The requirements of a submitted job, joined with the configured ones (coreoperations.cpp).

The two expressions are written out, each in parentheses, and the joined text is read again. A part
that is missing is written as `undefined`, which no conjunction makes true.
-/

set_option autoImplicit false

namespace Wms.Interface.Requirements

open Lib.Condition

variable {A : Type}

structure JobAd (A : Type) where
  requirements : Option (Expr A)

def appendExprTree (head : Option (Expr A)) (op : Token A) (tail : Option (Expr A)) : Option (Expr A) :=
  parse [.group (head.getD .undefined), op, .group (tail.getD .undefined)]

def appendRequirements (ad : JobAd A) (wmsRequirements : Option (Expr A)) : JobAd A :=
  { ad with requirements := appendExprTree ad.requirements .and wmsRequirements }

/-- A part is met where it is missing or holds. -/
def Met (value : A → Truth) (part : Option (Expr A)) : Prop :=
  ∀ e ∈ part, e.eval value = .holds

/-- What joining is for: the result holds where both parts are met, and only a part that is there
can make it undefined. -/
def Joined (ad : JobAd A) (configured : Option (Expr A)) : Prop :=
  ∃ e, (appendRequirements ad configured).requirements = some e ∧ ∀ value : A → Truth,
    (e.eval value = .holds ↔ Met value ad.requirements ∧ Met value configured) ∧
    (e.eval value = .undefined → (∃ p ∈ ad.requirements, p.eval value = .undefined) ∨
      ∃ p ∈ configured, p.eval value = .undefined)

theorem appendRequirements_reads (ad : JobAd A) (configured : Option (Expr A)) :
    (appendRequirements ad configured).requirements =
      some (.and (.paren (ad.requirements.getD .undefined)) (.paren (configured.getD .undefined))) := rfl

/-- A missing part keeps the joined text from ever holding. -/
theorem holds_only_if_both (own configured : Option (Expr A)) (value : A → Truth)
    (holds : Truth.and ((own.getD .undefined).eval value)
      ((configured.getD .undefined).eval value) = .holds) :
    own.isSome = true ∧ configured.isSome = true := by
  obtain ⟨first, second⟩ := (Truth.and_holds _ _).mp holds
  cases own with
  | none => cases first
  | some own =>
    cases configured with
    | none => cases second
    | some configured => exact ⟨rfl, rfl⟩

theorem met_of_holds {value : A → Truth} {part : Option (Expr A)}
    (holds : (part.getD .undefined).eval value = .holds) : Met value part := by
  intro p is
  obtain rfl := Option.mem_def.mp is
  exact holds

theorem met_of_value {value : A → Truth} {part : Option (Expr A)}
    (known : (part.getD .undefined).eval value = .holds ∨ (part.getD .undefined).eval value = .undefined)
    (given : ¬ ∃ p ∈ part, p.eval value = .undefined) : Met value part := by
  intro p is
  obtain rfl := Option.mem_def.mp is
  exact known.resolve_right fun undefined => given ⟨p, rfl, undefined⟩

theorem joined_of_holds (ad : JobAd A) (configured : Option (Expr A))
    (holds : ∀ value : A → Truth, Met value ad.requirements ∧ Met value configured →
      Truth.and ((ad.requirements.getD .undefined).eval value)
        ((configured.getD .undefined).eval value) = .holds) :
    Joined ad configured := by
  refine ⟨_, appendRequirements_reads _ _, fun value =>
    ⟨⟨fun both => ?_, holds value⟩, fun undefined => ?_⟩⟩
  · obtain ⟨first, second⟩ := (Truth.and_holds _ _).mp both
    exact ⟨met_of_holds first, met_of_holds second⟩
  · by_contra given
    obtain ⟨first, second⟩ := Truth.and_undefined _ _ undefined
    have met := holds value ⟨met_of_value first fun own => given (.inl own),
      met_of_value second fun configured => given (.inr configured)⟩
    cases undefined.symm.trans met

/-- The parts are joined as they should be exactly when both are there, or when the one that is
there holds nowhere anyway. -/
theorem joined_iff (ad : JobAd A) (configured : Option (Expr A)) :
    Joined ad configured ↔ (ad.requirements.isSome = true ∧ configured.isSome = true) ∨
      ∀ value : A → Truth, ¬ (Met value ad.requirements ∧ Met value configured) := by
  refine ⟨fun joined => ?_, ?_⟩
  · obtain ⟨e, reads, all⟩ := joined
    rw [appendRequirements_reads] at reads
    obtain rfl := Option.some.inj reads
    rw [or_iff_not_imp_right]
    intro nonempty
    obtain ⟨value, met⟩ := not_forall_not.mp nonempty
    exact holds_only_if_both ad.requirements configured value ((all value).1.mpr met)
  · rintro (⟨own, given⟩ | never)
    · obtain ⟨own, isOwn⟩ := Option.isSome_iff_exists.mp own
      obtain ⟨configured, rfl⟩ := Option.isSome_iff_exists.mp given
      refine joined_of_holds _ _ fun value met => ?_
      rw [isOwn]
      exact (Truth.and_holds _ _).mpr ⟨met.1 own isOwn, met.2 configured rfl⟩
    · exact joined_of_holds _ _ fun value met => absurd met (never value)

/-- A job without requirements of its own: the configured requirement holds, the joined one is
undefined. -/
theorem missing_requirements_undefined : ¬ Joined (⟨none⟩ : JobAd Unit) (some (.atom ())) ∧
      (appendRequirements (⟨none⟩ : JobAd Unit) (some (.atom ()))).requirements.map
        (·.eval fun _ => .holds) = some .undefined := by
  refine ⟨fun joined => ?_, rfl⟩
  obtain ⟨e, reads, all⟩ := joined
  cases reads
  have holds := (all fun _ => .holds).1.mpr ⟨by simp [Met], by simp [Met, Expr.eval]⟩
  cases holds

end Wms.Interface.Requirements
