import Mathlib.Logic.Basic

/-! Class-ads as typed attributes.

An insertion replaces the attribute of the same name, and an evaluation with a type gives what has
been inserted with this type, and fails for any other.
-/

set_option autoImplicit false

namespace Wms.Lib

/-- The value of an attribute; `ρ` is the type of the real numbers. -/
inductive AdValue (ρ : Type) where
  | int (n : Int)
  | real (x : ρ)
  | bool (b : Bool)
  | string (s : String)
  | ad (attributes : List (String × AdValue ρ))

structure ClassAd (ρ : Type) where
  attributes : List (String × AdValue ρ)

namespace ClassAd

variable {ρ : Type}

def empty : ClassAd ρ := ⟨[]⟩

def insert (ad : ClassAd ρ) (name : String) (value : AdValue ρ) : ClassAd ρ :=
  ⟨(name, value) :: ad.attributes.filter (·.1 ≠ name)⟩

def lookup (ad : ClassAd ρ) (name : String) : Option (AdValue ρ) :=
  (ad.attributes.find? (·.1 = name)).map Prod.snd

@[simp] theorem lookup_insert (ad : ClassAd ρ) (name name' : String) (value : AdValue ρ) :
    (ad.insert name value).lookup name' = if name = name' then some value else ad.lookup name' := by
  by_cases same : name = name'
  · simp [insert, lookup, same]
  · have other (e : String × AdValue ρ) : (e.1 ≠ name ∧ e.1 = name') ↔ e.1 = name' :=
      and_iff_right_of_imp fun named => named ▸ Ne.symm same
    simp only [insert, lookup, List.find?_cons, decide_eq_false same, if_neg same, List.find?_filter,
      decide_eq_true_eq, other]

@[simp] theorem lookup_empty (name : String) : (empty : ClassAd ρ).lookup name = none := rfl

def evaluateInt (ad : ClassAd ρ) (name : String) : Option Int :=
  match ad.lookup name with
  | some (.int n) => some n
  | _ => none

def evaluateReal (ad : ClassAd ρ) (name : String) : Option ρ :=
  match ad.lookup name with
  | some (.real x) => some x
  | _ => none

def evaluateBool (ad : ClassAd ρ) (name : String) : Option Bool :=
  match ad.lookup name with
  | some (.bool b) => some b
  | _ => none

def evaluateString (ad : ClassAd ρ) (name : String) : Option String :=
  match ad.lookup name with
  | some (.string s) => some s
  | _ => none

def evaluateAd (ad : ClassAd ρ) (name : String) : Option (ClassAd ρ) :=
  match ad.lookup name with
  | some (.ad attributes) => some ⟨attributes⟩
  | _ => none

end ClassAd

end Wms.Lib
