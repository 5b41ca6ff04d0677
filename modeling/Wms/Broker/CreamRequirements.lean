import Mathlib.Data.List.DropRight
import Wms.Lib.Condition

/-! The requirement text sent to a CREAM computing element (Helper_ism.cpp).

What flattening left of the job's requirement and the `name==value` terms of the propagated
attributes are put together as texts: each term is followed by `&&`, the last `&&` is trimmed, and a
requirement that is there gets `&&` of its own and no parentheses.
-/

set_option autoImplicit false

namespace Wms.Broker

open Lib.Condition List

variable {A : Type}

/-- classad::Value, as far as a translation looks at it -/
inductive Evaluated
  | undefined
  | bool (b : Bool)
  | other
  deriving DecidableEq

/-- An entry of `propagate_to_lrms` evaluated for the job and the CE, with the text of its term. -/
structure PropagatedAd (A : Type) where
  term : A
  value : Evaluated
  requires : Evaluated

/-- translate_to_CREAM; `none` is the empty text. -/
def translateToCream (ad : PropagatedAd A) : Option A :=
  if ad.value = .undefined ∨ ad.requires = .bool false then none else some ad.term

def stringAppender (s : List (Token A)) : Option A → List (Token A)
  | none => s
  | some x => s ++ [.atom x, .and]

def isAnd : Token A → Bool
  | .and => true
  | _ => false

/-- f_resolve_mm, from the flattened requirement to the text of `set_ce_requirements`. The request
may come with a text of its own (`given`), which a flattened requirement replaces. -/
def ceRequirements (given : List (Token A)) (flattened : Option (Expr A)) (ads : List (PropagatedAd A)) :
    List (Token A) :=
  let s := (ads.map translateToCream).foldl stringAppender []
  let r := (flattened.map Expr.text).getD given
  let r := if r.isEmpty then r else r ++ [.and]
  r ++ s.rdropWhile isAnd

def applicable (ads : List (PropagatedAd A)) : List A :=
  ads.filterMap translateToCream

section

variable (given : List (Token A)) (flattened : Option (Expr A)) (ads : List (PropagatedAd A))

/-- What the text is for: nothing, or an expression with the value of the conjunction of the
flattened requirement and of the applicable terms. -/
def Conjoins : Prop :=
  ceRequirements given flattened ads = [] ∨
    ∃ e, parse (ceRequirements given flattened ads) = some e ∧ ∀ value : A → Truth,
      e.eval value =
        (flattened.toList.map (·.eval value) ++ (applicable ads).map value).foldl Truth.and .holds

/-- A requirement to which terms can be put with `&&`, or no text at all before the terms. -/
def Extensible : Prop :=
  match flattened with
  | none => given = []
  | some e => e.Conjunction ∧ applicable ads ≠ []

/-- No term is also an atom of the text before the terms. -/
def Fresh : Prop :=
  ∀ token ∈ (flattened.map Expr.text).getD given, ∀ a ∈ token.atoms, a ∉ applicable ads

end

theorem appended_terms (ads : List (PropagatedAd A)) (s : List (Token A)) :
    (ads.map translateToCream).foldl stringAppender s = s ++ (applicable ads).flatMap fun x =>
      [.atom x, .and] := by
  induction ads generalizing s with
  | nil => simp [applicable]
  | cons ad ads appended =>
    rw [map_cons, foldl_cons, appended]
    cases known : translateToCream ad <;> simp [stringAppender, applicable, known]

theorem separators_first (terms : List A) : Token.and :: terms.flatMap (fun x => [.atom x, .and]) =
      terms.flatMap (fun x => [.and, .atom x]) ++ [.and] := by
  induction terms with
  | nil => rfl
  | cons x terms moved => simp [moved]

theorem trimmed_terms (terms : List A) (nonempty : terms ≠ []) :
    Token.and :: (terms.flatMap fun x => [.atom x, .and]).rdropWhile isAnd =
      terms.flatMap fun x => [.and, .atom x] := by
  induction terms using List.reverseRecOn with
  | nil => exact absurd rfl nonempty
  | append_singleton terms last _ =>
    rw [flatMap_append, show ([last].flatMap fun x => [Token.atom x, .and]) = [.atom last] ++
      [.and] from rfl,
      ← append_assoc, rdropWhile_concat_pos _ _ _ rfl,
      rdropWhile_concat_neg _ _ _ (by simp [isAnd]), ← cons_append, separators_first]
    simp

theorem ceRequirements_eq (given : List (Token A)) (flattened : Option (Expr A))
    (ads : List (PropagatedAd A)) :
    ceRequirements given flattened ads =
      (if ((flattened.map Expr.text).getD given).isEmpty then (flattened.map Expr.text).getD given
        else (flattened.map Expr.text).getD given ++ [.and]) ++
      ((applicable ads).flatMap fun x => [.atom x, .and]).rdropWhile isAnd := by
  rw [ceRequirements, appended_terms, nil_append]

variable {given : List (Token A)} {flattened : Option (Expr A)} {ads : List (PropagatedAd A)}

theorem ceRequirements_of_terms (present : (flattened.map Expr.text).getD given ≠ [])
    (applies : applicable ads ≠ []) :
    ceRequirements given flattened ads =
      (flattened.map Expr.text).getD given ++ (applicable ads).flatMap fun x => [.and, .atom x] := by
  rw [ceRequirements_eq, if_neg (by simpa using present), append_assoc, ← trimmed_terms _ applies,
    singleton_append]

theorem text_ne_nil (e : Expr A) : e.text ≠ [] := by
  cases e <;> simp [Expr.text]

theorem conjoins_terms (ads : List (PropagatedAd A)) : Conjoins [] none ads := by
  have text := ceRequirements_eq [] none ads
  cases terms : applicable ads with
  | nil => exact .inl (by simpa [terms] using text)
  | cons x rest =>
    have trimmed := trimmed_terms (x :: rest) (by simp)
    rw [flatMap_cons, cons_append] at trimmed
    have joined : ceRequirements [] none ads = ((Expr.atom x).join rest).text := by
      rw [text, terms, Expr.join_text]
      exact (List.cons.inj trimmed).2
    have atom : (Expr.atom x).Conjunction := trivial
    obtain ⟨e, reads, values⟩ := (atom.join rest).parse
    refine .inr ⟨e, joined ▸ reads, fun value => ?_⟩
    rw [values, Expr.join_eval, terms]
    rfl

theorem conjoins_conjunction {e : Expr A} (conjunction : e.Conjunction) (applies : applicable ads ≠ []) :
    Conjoins given (some e) ads := by
  have joined : ceRequirements given (some e) ads = (e.join (applicable ads)).text := by
    rw [Expr.join_text]
    exact @ceRequirements_of_terms A given (some e) ads (text_ne_nil e) applies
  obtain ⟨read, reads, values⟩ := (conjunction.join (applicable ads)).parse
  refine .inr ⟨read, joined ▸ reads, fun value => ?_⟩
  rw [values, Expr.join_eval]
  rfl

/-- A text before the terms needs terms: the `&&` after it is not trimmed. -/
theorem Conjoins.applies (conjoins : Conjoins given flattened ads)
    (present : (flattened.map Expr.text).getD given ≠ []) : applicable ads ≠ [] := by
  intro empty
  have text := ceRequirements_eq given flattened ads
  rw [empty, if_neg (by simpa using present)] at text
  simp only [flatMap_nil, rdropWhile_nil, append_nil] at text
  obtain empty | ⟨e, reads, -⟩ := conjoins
  · simp [empty] at text
  · rw [text, parse_trailing] at reads
    cases reads

/-- A text that conjoins starts with an operand; where reading it on from there
is undefined, so is the conjunction. -/
theorem Conjoins.reading (conjoins : Conjoins given flattened ads)
    (present : (flattened.map Expr.text).getD given ≠ []) :
    ∃ token own first, (flattened.map Expr.text).getD given = token :: own ∧ token.operand = some first ∧
      ∀ value : A → Truth,
        (readOr none first (own ++ (applicable ads).flatMap fun x => [.and, .atom x])).1.eval
          value = .undefined →
        (flattened.toList.map (·.eval value) ++ (applicable ads).map value).foldl Truth.and .holds =
          .undefined := by
  have text := ceRequirements_of_terms present (conjoins.applies present)
  obtain ⟨token, own, shape⟩ := exists_cons_of_ne_nil present
  rw [shape] at text
  obtain empty | ⟨e, reads, agree⟩ := conjoins
  · simp [empty] at text
  · rw [text] at reads
    obtain ⟨_, _, first, same, operand⟩ := parse_starts reads
    obtain ⟨rfl, -⟩ := List.cons.inj same
    exact ⟨token, own, first, shape, operand, fun value unknown =>
      (agree value).symm.trans (parse_undefined operand unknown reads)⟩

open Classical in
/-- The terms fail and nothing else is known: an alternative before the last one stays undefined. -/
theorem Conjoins.not_split (conjoins : Conjoins given flattened ads) (fresh : Fresh given flattened ads)
    (present : (flattened.map Expr.text).getD given ≠ []) :
    ∀ token ∈ (flattened.map Expr.text).getD given, token ≠ .and → token.operand ≠ none := by
  intro token member other splits
  have applies := conjoins.applies present
  obtain ⟨start, own, first, shape, operand, reading⟩ := conjoins.reading present
  rw [Fresh, shape] at fresh
  rw [shape] at member
  let value (a : A) : Truth := if a ∈ applicable ads then .fails else .undefined
  have unknowns (token : Token A) (inside : token ∈ start :: own) (a : A) (within : a ∈ token.atoms) :
      value a = .undefined := if_neg (fresh token inside a within)
  obtain ⟨x, terms, isTerms⟩ := exists_cons_of_ne_nil applies
  have neither (a : A) : value a = .undefined ∨ value a = .fails := by
    by_cases term : a ∈ applicable ads <;> simp [value, term]
  have undefined := reading value (by
    refine readOr_split neither none first _ own _ rfl ?_ (by rw [isTerms, flatMap_cons]; rfl)
      (fun token inside => unknowns token (mem_cons_of_mem _ inside)) ⟨token, ?_, other, splits⟩
    · exact Expr.eval_undefined fun a within =>
        unknowns start mem_cons_self a (by rwa [Token.operand_atoms operand])
    · rcases mem_cons.mp member with rfl | inside
      · cases splits.symm.trans operand
      · exact inside)
  have fails : (flattened.toList.map (·.eval value) ++ (applicable ads).map value).foldl Truth.and .holds =
      .fails := by
    rw [foldl_append]
    refine Truth.foldl_and ?_ _ (fun a term => if_pos term) applies
    cases flattened with
    | none => rfl
    | some e => rcases e.eval_neither neither with known | known <;> simp [known, Truth.and]
  cases undefined.symm.trans fails

open Classical in
/-- The terms hold and nothing else is known: a text of the request makes the conjunction undefined.
-/
theorem Conjoins.given_empty (conjoins : Conjoins given none ads) (fresh : Fresh given none ads) :
    given = [] := by
  by_contra present
  have applies := conjoins.applies present
  obtain ⟨start, own, first, shape, operand, reading⟩ := conjoins.reading present
  have whole := conjoins.not_split fresh present
  rw [shape] at whole
  rw [Fresh, shape] at fresh
  let value (a : A) : Truth := if a ∈ applicable ads then .holds else .undefined
  have unknown (token : Token A) (inside : token ∈ start :: own) (e : Expr A)
      (isOperand : token.operand = some e) :
      e.eval value = .undefined := Expr.eval_undefined fun a within =>
    if_neg (fresh token inside a (by rwa [Token.operand_atoms isOperand]))
  have undefined := reading value (by
    refine readOr_conjunctive none first _ rfl (unknown start mem_cons_self first operand) ?_ ?_
    · intro member
      rcases mem_append.mp member with inside | term
      · exact whole .or (mem_cons_of_mem _ inside) nofun rfl
      · simp at term
    · intro token member e isOperand
      rcases mem_append.mp member with inside | term
      · exact .inl (unknown token (mem_cons_of_mem _ inside) e isOperand)
      · obtain ⟨x, applicable, term⟩ := mem_flatMap.mp term
        rcases mem_pair.mp term with rfl | rfl
        · cases isOperand
        · cases isOperand
          exact .inr (if_pos applicable))
  have holds : ((applicable ads).map value).foldl Truth.and .holds = .holds :=
    Truth.foldl_and rfl _ (fun a term => if_pos term) applies
  cases undefined.symm.trans holds

/-- The text is right when it is put to an expression without `||` and `?:` outside parentheses, or
to nothing; where no term is also an atom of the text before it, only then. -/
theorem ceRequirements_conjoins (given : List (Token A)) (flattened : Option (Expr A))
    (ads : List (PropagatedAd A)) :
    (Extensible given flattened ads → Conjoins given flattened ads) ∧
      (Fresh given flattened ads → Conjoins given flattened ads → Extensible given flattened ads) := by
  cases flattened with
  | none =>
    refine ⟨?_, fun fresh conjoins => conjoins.given_empty fresh⟩
    rintro rfl
    exact conjoins_terms ads
  | some e =>
    refine ⟨fun extensible => conjoins_conjunction extensible.1 extensible.2, fun fresh conjoins =>
      ⟨?_, conjoins.applies (text_ne_nil e)⟩⟩
    by_contra other
    obtain ⟨token, member, notAnd, splits⟩ := Expr.split_of_not_conjunction other
    exact conjoins.not_split fresh (text_ne_nil e) token member notAnd splits

theorem conjoins_one_term :
    Conjoins [] (some (.and (.atom 0) (.paren (.or (.atom 1) (.atom 2))))) [⟨3, .other, .undefined⟩] :=
  (ceRequirements_conjoins _ _ _).1 ⟨⟨trivial, trivial⟩, by decide⟩

/-- A requirement with no applicable attribute is left with a trailing `&&`, one with `||` at its
top takes the term into its last alternative, and a text of the request stays in front of the terms.
-/
theorem unparenthesised_requirement :
    ceRequirements [] (some (.atom 0)) [⟨1, .undefined, .undefined⟩] = [.atom 0, .and] ∧
      ¬ Conjoins [] (some (.atom 0)) [⟨1, .undefined, .undefined⟩] ∧
      ¬ Conjoins [] (some (.or (.atom 0) (.atom 1))) [⟨2, .other, .undefined⟩] ∧
      ¬ Conjoins [.atom 0] none [⟨1, .other, .undefined⟩] := by
  refine ⟨by decide, fun conjoins => ?_, fun conjoins => ?_, fun conjoins => ?_⟩
  · exact conjoins.applies (by decide) (by decide)
  · exact conjoins.not_split (by unfold Fresh; decide) (by decide) .or (by decide) nofun rfl
  · exact absurd (conjoins.given_empty (by unfold Fresh; decide)) nofun

end Wms.Broker
