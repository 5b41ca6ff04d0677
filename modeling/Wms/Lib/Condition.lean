import Mathlib.Data.List.Basic

/-! Conditions as texts: what a text of operands and logical operators is read as, and its value.

An operand is an atom, the word `undefined` or anything in parentheses. `&&` binds more tightly than
`||`, and both more tightly than `?:`. Values follow the logic in which a condition may also be
undefined or an error.
-/

set_option autoImplicit false

namespace Wms.Lib.Condition

inductive Truth
  | holds
  | fails
  | undefined
  | error
  deriving DecidableEq, Repr

def Truth.and : Truth → Truth → Truth
  | .holds, second => second
  | .fails, _ => .fails
  | .error, _ => .error
  | .undefined, .fails => .fails
  | .undefined, .error => .error
  | .undefined, _ => .undefined

def Truth.or : Truth → Truth → Truth
  | .holds, _ => .holds
  | .fails, second => second
  | .error, _ => .error
  | .undefined, .holds => .holds
  | .undefined, .error => .error
  | .undefined, _ => .undefined

def Truth.choose : Truth → Truth → Truth → Truth
  | .holds, first, _ => first
  | .fails, _, second => second
  | test, _, _ => test

theorem Truth.and_assoc (first second third : Truth) :
    (first.and second).and third = first.and (second.and third) := by
  cases first <;> cases second <;> cases third <;> rfl

theorem Truth.foldl_and {A : Type} {value : A → Truth} {t before : Truth} (absorbs : before.and t = t)
    (atoms : List A) (same : ∀ a ∈ atoms, value a = t) (nonempty : atoms ≠ []) :
    (atoms.map value).foldl Truth.and before = t := by
  induction atoms generalizing before with
  | nil => exact absurd rfl nonempty
  | cons a atoms shorter =>
    rw [List.map_cons, List.foldl_cons, same a List.mem_cons_self, absorbs]
    rcases eq_or_ne atoms [] with rfl | more
    · rfl
    · exact shorter (by cases t <;> rfl) (fun b member => same b (List.mem_cons_of_mem _ member)) more

theorem Truth.and_holds (first second : Truth) : first.and second = .holds ↔ first = .holds ∧
    second = .holds := by
  cases first <;> cases second <;> decide

theorem Truth.and_undefined (first second : Truth) (undefined : first.and second = .undefined) :
    (first = .holds ∨ first = .undefined) ∧ (second = .holds ∨ second = .undefined) := by
  cases first <;> cases second <;> simp_all [Truth.and]

inductive Expr (A : Type)
  | undefined
  | atom (a : A)
  | paren (e : Expr A)
  | and (first second : Expr A)
  | or (first second : Expr A)
  | choose (test first second : Expr A)
  deriving DecidableEq

variable {A : Type}

def Expr.eval (value : A → Truth) : Expr A → Truth
  | .undefined => .undefined
  | .atom a => value a
  | .paren e => e.eval value
  | .and first second => (first.eval value).and (second.eval value)
  | .or first second => (first.eval value).or (second.eval value)
  | .choose test first second => (test.eval value).choose (first.eval value) (second.eval value)

/-- A group is the text of an expression between parentheses. -/
inductive Token (A : Type)
  | undefined
  | atom (a : A)
  | group (e : Expr A)
  | and
  | or
  | question
  | colon
  deriving DecidableEq

def Expr.text : Expr A → List (Token A)
  | .undefined => [.undefined]
  | .atom a => [.atom a]
  | .paren e => [.group e]
  | .and first second => first.text ++ .and :: second.text
  | .or first second => first.text ++ .or :: second.text
  | .choose test first second => test.text ++ .question :: first.text ++ .colon :: second.text

def Token.operand : Token A → Option (Expr A)
  | .undefined => some .undefined
  | .atom a => some (.atom a)
  | .group e => some (.paren e)
  | _ => none

def disjoin : Option (Expr A) → Expr A → Expr A
  | none, e => e
  | some earlier, e => .or earlier e

/-- The operands and the operators `&&` and `||` that follow `last`; `earlier` is the disjunction
read before it. The rest of the text is returned with the expression. -/
def readOr (earlier : Option (Expr A)) (last : Expr A) : List (Token A) → Expr A × List (Token A)
  | .and :: token :: rest =>
    match token.operand with
    | some e => readOr earlier (.and last e) rest
    | none => (disjoin earlier last, .and :: token :: rest)
  | .or :: token :: rest =>
    match token.operand with
    | some e => readOr (some (disjoin earlier last)) e rest
    | none => (disjoin earlier last, .or :: token :: rest)
  | rest => (disjoin earlier last, rest)

def readExpr : Nat → List (Token A) → Option (Expr A × List (Token A))
  | 0, _ => none
  | _, [] => none
  | fuel + 1, token :: rest => do
    let operand ← token.operand
    match readOr none operand rest with
    | (test, .question :: rest) =>
      match ← readExpr fuel rest with
      | (first, .colon :: rest) =>
        let (second, rest) ← readExpr fuel rest
        return (.choose test first second, rest)
      | _ => none
    | read => some read

/-- What a text is read as; a text with something left over is not an expression. -/
def parse (text : List (Token A)) : Option (Expr A) :=
  match readExpr text.length text with
  | some (e, []) => some e
  | _ => none

/-! ### Conjunctions -/

/-- Neither `||` nor `?:` outside parentheses. -/
def Expr.Conjunction : Expr A → Prop
  | .and first second => first.Conjunction ∧ second.Conjunction
  | .or _ _ | .choose _ _ _ => False
  | _ => True

/-- However the operands are nested, reading the rest of the text puts them one by one to what was
read before. -/
theorem Expr.Conjunction.read {e : Expr A} (conjunction : e.Conjunction) :
    ∃ (token : Token A) (tail : List (Token A)) (first : Expr A), e.text = token :: tail ∧
      token.operand = some first ∧ ∀ last rest, ∃ read : Expr A,
        readOr none last (tail ++ rest) = readOr none read rest ∧
        ∀ (value : A → Truth) (before : Truth), last.eval value = before.and (first.eval value) →
          read.eval value = before.and (e.eval value) := by
  induction e with
  | undefined => exact ⟨_, [], _, rfl, rfl, fun last _ => ⟨last, rfl, fun _ _ same => same⟩⟩
  | atom a => exact ⟨_, [], _, rfl, rfl, fun last _ => ⟨last, rfl, fun _ _ same => same⟩⟩
  | paren e => exact ⟨_, [], _, rfl, rfl, fun last _ => ⟨last, rfl, fun _ _ same => same⟩⟩
  | and first second readFirst readSecond =>
    obtain ⟨token, tail, first, text, operand, reads⟩ := readFirst conjunction.1
    obtain ⟨next, nextTail, second, nextText, isNext, readsNext⟩ := readSecond conjunction.2
    refine ⟨token, tail ++ .and :: next :: nextTail, first, by simp [Expr.text, text, nextText],
      operand, fun last rest => ?_⟩
    obtain ⟨middle, upTo, values⟩ := reads last (.and :: next :: nextTail ++ rest)
    obtain ⟨read, all, value⟩ := readsNext (.and middle second) rest
    refine ⟨read, ?_, fun v before same => ?_⟩
    · rw [List.append_assoc, upTo, ← all]
      simp [readOr, isNext]
    · rw [value v _ rfl, values v before same, Truth.and_assoc, Expr.eval]
  | or | choose => exact conjunction.elim

theorem Expr.split_of_not_conjunction {e : Expr A} (other : ¬ e.Conjunction) :
    ∃ token ∈ e.text, token ≠ .and ∧ token.operand = none := by
  induction e with
  | undefined | atom | paren => exact absurd trivial other
  | and first second ofFirst ofSecond =>
    rcases Classical.not_and_iff_not_or_not.mp other with other | other
    · obtain ⟨token, member, splits⟩ := ofFirst other
      exact ⟨token, List.mem_append_left _ member, splits⟩
    · obtain ⟨token, member, splits⟩ := ofSecond other
      exact ⟨token, List.mem_append_right _ (List.mem_cons_of_mem _ member), splits⟩
  | or => exact ⟨.or, by simp [Expr.text], nofun, rfl⟩
  | choose => exact ⟨.question, by simp [Expr.text], nofun, rfl⟩

theorem Expr.Conjunction.parse {e : Expr A} (conjunction : e.Conjunction) :
    ∃ read, Condition.parse e.text = some read ∧ ∀ value : A → Truth, read.eval value = e.eval value := by
  obtain ⟨token, tail, first, text, operand, reads⟩ := conjunction.read
  obtain ⟨read, all, values⟩ := reads first []
  refine ⟨read, ?_, fun value => values value .holds rfl⟩
  rw [List.append_nil] at all
  rw [Condition.parse, text, List.length_cons, readExpr, operand]
  simp [all, readOr, disjoin]

def Expr.join (e : Expr A) (atoms : List A) : Expr A :=
  atoms.foldl (fun e a => .and e (.atom a)) e

theorem Expr.Conjunction.join {e : Expr A} (conjunction : e.Conjunction) (atoms : List A) :
    (e.join atoms).Conjunction := by
  induction atoms generalizing e with
  | nil => exact conjunction
  | cons a atoms joined => exact joined ⟨conjunction, trivial⟩

theorem Expr.join_text (e : Expr A) (atoms : List A) :
    (e.join atoms).text = e.text ++ atoms.flatMap fun a => [.and, .atom a] := by
  induction atoms generalizing e with
  | nil => simp [Expr.join]
  | cons a atoms joined =>
    rw [show e.join (a :: atoms) = (Expr.and e (.atom a)).join atoms from rfl, joined]
    simp [Expr.text]

theorem Expr.join_eval (e : Expr A) (atoms : List A) (value : A → Truth) :
    (e.join atoms).eval value = (atoms.map value).foldl Truth.and (e.eval value) := by
  induction atoms generalizing e with
  | nil => rfl
  | cons a atoms joined => exact joined _

/-! ### Texts that are not conjunctions -/

theorem getLast?_of_cons {token : Token A} {rest : List (Token A)}
    (ends : (token :: rest).getLast? = some .and) (other : token ≠ .and) : rest.getLast? = some .and := by
  cases rest with
  | nil => exact absurd (Option.some.inj ends) other
  | cons => simpa using ends

theorem Token.ne_and {token : Token A} {e : Expr A} (operand : token.operand = some e) : token ≠ .and := by
  rintro rfl
  cases operand

theorem readOr_trailing (earlier : Option (Expr A)) (last : Expr A) (text : List (Token A))
    (ends : text.getLast? = some .and) : (readOr earlier last text).2.getLast? = some .and := by
  fun_induction readOr earlier last text with
  | case1 earlier last token rest e operand read =>
    exact read (getLast?_of_cons (by simpa using ends) (Token.ne_and operand))
  | case3 earlier last token rest e operand read =>
    exact read (getLast?_of_cons (by simpa using ends) (Token.ne_and operand))
  | case2 | case4 | case5 => exact ends

theorem readExpr_trailing (fuel : Nat) (text : List (Token A)) (ends : text.getLast? = some .and)
    (e : Expr A) (rest : List (Token A)) (read : readExpr fuel text = some (e, rest)) :
    rest.getLast? = some .and := by
  induction fuel generalizing text e rest with
  | zero => cases read
  | succ fuel shorter =>
    cases text with
    | nil => cases ends
    | cons token text =>
      obtain ⟨first, operand, read⟩ := Option.bind_eq_some_iff.mp read
      have trailing := readOr_trailing none first text (getLast?_of_cons ends (Token.ne_and operand))
      split at read
      · rename_i test tail same
        rw [same] at trailing
        obtain ⟨⟨yes, tail'⟩, inner, read⟩ := Option.bind_eq_some_iff.mp read
        have trailing := shorter _ (getLast?_of_cons trailing nofun) _ _ inner
        split at read
        · rename_i same
          cases same
          obtain ⟨⟨no, last⟩, second, read⟩ := Option.bind_eq_some_iff.mp read
          cases read
          exact shorter _ (getLast?_of_cons trailing nofun) _ _ second
        · cases read
      · rename_i same _
        rw [Option.some.inj read] at trailing
        exact trailing

/-- A text that ends with `&&` is not an expression. -/
theorem parse_trailing (text : List (Token A)) : parse (text ++ [.and]) = none := by
  rw [parse]
  split
  · rename_i e read
    have trailing := readExpr_trailing _ _ (by simp) _ _ read
    cases trailing
  · rfl

def Expr.atoms : Expr A → List A
  | .undefined => []
  | .atom a => [a]
  | .paren e => e.atoms
  | .and first second | .or first second => first.atoms ++ second.atoms
  | .choose test first second => test.atoms ++ first.atoms ++ second.atoms

def Token.atoms : Token A → List A
  | .atom a => [a]
  | .group e => e.atoms
  | _ => []

theorem Token.operand_atoms {token : Token A} {e : Expr A} (operand : token.operand = some e) :
    token.atoms = e.atoms := by
  cases token <;> cases operand <;> rfl

section

variable {value : A → Truth}

theorem Expr.eval_undefined {e : Expr A} (unknown : ∀ a ∈ e.atoms, value a = .undefined) :
    e.eval value = .undefined := by
  induction e with
  | undefined => rfl
  | atom a => exact unknown a (List.mem_singleton_self a)
  | paren e inner => exact inner unknown
  | and first second ofFirst ofSecond | or first second ofFirst ofSecond =>
    rw [Expr.eval, ofFirst fun a own => unknown a (List.mem_append_left _ own),
      ofSecond fun a own => unknown a (List.mem_append_right _ own)]
    rfl
  | choose test first second known =>
    rw [Expr.eval, known fun a own => unknown a (List.mem_append_left _ (List.mem_append_left _ own))]
    rfl

theorem Expr.eval_neither (neither : ∀ a, value a = .undefined ∨ value a = .fails) (e : Expr A) :
    e.eval value = .undefined ∨ e.eval value = .fails := by
  induction e with
  | undefined => exact .inl rfl
  | atom a => exact neither a
  | paren e inner => exact inner
  | and first second ofFirst ofSecond | or first second ofFirst ofSecond =>
    rcases ofFirst with ofFirst | ofFirst <;> rcases ofSecond with ofSecond | ofSecond <;>
      simp [Expr.eval, ofFirst, ofSecond, Truth.and, Truth.or]
  | choose test first second known ofFirst ofSecond =>
    rcases known with known | known <;> simp [Expr.eval, known, Truth.choose, ofSecond]

theorem readOr_undefined (neither : ∀ a, value a = .undefined ∨ value a = .fails)
    (earlier : Option (Expr A)) (last : Expr A) (text : List (Token A))
    (unknown : ∃ e ∈ earlier, e.eval value = .undefined) :
    (readOr earlier last text).1.eval value = .undefined := by
  have disjoined (earlier : Option (Expr A)) (last : Expr A)
      (unknown : ∃ e ∈ earlier, e.eval value = .undefined) :
        (disjoin earlier last).eval value = .undefined := by
    obtain ⟨e, rfl, unknown⟩ := unknown
    rcases last.eval_neither neither with known | known <;>
      simp [disjoin, Expr.eval, unknown, known, Truth.or]
  fun_induction readOr earlier last text with
  | case1 earlier last token rest e operand read => exact read unknown
  | case3 earlier last token rest e operand read => exact read ⟨_, rfl, disjoined _ _ unknown⟩
  | case2 | case4 | case5 => exact disjoined _ _ unknown

/-- The first alternative of a text with `||` or `?:` is not reached by what is put to its end: it
stays undefined. -/
theorem readOr_split (neither : ∀ a, value a = .undefined ∨ value a = .fails) (earlier : Option (Expr A))
    (last : Expr A) (text own rest : List (Token A)) (starts : earlier = none)
    (unknown : last.eval value = .undefined) (shape : text = own ++ .and :: rest)
    (unknowns : ∀ token ∈ own, ∀ a ∈ token.atoms, value a = .undefined)
    (split : ∃ token ∈ own, token ≠ .and ∧ token.operand = none) :
    (readOr earlier last text).1.eval value = .undefined := by
  fun_induction readOr earlier last text generalizing own with
  | case1 earlier last token tail e operand read =>
    obtain _ | ⟨start, _ | ⟨next, own⟩⟩ := own
    · simp at split
    · obtain ⟨rfl, -⟩ := List.cons.inj shape
      simp at split
    · injection shape with isStart shape
      injection shape with isNext shape
      subst isStart isNext
      have known : e.eval value = .undefined := Expr.eval_undefined fun a within =>
        unknowns token (by simp) a (by rwa [Token.operand_atoms operand])
      refine read own starts ?_ shape (fun token member => unknowns token (by simp [member])) ?_
      · simp [Expr.eval, unknown, known, Truth.and]
      · simpa [operand] using split
  | case3 earlier last token tail e operand read =>
    subst starts
    exact readOr_undefined neither _ _ _ ⟨last, rfl, unknown⟩
  | case2 | case4 | case5 =>
    subst starts
    exact unknown

/-- A text without `||` whose first operand is undefined and whose others do not fail is undefined.
-/
theorem readOr_conjunctive (earlier : Option (Expr A)) (last : Expr A) (text : List (Token A))
    (starts : earlier = none) (unknown : last.eval value = .undefined) (noOr : .or ∉ text)
    (values : ∀ token ∈ text, ∀ e, token.operand = some e →
      e.eval value = .undefined ∨ e.eval value = .holds) :
    (readOr earlier last text).1.eval value = .undefined := by
  fun_induction readOr earlier last text with
  | case1 earlier last token tail e operand read =>
    refine read starts ?_ (fun member => noOr (by simp [member]))
      fun token member => values token (by simp [member])
    rcases values token (by simp) e operand with known | known <;>
      simp [Expr.eval, unknown, known, Truth.and]
  | case3 => exact absurd List.mem_cons_self noOr
  | case2 | case4 | case5 =>
    subst starts
    exact unknown

theorem parse_starts {text : List (Token A)} {e : Expr A} (reads : parse text = some e) :
    ∃ token rest first, text = token :: rest ∧ token.operand = some first := by
  rw [parse] at reads
  cases text with
  | nil => cases reads
  | cons token rest =>
    cases operand : token.operand with
    | none => simp [readExpr, operand] at reads
    | some first => exact ⟨token, rest, first, rfl, operand⟩

theorem parse_undefined {token : Token A} {first : Expr A} {text : List (Token A)} {e : Expr A}
    (operand : token.operand = some first) (unknown : (readOr none first text).1.eval value = .undefined)
    (reads : parse (token :: text) = some e) : e.eval value = .undefined := by
  rw [parse, List.length_cons, readExpr, operand] at reads
  dsimp only [Option.bind_eq_bind, Option.bind_some] at reads
  split at reads
  · rename_i read
    cases reads
    split at read
    · rename_i test tail same
      rw [same] at unknown
      obtain ⟨⟨yes, tail'⟩, inner, read⟩ := Option.bind_eq_some_iff.mp read
      split at read
      · obtain ⟨⟨no, last⟩, second, read⟩ := Option.bind_eq_some_iff.mp read
        cases read
        simp only [Expr.eval, unknown, Truth.choose]
      · cases read
    · rw [Option.some.inj read] at unknown
      exact unknown
  · cases reads

end

end Wms.Lib.Condition
