import Wms.Lib.Pattern

/-! Job identifiers as names of files (`manipulation.cpp`).

A character that is not safe is written as an underscore and two hexadecimal digits. The
functions work on the text of the identifier.
-/

set_option autoImplicit false

namespace Wms.Common

open Lib List

def hexMap : Bytes := "0123456789abcdef".toList

def hexLeast : Nat := 2

namespace HexInt

def fill (ui : Nat) (done : Bytes) : Bytes :=
  if ui = 0 then done else fill (ui / 16) ((hexMap[ui % 16]?).getD '0' :: done)

/-- `HexInt(unsigned int)` and its text: the digits are written over zeros. -/
def text (ui : Nat) : Bytes := (fill ui []).leftpad hexLeast '0'

/-- `parseString` over the characters from the last to the first. Two are parsed at a time, which
the base and the sum have room for. -/
def parse (hexbase sum : Nat) : Bytes → Nat
  | [] => sum
  | c :: rest =>
    if hexMap.idxOf c.toLower < hexMap.length then
      parse (hexbase * 16) (sum + hexbase * hexMap.idxOf c.toLower) rest
    else 0

def value (str : Bytes) : Nat := parse 1 0 str.reverse

end HexInt

def badChar (c : Char) : Bool :=
  !(('a' ≤ c && c ≤ 'z') || ('A' ≤ c && c ≤ 'Z') || ('0' ≤ c && c ≤ '9') || c = '.' || c = '-' || c = ' ')

/-- A `char` is signed, so the conversion to an `unsigned int` of one above the
seven bits extends the sign. -/
def charCode (c : Char) : Nat := if c.toNat < 128 then c.toNat else c.toNat + (4294967296 - 256)

def toFilename (last : Bytes) : Bytes :=
  match _next : last.dropWhile (!badChar ·) with
  | [] => last
  | c :: rest => last.takeWhile (!badChar ·) ++ '_' :: HexInt.text (charCode c) ++ toFilename rest
termination_by last.length
decreasing_by
  have short := (dropWhile_sublist (l := last) (!badChar ·)).length_le
  rw [_next, length_cons] at short
  exact short

/-- The loop of `from_filename` from `last` on; nothing where it would leave the text. -/
def fromFilename (last : Bytes) : Option Bytes :=
  match _next : last.dropWhile (· ≠ '_') with
  | [] => some last
  | [_] | [_, _] => none
  | _ :: x :: y :: rest =>
    (fromFilename rest).map (last.takeWhile (· ≠ '_') ++ Char.ofNat (HexInt.value [x, y]) :: ·)
termination_by last.length
decreasing_by
  have short := (dropWhile_sublist (l := last) (· ≠ '_')).length_le
  simp only [_next, length_cons] at short
  omega

/-! One character after the other. -/

theorem toFilename_cons (c : Char) (rest : Bytes) : toFilename (c :: rest) =
    if badChar c then '_' :: HexInt.text (charCode c) ++ toFilename rest else c :: toFilename rest := by
  by_cases bad : badChar c = true
  · rw [if_pos bad, toFilename]
    split <;> simp_all
  · rw [if_neg bad, toFilename, toFilename.eq_def rest]
    simp only [Bool.not_eq_true] at bad
    split <;> split <;> simp_all

theorem fromFilename_plain {c : Char} (rest : Bytes) (plain : c ≠ '_') :
    fromFilename (c :: rest) = (fromFilename rest).map (c :: ·) := by
  rw [fromFilename, fromFilename.eq_def rest]
  split <;> split <;> simp_all [-dropWhile_eq_nil_iff, Function.comp_def]

theorem fromFilename_escape (x y : Char) (rest : Bytes) :
    fromFilename ('_' :: x :: y :: rest) = (fromFilename rest).map
      (Char.ofNat (HexInt.value [x, y]) :: ·) := by
  rw [fromFilename]
  split <;> simp_all

/-! The characters of seven bits. -/

theorem HexInt.text_two {n : Nat} (small : n < 256) :
    text n = [(hexMap[n / 16]?).getD '0', (hexMap[n % 16]?).getD '0'] := by
  have ended : n / 16 / 16 = 0 := by omega
  by_cases zero : n = 0
  · subst zero
    rw [text, fill, if_pos rfl]
    rfl
  · by_cases single : n / 16 = 0
    · rw [text, fill, if_neg zero, fill, if_pos single, single]
      rfl
    · rw [text, fill, if_neg zero, fill, if_neg single, fill, if_pos ended,
        Nat.mod_eq_of_lt (by omega : n / 16 < 16)]
      rfl

theorem hexMap_safe : ∀ x ∈ hexMap, badChar x = false := by
  have safe : (hexMap.all fun x => !badChar x) = true := by decide
  simpa only [all_eq_true, Bool.not_eq_true'] using safe

theorem escape_ascii {c : Char} (ascii : c.toNat < 128) :
    ∃ x ∈ hexMap, ∃ y ∈ hexMap, HexInt.text (charCode c) = [x, y] ∧ HexInt.value [x, y] = c.toNat := by
  have digits (n : Fin 128) : (hexMap[n.val / 16]?).getD '0' ∈ hexMap ∧
      (hexMap[n.val % 16]?).getD '0' ∈ hexMap ∧
      HexInt.value [(hexMap[n.val / 16]?).getD '0', (hexMap[n.val % 16]?).getD '0'] = n := by
    revert n
    decide +kernel
  obtain ⟨first, second, same⟩ := digits ⟨c.toNat, ascii⟩
  rw [charCode, if_pos ascii]
  exact ⟨_, first, _, second, HexInt.text_two (by omega), same⟩

def Ascii (s : Bytes) : Prop := ∀ c ∈ s, c.toNat < 128

/-! Names of any kind. -/

theorem ascii_of_safe {c : Char} (safe : badChar c = false) : c.toNat < 128 := by
  by_contra high
  have above (d : Char) (small : d.toNat < 128) : ¬ c ≤ d ∧ c ≠ d := by
    refine ⟨fun le => ?_, fun same => high (same ▸ small)⟩
    have : c.toNat ≤ d.toNat := UInt32.le_iff_toNat_le.mp le
    omega
  simp [badChar, above 'z' (by decide), above 'Z' (by decide), above '9' (by decide),
    above '.' (by decide),
    above '-' (by decide), above ' ' (by decide)] at safe

theorem HexInt.fill_spec (n : Nat) (done : Bytes) :
    ∃ digits, fill n done = digits ++ done ∧ ∀ d ∈ digits, d ≠ '_' := by
  induction n using Nat.strongRecOn generalizing done with
  | ind n ih =>
    rw [fill]
    split
    · exact ⟨[], rfl, by simp⟩
    · rename_i positive
      have digit : ∀ k : Fin 16, (hexMap[k.val]?).getD '0' ≠ '_' := by decide
      obtain ⟨digits, shape, plain⟩ := ih (n / 16) (by omega) ((hexMap[n % 16]?).getD '0' :: done)
      refine ⟨digits ++ [(hexMap[n % 16]?).getD '0'], by simp [shape], fun d member => ?_⟩
      rcases mem_append.mp member with earlier | last
      · exact plain d earlier
      · exact mem_singleton.mp last ▸ digit ⟨n % 16, Nat.mod_lt _ (by decide)⟩

theorem HexInt.text_long {n : Nat} (large : 256 ≤ n) :
    ∃ x y more, text n = x :: y :: more ∧ more ≠ [] ∧ ∀ d ∈ more, d ≠ '_' := by
  obtain ⟨digits, shape, plain⟩ := fill_spec n []
  rw [append_nil] at shape
  have long : 3 ≤ digits.length := by
    obtain ⟨front, more, -⟩ := fill_spec (n / 16 / 16 / 16) [_, _, _]
    rw [← shape, fill, if_neg (by omega), fill, if_neg (by omega), fill, if_neg (by omega), more]
    simp
  rcases digits with _ | ⟨x, _ | ⟨y, _ | ⟨z, more⟩⟩⟩
  case cons.cons.cons =>
    exact ⟨x, y, z :: more, by simp [text, shape, hexLeast, List.leftpad], by
      simp, fun d member => plain d (by simp [member])⟩
  all_goals simp at long

theorem fromFilename_run {run : Bytes} (rest : Bytes) (plain : ∀ c ∈ run, c ≠ '_') :
    fromFilename (run ++ rest) = (fromFilename rest).map (run ++ ·) := by
  induction run with
  | nil => simp
  | cons c run ih =>
    rw [cons_append, fromFilename_plain _ (plain c mem_cons_self),
      ih fun d member => plain d (mem_cons_of_mem _ member)]
    simp [Function.comp_def]

/-- Text of seven bits is decoded to itself; a character above them is decoded to more than one. -/
theorem fromFilename_encoded (s : Bytes) : ∃ t, fromFilename (toFilename s) = some t ∧
    s.length ≤ t.length ∧
    (t.length ≤ s.length → Ascii s) ∧ (Ascii s → t = s) := by
  induction s with
  | nil => exact ⟨[], by simp [toFilename, fromFilename], Nat.le_refl _, fun _ => by
    simp [Ascii], fun _ => rfl⟩
  | cons c rest ih =>
    obtain ⟨t, decoded, longer, same, undone⟩ := ih
    have ascii (here : c.toNat < 128) (short : t.length + 1 ≤ rest.length + 1) : Ascii (c :: rest) :=
      forall_mem_cons.mpr ⟨here, same (Nat.le_of_succ_le_succ short)⟩
    have back (all : Ascii (c :: rest)) : c :: t = c :: rest :=
      congrArg _ (undone (forall_mem_cons.mp all).2)
    rw [toFilename_cons]
    by_cases bad : badChar c = true
    · rw [if_pos bad]
      by_cases here : c.toNat < 128
      · obtain ⟨x, -, y, -, digits, restored⟩ := escape_ascii here
        refine ⟨c :: t, ?_, Nat.succ_le_succ longer, ascii here, back⟩
        rw [digits, cons_append, cons_append, cons_append, nil_append, fromFilename_escape,
          decoded, restored, Char.ofNat_toNat]
        rfl
      · obtain ⟨x, y, more, digits, nonempty, plain⟩ := HexInt.text_long (n := charCode c) (by
          rw [charCode, if_neg here]
          omega)
        have positive := length_pos_iff.mpr nonempty
        refine ⟨Char.ofNat (HexInt.value [x, y]) :: (more ++ t), ?_, ?_, fun short => ?_,
          fun all => absurd (forall_mem_cons.mp all).1 here⟩
        · rw [digits, cons_append, cons_append, cons_append, fromFilename_escape,
            fromFilename_run _ plain, decoded]
          rfl
        all_goals
          simp only [length_cons, length_append] at *
          omega
    · -- The underscore is not safe: it stands only at the start of an escape.
      rw [if_neg bad, fromFilename_plain _ (by rintro rfl; exact bad (by decide)), decoded]
      exact ⟨c :: t, rfl, Nat.succ_le_succ longer, ascii (ascii_of_safe (Bool.not_eq_true _ ▸ bad)), back⟩

theorem fromFilename_toFilename {s : Bytes} (ascii : Ascii s) : fromFilename (toFilename s) = some s := by
  obtain ⟨t, decoded, -, -, undone⟩ := fromFilename_encoded s
  rw [decoded, undone ascii]

theorem mem_toFilename {s : Bytes} {c : Char} (ascii : Ascii s) (member : c ∈ toFilename s) :
    badChar c = false ∨ c = '_' := by
  induction s with
  | nil => simp [toFilename] at member
  | cons first rest ih =>
    obtain ⟨here, there⟩ := forall_mem_cons.mp ascii
    rw [toFilename_cons] at member
    split at member
    · obtain ⟨x, first, y, second, digits, -⟩ := escape_ascii here
      simp only [digits, cons_append, nil_append, mem_cons] at member
      rcases member with rfl | rfl | rfl | later
      · exact .inr rfl
      · exact .inl (hexMap_safe _ first)
      · exact .inl (hexMap_safe _ second)
      · exact ih there later
    · rename_i good
      rcases mem_cons.mp member with rfl | later
      · exact .inl (Bool.not_eq_true _ ▸ good)
      · exact ih there later

/-- Decoding undoes the encoding, which is injective and whose result is a safe name. -/
theorem filename_decodes : (∀ s, Ascii s → fromFilename (toFilename s) = some s) ∧
    Set.InjOn toFilename {s | Ascii s} ∧
    ∀ s, Ascii s → ∀ c ∈ toFilename s, c ≠ '/' ∧ (badChar c = false ∨ c = '_') := by
  refine ⟨fun s ascii => fromFilename_toFilename ascii, ?_, ?_⟩
  · intro s ascii t ascii' same
    exact Option.some.inj ((fromFilename_toFilename ascii).symm.trans
      ((congrArg fromFilename same).trans (fromFilename_toFilename ascii')))
  · intro s ascii c member
    have safe := mem_toFilename ascii member
    refine ⟨?_, safe⟩
    rintro rfl
    exact absurd safe (by decide)

/-! Which names are decoded faithfully. -/

/-- `from_filename` stays inside the name, and a text that is accepted as an
identifier is encoded as the name. -/
def Faithful (accepts : Bytes → Prop) (name : Bytes) : Prop :=
  ∃ s, fromFilename name = some s ∧ (accepts s → toFilename s = name)

/-- The name with each escape replaced by the character that its digits stand for. -/
def decoded : Bytes → Bytes
  | '_' :: x :: y :: rest => Char.ofNat (HexInt.value [x, y]) :: decoded rest
  | c :: rest => c :: decoded rest
  | [] => []

/-- Each escape has its two digits. -/
def Complete : Bytes → Prop
  | '_' :: _ :: _ :: rest => Complete rest
  | c :: rest => c ≠ '_' ∧ Complete rest
  | [] => True

/-- Each character is safe or belongs to an escape, with digits in lower case, of a character of
seven bits that is not safe. -/
def Canonical : Bytes → Prop
  | '_' :: x :: y :: rest => x ∈ hexMap ∧ y ∈ hexMap ∧ HexInt.value [x, y] < 128 ∧
      badChar (Char.ofNat (HexInt.value [x, y])) = true ∧ Canonical rest
  | c :: rest => badChar c = false ∧ Canonical rest
  | [] => True

theorem fromFilename_cut {rest : Bytes} (short : ∀ x y more, rest = x :: y :: more → False) :
    fromFilename ('_' :: rest) = none := by
  match rest with
  | [] | [_] =>
    rw [fromFilename]
    rfl
  | x :: y :: more => exact (short x y more rfl).elim

theorem fromFilename_eq_some_iff {name s : Bytes} : fromFilename name = some s ↔ Complete name ∧
    decoded name = s := by
  fun_induction decoded name generalizing s with
  | case1 x y rest ih => simp [fromFilename_escape, ih, Complete]
  | case2 c rest other ih =>
    rw [Complete.eq_2 _ _ other]
    by_cases escape : c = '_'
    · subst escape
      simp [fromFilename_cut fun x y more => other x y more rfl]
    · simp [fromFilename_plain _ escape, ih, escape]
  | case3 => simp [fromFilename, Complete]

theorem canonical_toFilename {s : Bytes} (ascii : Ascii s) : Canonical (toFilename s) := by
  induction s with
  | nil => simp [toFilename, Canonical]
  | cons c rest ih =>
    obtain ⟨here, there⟩ := forall_mem_cons.mp ascii
    rw [toFilename_cons]
    split
    · rename_i bad
      obtain ⟨x, first, y, second, digits, value⟩ := escape_ascii here
      rw [digits]
      refine ⟨first, second, value ▸ here, ?_, ih there⟩
      rwa [value, Char.ofNat_toNat]
    · rename_i safe
      have plain : c ≠ '_' := by
        rintro rfl
        exact safe (by decide)
      rw [Canonical.eq_2 _ _ fun _ _ _ same => absurd same plain]
      exact ⟨Bool.not_eq_true _ ▸ safe, ih there⟩

theorem toFilename_decoded {name : Bytes} (canonical : Canonical name) :
    toFilename (decoded name) = name := by
  fun_induction decoded name with
  | case1 x y rest ih =>
    obtain ⟨first, second, small, bad, later⟩ := canonical
    have digits : (hexMap.all fun x => hexMap.all fun y => [(hexMap[HexInt.value [x, y] / 16]?).getD '0',
        (hexMap[HexInt.value [x, y] % 16]?).getD '0'] == [x, y]) = true := by decide +kernel
    simp only [all_eq_true, beq_iff_eq] at digits
    have code : ∀ n : Fin 128, charCode (Char.ofNat n) = n := by decide +kernel
    rw [toFilename_cons, if_pos bad, code ⟨_, small⟩, HexInt.text_two (by omega), digits x first y second,
      ih later]
    rfl
  | case2 c rest other ih =>
    rw [Canonical.eq_2 _ _ other] at canonical
    rw [toFilename_cons, canonical.1, if_neg (by decide), ih canonical.2]
  | case3 => simp [toFilename]

/-- A name is decoded faithfully iff no escape is cut off and, where what the name stands for is
accepted, each character is as the encoding writes it. -/
theorem faithful_iff (accepts : Bytes → Prop) (name : Bytes) : Faithful accepts name ↔
    Complete name ∧ (accepts (decoded name) → Canonical name) := by
  constructor
  · rintro ⟨s, back, encodes⟩
    obtain ⟨complete, rfl⟩ := fromFilename_eq_some_iff.mp back
    refine ⟨complete, fun accepted => ?_⟩
    -- a text whose encoding is decoded to itself has seven bits
    obtain ⟨t, again, -, short, -⟩ := fromFilename_encoded (decoded name)
    rw [encodes accepted, back] at again
    cases again
    have same := canonical_toFilename (short (Nat.le_refl _))
    rwa [encodes accepted] at same
  · rintro ⟨complete, canonical⟩
    exact ⟨_, fromFilename_eq_some_iff.mpr ⟨complete, rfl⟩, fun accepted =>
      toFilename_decoded (canonical accepted)⟩

/-- An escape that is cut off, and one of a character that needs none. -/
theorem unfaithful_names : (∀ accepts, ¬ Faithful accepts ['a', '_', '4']) ∧
    ¬ Faithful (fun _ => True) ['_', '4', '1'] := by
  constructor
  · rintro accepts ⟨s, back, -⟩
    obtain ⟨complete, -⟩ := fromFilename_eq_some_iff.mp back
    exact complete.2.1 rfl
  · rintro ⟨s, back, encodes⟩
    obtain ⟨-, rfl⟩ := fromFilename_eq_some_iff.mp back
    have same : toFilename ['A'] = ['_', '4', '1'] := encodes trivial
    rw [toFilename_cons, if_neg (by decide)] at same
    cases same

end Wms.Common
