import Wms.Lib.Pattern

/-! A read and write stream over one file.

The stream has one position for reading and writing. Reading past the end sets
the end flag, a read without a result sets the failure flag, and a stream with a
flag set neither moves nor writes. Every change of the file is recorded, in order,
as the system call that made it; the calls themselves always succeed.
-/

set_option autoImplicit false

namespace Wms.Lib

open List

inductive Write where
  | put (offset : Nat) (bytes : Bytes)
  | truncate (size : Nat)
  deriving DecidableEq, Repr

/-- A hole in a file reads as zero bytes. -/
def nul : Char := Char.ofNat 0

def overwrite (file : Bytes) (offset : Nat) (bytes : Bytes) : Bytes :=
  file.takeD offset nul ++ bytes ++ file.drop (offset + bytes.length)

def Write.apply (file : Bytes) : Write → Bytes
  | .put offset bytes => overwrite file offset bytes
  | .truncate size => file.takeD size nul

/-- The file left by a process that stopped after these writes. -/
def applyWrites (file : Bytes) (writes : List Write) : Bytes := writes.foldl Write.apply file

structure FileStream where
  file : Bytes
  pos : Nat
  eof : Bool
  fail : Bool
  writes : List Write
  deriving DecidableEq, Repr

namespace FileStream

def ofFile (file : Bytes) : FileStream := ⟨file, 0, false, false, []⟩

def good (s : FileStream) : Bool := !s.eof && !s.fail

def seek (s : FileStream) (n : Nat) : FileStream := if s.fail then s else { s with pos := n }

def seekEnd (s : FileStream) : FileStream := s.seek s.file.length

def tell (s : FileStream) : Option Nat := if s.fail then none else some s.pos

def clear (s : FileStream) : FileStream := { s with eof := false, fail := false }

def rest (s : FileStream) : Bytes := s.file.drop s.pos

def put (s : FileStream) (bytes : Bytes) : FileStream :=
  if s.good then
    { s with
      file := overwrite s.file s.pos bytes
      pos := s.pos + bytes.length
      writes := s.writes ++ [.put s.pos bytes] }
  else { s with fail := true }

def truncate (s : FileStream) (size : Nat) : FileStream :=
  { s with file := s.file.takeD size nul, writes := s.writes ++ [.truncate size] }

def getline (s : FileStream) : Bytes × FileStream :=
  if s.good then
    let line := s.rest.takeWhile (· != '\n')
    if line.length < s.rest.length then (line, { s with pos := s.pos + line.length + 1 })
    else (line, { s with pos := s.pos + line.length, eof := true, fail := line.isEmpty })
  else ([], { s with fail := true })

def get (s : FileStream) : Option Char × FileStream :=
  if s.good then
    match s.rest with
    | c :: _ => (some c, { s with pos := s.pos + 1 })
    | [] => (none, { s with eof := true, fail := true })
  else (none, { s with fail := true })

def read (s : FileStream) (n : Nat) : Bytes × FileStream :=
  if s.good then
    let block := s.rest.take n
    let short := decide (block.length < n)
    (block, { s with pos := s.pos + block.length, eof := short, fail := short })
  else ([], { s with fail := true })

def isSpace (c : Char) : Bool :=
  c == ' ' || c == '\n' || c == '\t' || c == '\r' || c == Char.ofNat 11 || c == Char.ofNat 12

/-- A formatted unsigned number below `bound`: white space, a sign, the longest run of
digits. A negative number wraps, a number out of range saturates and fails. -/
def extract (base bound : Nat) (s : FileStream) : Option Nat × FileStream :=
  if s.good then
    let space := s.rest.takeWhile isSpace
    let signed := s.rest.drop space.length
    let sign := (signed.take 1).takeWhile fun c => c == '+' || c == '-'
    let digits := (signed.drop sign.length).takeWhile (isDigitOf base)
    let used := space.length + sign.length + digits.length
    let ended := decide (used = s.rest.length)
    let next := { s with pos := s.pos + used, eof := ended }
    if digits.isEmpty then (none, { next with fail := true })
    else
      let value := numeralValue base digits
      if value < bound then
        (some (if sign = ['-'] then (bound - value) % bound else value), next)
      else (some (bound - 1), { next with fail := true })
  else (none, { s with fail := true })

def extractChar (s : FileStream) : Option Char × FileStream :=
  if s.good then
    let space := s.rest.takeWhile isSpace
    match s.rest.drop space.length with
    | c :: _ => (some c, { s with pos := s.pos + space.length + 1 })
    | [] => (none, { s with pos := s.pos + space.length, eof := true, fail := true })
  else (none, { s with fail := true })

/-! What the readers find in text that was written with the same format. -/

variable {base : Nat} {c : Char} {s : FileStream} {tail space digits : Bytes} {stop : Char} {bound : Nat}

theorem ne_of_isDigitOf {d : Char} (digit : isDigitOf base c = true) (nothing : digitVal d = none) :
    c ≠ d := by
  rintro rfl
  simp [isDigitOf, nothing] at digit

theorem isSpace_of_isDigitOf (digit : isDigitOf base c = true) : isSpace c = false := by
  have apart {d : Char} (nothing : digitVal d = none) : (c == d) = false :=
    beq_false_of_ne (ne_of_isDigitOf digit nothing)
  simp only [isSpace, Bool.or_eq_false_iff]
  exact ⟨⟨⟨⟨⟨apart rfl, apart rfl⟩, apart rfl⟩, apart rfl⟩, apart rfl⟩, apart rfl⟩

theorem not_sign_of_isDigitOf (digit : isDigitOf base c = true) : (c == '+' || c == '-') = false := by
  simp only [Bool.or_eq_false_iff]
  exact ⟨beq_false_of_ne (ne_of_isDigitOf digit rfl), beq_false_of_ne (ne_of_isDigitOf digit rfl)⟩

theorem ne_newline_of_isDigitOf (digit : isDigitOf base c = true) : (c != '\n') = true :=
  bne_iff_ne.mpr (ne_of_isDigitOf digit rfl)

theorem getline_of_rest {line : Bytes} (good : s.good = true) (inside : ∀ c ∈ line, (c != '\n') = true)
    (rest : s.rest = line ++ '\n' :: tail) :
    s.getline = (line, { s with pos := s.pos + line.length + 1 }) := by
  have taken : s.rest.takeWhile (· != '\n') = line := by
    rw [rest]
    exact takeWhile_run inside (by simp)
  have shorter : line.length < s.rest.length := by simp [rest]
  simp only [getline, good, taken, shorter, if_true]

theorem eof_of_good (good : s.good = true) : s.eof = false ∧ s.fail = false := by
  simpa only [FileStream.good, Bool.and_eq_true, Bool.not_eq_true'] using good

section Digits

variable {rest sign : Bytes} (blank : ∀ c ∈ space, isSpace c = true) (signs : sign = [] ∨ sign = ['-'])
  (inside : ∀ c ∈ digits, isDigitOf base c = true) (nonempty : digits ≠ [])
    (ends : isDigitOf base stop = false)
include blank signs inside nonempty ends

theorem digits_of_rest (shape : rest = space ++ (sign ++ (digits ++ stop :: tail))) :
    rest.takeWhile isSpace = space ∧
      ((rest.drop space.length).take 1).takeWhile (fun c => c == '+' || c == '-') = sign ∧
      ((rest.drop space.length).drop sign.length).takeWhile (isDigitOf base) = digits := by
  obtain ⟨first, others, split⟩ := exists_cons_of_ne_nil nonempty
  have firstDigit : isDigitOf base first = true := inside first (by rw [split]; exact mem_cons_self)
  have head : ∀ c ∈ (sign ++ (digits ++ stop :: tail)).head?, isSpace c = false := by
    rcases signs with rfl | rfl
    · simp [split, isSpace_of_isDigitOf firstDigit]
    · simp [isSpace]
  have after : rest.drop space.length = sign ++ (digits ++ stop :: tail) := by rw [shape, drop_left]
  refine ⟨?_, ?_, ?_⟩
  · rw [shape]
    exact takeWhile_run blank head
  · rw [after]
    rcases signs with rfl | rfl
    · simp [split, not_sign_of_isDigitOf firstDigit]
    · simp
  · rw [after, drop_left]
    exact takeWhile_run inside (by simpa using ends)

/-- A number is read behind white space up to the end of its run of digits; with a minus sign
it wraps. -/
theorem extract_digits (good : s.good = true) (rest : s.rest = space ++ (sign ++ (digits ++ stop :: tail)))
    (fits : numeralValue base digits < bound) :
    s.extract base bound = (some (if sign = ['-'] then (bound - numeralValue base digits) % bound else
      numeralValue base digits), { s with pos :=
        s.pos + (space.length + sign.length + digits.length) }) := by
  obtain ⟨spaceTaken, signTaken, digitsTaken⟩ := digits_of_rest blank signs inside nonempty ends rest
  have notEnd : ¬ space.length + sign.length + digits.length = s.rest.length := by
    rw [rest]
    simp only [length_append, length_cons]
    omega
  have full : digits.isEmpty = false := by simpa using nonempty
  obtain ⟨eof, fail⟩ := eof_of_good good
  simp only [extract, good, if_true, spaceTaken, signTaken, digitsTaken, notEnd, decide_false, full, fits]
  simp [eof]

theorem extract_large (rest : s.rest = space ++ (sign ++ (digits ++ stop :: tail)))
    (large : bound ≤ numeralValue base digits) : (s.extract base bound).2.good = false := by
  obtain ⟨spaceTaken, signTaken, digitsTaken⟩ := digits_of_rest blank signs inside nonempty ends rest
  have full : digits.isEmpty = false := by simpa using nonempty
  unfold extract
  split_ifs with good
  · simp only [spaceTaken, signTaken, digitsTaken, full, Nat.not_lt.mpr large, if_false,
      Bool.false_eq_true]
    simp [FileStream.good]
  · simp [FileStream.good]

end Digits

theorem extract_of_rest {width n : Nat} (low : 1 < base) (high : base ≤ 16) (good : s.good = true)
    (fits : n < bound) (blank : ∀ c ∈ space, isSpace c = true) (ends : isDigitOf base stop = false)
    (rest : s.rest = space ++ (numeral base width n ++ stop :: tail)) : s.extract base bound =
      (some n, { s with pos := s.pos + (space.length + (numeral base width n).length) }) := by
  have value := numeralValue_numeral low high width n
  have read := extract_digits blank (.inl rfl) (isDigitOf_numeral low high width n)
      (numeral_ne_nil base width n) ends
    good rest (value.symm ▸ fits)
  simpa [value] using read

theorem good_of_extract (good : (s.extract base bound).2.good = true) : s.good = true := by
  by_contra failed
  rw [extract, if_neg failed] at good
  simp [FileStream.good] at good

theorem extract_of_good (space : Bytes) (stop : Char) (blank : ∀ c ∈ space, isSpace c = true)
    (inside : ∀ c ∈ digits, isDigitOf base c = true) (nonempty : digits ≠ [])
    (ends : isDigitOf base stop = false) (rest : s.rest = space ++ (digits ++ stop :: tail))
    (good : (s.extract base bound).2.good = true) :
    (s.extract base bound).2 = { s with pos := s.pos + (space.length + digits.length) } := by
  have fits : numeralValue base digits < bound := by
    by_contra large
    rw [extract_large blank (.inl rfl) inside nonempty ends rest (Nat.not_lt.mp large)] at good
    cases good
  exact congrArg Prod.snd (extract_digits blank (.inl rfl) inside nonempty ends
    (good_of_extract good) rest fits)

theorem good_of_get (good : s.get.2.good = true) : s.good = true := by
  by_contra failed
  rw [get, if_neg failed] at good
  simp [FileStream.good] at good

theorem get_of_rest (good : s.good = true) (rest : s.rest = c :: tail) :
    s.get = (some c, { s with pos := s.pos + 1 }) := by
  simp only [get, good, rest, if_true]

theorem isSpace_blank : ∀ c ∈ [' '], isSpace c = true := by simp [isSpace]

theorem extractChar_of_rest (good : s.good = true) (visible : isSpace c = false)
    (rest : s.rest = ' ' :: c :: tail) : s.extractChar = (some c, { s with pos := s.pos + 2 }) := by
  have taken : s.rest.takeWhile isSpace = [' '] := by
    rw [rest]
    exact takeWhile_run isSpace_blank (by simpa using visible)
  simp only [extractChar, good, if_true, taken]
  simp [rest]

theorem read_of_rest {block : Bytes} (good : s.good = true) (rest : s.rest = block ++ tail) :
    s.read block.length = (block, { s with pos := s.pos + block.length }) := by
  simp [read, good, rest, eof_of_good good]

end FileStream

theorem drop_next {file tail : Bytes} {pos next : Nat} (field : Bytes)
    (here : file.drop pos = field ++ tail)
    (width : pos + field.length = next) : file.drop next = tail := by
  rw [← width, ← drop_drop, here, drop_left]

/-! Overwriting a field of the same length. -/

theorem overwrite_middle (front old back new : Bytes) (same : new.length = old.length) :
    overwrite (front ++ old ++ back) front.length new = front ++ new ++ back := by
  have kept : (front ++ old ++ back).takeD front.length nul = front := by
    rw [append_assoc]
    exact takeD_left _ _ _
  have dropped : (front ++ old ++ back).drop (front.length + new.length) = back := by
    rw [same, ← length_append, drop_left]
  simp only [overwrite, kept, dropped]

theorem drop_fields (front : List Bytes) (field : Bytes) (back : List Bytes) (body : Bytes) :
    ((front ++ field :: back).flatten ++ body).drop front.flatten.length = field ++
      (back.flatten ++ body) := by
  rw [flatten_append, flatten_cons, append_assoc, drop_left, append_assoc]

theorem overwrite_fields (front : List Bytes) (field : Bytes) (back : List Bytes) (body new : Bytes)
    (same : new.length = field.length) :
    overwrite ((front ++ field :: back).flatten ++ body) front.flatten.length new =
      (front ++ new :: back).flatten ++ body := by
  have split (x : Bytes) : (front ++ x :: back).flatten ++ body =
      front.flatten ++ x ++ (back.flatten ++ body) := by simp
  rw [split, overwrite_middle _ _ _ _ same, split]

theorem overwrite_end (file new : Bytes) : overwrite file file.length new = file ++ new := by
  have kept : file.takeD file.length nul = file := by
    simpa using takeD_left file [] nul
  simp only [overwrite, kept, drop_of_length_le (Nat.le_add_right _ _), append_nil]

end Wms.Lib
