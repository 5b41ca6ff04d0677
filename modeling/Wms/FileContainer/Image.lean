import Wms.FileContainer.Records
import Wms.Lib.Layout

/-! The structured content of a container file.

An image is the header and the list of the records in file order, followed by the
unfinished part of a record that is being appended. Each write of the methods changes one
field of an image: the lemmas below say so for the text, and say what a reader finds where
a field starts.
-/

set_option autoImplicit false

namespace Wms.FileContainer

open Lib Layout FileIterator List

structure Pointers where
  prev : Nat
  next : Nat
  deriving DecidableEq, Repr

def Pointers.line (p : Pointers) : Bytes := FileIterator.line ⟨p.prev, p.next, 0⟩

def FileIterator.pointers (it : FileIterator) : Pointers := ⟨it.prev, it.next⟩

def Pointers.at (p : Pointers) (current : Nat) : FileIterator := ⟨p.prev, p.next, current⟩

structure Record where
  list : Pointers
  erased : Bool
  data : Bytes
  file : Pointers
  deriving DecidableEq, Repr

def Record.state (r : Record) : Char := if r.erased then 'i' else 'g'

def Record.sizeText (r : Record) : Bytes := sizeLine r.data.length r.state

def Record.fields (r : Record) : List Bytes :=
  [r.list.line, r.sizeText, r.data, '\n' :: r.file.line]

def Record.bytes (r : Record) : Bytes := r.fields.flatten

def Record.size (r : Record) : Nat := calculateDataSize r.data.length

structure Image where
  /-- What a write to offset 0 that was meant for a record has put over the stamp. -/
  scar : Bytes
  stamp : TimeStamp
  size : Nat
  status : FileStatus
  backup : Fin 4 → FileIterator
  limitsBackup : Pointers
  listBackup : Pointers
  limits : Pointers
  removed : Pointers
  records : List Record
  tail : Bytes

namespace Image

def front (img : Image) : Bytes :=
  img.scar ++ (img.stamp.line ++ numberLine img.size).drop img.scar.length

def fields (img : Image) : List Bytes :=
  [img.front, [img.status.char, '\n'],
    (img.backup 0).backupLine, (img.backup 1).backupLine, (img.backup 2).backupLine,
    (img.backup 3).backupLine, img.limitsBackup.line, img.listBackup.line,
    img.limits.line, img.removed.line]

def body (img : Image) : Bytes := img.records.flatMap Record.bytes ++ img.tail

def recordsEnd (img : Image) : Nat := headerSize + total Record.size img.records

def fileEnd (img : Image) : Nat := img.recordsEnd + img.tail.length

def at? (img : Image) (offset : Nat) : Option Record :=
  locate Record.size headerSize img.records offset

def modify (img : Image) (offset : Nat) (change : Record → Record) : Image :=
  { img with records := modifyAt Record.size change headerSize img.records offset }

def setList (img : Image) (offset : Nat) (list : Pointers) : Image :=
  img.modify offset fun r => { r with list }

def setErased (img : Image) (offset : Nat) (erased : Bool) : Image :=
  img.modify offset fun r => { r with erased }

def bodies (img : Image) : List (Bytes × Pointers) := img.records.map fun r => (r.data, r.file)

def addRecord (img : Image) (r : Record) : Image := { img with records := img.records ++ [r] }

def setBackup (img : Image) (what : Fin 4) (it : FileIterator) : Image :=
  { img with backup := Function.update img.backup what it }

def blankBackup (img : Image) : Image :=
  { img with backup := fun _ => ⟨0, 0, 0⟩, limitsBackup := ⟨0, 0⟩, listBackup := ⟨0, 0⟩ }

def cleared (img : Image) : Image :=
  { img.setBackup 0 ⟨headerSize, headerSize, headerSize⟩ with
    records := [], tail := [], status := .ftEnd, limits := ⟨headerSize, headerSize⟩, removed :=
      ⟨unDead, unBeef⟩ }

end Image

/-! The numbers of an image fit their fields. -/

def Pointers.Fits (p : Pointers) : Prop := p.prev < offBound ∧ p.next < offBound

def FileIterator.Fits (it : FileIterator) : Prop :=
  it.prev < offBound ∧ it.next < offBound ∧ it.current < offBound

structure Record.Fits (r : Record) : Prop where
  list : r.list.Fits
  data : r.data.length < sizeBound
  file : r.file.Fits

structure Image.Fits (img : Image) : Prop where
  scar : img.scar.length ≤ 34
  epoch : img.stamp.epoch < offBound
  counter : img.stamp.counter < counterBound
  size : img.size < sizeBound
  backup : ∀ what, (img.backup what).Fits
  limitsBackup : img.limitsBackup.Fits
  listBackup : img.listBackup.Fits
  limits : img.limits.Fits
  removed : img.removed.Fits
  records : ∀ r ∈ img.records, r.Fits

instance : Format Image where
  encode img := img.fields.flatten ++ img.body
  Fits := Image.Fits

theorem offBound_pos : 0 < offBound := by decide

theorem headerSize_eq : headerSize = 391 := rfl
theorem statusPosition_eq : statusPosition = 49 := rfl

theorem length_hex {n : Nat} (fits : n < offBound) : (hex n).length = 16 :=
  length_numeral (by decide) (by decide) (Nat.lt_trans fits (by decide))

theorem Pointers.length_line {p : Pointers} (fits : p.Fits) : p.line.length = 34 := by
  simp [line, FileIterator.line, FileIterator.text, length_hex fits.1, length_hex fits.2]

theorem FileIterator.line_eq (it : FileIterator) : it.line = it.pointers.line := rfl

theorem FileIterator.length_line {it : FileIterator} (fits : it.pointers.Fits) : it.line.length = 34 := by
  rw [line_eq, Pointers.length_line fits]

theorem FileIterator.length_backupLine {it : FileIterator} (fits : it.Fits) :
    it.backupLine.length = 51 := by
  simp [backupLine, line, text, length_hex fits.1, length_hex fits.2.1, length_hex fits.2.2]

theorem TimeStamp.length_line {stamp : TimeStamp} (epoch : stamp.epoch < offBound)
    (counter : stamp.counter < counterBound) : stamp.line.length = 27 := by
  have first : (numeral 10 epochWidth stamp.epoch).length = 20 :=
    length_numeral (by decide) (by decide) (Nat.lt_trans epoch (by decide))
  have second : (numeral 10 counterWidth stamp.counter).length = 5 :=
    length_numeral (by decide) (by decide) (Nat.lt_trans counter (by decide))
  simp [line, text, first, second]

theorem length_numberLine {n : Nat} (fits : n < sizeBound) : (numberLine n).length = 22 := by
  have digits : (numeral 10 numberSize n).length = 21 :=
    length_numeral (by decide) (by decide) (Nat.lt_trans fits (by decide))
  simp [numberLine, digits]

theorem length_sizeLine {n : Nat} (state : Char) (fits : n < sizeBound) :
    (sizeLine n state).length = 26 := by
  have digits : (numeral 10 sizeSize n).length = 23 :=
    length_numeral (by decide) (by decide) (Nat.lt_trans fits (by decide))
  simp [sizeLine, digits]

theorem Record.length_bytes {r : Record} (fits : r.Fits) : r.bytes.length = r.size := by
  have size : r.sizeText.length = 26 := length_sizeLine _ fits.data
  simp only [bytes, fields, flatten_cons, flatten_nil, length_append,
    Pointers.length_line fits.list, size, length_cons, Pointers.length_line fits.file,
    Record.size, calculateDataSize, iteratorWidth, sizeSize, length_nil]
  omega

theorem Record.size_pos (r : Record) : 0 < r.size := by
  simp only [size, calculateDataSize, iteratorWidth]
  omega

theorem length_records {records : List Record} (fits : ∀ r ∈ records, r.Fits) :
    (records.flatMap Record.bytes).length = total Record.size records := by
  induction records with
  | nil => rfl
  | cons r rest ih =>
    simp only [flatMap_cons, length_append, total_cons,
      Record.length_bytes (fits r mem_cons_self),
      ih fun s member => fits s (mem_cons_of_mem r member)]

namespace Image

variable {img : Image} {offset : Nat} {r : Record}

theorem length_front (fits : img.Fits) : img.front.length = 49 := by
  have scar := fits.scar
  simp only [front, length_append, length_drop, length_numberLine fits.size,
    TimeStamp.length_line fits.epoch fits.counter]
  omega

theorem length_fields (fits : img.Fits) : img.fields.flatten.length = headerSize := by
  simp only [fields, flatten_cons, flatten_nil, length_append, length_front fits,
    length_backupLine (fits.backup _), Pointers.length_line fits.limitsBackup,
    Pointers.length_line fits.listBackup, Pointers.length_line fits.limits,
    Pointers.length_line fits.removed, length_cons, length_nil, headerSize_eq]

theorem length_encode (fits : img.Fits) : (encode img).length = img.fileEnd := by
  change (img.fields.flatten ++ img.body).length = _
  simp only [length_append, length_fields fits, body, length_records fits.records, fileEnd,
    recordsEnd]
  omega

/-! The changes keep the numbers small. -/

variable {list : Pointers} {erased : Bool}

theorem Fits.setList (fits : img.Fits) (small : list.Fits) : (img.setList offset list).Fits :=
  { fits with records := forall_modifyAt fits.records fun _ r => ⟨small, r.data, r.file⟩ }

theorem Fits.setErased (fits : img.Fits) : (img.setErased offset erased).Fits :=
  { fits with records := forall_modifyAt fits.records fun _ r => ⟨r.list, r.data, r.file⟩ }

theorem Fits.setBackup {what : Fin 4} {it : FileIterator} (fits : img.Fits) (small : it.Fits) :
    (img.setBackup what it).Fits :=
  { fits with
    backup := fun other => by
      by_cases same : other = what
      · subst same
        simpa [Image.setBackup] using small
      · simpa [Image.setBackup, Function.update_of_ne same] using fits.backup other }

theorem Fits.blankBackup (fits : img.Fits) : img.blankBackup.Fits :=
  { fits with
    backup := fun _ => ⟨offBound_pos, offBound_pos, offBound_pos⟩
    limitsBackup := ⟨offBound_pos, offBound_pos⟩
    listBackup := ⟨offBound_pos, offBound_pos⟩ }

/-! The header is read and written field by field. -/

def position : Fin 10 → Nat
  | 0 => 0 | 1 => 49 | 2 => 51 | 3 => 102 | 4 => 153 | 5 => 204 | 6 => 255 | 7 => 289 | 8 => 323 | 9 => 357

theorem length_take_fields (fits : img.Fits) (i : Fin 10) :
    (img.fields.take i).flatten.length = position i := by
  have widths : img.fields.map List.length = [49, 2, 51, 51, 51, 51, 34, 34, 34, 34] := by
    simp [fields, length_front fits, length_backupLine (fits.backup _),
      Pointers.length_line fits.limitsBackup, Pointers.length_line fits.listBackup,
      Pointers.length_line fits.limits, Pointers.length_line fits.removed]
  rw [length_flatten, map_take, widths]
  revert i
  decide

theorem fields_split (img : Image) (i : Fin 10) :
    img.fields = img.fields.take i ++ img.fields.get i :: img.fields.drop (i + 1) := by
  conv_lhs => rw [← take_append_drop i img.fields]
  rw [drop_eq_getElem_cons (by exact i.isLt)]
  rfl

theorem field_at (fits : img.Fits) (i : Fin 10) :
    ∃ tail, (encode img).drop (position i) = img.fields.get i ++ tail := by
  refine ⟨(img.fields.drop (i + 1)).flatten ++ img.body, ?_⟩
  change (img.fields.flatten ++ img.body).drop (position i) = _
  conv_lhs => rw [fields_split img i, ← length_take_fields fits i]
  exact drop_fields _ _ _ _

theorem overwrite_field {new : Image} {bytes : Bytes} (fits : img.Fits) (i : Fin 10)
    (others : new.fields = img.fields.set i bytes) (body : new.body = img.body)
    (same : bytes.length = (img.fields.get i).length) :
    overwrite (encode img) (position i) bytes = encode new := by
  change overwrite (img.fields.flatten ++ img.body) (position i) _ = new.fields.flatten ++ new.body
  conv_lhs => rw [fields_split img i, ← length_take_fields fits i]
  rw [overwrite_fields _ _ _ _ _ same, body, others, set_eq_take_append_cons_drop,
    if_pos (by exact i.isLt)]

theorem overwrite_blank (fits : img.Fits) :
    overwrite (encode img) (position 2) emptyBackup = encode img.blankBackup := by
  let backups (x : Image) : Bytes := (x.backup 0).backupLine ++ (x.backup 1).backupLine ++
    (x.backup 2).backupLine ++ (x.backup 3).backupLine ++ (x.limitsBackup.line ++ x.listBackup.line)
  have split (x : Image) : encode x = (x.fields.take 2 ++ backups x :: x.fields.drop 8).flatten ++
      x.body := by
    change x.fields.flatten ++ x.body = _
    simp [fields, backups]
  have same : (backups img.blankBackup).length = (backups img).length := by
    have blank := fits.blankBackup
    simp only [backups, length_append, FileIterator.length_backupLine (fits.backup _),
      FileIterator.length_backupLine (blank.backup _), Pointers.length_line fits.limitsBackup,
      Pointers.length_line blank.limitsBackup, Pointers.length_line fits.listBackup,
      Pointers.length_line blank.listBackup]
  have here : (img.fields.take 2).flatten.length = position 2 := length_take_fields fits 2
  rw [split img, split img.blankBackup, ← here]
  exact overwrite_fields _ _ _ _ _ same

/-! The stamp and the size share the first field. -/

def rest (img : Image) : Bytes := img.fields.tail.flatten ++ img.body

theorem encode_front (img : Image) : encode img = img.front ++ img.rest := by
  change img.front ++ img.fields.tail.flatten ++ img.body = _
  rw [rest, append_assoc]

theorem encode_clean (img : Image) (clean : img.scar = []) :
    encode img = img.stamp.line ++ (numberLine img.size ++ img.rest) := by
  rw [encode_front]
  simp [front, clean]

theorem stamp_at (clean : img.scar = []) : ∃ tail, (encode img).drop 0 = img.stamp.line ++ tail :=
  ⟨_, by rw [encode_clean img clean, drop_zero]⟩

theorem size_at (fits : img.Fits) (clean : img.scar = []) :
    ∃ tail, (encode img).drop stampSize = numberLine img.size ++ tail := by
  have stamp : img.stamp.line.length = stampSize := TimeStamp.length_line fits.epoch fits.counter
  exact ⟨img.rest, by rw [encode_clean img clean, ← stamp, drop_left]⟩

theorem overwrite_stamp {stamp : TimeStamp} (fits : img.Fits) (clean : img.scar = [])
    (epoch : stamp.epoch < offBound) (counter : stamp.counter < counterBound) :
    overwrite (encode img) 0 stamp.line = encode { img with stamp } := by
  have same : stamp.line.length = img.stamp.line.length := by
    rw [TimeStamp.length_line epoch counter, TimeStamp.length_line fits.epoch fits.counter]
  rw [encode_clean img clean, encode_clean { img with stamp } clean]
  exact overwrite_middle [] _ _ _ same

theorem overwrite_size {size : Nat} (fits : img.Fits) (clean : img.scar = []) (small : size < sizeBound) :
    overwrite (encode img) stampSize (numberLine size) = encode { img with size } := by
  have stamp : img.stamp.line.length = stampSize := TimeStamp.length_line fits.epoch fits.counter
  have same : (numberLine size).length = (numberLine img.size).length := by
    rw [length_numberLine small, length_numberLine fits.size]
  rw [encode_clean img clean, encode_clean { img with size } clean, ← stamp,
    ← append_assoc, overwrite_middle _ _ _ _ same, append_assoc]
  rfl

/-- A record that is written to offset 0 covers the stamp and a part of the size. -/
theorem overwrite_scar {p : Pointers} (fits : img.Fits) (small : p.Fits) :
    overwrite (encode img) 0 p.line = encode { img with scar := p.line } := by
  have width := Pointers.length_line small
  have scar := fits.scar
  have covered : img.front.drop 34 = (img.stamp.line ++ numberLine img.size).drop 34 := by
    rw [front, drop_append, drop_of_length_le scar, drop_drop, nil_append]
    congr 1
    omega
  have long : 34 ≤ img.front.length := by rw [length_front fits]; decide
  rw [encode_front, encode_front, overwrite, width, Nat.zero_add, drop_append_of_le_length long,
    covered]
  simp [Image.front, width, rest, fields, body]

/-! The records are read and written at their offsets. -/

theorem encode_split {a b : List Record} (shape : img.records = a ++ r :: b) :
    encode img = (img.fields.flatten ++ a.flatMap Record.bytes) ++ r.bytes ++
      (b.flatMap Record.bytes ++ img.tail) := by
  change img.fields.flatten ++ img.body = _
  simp [body, shape]

theorem length_before {a b : List Record} (fits : img.Fits) (shape : img.records = a ++ b) :
    (img.fields.flatten ++ a.flatMap Record.bytes).length = headerSize + total Record.size a := by
  rw [length_append, length_fields fits,
    length_records fun s member => fits.records s (shape ▸ mem_append_left b member)]

theorem record_at (fits : img.Fits) (found : img.at? offset = some r) :
    ∃ tail, (encode img).drop offset = r.bytes ++ tail := by
  obtain ⟨a, b, shape, here⟩ := locate_split found
  exact ⟨_, by rw [here, ← length_before fits shape, encode_split shape, append_assoc, drop_left]⟩

theorem mem_records (found : img.at? offset = some r) : r ∈ img.records := by
  obtain ⟨a, b, shape, -⟩ := locate_split found
  simp [shape]

theorem headerSize_le (found : img.at? offset = some r) : headerSize ≤ offset :=
  (locate_bound found).1

theorem record_end_le (found : img.at? offset = some r) : offset + r.size ≤ img.recordsEnd :=
  (locate_bound found).2

theorem lt_fileEnd (found : img.at? offset = some r) : offset < img.fileEnd := by
  have := record_end_le found
  have := r.size_pos
  simp only [fileEnd]
  omega

theorem overwrite_record {change : Record → Record} {old new : Bytes} (front back : Bytes)
    (fits : img.Fits) (found : img.at? offset = some r) (before : r.bytes = front ++ old ++ back)
    (after : (change r).bytes = front ++ new ++ back) (same : new.length = old.length) :
    overwrite (encode img) (offset + front.length) new = encode (img.modify offset change) := by
  obtain ⟨a, b, shape, here⟩ := locate_split found
  have changed : (img.modify offset change).records = a ++ change r :: b := by
    rw [modify, here]
    simp only [shape, modifyAt_middle Record.size_pos]
  rw [encode_split shape, encode_split changed, before, after, here, ← length_before fits shape,
    ← length_append]
  have spread (x y z w v : Bytes) : x ++ (y ++ z ++ w) ++ v = (x ++ y) ++ z ++ (w ++ v) := by simp
  rw [spread, spread, overwrite_middle _ _ _ _ same]
  rfl

theorem overwrite_list (fits : img.Fits) (found : img.at? offset = some r) (small : list.Fits) :
    overwrite (encode img) offset list.line = encode (img.setList offset list) := by
  have same : list.line.length = r.list.line.length := by
    rw [Pointers.length_line small, Pointers.length_line (fits.records r (mem_records found)).list]
  exact overwrite_record [] (r.sizeText ++ (r.data ++ '\n' :: r.file.line)) fits found
    (by simp [Record.bytes, Record.fields])
    (by simp [Record.bytes, Record.fields, Record.sizeText, Record.state]) same

theorem overwrite_erased (erased : Bool) (fits : img.Fits) (found : img.at? offset = some r) :
    overwrite (encode img) (offset + 34) (sizeLine r.data.length (if erased then 'i' else 'g')) =
      encode (img.setErased offset erased) := by
  have small := fits.records r (mem_records found)
  have same : (sizeLine r.data.length (if erased then 'i' else 'g')).length = r.sizeText.length := by
    rw [Record.sizeText, length_sizeLine _ small.data, length_sizeLine _ small.data]
  rw [← Pointers.length_line small.list]
  exact overwrite_record r.list.line (r.data ++ '\n' :: r.file.line) fits found
    (by simp [Record.bytes, Record.fields])
    (by simp [Record.bytes, Record.fields, Record.sizeText, Record.state]) same

/-! A record is appended piece by piece, and the file is cut between records. -/

theorem overwrite_tail (bytes : Bytes) (fits : img.Fits) :
    overwrite (encode img) img.fileEnd bytes = encode { img with tail := img.tail ++ bytes } := by
  rw [← length_encode fits, overwrite_end]
  change img.fields.flatten ++ img.body ++ bytes = img.fields.flatten ++ _
  simp [body]

theorem overwrite_seal {bytes : Bytes} (fits : img.Fits) (whole : img.tail ++ bytes = r.bytes) :
    overwrite (encode img) img.fileEnd bytes = encode
      { img with records := img.records ++ [r], tail := [] } := by
  rw [← length_encode fits, overwrite_end]
  change img.fields.flatten ++ img.body ++ bytes = img.fields.flatten ++ _
  simp [body, whole]

theorem cut_records {a b : List Record} (fits : img.Fits) (shape : img.records = a ++ b) :
    (encode img).takeD (headerSize + total Record.size a) nul = encode
      { img with records := a, tail := [] } := by
  have split : encode img = (img.fields.flatten ++ a.flatMap Record.bytes) ++
      (b.flatMap Record.bytes ++ img.tail) := by
    change img.fields.flatten ++ img.body = _
    simp [body, shape]
  rw [← length_before fits shape, split, takeD_left]
  change _ = img.fields.flatten ++ (a.flatMap Record.bytes ++ [])
  simp

/-! The changes move no record. -/

theorem at?_setList {other : Nat} :
    (img.setList offset list).at? other =
      if other = offset then (img.at? offset).map fun r => { r with list } else img.at? other :=
  locate_modifyAt fun _ => rfl

theorem at?_setErased {other : Nat} :
    (img.setErased offset erased).at? other =
      if other = offset then (img.at? offset).map fun r => { r with erased } else img.at? other :=
  locate_modifyAt fun _ => rfl

theorem recordsEnd_eq (finished : img.tail = []) : img.recordsEnd = img.fileEnd := by
  simp [fileEnd, finished]

@[simp] theorem recordsEnd_setList : (img.setList offset list).recordsEnd = img.recordsEnd :=
  congrArg (headerSize + ·) (total_modifyAt fun _ => rfl)

@[simp] theorem bodies_setList : (img.setList offset list).bodies = img.bodies :=
  map_modifyAt fun _ => rfl

@[simp] theorem bodies_setErased : (img.setErased offset erased).bodies = img.bodies :=
  map_modifyAt fun _ => rfl

theorem bodies_addRecord : (img.addRecord r).bodies = img.bodies ++ [(r.data, r.file)] := map_append

@[simp] theorem recordsEnd_setErased : (img.setErased offset erased).recordsEnd = img.recordsEnd :=
  congrArg (headerSize + ·) (total_modifyAt fun _ => rfl)

@[simp] theorem fileEnd_setList : (img.setList offset list).fileEnd = img.fileEnd :=
  congrArg (· + img.tail.length) recordsEnd_setList

@[simp] theorem fileEnd_setErased : (img.setErased offset erased).fileEnd = img.fileEnd :=
  congrArg (· + img.tail.length) recordsEnd_setErased

theorem at?_addRecord {other : Nat} :
    (img.addRecord r).at? other = if other = img.recordsEnd then some r else img.at? other :=
  locate_append_one Record.size_pos

theorem fileEnd_addRecord : (img.addRecord r).fileEnd = img.fileEnd + r.size := by
  simp only [fileEnd, recordsEnd, addRecord, total_append, total_cons, total_nil]
  omega

end Image

end Wms.FileContainer
