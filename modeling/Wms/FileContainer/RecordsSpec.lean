import Wms.FileContainer.Image

/-! What the methods on the header do to an image. -/

set_option autoImplicit false

namespace Wms.FileContainer

open Lib Lib.FileProg Image FileStream Pointers List

variable {crash : Bytes → Prop} {e : Env} {k : Cache} {img : Image} {pos : Nat} {tail : Bytes}

theorem time_ends : Ends crash time e ⟨k, img⟩ pos (.ok (e.clock k.ticks).val)
    ⟨{ k with ticks := k.ticks + 1 }, img⟩ pos :=
  .bind .ask (.bind .cache (.bind (.update _) (.pure _)))

/-! Numbers. -/

theorem decimal_ends {bound n : Nat} (width : Nat) (space : Bytes) {stopChar : Char} (small : n < bound)
    (fits : n < 10 ^ width) (positive : 0 < width)
    (blank : ∀ c ∈ space, isSpace c = true) (ends : isDigitOf 10 stopChar = false)
    (rest : (encode img).drop pos = space ++ (numeral 10 width n ++ stopChar :: tail)) :
    Ends crash (extract 10 bound : Method _) e ⟨k, img⟩ pos (.ok (some n)) ⟨k, img⟩
      (pos + space.length + width) := by
  refine (Ends.extract (by decide) (by decide) small blank ends rest).at_stop ?_
  rw [length_numeral (by decide) positive fits, Nat.add_assoc]

theorem hex_ends {n : Nat} {space : Bytes} {stopChar : Char} (small : n < offBound)
    (blank : ∀ c ∈ space, isSpace c = true) (ends : isDigitOf 16 stopChar = false)
    (rest : (encode img).drop pos = space ++ (hex n ++ stopChar :: tail)) :
    Ends crash (extract 16 offBound : Method _) e ⟨k, img⟩ pos (.ok (some n)) ⟨k, img⟩
      (pos + space.length + 16) := by
  refine (Ends.extract (by decide) (by decide) small blank ends rest).at_stop ?_
  have width : (numeral 16 iteratorWidth n).length = 16 := length_hex small
  rw [width, Nat.add_assoc]

/-! The stamp. -/

theorem numerals_ne_newline {base : Nat} (large : 2 ≤ base) (small : base ≤ 16)
    (width first width' second : Nat) :
    ∀ c ∈ numeral base width first ++ ' ' :: numeral base width' second, (c != '\n') = true := by
  intro c member
  have digit (width n : Nat) (inside : c ∈ numeral base width n) : (c != '\n') = true :=
    ne_newline_of_isDigitOf (isDigitOf_numeral large small width n c inside)
  rw [mem_append, mem_cons] at member
  rcases member with first | rfl | second
  · exact digit _ _ first
  · decide
  · exact digit _ _ second

theorem TimeStamp.text_ne_newline (stamp : TimeStamp) : ∀ c ∈ stamp.text, (c != '\n') = true :=
  numerals_ne_newline (by decide) (by decide) _ _ _ _

theorem FileIterator.text_ne_newline (it : FileIterator) : ∀ c ∈ it.text, (c != '\n') = true :=
  numerals_ne_newline (by decide) (by decide) _ _ _ _

theorem extractStamp_ends (clean : img.scar = []) (old : TimeStamp) :
    Ends crash (extractStamp old) e ⟨k, img⟩ 0 (.ok (some img.stamp)) ⟨k, img⟩ 26 := by
  refine .of_fits fun fits => ?_
  obtain ⟨tail, text⟩ := stamp_at clean
  have line : (encode img).drop 0 = img.stamp.text ++ '\n' :: tail := by
    rw [text]
    simp [TimeStamp.line]
  have epoch : (encode img).drop 0 = numeral 10 epochWidth img.stamp.epoch ++
      ' ' :: (numeral 10 counterWidth img.stamp.counter ++ '\n' :: tail) := by
    rw [line]
    simp [TimeStamp.text]
  have small : img.stamp.epoch < 10 ^ epochWidth := Nat.lt_trans fits.epoch (by decide)
  have counter : (encode img).drop 20 = _ := drop_next _ epoch
    (by rw [length_numeral (by decide) (by decide) small]; rfl)
  unfold extractStamp
  refine .bind .tell (.bind (.getline img.stamp.text_ne_newline line) ?_)
  rw [if_pos (matchRuns_stamp _)]
  refine .bind (.seek 0) ?_
  refine .bind (decimal_ends _ [] fits.epoch small (by decide) (by simp) (by decide) epoch) ?_
  refine .bind (decimal_ends counterWidth [' '] fits.counter
    (Nat.lt_trans fits.counter (by decide)) (by decide)
    isSpace_blank (by decide) counter) ?_
  exact .pure _

theorem readStamp_ends (clean : img.scar = []) : Ends crash readStamp e ⟨k, img⟩ pos (.ok ())
    ⟨{ k with stamp := img.stamp }, img⟩ 26 := by
  refine .bind .cache (.bind (.seek 0) ?_)
  refine .bind (extractStamp_ends clean _) ?_
  exact .update _

theorem checkStamp_ends (clean : img.scar = []) : Ends crash checkStamp e ⟨k, img⟩ pos
    (.ok (img.stamp.gt k.stamp))
      ⟨{ k with ticks := k.ticks + 1 }, img⟩ 26 := by
  refine .bind time_ends (.bind (.seek 0) ?_)
  refine .bind (extractStamp_ends clean _) ?_
  refine .bind .isGood ?_
  exact .bind .cache (.pure _)

theorem TimeStamp.updateStamp_fits {self ts : TimeStamp} {now : Nat} (clock : now < offBound)
    (epoch : ts.epoch < offBound) : (self.updateStamp now ts).epoch < offBound ∧
      (self.updateStamp now ts).counter < counterBound := by
  have wraps (n : Nat) : n % 2 ^ 16 < counterBound := Nat.mod_lt _ (by decide)
  have positive : 0 < counterBound := by decide
  by_cases same : self.epoch = now
  · simp only [updateStamp, if_pos same]
    subst same
    split
    · exact ⟨epoch, wraps _⟩
    · split
      · exact ⟨clock, wraps _⟩
      · exact ⟨clock, wraps _⟩
  · simp only [updateStamp, if_neg same]
    split
    · exact ⟨epoch, wraps _⟩
    · split
      · exact ⟨clock, wraps _⟩
      · exact ⟨clock, positive⟩

def nextStamp (e : Env) (k : Cache) (img : Image) : TimeStamp :=
  k.stamp.updateStamp (e.clock (k.ticks + 1)) img.stamp

theorem updateTimeStamp_ends (clean : img.scar = [])
    (meets : Leaves crash { img with stamp := nextStamp e k img }) :
    Ends crash updateTimeStamp e ⟨k, img⟩ pos (.ok ())
      ⟨{ k with stamp := nextStamp e k img, ticks := k.ticks + 2 },
        { img with stamp := nextStamp e k img }⟩ 27 := by
  refine .of_fits fun fits => ?_
  obtain ⟨epoch, counter⟩ : (nextStamp e k img).epoch < offBound ∧
    (nextStamp e k img).counter < counterBound :=
    TimeStamp.updateStamp_fits (Fin.isLt _) fits.epoch
  have fitsNew : Image.Fits { img with stamp := nextStamp e k img } := { fits with epoch, counter }
  refine .bind time_ends (.bind (.seek 0) ?_)
  refine .bind (extractStamp_ends clean _) ?_
  refine .bind time_ends (.bind (.update _) (.bind (.seek 0) ?_))
  refine .bind .cache ?_
  refine (Ends.put fitsNew (overwrite_stamp fits clean epoch counter) meets).at_stop ?_
  rw [TimeStamp.length_line epoch counter]

/-! The status and the number of elements. -/

variable {status : FileStatus}

theorem writeFileStatus_ends (meets : Leaves crash { img with status }) :
    Ends crash (writeFileStatus status) e ⟨k, img⟩ pos (.ok ()) ⟨k, { img with status }⟩ pos := by
  refine .of_fits fun fits => ?_
  have fitsNew : Image.Fits { img with status } := { fits with }
  refine .bind .tell (.bind (.seek _) ?_)
  exact .bind (.put fitsNew (Image.overwrite_field fits 1 rfl rfl rfl) meets) (.seek pos)

theorem readFileStatus_ends : Ends crash readFileStatus e ⟨k, img⟩ pos (.ok img.status) ⟨k, img⟩ pos := by
  refine .of_fits fun fits => ?_
  obtain ⟨tail, text⟩ := field_at fits 1
  refine .bind .tell (.bind (.seek _) ?_)
  have two : (encode img).drop _ = [img.status.char, '\n'] ++ tail := text
  refine .bind (.readChars two) (.bind (.seek pos) ?_)
  rw [FileStatus.ofBytes_char]
  exact .pure _

theorem readSize_ends (clean : img.scar = []) :
    Ends crash readSize e ⟨k, img⟩ pos (.ok ()) ⟨{ k with size := img.size }, img⟩ pos := by
  refine .of_fits fun fits => ?_
  obtain ⟨tail, text⟩ := size_at fits clean
  have digits : (encode img).drop stampSize = [] ++ (numeral 10 numberSize img.size ++ '\n' :: tail) := by
    rw [text]
    simp [numberLine]
  refine .bind .tell (.bind (.update _) (.bind (.seek _) ?_))
  refine .bind (decimal_ends _ _ fits.size (Nat.lt_trans fits.size (by decide)) (by decide) (by simp)
    (by decide) digits) ?_
  exact .bind (.update _) (.seek pos)

theorem writeAndSetSize_ends {size : Nat} (clean : img.scar = []) (small : size < sizeBound)
    (meets : Leaves crash { img with size }) : Ends crash (writeAndSetSize size) e ⟨k, img⟩ pos (.ok ())
      ⟨{ k with size }, { img with size }⟩ pos := by
  refine .of_fits fun fits => ?_
  have fitsNew : Image.Fits { img with size } := { fits with size := small }
  refine .bind .tell (.bind (.seek _) ?_)
  refine .bind (.put fitsNew (overwrite_size fits clean small) meets) ?_
  exact .bind (.seek pos) (.update _)

/-! The backups and the limits. -/

theorem extractIterator_ends {p : Pointers} (space : Bytes) (old : FileIterator) (small : p.Fits)
    (blank : space = [] ∨ space = [' ']) (text : (encode img).drop pos = space ++ (p.line ++ tail)) :
    Ends crash (extractIterator old) e ⟨k, img⟩ pos (.ok (p.at old.current)) ⟨k, img⟩
      (pos + space.length + 33) := by
  have white : ∀ c ∈ space, isSpace c = true := by
    rcases blank with rfl | rfl
    · exact nofun
    · exact isSpace_blank
  have inside : ∀ c ∈ space ++ (p.at 0).text, (c != '\n') = true := by
    intro c member
    rcases mem_append.mp member with first | second
    · rcases blank with rfl | rfl
      · cases first
      · rw [mem_singleton.mp first]
        decide
    · exact (p.at 0).text_ne_newline c second
  have line : (encode img).drop pos = (space ++ (p.at 0).text) ++ '\n' :: tail := by
    rw [text]
    simp [Pointers.line, FileIterator.line, Pointers.at, FileIterator.text]
  have first : (encode img).drop pos = space ++ (hex p.prev ++ ' ' :: (hex p.next ++ '\n' :: tail)) := by
    rw [line]
    simp [Pointers.at, FileIterator.text]
  have second : (encode img).drop (pos + space.length + 16) = [' '] ++ (hex p.next ++ '\n' :: tail) := by
    refine drop_next (space ++ hex p.prev) (by rw [first, append_assoc]; rfl) ?_
    rw [length_append, length_hex small.1, Nat.add_assoc]
  refine .bind .tell (.bind (.getline inside line) ?_)
  rw [if_pos (matchRuns_iterator white _)]
  refine .bind (.seek pos) ?_
  refine .bind (hex_ends small.1 white (by decide) first) ?_
  refine .bind (hex_ends small.2 isSpace_blank (by decide) second) ?_
  exact .pure _

theorem createEmptyBackup_ends (blank : Leaves crash img.blankBackup)
    (meets : Leaves crash { img.blankBackup with status }) :
    Ends crash (createEmptyBackup status) e ⟨k, img⟩ pos
      (.ok ()) ⟨k, { img.blankBackup with status }⟩ pos := by
  refine .of_fits fun fits => ?_
  refine .bind .tell (.bind (.seek _) ?_)
  refine .bind (.put (Fits.blankBackup fits) (overwrite_blank fits) blank) ?_
  exact .bind (.seek pos) (writeFileStatus_ends meets)

theorem overwrite_backup {what : Fin 4} {it : FileIterator} (fits : img.Fits) (small : it.Fits) :
    overwrite (encode img) (iteratorBackupPosition what) it.backupLine = encode
      (img.setBackup what it) := by
  have same : it.backupLine.length = (img.backup what).backupLine.length := by
    rw [FileIterator.length_backupLine small, FileIterator.length_backupLine (fits.backup what)]
  match what with
  | 0 => exact overwrite_field fits 2 (by simp [fields, setBackup]; rfl) rfl same
  | 1 => exact overwrite_field fits 3 (by simp [fields, setBackup]; rfl) rfl same
  | 2 => exact overwrite_field fits 4 (by simp [fields, setBackup]; rfl) rfl same
  | 3 => exact overwrite_field fits 5 (by simp [fields, setBackup]; rfl) rfl same

theorem backup_at (fits : img.Fits) (what : Fin 4) :
    ∃ tail, (encode img).drop (iteratorBackupPosition what) = (img.backup what).backupLine ++ tail := by
  match what with
  | 0 => exact field_at fits 2
  | 1 => exact field_at fits 3
  | 2 => exact field_at fits 4
  | 3 => exact field_at fits 5

theorem writeIteratorBackup_ends (what : Fin 4) {it : FileIterator} (small : it.Fits)
    (backed : Leaves crash (img.setBackup what it))
      (meets : Leaves crash { img.setBackup what it with status }) :
    Ends crash (writeIteratorBackup what it status) e ⟨k, img⟩ pos (.ok ())
      ⟨k, { img.setBackup what it with status }⟩ pos := by
  refine .of_fits fun fits => ?_
  refine .bind .tell (.bind (.seek _) ?_)
  refine .bind (.put (Fits.setBackup fits small) (overwrite_backup fits small) backed) ?_
  exact .bind (.seek pos) (writeFileStatus_ends meets)

theorem readIteratorBackup_ends (what : Fin 4) :
    Ends crash (readIteratorBackup what) e ⟨k, img⟩ pos (.ok (img.backup what)) ⟨k, img⟩ pos := by
  refine .of_fits fun fits => ?_
  obtain ⟨current, next, prev⟩ := fits.backup what
  obtain ⟨tail, text⟩ := backup_at fits what
  have first : (encode img).drop (iteratorBackupPosition what) =
      [] ++ (hex (img.backup what).current ++ ' ' :: ((img.backup what).pointers.line ++ tail)) := by
    rw [text]
    simp [FileIterator.backupLine, line, FileIterator.line, FileIterator.text, FileIterator.pointers]
  have line : (encode img).drop (iteratorBackupPosition what) =
      (hex (img.backup what).current ++ ' ' :: (img.backup what).text) ++ '\n' :: tail := by
    rw [text]
    simp [FileIterator.backupLine, FileIterator.line]
  have inside : ∀ c ∈ hex (img.backup what).current ++ ' ' :: (img.backup what).text,
      (c != '\n') = true := by
    have whole := FileIterator.text_ne_newline ⟨(img.backup what).current, 0, 0⟩
    intro c member
    simp only [mem_append, mem_cons] at member
    rcases member with first | rfl | second
    · exact whole c (by simp [FileIterator.text, first])
    · decide
    · exact FileIterator.text_ne_newline _ c second
  have second := drop_next (hex (img.backup what).current) first rfl
  rw [length_hex prev] at second
  refine .bind .tell (.bind (.seek _) (.bind (.getline inside line) (.bind (.seek _) (.bind .isGood ?_))))
  rw [if_pos rfl, if_pos (matchRuns_backup _)]
  refine .bind (hex_ends prev (by simp) (by decide) first) ?_
  refine .bind (extractIterator_ends [' '] _ ⟨current, next⟩ (.inr rfl) second) ?_
  refine .bind (.seek pos) (.bind .isGood ?_)
  exact .pure _

theorem writeLimitsBackup_ends {limits : FileIterator} (small : limits.pointers.Fits)
    (backed : Leaves crash { img with limitsBackup := limits.pointers })
    (meets : Leaves crash { img with limitsBackup := limits.pointers, status }) :
    Ends crash (writeLimitsBackup status limits) e ⟨k, img⟩ pos (.ok ())
      ⟨k, { img with limitsBackup := limits.pointers, status }⟩ pos := by
  refine .of_fits fun fits => ?_
  have fitsNew : Image.Fits { img with limitsBackup := limits.pointers } :=
    { fits with limitsBackup := small }
  have same : limits.line.length = img.limitsBackup.line.length :=
    (FileIterator.length_line small).trans (length_line fits.limitsBackup).symm
  refine .bind .tell (.bind (.seek _) ?_)
  refine .bind (.put fitsNew (Image.overwrite_field fits 6 rfl rfl same) backed) ?_
  exact .bind (.seek pos) (writeFileStatus_ends meets)

theorem readLimitsBackup_ends : Ends crash readLimitsBackup e ⟨k, img⟩ pos (.ok ())
      ⟨{ k with limits := img.limitsBackup.at k.limits.current }, img⟩ pos := by
  refine .of_fits fun fits => ?_
  obtain ⟨tail, text⟩ := field_at fits 6
  refine .bind .cache (.bind .tell (.bind (.seek _) ?_))
  refine .bind (extractIterator_ends [] _ fits.limitsBackup (.inl rfl) text) ?_
  exact .bind (.update _) (.seek pos)

theorem writeInitialPosition_ends {it : FileIterator} {new : Image} {removed : Bool}
    (small : it.pointers.Fits) (fits : img.Fits → new.Fits)
    (text : img.Fits → overwrite (encode img) (initialPosition removed) it.line = encode new)
      (meets : Leaves crash new) :
    Ends crash (writeInitialPosition it removed) e ⟨k, img⟩ pos (.ok ()) ⟨k, new⟩
      (initialPosition removed + 34) := by
  refine .of_fits fun old => .bind (.seek _) ?_
  refine (Ends.put (fits old) (text old) meets).at_stop ?_
  rw [FileIterator.length_line small]

theorem writeLimits_ends (limits : FileIterator) (small : limits.pointers.Fits)
    (meets : Leaves crash { img with limits := limits.pointers }) :
    Ends crash (writeInitialPosition limits false) e ⟨k, img⟩ pos (.ok ())
      ⟨k, { img with limits := limits.pointers }⟩ 357 := by
  refine writeInitialPosition_ends small (fun fits => { fits with limits := small }) (fun fits => ?_) meets
  exact overwrite_field fits 8 rfl rfl
    ((FileIterator.length_line small).trans (length_line fits.limits).symm)

theorem writeRemoved_ends {removed : FileIterator} (small : removed.pointers.Fits)
    (meets : Leaves crash { img with removed := removed.pointers }) :
    Ends crash (writeInitialPosition removed true) e ⟨k, img⟩ pos (.ok ())
      ⟨k, { img with removed := removed.pointers }⟩ 391 := by
  refine writeInitialPosition_ends small (fun fits => { fits with removed := small })
    (fun fits => ?_) meets
  exact overwrite_field fits 9 rfl rfl
    ((FileIterator.length_line small).trans (length_line fits.removed).symm)

theorem readInitialPosition_ends (old : FileIterator) :
    Ends crash (readInitialPosition old false) e ⟨k, img⟩ pos
      (.ok (img.limits.at old.current)) ⟨k, img⟩ 356 := by
  refine .of_fits fun fits => ?_
  obtain ⟨tail, text⟩ := field_at fits 8
  exact .bind (.seek _) (extractIterator_ends [] _ fits.limits (.inl rfl) text)

theorem readLimits_ends : Ends crash readLimits e ⟨k, img⟩ pos (.ok ())
    ⟨{ k with limits := img.limits.at k.limits.current }, img⟩ 356 :=
  .bind .cache (.bind (readInitialPosition_ends _) (.update _))

theorem readRemoved_ends : Ends crash readRemoved e ⟨k, img⟩ pos (.ok ())
    ⟨{ k with removed := img.removed.at k.removed.current }, img⟩ 390 := by
  refine .of_fits fun fits => ?_
  obtain ⟨tail, text⟩ := field_at fits 9
  refine .bind .cache (.bind (.bind (.seek _) ?_) (.update _))
  exact extractIterator_ends [] _ fits.removed (.inl rfl) text

def Cache.readFrom (k : Cache) (img : Image) : Cache :=
  { k with
    limits := img.limits.at k.limits.current
    removed := img.removed.at k.removed.current
    size := img.size }

theorem syncData_ends (clean : img.scar = []) (stamp : Bool) :
    Ends crash (syncData stamp) e ⟨k, img⟩ pos (.ok ())
      ⟨if stamp then { k.readFrom img with stamp := img.stamp } else k.readFrom img, img⟩
      (if stamp then 26 else 390) := by
  refine .bind readLimits_ends (.bind readRemoved_ends (.bind (readSize_ends clean) ?_))
  cases stamp with
  | false => exact .pure _
  | true => exact readStamp_ends clean

/-! Truncation. -/

theorem truncateFile_ends {a b : List Record} (shape : img.records = a ++ b)
    (short : Leaves crash { img with records := a, tail := [] })
    (meets : Leaves crash { img with records := a, tail := [], status := .ftEnd }) :
    Ends crash (truncateFile (headerSize + Layout.total Record.size a)) e ⟨k, img⟩ pos (.ok ())
      ⟨k, { img with records := a, tail := [], status := .ftEnd }⟩ 0 := by
  refine .of_fits fun fits => ?_
  have fitsNew : Image.Fits { img with records := a, tail := [] } :=
    { fits with records := fun r member => fits.records r (shape ▸ mem_append_left b member) }
  have positive : ¬ headerSize + Layout.total Record.size a = 0 := by
    rw [headerSize_eq]
    omega
  refine .bind (.seek 0) (.bind .isGood ?_)
  rw [if_pos rfl]
  refine .bind (.cut fitsNew (cut_records fits shape) short) ?_
  rw [if_neg positive]
  exact writeFileStatus_ends meets

def Image.empty (stamp : TimeStamp) (status : FileStatus) : Image where
  scar := []
  stamp := stamp
  size := 0
  status := status
  backup := fun _ => ⟨0, 0, 0⟩
  limitsBackup := ⟨0, 0⟩
  listBackup := ⟨0, 0⟩
  limits := ⟨headerSize, headerSize⟩
  removed := ⟨unDead, unBeef⟩
  records := []
  tail := []

def Cache.emptied (k : Cache) (stamp : TimeStamp) : Cache :=
  { k with
    stamp, size := 0, limits := ⟨headerSize, headerSize, 0⟩, removed := ⟨unDead, unBeef, 0⟩
    ticks := k.ticks + 1 }

theorem Image.fits_empty {stamp : TimeStamp} (status : FileStatus) (epoch : stamp.epoch < offBound)
    (counter : stamp.counter < counterBound) : (empty stamp status).Fits where
  scar := Nat.zero_le _
  epoch := epoch
  counter := counter
  size := (by decide : 0 < sizeBound)
  backup := fun _ => ⟨offBound_pos, offBound_pos, offBound_pos⟩
  limitsBackup := ⟨offBound_pos, offBound_pos⟩
  listBackup := ⟨offBound_pos, offBound_pos⟩
  limits := (by decide : headerSize < offBound ∧ headerSize < offBound)
  removed := (by decide : unDead < offBound ∧ unBeef < offBound)
  records := nofun

theorem length_emptyBackup : emptyBackup.length = 272 := by
  have blank : (⟨0, 0, 0⟩ : FileIterator).backupLine.length = 51 :=
    FileIterator.length_backupLine ⟨offBound_pos, offBound_pos, offBound_pos⟩
  have line : (⟨0, 0, 0⟩ : FileIterator).line.length = 34 :=
    FileIterator.length_line ⟨offBound_pos, offBound_pos⟩
  simp only [emptyBackup, length_append, blank, line]

theorem put_text {text bytes : Bytes} (new : Bytes) (here : text.length = pos)
    (same : text ++ bytes = new) :
    Ends Unchecked (put bytes : Method Unit) e (⟨k, text⟩ : Snapshot Cache Bytes) pos (.ok ()) ⟨k, new⟩
      (pos + bytes.length) := by
  refine .put trivial ?_ .unchecked
  change overwrite text pos bytes = new
  rw [← here, overwrite_end, same]

def emptyText (line : Bytes) (status : FileStatus) (rest : Bytes) : Bytes :=
  (line ++ numberLine 0) ++ [status.char, '\n'] ++ rest

theorem encode_empty (stamp : TimeStamp) (status : FileStatus) : encode (empty stamp status) =
    emptyText stamp.line status
      (emptyBackup ++ FileIterator.line ⟨headerSize, headerSize, 0⟩ ++
        FileIterator.line ⟨unDead, unBeef, 0⟩) := by
  change (empty stamp status).fields.flatten ++ [] = _
  simp [fields, front, empty, emptyText, emptyBackup, line]

theorem length_emptyText {line rest : Bytes} (width : line.length = 27) :
    (emptyText line status rest).length = 51 + rest.length := by
  have size : (numberLine 0).length = 22 := length_numberLine (by decide)
  simp only [emptyText, length_append, width, size, length_cons, length_nil]

theorem emptyText_append (line : Bytes) (status : FileStatus) (rest more : Bytes) :
    emptyText line status rest ++ more = emptyText line status (rest ++ more) :=
  append_assoc _ _ _

theorem writeFileStatus_text {line rest : Bytes} {old : FileStatus} (width : line.length = 27) :
    Ends Unchecked (writeFileStatus status) e (⟨k, emptyText line old rest⟩ : Snapshot Cache Bytes) pos
      (.ok ()) ⟨k, emptyText line status rest⟩ pos := by
  refine .bind .tell (.bind (.seek statusPosition) (.bind (.put trivial ?_ .unchecked) (.seek _)))
  have front : (line ++ numberLine 0).length = statusPosition := by
    rw [length_append, width, length_numberLine (by decide), statusPosition_eq]
  rw [← front]
  exact overwrite_middle (line ++ numberLine 0) [old.char, '\n'] rest [status.char, '\n'] rfl

theorem createEmptyFile_text : Ends Unchecked createEmptyFile e
    (⟨k, []⟩ : Snapshot Cache Bytes) pos (.ok ())
      ⟨k.emptied ⟨e.clock k.ticks, 0⟩, encode (empty ⟨e.clock k.ticks, 0⟩ .closed)⟩ 391 := by
  have width : (⟨(e.clock k.ticks).val, 0⟩ : TimeStamp).line.length = 27 :=
    TimeStamp.length_line (Fin.isLt _) (by exact Nat.zero_lt_succ _)
  have limits : (FileIterator.line ⟨headerSize, headerSize, 0⟩).length = 34 :=
    FileIterator.length_line ⟨by decide, by decide⟩
  have removed : (FileIterator.line ⟨unDead, unBeef, 0⟩).length = 34 :=
    FileIterator.length_line ⟨by decide, by decide⟩
  rw [encode_empty]
  generalize same : (⟨(e.clock k.ticks).val, 0⟩ : TimeStamp) = stamp at *
  have front : (stamp.line ++ numberLine 0).length = 49 := by
    rw [length_append, width, length_numberLine (by decide)]
  refine .bind (.bind .ask (.bind .cache (.bind (.update _) (.pure _)))) (.bind (.update _) ?_)
  rw [same]
  refine .bind (.bind .cache (.bind (.seek 0) (put_text stamp.line rfl rfl))) ?_
  refine .bind (.bind .tell (.bind (.seek stampSize) (.bind (put_text _ width rfl)
    (.bind (.seek _) (.update _))))) ?_
  refine .bind (.bind .tell (.bind (.seek statusPosition) (.bind
    (put_text (emptyText stamp.line .opened []) front (append_nil _).symm) (.seek _))))
      (.bind (.update _) ?_)
  refine .bind (.bind .tell (.bind (.seek (statusPosition + 2)) (.bind
    (put_text (emptyText stamp.line .opened emptyBackup) (length_emptyText width)
      (by rw [emptyText_append, nil_append]))
    (.bind (.seek _) (writeFileStatus_text width))))) ?_
  refine .bind (.bind (.seek _) (put_text (emptyText stamp.line .empty _)
    ((length_emptyText width).trans (by rw [length_emptyBackup]; rfl)) (emptyText_append _ _ _ _))) ?_
  refine .bind (.bind (.seek _) (put_text _ ((length_emptyText width).trans ?_)
    (emptyText_append _ _ _ _))) ?_
  · rw [length_append, length_emptyBackup, limits]
    rfl
  · refine (writeFileStatus_text width).at_stop ?_
    rw [removed]
    rfl

theorem truncateFile_zero_text (text : Bytes) :
    Ends Unchecked (truncateFile 0) e (⟨k, text⟩ : Snapshot Cache Bytes) pos (.ok ())
      ⟨k.emptied ⟨e.clock k.ticks, 0⟩, encode (empty ⟨e.clock k.ticks, 0⟩ .ftEnd)⟩ 391 := by
  refine .bind (.seek 0) (.bind .isGood ?_)
  rw [if_pos rfl]
  refine .bind (.cut (show Fits ([] : Bytes) from trivial) rfl .unchecked) ?_
  rw [if_pos rfl]
  refine .bind createEmptyFile_text ?_
  rw [encode_empty, encode_empty]
  exact writeFileStatus_text (TimeStamp.length_line (Fin.isLt _) (by exact Nat.zero_lt_succ _))

theorem truncateFile_zero_ends : Ends Unchecked (truncateFile 0) e ⟨k, img⟩ pos (.ok ())
    ⟨k.emptied ⟨e.clock k.ticks, 0⟩, empty ⟨e.clock k.ticks, 0⟩ .ftEnd⟩ 391 :=
  .of_text (fits_empty _ (Fin.isLt _) (by exact Nat.zero_lt_succ _)) (truncateFile_zero_text _)

/-! The stamp of a file grows unless the clock stands still for a whole turn of the counter. -/

theorem TimeStamp.updateStamp_gt_iff {ts : TimeStamp} (self : TimeStamp) (now : Nat)
    (counter : ts.counter < counterBound) :
    (self.updateStamp now ts).gt ts = true ↔ ts.epoch < now ∨ ts.counter + 1 < counterBound := by
  have bound : counterBound = 2 ^ 16 := rfl
  -- whichever way the object makes its new stamp, the epoch is that of the clock
  have of_fresh (fresh : TimeStamp) (epoch : fresh.epoch = now) (small : fresh.counter < counterBound) :
      (if fresh.epoch < ts.epoch then (⟨ts.epoch, (ts.counter + 1) % 2 ^ 16⟩ : TimeStamp)
        else if fresh.epoch = ts.epoch ∧ fresh.counter ≤ ts.counter then
          ⟨fresh.epoch, (ts.counter + 1) % 2 ^ 16⟩
        else fresh).gt ts = true ↔ ts.epoch < now ∨ ts.counter + 1 < counterBound := by
    have meaning (a : TimeStamp) : a.gt ts = true ↔
        a.epoch > ts.epoch ∨ (a.epoch = ts.epoch ∧ a.counter > ts.counter) := by simp [gt]
    split
    · rw [meaning]
      simp only [gt_iff_lt, Nat.lt_irrefl, false_or, true_and]
      omega
    · split
      · rw [meaning]
        simp only
        omega
      · rw [meaning]
        omega
  refine of_fresh _ ?_ ?_
  · split
    · assumption
    · rfl
  · split
    · exact Nat.mod_lt _ (by decide)
    · exact Nat.zero_lt_succ _

/-- Each call leaves a stamp above the one it finds in the file iff the clock is beyond that stamp
or its counter does not wrap. -/
theorem updateTimeStamp_advances_iff (e : Env) (k : Cache) (pos : Nat) (writes : List Write)
    (fits : img.Fits)
    (clean : img.scar = []) : ∃ stamp k' stop made, updateTimeStamp e (Snapshot.at ⟨k, img⟩ pos writes) =
        .ok () (Snapshot.at ⟨k', { img with stamp }⟩ stop made) ∧
      (stamp.gt img.stamp = true ↔ img.stamp.epoch < e.clock (k.ticks + 1) ∨
        img.stamp.counter + 1 < counterBound) := by
  have ends : Ends Unchecked updateTimeStamp e ⟨k, img⟩ pos _ _ _ := updateTimeStamp_ends clean .unchecked
  obtain ⟨made, run, -⟩ := (ends fits).2 writes
  exact ⟨nextStamp e k img, _, _, _, run, TimeStamp.updateStamp_gt_iff k.stamp _ fits.counter⟩

/-- An object that has not seen the clock move updates an empty container. -/
theorem updateTimeStamp_advances_iff_empty : (empty ⟨0, 0⟩ .closed).Fits ∧
    ∃ stamp k' stop made, updateTimeStamp ⟨fun _ => ⟨0, offBound_pos⟩, 0⟩
        (Snapshot.at ⟨⟨true, 0, ⟨0, 0⟩, ⟨0, 0, 0⟩, ⟨0, 0, 0⟩, 0⟩, empty ⟨0, 0⟩ .closed⟩ 0 []) =
      .ok () (Snapshot.at ⟨k', { empty ⟨0, 0⟩ .closed with stamp }⟩ stop made) ∧
        stamp.gt ⟨0, 0⟩ = true := by
  have fits : (empty ⟨0, 0⟩ .closed).Fits := fits_empty _ offBound_pos (by decide)
  obtain ⟨stamp, k', stop, made, run, advances⟩ :=
    updateTimeStamp_advances_iff ⟨fun _ => ⟨0, offBound_pos⟩, 0⟩ _ 0 [] fits rfl
  exact ⟨fits, stamp, k', stop, made, run, advances.mpr (.inr (by decide))⟩

/-- The counter of the file is at its largest value and the clock is not beyond its second. -/
theorem updateTimeStamp_wraps : ∃ stamp k' stop made, updateTimeStamp ⟨fun _ => ⟨5, by decide⟩, 0⟩
      (Snapshot.at ⟨⟨true, 0, ⟨5, 65535⟩, ⟨0, 0, 0⟩, ⟨0, 0, 0⟩, 0⟩, empty ⟨5, 65535⟩ .closed⟩ 0 []) =
    .ok () (Snapshot.at ⟨k', { empty ⟨5, 65535⟩ .closed with stamp }⟩ stop made) ∧
      stamp.gt ⟨5, 65535⟩ = false := by
  have fits : (empty ⟨5, 65535⟩ .closed).Fits := fits_empty _ (by decide) (by decide)
  let k : Cache := ⟨true, 0, ⟨5, 65535⟩, ⟨0, 0, 0⟩, ⟨0, 0, 0⟩, 0⟩
  have ends : Ends Unchecked updateTimeStamp ⟨fun _ => ⟨5, by decide⟩, 0⟩ ⟨k,
      empty ⟨5, 65535⟩ .closed⟩ 0 _ _ _ :=
    updateTimeStamp_ends rfl .unchecked
  obtain ⟨made, run, -⟩ := (ends fits).2 []
  exact ⟨_, _, _, _, run, by decide⟩

/-! What the methods on records do to an image. -/

open Record

variable {offset : Nat} {r : Record}

theorem getEnd_ends : Ends crash getEnd e ⟨k, img⟩ pos (.ok img.fileEnd : Except IOStatus Nat) ⟨k, img⟩
    img.fileEnd := by
  refine .of_fits fun fits => ?_
  rw [← length_encode fits]
  exact .getEnd

/-! Reading. -/

theorem readIteratorHere_ends {p : Pointers} (old : FileIterator) (small : p.Fits)
    (text : (encode img).drop pos = p.line ++ tail) :
    Ends crash (readIteratorHere old) e ⟨k, img⟩ pos (.ok (p.at pos)) ⟨k, img⟩ (pos + 34) := by
  have newline : (encode img).drop (pos + 33) = '\n' :: tail := by
    have shape : p.line ++ tail = (p.at 0).text ++ '\n' :: tail := by
      simp [Pointers.line, FileIterator.line, Pointers.at, FileIterator.text]
    refine drop_next (p.at 0).text (text.trans shape) ?_
    have width : (p.at 0).text.length = 33 := by
      simp [FileIterator.text, Pointers.at, length_hex small.1, length_hex small.2]
    rw [width]
  refine .bind .tell (.bind (extractIterator_ends [] old small (.inl rfl) text) ?_)
  refine .bind (.getChar newline) ?_
  exact .bind .isGood (.pure _)

theorem Record.state_known (r : Record) : r.state = 'g' ∨ r.state = 'i' := by
  unfold state
  split
  · exact .inr rfl
  · exact .inl rfl

theorem readSizeAndState_ends {size : Nat} {state : Char} (small : size < sizeBound)
    (known : state = 'g' ∨ state = 'i') (text : (encode img).drop pos = sizeLine size state ++ tail) :
    Ends crash readSizeAndState e ⟨k, img⟩ pos (.ok (size, state)) ⟨k, img⟩ (pos + 26) := by
  have fits : size < 10 ^ sizeSize := Nat.lt_trans small (by decide)
  have inside : ∀ c ∈ numeral 10 sizeSize size ++ [' ', state], (c != '\n') = true := by
    intro c member
    rcases mem_append.mp member with digit | last
    · exact FileStream.ne_newline_of_isDigitOf
        (isDigitOf_numeral (by decide) (by decide) _ _ c digit)
    · rw [mem_cons, mem_singleton] at last
      rcases last with rfl | rfl
      · rfl
      · rcases known with rfl | rfl <;> rfl
  have line : (encode img).drop pos = (numeral 10 sizeSize size ++ [' ', state]) ++ '\n' :: tail := by
    rw [text]
    simp [sizeLine]
  have digits : (encode img).drop pos = [] ++
      (numeral 10 sizeSize size ++ ' ' :: state :: '\n' :: tail) := by
    rw [line]
    simp
  have flag : (encode img).drop (pos + 23) = ' ' :: state :: '\n' :: tail :=
    drop_next (numeral 10 sizeSize size) digits
      (by rw [length_numeral (by decide) (by decide) fits]; rfl)
  have newline : (encode img).drop (pos + 25) = '\n' :: tail :=
    drop_next [' ', state] flag rfl
  have visible : FileStream.isSpace state = false := by rcases known with rfl | rfl <;> decide
  refine .bind .tell (.bind (.getline inside line) ?_)
  rw [if_pos (matchRuns_size size known)]
  refine .bind (.seek pos) ?_
  refine .bind (decimal_ends _ _ small fits (by decide) (by simp) (by decide) digits) ?_
  refine .bind (.extractChar visible flag) ?_
  exact .bind (.getChar newline) (.pure _)

theorem Record.bytes_eq (r : Record) : r.bytes = r.list.line ++
    (r.sizeText ++ (r.data ++ '\n' :: r.file.line)) := by
  simp [bytes, fields]

theorem readIterator_ends (found : img.at? offset = some r) :
    Ends crash (readIterator offset false) e ⟨k, img⟩ pos (.ok (r.list.at offset)) ⟨k, img⟩
      (offset + 34) := by
  refine .of_fits fun fits => ?_
  obtain ⟨tail, text⟩ := record_at fits found
  rw [bytes_eq, append_assoc] at text
  refine .bind getEnd_ends ?_
  rw [if_pos ⟨headerSize_le found, lt_fileEnd found⟩]
  refine .bind (.seek offset) ?_
  exact .bind (readIteratorHere_ends _ (fits.records r (mem_records found)).list text) (.pure _)

theorem readIterator_end_ends {fileorder : Bool} :
    Ends crash (readIterator img.fileEnd fileorder) e ⟨k, img⟩ pos (.ok ⟨0, 0, img.fileEnd⟩) ⟨k, img⟩
      img.fileEnd := by
  refine .bind getEnd_ends ?_
  rw [if_neg (fun inside => Nat.lt_irrefl _ inside.2), if_pos rfl]
  exact .pure _

theorem Image.headerSize_le_fileEnd (img : Image) : headerSize ≤ img.fileEnd := by
  simp only [fileEnd, recordsEnd]
  omega

theorem readIterator_zero_ends :
    Ends crash (readIterator 0 false) e ⟨k, img⟩ pos (.ok ⟨0, 0, 0⟩) ⟨k, img⟩ img.fileEnd := by
  have large := img.headerSize_le_fileEnd
  rw [headerSize_eq] at large
  refine .bind getEnd_ends ?_
  rw [if_neg (fun inside => absurd inside.1 (by decide)), if_neg (by omega), if_pos rfl]
  exact .pure _

theorem readSize_of_record_ends (found : img.at? offset = some r) :
    Ends crash readSizeAndState e ⟨k, img⟩ (offset + 34) (.ok (r.data.length, r.state)) ⟨k, img⟩
      (offset + 60) := by
  refine .of_fits fun fits => ?_
  have small := fits.records r (mem_records found)
  obtain ⟨tail, text⟩ := record_at fits found
  rw [bytes_eq, append_assoc] at text
  have here : (encode img).drop (offset + 34) = _ := drop_next _ text (by rw [length_line small.list])
  rw [append_assoc] at here
  exact readSizeAndState_ends small.data r.state_known here

theorem readBlocks_ends {fuel : Nat} {block data : Bytes} (enough : block.length < fuel)
    (text : (encode img).drop pos = block ++ tail) :
    Ends crash (readBlocks fuel block.length data) e ⟨k, img⟩ pos (.ok (data ++ block)) ⟨k, img⟩
      (pos + block.length) := by
  induction fuel generalizing pos block data with
  | zero => exact absurd enough (Nat.not_lt_zero _)
  | succ fuel ih =>
    unfold readBlocks
    by_cases nothing : block.length = 0
    · rw [if_pos nothing, nothing, eq_nil_of_length_eq_zero nothing, append_nil]
      exact .pure _
    · rw [if_neg nothing]
      let toread := if block.length > bufsiz then bufsiz else block.length
      have filled : 0 < toread ∧ toread ≤ block.length := by
        have positive : 0 < bufsiz := by decide
        simp only [toread]
        split <;> omega
      have length : (block.take toread).length = toread := length_take_of_le filled.2
      have first : (encode img).drop pos = block.take toread ++ (block.drop toread ++ tail) := by
        rw [text, ← append_assoc, take_append_drop]
      have second := drop_next _ first rfl
      have more : (block.drop toread).length = block.length - toread := length_drop
      have fewer : (block.drop toread).length < fuel := by omega
      have step := @ih _ _ (data ++ block.take toread) fewer second
      rw [length, more, append_assoc, take_append_drop] at step
      change Ends crash (readChars toread >>= _) e _ pos _ _ _
      rw [← length]
      refine .bind (.readChars first) ?_
      rw [length, if_pos rfl]
      exact step.at_stop (by omega)

theorem readDataHere_ends {force : Bool} (found : img.at? offset = some r)
    (readable : r.erased = false ∨ force = true) (enough : r.data.length < e.fuel) :
    Ends crash (readDataHere force) e ⟨k, img⟩ offset
      (.ok (r.list.at offset, r.file.at 0, r.data)) ⟨k, img⟩
      (offset + 94 + r.data.length) := by
  refine .of_fits fun fits => ?_
  have small := fits.records r (mem_records found)
  obtain ⟨tail, text⟩ := record_at fits found
  rw [bytes_eq, append_assoc] at text
  have sizeWidth : r.sizeText.length = 26 := length_sizeLine _ small.data
  have data : (encode img).drop (offset + 60) = r.data ++ ('\n' :: (r.file.line ++ tail)) := by
    refine drop_next (r.list.line ++ r.sizeText) (by rw [text]; simp) ?_
    rw [length_append, length_line small.list, sizeWidth]
  have newline := drop_next _ data rfl
  have file := drop_next ['\n'] newline rfl
  have opened : r.state = 'g' ∨ (force = true ∧ r.state = 'i') := by
    rcases readable with live | forced
    · exact .inl (by simp [state, live])
    · rcases r.state_known with live | erased
      · exact .inl live
      · exact .inr ⟨forced, erased⟩
  refine .bind (.attempt (readIteratorHere_ends _ small.list text)) (.bind (.pure _) ?_)
  refine .bind (readSize_of_record_ends found) ?_
  refine .on_true opened (.bind .ask ?_)
  refine .bind (readBlocks_ends enough data) ?_
  refine .bind (.getChar newline) ?_
  refine .bind (.attempt (extractIterator_ends [] _ small.file (.inl rfl) file)) ?_
  refine .bind .isGood (.bind (.ofExcept _) ?_)
  exact (Ends.pure _).at_stop (by simp only [length_nil]; omega)

/-! Writing. -/

theorem writeIterator_ends (it : FileIterator) (found : img.at? offset = some r) (small : it.pointers.Fits)
    (meets : Leaves crash (img.setList offset it.pointers)) :
    Ends crash (writeIterator offset it) e ⟨k, img⟩ pos (.ok ()) ⟨k, img.setList offset it.pointers⟩
      (offset + 34) := by
  refine .of_fits fun fits => ?_
  unfold writeIterator
  rw [if_pos (headerSize_le found)]
  refine .bind (.pure _) (.bind (.seek offset) ?_)
  refine (Ends.put (Fits.setList fits small) (overwrite_list fits found small) meets).at_stop ?_
  rw [length_line small]

variable {it : FileIterator}

theorem writeIterator_zero_ends (small : it.pointers.Fits)
    (meets : Leaves crash { img with scar := it.pointers.line }) :
    Ends crash (writeIterator 0 it) e ⟨k, img⟩ pos
      (.ok ()) ⟨k, { img with scar := it.pointers.line }⟩ 34 := by
  refine .of_fits fun fits => ?_
  have fitsNew : Image.Fits { img with scar := it.pointers.line } :=
    { fits with scar := Nat.le_of_eq (length_line small) }
  have large := img.headerSize_le_fileEnd
  unfold writeIterator
  rw [if_neg (by decide)]
  refine .bind getEnd_ends (.bind (.pure _) ?_)
  refine .on_true (by rw [headerSize_eq] at large; exact decide_eq_true (by omega)) (.bind (.seek 0) ?_)
  refine (Ends.put fitsNew (overwrite_scar fits small) meets).at_stop ?_
  rw [length_line small]

theorem resetNextOfLast_ends (found : img.at? k.limits.next = some r) (last : k.limits.next < offBound)
    (bound : img.fileEnd < offBound) (backed : Leaves crash (img.setBackup 2 (r.list.at k.limits.next)))
    (marked : Leaves crash { img.setBackup 2 (r.list.at k.limits.next) with status })
    (meets : Leaves crash ({ img.setBackup 2 (r.list.at k.limits.next) with status }.setList k.limits.next
      ⟨r.list.prev, img.fileEnd⟩)) : Ends crash (resetNextOfLast status) e ⟨k, img⟩ pos (.ok ())
      ⟨k, { img.setBackup 2 (r.list.at k.limits.next) with status }.setList k.limits.next
        ⟨r.list.prev, img.fileEnd⟩⟩ (k.limits.next + 34) := by
  refine .of_fits fun fits => ?_
  have small := (fits.records r (mem_records found)).list
  refine .bind .cache (.bind (readIterator_ends found) ?_)
  refine .bind (writeIteratorBackup_ends 2 ⟨small.1, small.2, last⟩ backed marked) ?_
  refine .bind getEnd_ends ?_
  exact writeIterator_ends ⟨r.list.prev, img.fileEnd, k.limits.next⟩ found ⟨small.1, bound⟩ meets

theorem put_tail_ends {bytes : Bytes} (meets : Leaves crash { img with tail := img.tail ++ bytes }) :
    Ends crash (put bytes : Method Unit) e ⟨k, img⟩ img.fileEnd (.ok ())
      ⟨k, { img with tail := img.tail ++ bytes }⟩ (fileEnd { img with tail := img.tail ++ bytes }) := by
  refine .of_fits fun fits => ?_
  have fitsNew : Image.Fits { img with tail := img.tail ++ bytes } := { fits with }
  refine (Ends.put fitsNew (overwrite_tail bytes fits) meets).at_stop ?_
  simp only [fileEnd, recordsEnd, length_append]
  omega

theorem put_seal_ends {bytes : Bytes} (small : r.Fits) (whole : img.tail ++ bytes = r.bytes)
    (meets : Leaves crash { img with records := img.records ++ [r], tail := [] }) :
    Ends crash (put bytes : Method Unit) e ⟨k, img⟩ img.fileEnd (.ok ())
      ⟨k, { img with records := img.records ++ [r], tail := [] }⟩ (img.fileEnd + bytes.length) := by
  refine .of_fits fun fits => ?_
  have fitsNew : Image.Fits { img with records := img.records ++ [r], tail := [] } :=
    { fits with
      records := fun s member => by
        rcases mem_append.mp member with old | new
        · exact fits.records s old
        · rw [mem_singleton.mp new]
          exact small }
  exact .put fitsNew (overwrite_seal fits whole) meets

def newRecord (it lit : FileIterator) (data : Bytes) : Record := ⟨it.pointers, false, data, lit.pointers⟩

theorem newRecord_fits {data : Bytes} {prev fileEnd : Nat} (links : it.pointers.Fits)
    (small : prev < offBound) (bound : fileEnd + calculateDataSize data.length < offBound) :
    (newRecord it ⟨prev, fileEnd + calculateDataSize data.length, fileEnd⟩ data).Fits := by
  refine ⟨links, ?_, small, bound⟩
  simp only [newRecord, calculateDataSize, offBound, sizeBound] at bound ⊢
  omega

theorem writeDataHere_ends {lit : FileIterator} {data : Bytes} (nonempty : data ≠ [])
    (finished : img.tail = [])
    (small : (newRecord it lit data).Fits) (writing : ∀ tail, Leaves crash { img with status, tail })
    (written : Leaves crash { img.addRecord (newRecord it lit data) with status })
    (meets : Leaves crash { img.addRecord (newRecord it lit data) with status := status.succ }) :
    Ends crash (writeDataHere it lit data status) e ⟨k, img⟩ pos (.ok ())
      ⟨k, { img.addRecord (newRecord it lit data) with status := status.succ }⟩
      (img.fileEnd + (newRecord it lit data).size) := by
  have pieces : it.line ++ sizeLine data.length 'g' ++ data ++ '\n' :: lit.line =
      (newRecord it lit data).bytes := by
    rw [bytes_eq, FileIterator.line_eq, FileIterator.line_eq]
    simp [newRecord, sizeText, state]
  obtain ⟨scar, stamp, size, old, backup, limitsBackup, listBackup, limits, removed, records, tail⟩ := img
  cases finished
  unfold writeDataHere
  refine .on_true (length_pos_iff.mpr nonempty) (.of_fits fun fits => ?_)
  refine .bind .seekEnd (.bind (writeFileStatus_ends (writing [])) ?_)
  rw [length_encode fits]
  refine .bind (.bind (put_tail_ends (writing _)) (put_tail_ends (writing _))) ?_
  refine .bind (put_tail_ends (writing _)) ?_
  refine .bind (put_seal_ends small (by rw [← pieces, nil_append]) written) ?_
  refine .at_stop (writeFileStatus_ends ?_) ?_
  · exact meets
  rw [← length_bytes small, ← pieces]
  simp only [fileEnd, recordsEnd, length_append, length_nil]
  omega

theorem writeDataHere_empty_ends {lit : FileIterator} :
    Ends crash (writeDataHere it lit [] status) e ⟨k, img⟩ pos (.error .dataError) ⟨k, img⟩ pos :=
  .bind_error (.throw _)

theorem writeDataHeader_ends (erased : Bool) (found : img.at? offset = some r) (small : it.pointers.Fits)
    (linked : Leaves crash (img.setList offset it.pointers))
    (meets : Leaves crash ((img.setList offset it.pointers).setErased offset erased)) :
    Ends crash (writeDataHeader it r.data.length (if erased then 'i' else 'g')) e ⟨k, img⟩ offset (.ok ())
      ⟨k, (img.setList offset it.pointers).setErased offset erased⟩ (offset + 60) := by
  refine .of_fits fun fits => ?_
  have fitsList : (img.setList offset it.pointers).Fits := Fits.setList fits small
  have foundList : (img.setList offset it.pointers).at? offset = some { r with list := it.pointers } := by
    rw [at?_setList, if_pos rfl, found]
    rfl
  have width := length_line small
  unfold writeDataHeader
  rw [FileIterator.line_eq]
  refine .bind (.put fitsList (overwrite_list fits found small) linked) ?_
  rw [width]
  refine (Ends.put (Fits.setErased fitsList) (overwrite_erased erased fitsList foundList) meets).at_stop ?_
  rw [length_sizeLine _ (fits.records r (mem_records found)).data]

theorem markDataAsErased_ends {iter : FileIterator} (found : img.at? iter.current = some r)
    (small : iter.Fits) (backed : Leaves crash (img.setBackup 2 iter))
    (marked : Leaves crash { img.setBackup 2 iter with status })
    (linked : Leaves crash ({ img.setBackup 2 iter with status }.setList iter.current iter.pointers))
    (meets : Leaves crash (({ img.setBackup 2 iter with status }.setList iter.current
      iter.pointers).setErased iter.current true)) :
    Ends crash (markDataAsErased iter r.data.length status) e ⟨k, img⟩ pos (.ok ())
      ⟨k, ({ img.setBackup 2 iter with status }.setList iter.current iter.pointers).setErased
        iter.current true⟩
      (iter.current + 60) := by
  refine .bind (writeIteratorBackup_ends 2 small backed marked) ?_
  refine .bind (.seek _) (.bind .isGood ?_)
  exact writeDataHeader_ends true found ⟨small.1, small.2.1⟩ linked meets

theorem markDataAsUnerased_ends (found : img.at? it.current = some r) (small : it.Fits)
    (linked : Leaves crash (img.setList it.current it.pointers))
    (meets : Leaves crash ((img.setList it.current it.pointers).setErased it.current false)) :
    Ends crash (markDataAsUnerased it) e ⟨k, img⟩ pos (.ok ())
      ⟨k, (img.setList it.current it.pointers).setErased it.current false⟩ (it.current + 60) := by
  refine .bind (.seek _) (.bind .isGood (.bind (readSize_of_record_ends found) ?_))
  refine .bind (.seek _) (.bind .isGood ?_)
  exact writeDataHeader_ends false found ⟨small.1, small.2.1⟩ linked meets

end Wms.FileContainer
