import Wms.FileContainer.Crash

/-! Crashes during the commit.

The commit blanks the backups by one write and replaces the status that tells the recovery
to use them by the next. A recovery that starts between the two restores blank backups: an
iterator whose record is at offset 0 goes over the stamp, and the consistency check ends
where no record is.
-/

set_option autoImplicit false

namespace Wms.FileContainer

open Lib Lib.FileProg Lib.Links Image Prog Listing List

variable {crash : Bytes → Prop} {e : Env} {k : Cache} {img : Image} {pos : Nat} {l : Listing}
  {code : IOStatus}

/-! Recovery with blank backups. -/

def blankLine : Bytes := Pointers.line ⟨0, 0⟩

def Image.Unscarred (img : Image) : Prop := img.scar = [] ∨ img.scar = blankLine

theorem readSize_scar_ends (scar : img.scar = blankLine) :
    Ends crash readSize e ⟨k, img⟩ pos (.ok ()) ⟨{ k with size := 0 }, img⟩ pos := by
  have shape : blankLine = blankLine.take 27 ++ (numeral 10 6 0 ++ ['\n']) := by decide
  obtain ⟨covered, front⟩ : ∃ covered, img.front = blankLine ++ covered := ⟨_, by rw [front, scar]⟩
  have text : (encode img).drop 0 = blankLine.take 27 ++
      (numeral 10 6 0 ++ '\n' :: (covered ++ img.rest)) := by
    rw [drop_zero, encode_front, front, append_assoc]
    exact (congrArg (· ++ (covered ++ img.rest)) shape).trans (by simp)
  have digits : (encode img).drop stampSize = [] ++ (numeral 10 6 0 ++ '\n' :: (covered ++ img.rest)) :=
    drop_next (blankLine.take 27) text rfl
  refine .bind .tell (.bind (.update _) (.bind (.seek _) ?_))
  refine .bind (decimal_ends 6 [] (by decide) (by decide) (by decide) (by simp) (by decide) digits) ?_
  exact .bind (.update _) (.seek pos)

theorem readSize_reads (scar : img.Unscarred) :
    ∃ size, Ends crash readSize e ⟨k, img⟩ pos (.ok ()) ⟨{ k with size }, img⟩ pos := by
  rcases scar with clean | scarred
  · exact ⟨_, readSize_ends clean⟩
  · exact ⟨_, readSize_scar_ends scarred⟩

theorem readSizeAndState_end (stream : FileStream) (good : stream.good = true) (ended : stream.rest = []) :
    ∃ c, readSizeAndState e ⟨k, stream⟩ = .error .syntaxError c ∧ c.cache = k ∧ c.stream.fail = true := by
  have nothing : (stream.getline).1 = [] := by simp [FileStream.getline, good, ended]
  refine ⟨⟨k, stream.getline.2⟩, ?_, rfl, by simp [FileStream.getline, good, ended]⟩
  rw [readSizeAndState, bind_ok (show tell e ⟨k, stream⟩ = .ok _ ⟨k, stream⟩ from rfl),
    bind_ok (show getline e ⟨k, stream⟩ = .ok _ ⟨k, stream.getline.2⟩ from rfl), nothing]
  rfl

theorem checkRecords_fails {allowable reached : Int} {fileEnd fuel current detected : Nat}
    (positive : 0 < fuel) :
    Fails (checkRecords allowable fileEnd fuel ⟨0, 0, current⟩ reached detected) e ⟨k, img⟩ img.fileEnd
      .unavailablePosition := by
  intro fits writes
  obtain ⟨fuel, rfl⟩ := Nat.exists_eq_add_one.mpr positive
  have ended : (encode img).drop img.fileEnd = [] := by
    rw [← length_encode fits, drop_length]
  obtain ⟨c, failed, -⟩ := readSizeAndState_end (e := e)
    (k := k) ⟨encode img, img.fileEnd, false, false, writes⟩ rfl ended
  refine ⟨c, ?_⟩
  rw [checkRecords, bind_ok (show isGood e (Snapshot.at ⟨k, img⟩ _ writes) = .ok true _ from rfl)]
  exact (bind_ok (attempt_error failed)).trans rfl

theorem checkConsistency_fails {allowable : Int} (scar : img.Unscarred)
    (nowhere : k.limits.prev = 0 ∨ k.limits.prev = img.fileEnd) (positive : 0 < e.fuel) :
    Fails (checkConsistency allowable) e ⟨k, img⟩ pos .unavailablePosition := by
  obtain ⟨size, sized⟩ := readSize_reads scar
  refine .after getEnd_ends (.after sized (.after .cache ?_))
  rcases nowhere with zero | ended
  · rw [zero]
    exact .after readIterator_zero_ends (.after .ask (checkRecords_fails positive))
  · rw [ended]
    exact .after readIterator_end_ends (.after .ask (checkRecords_fails positive))

theorem restoreIterator_blank_ends (what : Fin 4) (blank : img.backup what = ⟨0, 0, 0⟩) :
    Ends Unchecked (restoreIterator what) e ⟨k, img⟩ pos
      (.ok ()) ⟨k, { img with scar := blankLine }⟩ 34 := by
  refine .bind (readIteratorBackup_ends what) ?_
  rw [blank]
  exact writeIterator_zero_ends ⟨offBound_pos, offBound_pos⟩ .unchecked

section Blank

variable (positive : 0 < e.fuel) (blank : img.backup 0 = ⟨0, 0, 0⟩)
include positive blank

theorem oneLink_fails {allowable : Int} (nowhere : k.limits.prev = 0 ∨ k.limits.prev = img.fileEnd) :
    Fails (restoreIterator 0 >>= fun _ => checkConsistency allowable) e ⟨k,
      img⟩ pos .unavailablePosition :=
  .after (restoreIterator_blank_ends 0 blank) (checkConsistency_fails (.inr rfl) nowhere positive)

theorem limitsAndLink_fails {allowable : Int}
    (nowhere : img.limitsBackup.prev = 0 ∨ img.limitsBackup.prev = img.fileEnd) :
    Fails (restoreLimits >>= fun _ => restoreIterator 0 >>= fun _ =>
      checkConsistency allowable) e ⟨k, img⟩ pos
      .unavailablePosition :=
  .after restoreLimits_ends (oneLink_fails positive (by exact blank) nowhere)

/-- The file is cut at the place of one of its records. -/
theorem truncate_limitsAndLink_fails {allowable : Int} {r : Record} {offset : Nat}
    (found : img.at? offset = some r)
    (nowhere : img.limitsBackup.prev = 0 ∨ img.limitsBackup.prev = offset) :
    Fails (truncateFile offset >>= fun _ => restoreLimits >>= fun _ => restoreIterator 0 >>= fun _ =>
      checkConsistency allowable) e ⟨k, img⟩ pos .unavailablePosition := by
  obtain ⟨a, b, shape, here⟩ := Layout.locate_split found
  rw [here] at nowhere ⊢
  exact .after (truncateFile_ends shape .unchecked .unchecked)
    (limitsAndLink_fails positive (by exact blank) nowhere)

end Blank

theorem recoverAeWriting_fails {r : Record} (positive : 0 < e.fuel) (blank : img.backup 0 = ⟨0, 0, 0⟩)
    (found : img.at? img.limits.next = some r)
    (nowhere : img.limitsBackup.prev = 0 ∨ img.limitsBackup.prev = img.limits.next) :
    Fails recoverAeWriting e ⟨k, img⟩ pos .unavailablePosition :=
  .after (readInitialPosition_ends _) (truncate_limitsAndLink_fails positive blank found nowhere)

theorem readSizeAndState_fails {line tail : Bytes} (inside : ∀ c ∈ line, (c != '\n') = true)
    (wrong : matchRuns sizePattern line = false) (text : (encode img).drop pos = line ++ '\n' :: tail) :
    Fails readSizeAndState e ⟨k, img⟩ pos .syntaxError := by
  refine .after .tell (.after (.getline inside text) fun _ writes => ?_)
  rw [if_neg (by simp [wrong])]
  exact ⟨_, rfl⟩

theorem sizePattern_digits {digits : Bytes} (number : ∀ c ∈ digits, isDigitOf 10 c = true)
    (nonempty : digits ≠ []) :
    matchRuns sizePattern digits = false := by
  rw [← append_nil digits, sizePattern, matchRuns_some number nonempty (by simp)]
  rfl

/-- The line of the size is read from offset 34 on. -/
theorem restoreErased_fails (clean : img.scar = []) (blank : img.backup 2 = ⟨0, 0, 0⟩) :
    Fails restoreErased e ⟨k, img⟩ pos .syntaxError := by
  refine .of_fits fun fits => .after (readIteratorBackup_ends 2) ?_
  have stamp : img.stamp.line.length = 27 := TimeStamp.length_line fits.epoch fits.counter
  have digits : (numeral 10 numberSize img.size).length = 21 :=
    length_numeral (by decide) (by decide) (Nat.lt_trans fits.size (by decide))
  have number : ∀ c ∈ (numeral 10 numberSize img.size).drop 7, isDigitOf 10 c = true := fun c member =>
    isDigitOf_numeral (by decide) (by decide) _ _ c (mem_of_mem_drop member)
  have text : (encode img).drop 0 = (img.stamp.line ++ (numeral 10 numberSize img.size).take 7) ++
      ((numeral 10 numberSize img.size).drop 7 ++ '\n' :: img.rest) := by
    rw [drop_zero, encode_clean img clean, numberLine, append_assoc, append_assoc,
      ← append_assoc (List.take 7 _), take_append_drop]
    rfl
  have line : (encode img).drop 34 = _ := drop_next _ text (by simp [stamp, digits])
  have nonempty : (numeral 10 numberSize img.size).drop 7 ≠ [] :=
    length_pos_iff.mp (by rw [length_drop, digits]; decide)
  rw [blank]
  exact .after (.seek _) (.after .isGood (.bind
    (readSizeAndState_fails (fun c member => FileStream.ne_newline_of_isDigitOf (number c member))
      (sizePattern_digits number nonempty) line)))

theorem Image.Linked.found_of_mem {key : Nat} (linked : img.Linked l) (member : key ∈ keys l) :
    ∃ r, img.at? key = some r := by
  obtain ⟨a, value, b, rfl⟩ := exists_split member
  obtain ⟨r, found, -⟩ := linked.record
  exact ⟨r, found⟩

/-- No status of a change that waits for its commit can be recovered from with blank backups. -/
theorem recoverCase_blank_fails (positive : 0 < e.fuel) (linked : img.Linked l) (nonempty : l ≠ [])
    (blank : ∀ what, img.backup what = ⟨0, 0, 0⟩) (limits : img.limitsBackup = ⟨0, 0⟩)
    (status : img.status ∈ waiting) : ∃ code, ∀ k pos,
      Fails (recoverCase img.status) e ⟨k, img⟩ pos code := by
  obtain ⟨last, foundLast⟩ := linked.found_of_mem (lastKey_mem img.fileEnd nonempty)
  have firstMember : headKey l img.fileEnd ∈ keys l := headKey_mem nonempty
  obtain ⟨first, foundFirst⟩ := linked.found_of_mem firstMember
  rw [← linked.last] at foundLast
  rw [← linked.first] at foundFirst
  have nowhere : img.limitsBackup.prev = 0 := congrArg Pointers.prev limits
  simp only [waiting, mem_cons, not_mem_nil, or_false] at status
  rcases status with same | same | same | same | same <;> rw [same]
  · exact ⟨_, fun k pos => recoverAeWriting_fails positive (blank 0) foundLast (.inl nowhere)⟩
  · refine ⟨.unavailablePosition, fun k pos => .after (restoreIterator_blank_ends 2 (blank 2))
      (.after (readInitialPosition_ends _) ?_)⟩
    exact truncate_limitsAndLink_fails positive (by exact blank 0) foundFirst (.inl nowhere)
  · refine ⟨.unavailablePosition, fun k pos => .after (restoreIterator_blank_ends 2 (blank 2))
      (.after (readIteratorBackup_ends 0) ?_)⟩
    have zero : backup { img with scar := blankLine } 0 = ⟨0, 0, 0⟩ := blank 0
    rw [zero]
    refine .after readIterator_zero_ends (.after truncateFile_zero_ends ?_)
    exact .after (restoreIterator_blank_ends 1 rfl) (oneLink_fails positive (by rfl) (.inr rfl))
  · exact ⟨.syntaxError, fun k pos => .bind (restoreErased_fails linked.clean (blank 2))⟩
  · exact ⟨.syntaxError, fun k pos => .bind (restoreErased_fails linked.clean (blank 2))⟩

theorem not_restores_of_fails {any : Listing} (fits : img.Fits) (clean : img.scar = [])
    (opened : img.status ≠ .closed) (fails : ∀ k : Cache, k.limits.pointers = img.limits →
      ∀ pos, Fails (recoverCase img.status) e ⟨k, img⟩ pos code) :
    ¬ Restores e (encode img) any := by
  have failed (k : Cache) : Fails initContainer e ⟨k, img⟩ 0 code := by
    refine .after (readStamp_ends clean)
      (.after readLimits_ends (.after readRemoved_ends (.after (readSize_ends clean)
      (.after readFileStatus_ends ?_))))
    rw [if_pos opened]
    exact .bind (.after backupFile_ends (.after (statusOr_ends rfl) (.bind (fails _ rfl 0))))
  intro restores
  obtain ⟨c, run, -⟩ := restores ⟨0, 0⟩
  obtain ⟨c', error⟩ := failed (Container.openFile (encode img) ⟨0, 0⟩).cache fits []
  exact nomatch run.symm.trans error

/-! The five points of the commit. -/

section Points

variable {status : FileStatus} (fits : img.Fits) (linked : img.Linked l) (nonempty : l ≠ [])

include fits linked nonempty in
theorem blanked_not_restores {any : Listing} (positive : 0 < e.fuel) (waits : img.status ∈ waiting) :
    ¬ Restores e (encode img.blankBackup) any := by
  have relinked : img.blankBackup.Linked l := { linked with blank := fun empty => absurd empty nonempty }
  obtain ⟨code, fails⟩ := recoverCase_blank_fails positive relinked nonempty (fun _ => rfl) rfl waits
  have opened : img.blankBackup.status ≠ .closed := fun closed => by
    change img.status = _ at closed
    rw [closed] at waits
    exact absurd waits (by decide)
  exact not_restores_of_fails (Fits.blankBackup fits) linked.clean opened fun k _ pos => fails k pos

include fits linked nonempty in
/-- From the new status on the recovery only counts the list. -/
theorem counted_restores {allowable : Int} (opened : status ≠ .closed)
    (case : recoverCase status = checkConsistency allowable)
      (countable : Countable allowable img.size l.length)
    (enough : l.length ≤ e.fuel) {made : Nat} (late : 2 ≤ made) :
    Restores e (encode (img.commitStep status l.length made)) l := by
  have small := linked.length_lt fits
  have fitsStep := (applyWrites_commit status fits linked.clean small made).1
  have check (size : Nat) (countable : Countable allowable size l.length)
      (fits : Image.Fits { img.blankBackup with status, size }) :
      Restores e (encode { img.blankBackup with status, size }) l := by
    refine restores_of_ends fits fun k pos =>
      initContainer_open_ends linked.clean opened fun k' known pos' => ?_
    have relinked : Linked { img.blankBackup with status, size } l :=
      { linked with blank := fun empty => absurd empty nonempty }
    obtain ⟨new, stop, run, trimmed⟩ := checkConsistency_ends pos' relinked nonempty known small
      countable enough
    change ∃ k' new stop, Ends Unchecked (recoverCase status) e _ pos' _ _ _ ∧ _
    rw [case]
    exact ⟨_, new, stop, run, trimmed.linked, trimmed.size⟩
  match made with
  | 2 => exact check img.size countable fitsStep
  | 3 => exact check l.length (.inl rfl) fitsStep
  | made + 4 =>
    refine restores_of_ends fitsStep fun k pos =>
      ⟨_, _, _, initContainer_closed_ends linked.clean rfl, ?_, rfl⟩
    exact { linked with blank := fun _ => rfl, size := rfl }

end Points

/-! The removal of the only element. -/

section Cleared

variable {any : Listing} (fits : img.Fits) (clean : img.scar = []) (bare : img.fileEnd = headerSize)
include fits clean bare

/-- Without records the recovery trusts the size, which is still that of the old list. -/
theorem uncounted_not_restores (status : img.status = .ftEnd) (counted : img.size ≠ 0) :
    ¬ Restores e (encode img) any := by
  intro restores
  have opened : img.status ≠ .closed := by rw [status]; decide
  have closes (k : Cache) (pos : Nat) : Ends Unchecked
      (recoverDataUnchecked img.status) e ⟨k, img⟩ pos (.ok ())
      ⟨k, { img with status := .closed }⟩ 0 := by
    refine .bind backupFile_ends (.bind (statusOr_ends rfl) ?_)
    rw [status]
    exact .bind (writeFileStatus_ends .unchecked) (.on_true (by decide) (writeFileStatus_ends .unchecked))
  have ends (k : Cache) : Ends Unchecked initContainer e ⟨k, img⟩ 0 (.ok ())
      ⟨{ k.readAll img with initialized := true }, { img with status := .closed }⟩ 0 := by
    refine .bind (readStamp_ends clean) (.bind readLimits_ends
      (.bind readRemoved_ends (.bind (readSize_ends clean) ?_)))
    exact .bind readFileStatus_ends (.on_true opened (.bind (closes _ _) (.update _)))
  have fitsEnd : Image.Fits { img with status := .closed } := { fits with }
  obtain ⟨c, restored, wellFormed⟩ := restores ⟨0, 0⟩
  obtain ⟨-, text⟩ := (ends (Container.openFile (encode img) ⟨0, 0⟩).cache).result fits restored
  rw [text] at wellFormed
  by_cases empty : any = []
  · subst empty
    obtain ⟨c, zero, -⟩ := (ready_openFile ⟨0, 0⟩ wellFormed).refines.size e
    have sized (k : Cache) : Ends Unchecked sizeField e ⟨k, { img with status := .closed }⟩ 0
        (.ok img.size)
        ⟨{ k with size := img.size }, { img with status := .closed }⟩ 0 :=
      .bind (readSize_ends clean) (.bind .cache (.pure _))
    exact counted ((sized _).result fitsEnd zero).1.symm
  · obtain ⟨other, same, fitsOther, -, holds⟩ := wellFormed
    have length : other.fileEnd = headerSize := by
      rw [← length_encode fitsOther, ← same]
      exact (length_encode fitsEnd).trans bare
    have member : headKey any 0 ∈ keys any := headKey_mem empty
    have inside := holds.key_bound member
    omega

theorem bare_not_restores (positive : 0 < e.fuel) (status : img.status = .rdEmpty)
    (limits : img.limits.prev = headerSize) : ¬ Restores e (encode img) any := by
  have fails (k : Cache) (known : k.limits.pointers = img.limits) (pos : Nat) :
      Fails (recoverCase img.status) e ⟨k, img⟩ pos .unavailablePosition := by
    have nowhere : k.limits.prev = img.fileEnd :=
      (congrArg Pointers.prev known).trans (limits.trans bare.symm)
    rw [status]
    exact checkConsistency_fails (.inl clean) (.inr nowhere) positive
  exact not_restores_of_fails fits clean (by rw [status]; decide) fails

end Cleared

theorem cleared_restores_iff {made : Nat} (fits : img.cleared.Fits) (clean : img.scar = [])
    (counted : img.size ≠ 0)
    (positive : 0 < e.fuel) : (Restores e (encode (img.cleared.commitStep .rdEmpty 0 made)) l ∨
      Restores e (encode (img.cleared.commitStep .rdEmpty 0 made)) []) ↔ 4 ≤ made := by
  have fitsStep := (applyWrites_commit .rdEmpty fits clean (by decide : 0 < sizeBound) made).1
  have never (any : Listing) (early : made < 4) :
      ¬ Restores e (encode (img.cleared.commitStep .rdEmpty 0 made)) any := by
    match made with
    | 0 => exact uncounted_not_restores fits clean rfl rfl counted
    | 1 => exact uncounted_not_restores fitsStep clean rfl rfl counted
    | 2 | 3 => exact bare_not_restores fitsStep clean rfl positive rfl rfl
  refine ⟨fun restored => Nat.le_of_not_lt fun early =>
    restored.elim (never l early) (never [] early), fun late => ?_⟩
  obtain ⟨made, rfl⟩ := Nat.exists_eq_add_of_le' late
  refine .inr (restores_of_ends fitsStep fun k pos => ?_)
  exact ⟨_, _, _, initContainer_closed_ends clean rfl,
    { linked_cleared img clean .rdEmpty with size := rfl }, rfl⟩

/-! Whole calls. -/

variable {c c' : Container} {call : Call} {data : Bytes} {offset : Nat}

/-- The first element leaves its neighbour's backup blank, so that even the status before the
commit asks for a backup that was never made. -/
theorem addition_empty_waits (ready : Ready c []) (valid : (Call.add data offset).Valid c.stream.file [])
    (returns : (Call.add data offset).run e c = .ok () c') : ∃ before img,
      Waits (.add data offset) e c [] before img ∧
      ∀ (e' : Env) any, 0 < e'.fuel → ¬ Restores e' (encode img) any := by
  obtain ⟨k, img, pos, writes, rfl, fits, closed, holds, coherent⟩ := ready
  obtain ⟨place, bound⟩ := valid
  rw [ready_length fits] at place bound
  obtain rfl : offset = img.fileEnd := place.resolve_right (by simp)
  have opens : Opens Unchecked e false ⟨k, img⟩ ⟨k.prepared img false, img⟩ [] :=
    opens_closed e false closed coherent holds
  have reaches := stageAddition_empty_opened pos opens fun _ => bound
  obtain ⟨r, t, stop, before, run, fitsEnd, text, -, ends, backup, saved⟩ := reaches.run fits writes
  dsimp only at ends backup saved run
  rcases ends with ⟨-, rfl, -⟩ | ⟨-, it, -, rfl, staged, -⟩
  · exact nomatch returns.symm.trans (bind_error (bind_error run))
  refine ⟨before, t.image, staged.waits_addition fits holds (by decide) fitsEnd text run,
    fun e' any positive => ?_⟩
  have written : t.image.status = .aeWritten := mem_singleton.mp staged.status
  have last : t.image.limits.next = img.fileEnd := staged.linked.last
  obtain ⟨r, found⟩ := staged.linked.found_of_mem (mem_cons_self)
  have blank : t.image.backup 0 = ⟨0, 0, 0⟩ := (congrFun backup 0).trans (holds.blank rfl)
  have nowhere : t.image.limitsBackup.prev = t.image.limits.next := by rw [saved, last]; exact holds.first
  have fails (k : Cache) (_ : k.limits.pointers = t.image.limits) (pos : Nat) :
      Fails (recoverCase t.image.status) e' ⟨k, t.image⟩ pos .unavailablePosition := by
    rw [written]
    exact recoverAeWriting_fails positive blank (last ▸ found) (.inr nowhere)
  exact not_restores_of_fails fitsEnd staged.linked.clean (by rw [written]; decide) fails

theorem removal_only_commits {value : Bytes} (ready : Ready c [(offset, value)]) :
    ∃ (before : List Write) (img : Image), Commits (.remove offset) e c
      [(offset, value)] before img.cleared ∧
      img.scar = [] ∧ img.size = 1 := by
  obtain ⟨k, img, pos, writes, rfl, fits, closed, holds, coherent⟩ := ready
  obtain ⟨stop, ends⟩ := stageRemoval_only_opened pos (opens_closed e false closed coherent holds)
  obtain ⟨fitsEnd, runs⟩ := ends fits
  obtain ⟨before, run, text, -⟩ := runs writes
  have counted : (k.prepared img false).size = 0 + 1 := (coherent.prepared false).2.2.trans holds.size
  have commits := removeData_commits fitsEnd holds.clean (by decide) counted run
  have list : (Call.remove offset).listing (Snapshot.at ⟨k, img⟩ pos writes).stream.file
      [(offset, value)] = [] :=
    removeAt_single value
  refine ⟨before, img.started e (k.prepared img false),
    ⟨⟨_, commits, ?_⟩, text, fitsEnd, holds.size⟩, holds.clean,
    holds.size⟩
  rw [list]
  rfl

/-- Where a crash in the commit does no harm, by the number of writes that were left. -/
def Call.CommitSafe (l : Listing) (more : Nat) : Call → Prop
  | .add .. => more ≠ 3 ∧ (l = [] → more ≠ 4)
  | .remove _ => more ≠ 3 ∧ (l.length = 1 → more = 0)

theorem Commits.text_of_cut {before made after : List Write} {img : Image}
    (commits : Commits call e c l before img)
    (clean : img.scar = []) (small : (call.listing c.stream.file l).length < sizeBound)
    (run : call.run e c = .ok () c') (trace : c'.stream.writes = c.stream.writes ++ (made ++ after))
    (late : after.length ≤ 4) : applyWrites c.stream.file made =
      encode (img.commitStep call.committing (call.listing c.stream.file l).length
        (4 - after.length)) := by
  obtain ⟨final, returns, writes⟩ := commits.run
  obtain ⟨-, rfl⟩ := Outcome.ok.inj (returns.symm.trans run)
  have same := append_cancel_left (writes.symm.trans trace)
  have length := congrArg List.length same
  simp only [length_append, commitWrites, length_cons, length_nil] at length
  have split : made = before ++ (commitWrites call.committing (call.listing c.stream.file l).length).take
      (4 - after.length) := by
    rw [← take_length_add_append, same, show before.length + (4 - after.length) = made.length by
      omega, take_left]
  rw [split, applyWrites_append, commits.text]
  exact (applyWrites_commit _ commits.fits clean small _).2

theorem Call.countable (call : Call) (nodup : (keys l).Nodup) (valid : call.Valid c.stream.file l) :
    ∃ allowable, recoverCase call.committing = checkConsistency allowable ∧
      Countable allowable l.length (call.listing c.stream.file l).length := by
  cases call with
  | add data offset =>
    refine ⟨1, rfl, .inr ?_⟩
    rw [Call.listing, length_insertAt, show ((l.length + 1 : Nat) : Int) - l.length = 1 by omega]
    decide
  | remove offset =>
    have length : (removeAt offset l).length + 1 = l.length := length_removeAt nodup valid
    refine ⟨-1, rfl, .inr ?_⟩
    rw [Call.listing, show ((removeAt offset l).length : Int) - l.length = -1 by omega]
    decide

theorem Waits.restores_iff {before : List Write} {img : Image}
    (waits : Waits call e c l before img) {e' : Env} (nonempty : call.listing c.stream.file l ≠ [])
      (enough : (call.listing c.stream.file l).length ≤ e'.fuel)
    (countable : ∃ allowable, recoverCase call.committing = checkConsistency allowable ∧
      Countable allowable l.length (call.listing c.stream.file l).length) (made : Nat) :
    (Restores e' (encode (img.commitStep call.committing (call.listing c.stream.file l).length made)) l ∨
      Restores e' (encode (img.commitStep call.committing (call.listing c.stream.file l).length made))
        (call.listing c.stream.file l)) ↔
      made ≠ 1 ∧ (made = 0 → Restores e' (encode img) l ∨
        Restores e' (encode img) (call.listing c.stream.file l)) := by
  have positive : 0 < e'.fuel := Nat.lt_of_lt_of_le (length_pos_iff.mpr nonempty) enough
  have opened : call.committing ≠ .closed := by cases call <;> exact nofun
  obtain ⟨allowable, case, countable⟩ := countable
  rw [← waits.size] at countable
  match made with
  | 0 => exact ⟨fun restored => ⟨nofun, fun _ => restored⟩, fun safe => safe.2 rfl⟩
  | 1 =>
    have never (any : Listing) : ¬ Restores e' (encode img.blankBackup) any :=
      blanked_not_restores waits.fits waits.linked nonempty positive waits.status
    exact ⟨fun restored => absurd restored (not_or.mpr ⟨never _, never _⟩), fun safe => absurd rfl safe.1⟩
  | made + 2 =>
    exact iff_of_true (.inr (counted_restores waits.fits waits.linked nonempty opened case countable
      enough (by omega)))
      ⟨by omega, by omega⟩

theorem Call.length_listing (call : Call) (nodup : (keys l).Nodup) (valid : call.Valid c.stream.file l) :
    (call.listing c.stream.file l).length ≤ l.length + 1 ∧
      (call.shortest ≤ l.length → 0 < (call.listing c.stream.file l).length) := by
  cases call with
  | add data offset =>
    have length : (Call.listing c.stream.file l (.add data offset)).length = l.length + 1 :=
      length_insertAt _
    omega
  | remove offset =>
    have length : (Call.listing c.stream.file l (.remove offset)).length + 1 = l.length :=
      length_removeAt nodup valid
    refine ⟨by omega, fun long => ?_⟩
    change 2 ≤ l.length at long
    omega

section Cut

variable {made after : List Write} {e' : Env} (ready : Ready c l) (valid : call.Valid c.stream.file l)
  (run : call.run e c = .ok () c') (trace : c'.stream.writes = c.stream.writes ++ (made ++ after))
  (late : after.length ≤ 4) (enough : l.length < e'.fuel)
include ready valid run trace late enough

/-- A change that can be undone is lost only between the two writes. -/
theorem long_cut_restores_iff (long : call.shortest ≤ l.length) :
    (Restores e' (applyWrites c.stream.file made) l ∨
      Restores e' (applyWrites c.stream.file made) (call.listing c.stream.file l)) ↔ after.length ≠ 3 := by
  obtain ⟨base, before, holds, untouched, safe, ⟨code, c', error, -⟩ | ⟨img, waits⟩⟩ :=
    call_undoable (e := e) ready valid long
  · exact nomatch run.symm.trans error
  have positive : 0 < call.shortest := by cases call <;> exact Nat.succ_pos _
  obtain ⟨short, nonempty⟩ := call.length_listing holds.nodup valid
  have undone : Restores e' (encode img) l := by
    rw [← waits.text]
    exact (safe.cut untouched (prefix_refl _)).restores ⟨holds,
      length_pos_iff.mp (Nat.lt_of_lt_of_le positive long), Nat.le_of_lt enough, ready.length_lt⟩
  rw [waits.text_of_cut waits.linked.clean (waits.linked.length_lt waits.fits) run trace late,
    waits.restores_iff (length_pos_iff.mp (nonempty long)) (by omega) (call.countable holds.nodup valid)]
  refine ⟨fun safe => by omega, fun more => ⟨by omega, fun _ => .inl undone⟩⟩

/-- After a crash in the commit the old or the new list is found again exactly when the
backups were not blanked with the old status still in place, the container was not empty
before an addition that had not begun its commit, and an only element was not being removed. -/
theorem call_cut_in_commit_restores_iff : (Restores e' (applyWrites c.stream.file made) l ∨
      Restores e' (applyWrites c.stream.file made) (call.listing c.stream.file l)) ↔
      call.CommitSafe l after.length := by
  cases call with
  | add data offset =>
    by_cases bare : l = []
    · subst bare
      obtain ⟨before, img, waits, never⟩ := addition_empty_waits ready valid run
      rw [waits.text_of_cut waits.linked.clean (waits.linked.length_lt waits.fits) run trace late,
        waits.restores_iff (cons_ne_nil _ _) enough (Call.countable _ nodup_nil valid)]
      have lost (any : Listing) (restored : Restores e' (encode img) [] ∨
          Restores e' (encode img) any) : False :=
        restored.elim (never e' [] enough) (never e' any enough)
      simp only [Call.CommitSafe, forall_const]
      exact ⟨fun safe => ⟨by omega, fun all => lost _ (safe.2 (by omega))⟩,
        fun safe => ⟨by omega, fun bare => by omega⟩⟩
    · rw [long_cut_restores_iff ready valid run trace late enough (length_pos_iff.mpr bare)]
      simp [Call.CommitSafe, bare]
  | remove offset =>
    by_cases several : 2 ≤ l.length
    · rw [long_cut_restores_iff ready valid run trace late enough several]
      simp only [Call.CommitSafe]
      omega
    · obtain ⟨value, rfl⟩ := eq_single valid several
      obtain ⟨before, img, commits, clean, size⟩ := removal_only_commits (e := e) ready
      have list : (Call.remove offset).listing c.stream.file [(offset, value)] = [] :=
        removeAt_single value
      have text := commits.text_of_cut clean (by rw [list]; decide) run trace late
      rw [text, list]
      have counted : img.size ≠ 0 := by rw [size]; decide
      refine (cleared_restores_iff commits.fits clean counted (Nat.zero_lt_of_lt enough)).trans ?_
      simp only [Call.CommitSafe, length_cons, length_nil, forall_const]
      omega

end Cut

def Env.still (fuel : Nat) : Env := ⟨fun _ => ⟨0, offBound_pos⟩, fuel⟩

def Container.single (value : Bytes) : Container := .openFile (encode (Image.single value)) ⟨0, 0⟩

theorem single_ready : Ready (Container.single ['a']) [(headerSize, ['a'])] :=
  ready_openFile ⟨0, 0⟩ ⟨_, rfl, fits_single (by decide), rfl, holds_single ['a']⟩

theorem single_length : (Container.single ['a']).stream.file.length = (single ['a']).fileEnd :=
  length_encode (fits_single (by decide))

theorem single_valid : (Call.add ['b'] headerSize).Valid (Container.single ['a']).stream.file
    [(headerSize, ['a'])] := by
  refine ⟨.inr (by simp), ?_⟩
  rw [single_length]
  decide

theorem single_commits (more : Nat) (few : more ≤ 4) :
    ∃ c' made after, (Call.add ['b'] headerSize).run (.still 3) (Container.single ['a']) = .ok () c' ∧
      c'.stream.writes = (Container.single ['a']).stream.writes ++ (made ++ after) ∧
        after.length = more := by
  have bytes : ['b'] ≠ ([] : Bytes) := cons_ne_nil _ _
  obtain ⟨it, c', added, -⟩ := addData_ready
    (e := .still 3) single_ready bytes single_valid.1 single_valid.2
  have run : (Call.add ['b'] headerSize).run (.still 3) (Container.single ['a']) = .ok () c' := by
    rw [Call.run, bind_ok added]
    rfl
  obtain ⟨base, before, -, -, -, ⟨code, c'', error, -⟩ | ⟨img, waits⟩⟩ :=
    call_undoable (e := .still 3) single_ready single_valid (by decide)
  · exact nomatch run.symm.trans error
  obtain ⟨final, returns, trace⟩ := waits.run
  obtain ⟨-, rfl⟩ := Outcome.ok.inj (returns.symm.trans run)
  let writes := commitWrites .adEmpty ((Call.add ['b'] headerSize).listing
    (Container.single ['a']).stream.file
    [(headerSize, ['a'])]).length
  have four : writes.length = 4 := rfl
  refine ⟨final, before ++ writes.take (4 - more), writes.drop (4 - more), run, ?_, ?_⟩
  · rw [append_assoc, take_append_drop]
    exact trace
  · rw [length_drop, four]
    omega

theorem call_cut_in_commit_restores_iff_one : ∃ c' made after,
    (Call.add ['b'] headerSize).run (.still 3) (Container.single ['a']) = .ok () c' ∧
      c'.stream.writes = (Container.single ['a']).stream.writes ++ (made ++ after) ∧ after.length = 2 ∧
      (Restores (.still 3) (applyWrites (Container.single ['a']).stream.file made) [(headerSize, ['a'])] ∨
        Restores (.still 3) (applyWrites (Container.single ['a']).stream.file made)
          ((Call.add ['b'] headerSize).listing (Container.single ['a']).stream.file
            [(headerSize, ['a'])])) := by
  obtain ⟨c', made, after, run, trace, more⟩ := single_commits 2 (by decide)
  refine ⟨c', made, after, run, trace, more, ?_⟩
  refine (call_cut_in_commit_restores_iff single_ready single_valid run trace (by omega)
    (by decide)).mpr ?_
  rw [more]
  exact ⟨by decide, nofun⟩

/-- A second element is added before the first, and the process stops right after the write
that blanks the backups: the next process does not start. -/
theorem call_cut_after_blanking_not_restored : ∃ c' made after,
    (Call.add ['b'] headerSize).run (.still 3) (Container.single ['a']) = .ok () c' ∧
      c'.stream.writes = (Container.single ['a']).stream.writes ++ (made ++ after) ∧ after.length = 3 ∧
      ¬ (Restores (.still 3) (applyWrites (Container.single ['a']).stream.file made)
        [(headerSize, ['a'])] ∨
        Restores (.still 3) (applyWrites (Container.single ['a']).stream.file made)
          ((Call.add ['b'] headerSize).listing (Container.single ['a']).stream.file
            [(headerSize, ['a'])])) := by
  obtain ⟨c', made, after, run, trace, more⟩ := single_commits 3 (by decide)
  refine ⟨c', made, after, run, trace, more, ?_⟩
  rw [long_cut_restores_iff single_ready single_valid run trace (by omega) (by decide) (by decide)]
  exact fun other => other more

end Wms.FileContainer
