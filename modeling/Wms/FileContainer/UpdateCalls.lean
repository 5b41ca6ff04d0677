import Wms.FileContainer.Update

/-! `add_data` and `remove_data` from their start to their end.

Both start by bringing the cached header up to date, mark the file as open, change the
records, and commit: the backups are blanked, and the size and the status are written.
-/

set_option autoImplicit false

namespace Wms.FileContainer

open Lib Lib.FileProg Lib.Links Image Function List Prog

variable {crash : Bytes → Prop} {e : Env} {k : Cache} {img : Image} {pos : Nat} {a b l : Listing}
  {offset : Nat} {data : Bytes}

/-! The start of an operation. -/

def Coherent (k : Cache) (img : Image) : Prop :=
  k.initialized = true → img.stamp.gt k.stamp = false → k.limits.pointers = img.limits ∧ k.size = img.size

def Cache.prepared (k : Cache) (img : Image) (stamp : Bool) : Cache :=
  if k.initialized then
    if img.stamp.gt k.stamp then
      if stamp then { k.readAll img with ticks := k.ticks + 1 }
        else { k.readFrom img with ticks := k.ticks + 1 }
    else { k with ticks := k.ticks + 1 }
  else { k.readAll img with initialized := true }

theorem checkStreamAndStamp_ends {r : Except IOStatus Unit} (clean : img.scar = [])
    (closed : img.status = .closed)
    (same : r = if img.stamp.gt k.stamp then .error .containerModified else .ok ()) :
    Ends crash checkStreamAndStamp e ⟨k, img⟩ pos r ⟨{ k with ticks := k.ticks + 1 }, img⟩ 26 := by
  refine .bind (.bind readFileStatus_ends (.on_false (fun wrong => wrong closed) (.pure _))) ?_
  refine .bind (checkStamp_ends clean) ?_
  rw [same]
  split
  · exact .throw _
  · exact .pure _

theorem prepare_ends (crash : Bytes → Prop) (e : Env) (k : Cache) (pos : Nat)
    (clean : img.scar = []) (closed : img.status = .closed) (stamp : Bool) :
    ∃ modified stop, Ends crash (prepare stamp) e ⟨k, img⟩ pos
      (.ok modified) ⟨k.prepared img stamp, img⟩ stop := by
  unfold Cache.prepared
  by_cases initialized : k.initialized = true
  · rw [if_pos initialized]
    by_cases newer : img.stamp.gt k.stamp = true
    · rw [if_pos newer]
      refine ⟨true, if stamp then 26 else 390, .bind .cache (.on_false (by simp [initialized]) (.bind
        (.attempt (checkStreamAndStamp_ends clean closed (if_pos newer).symm))
          (.bind (syncData_ends clean stamp) ?_)))⟩
      cases stamp <;> exact .pure _
    · rw [if_neg newer]
      exact ⟨false, 26, .bind .cache (.on_false (by simp [initialized]) (.bind
        (.attempt (checkStreamAndStamp_ends clean closed (if_neg newer).symm)) (.pure _)))⟩
  · rw [if_neg initialized]
    refine ⟨false, 390, .bind .cache (.on_true (by simp [initialized]) ?_)⟩
    exact .bind (initContainer_closed_ends clean closed) (.pure _)

theorem Coherent.prepared (coherent : Coherent k img) (stamp : Bool) :
    (k.prepared img stamp).initialized = true ∧ (k.prepared img stamp).limits.pointers = img.limits ∧
      (k.prepared img stamp).size = img.size := by
  unfold Cache.prepared
  split
  · rename_i initialized
    split
    · split <;> exact ⟨initialized, rfl, rfl⟩
    · rename_i older
      exact ⟨initialized, coherent initialized (by simpa using older)⟩
  · exact ⟨rfl, rfl, rfl⟩

/-- The start of an operation finds a closed container that holds the list, or makes it one, and
leaves the file as long as it was. -/
structure Opens (crash : Bytes → Prop) (e : Env) (stamp : Bool) (s t : Snapshot Cache Image)
    (l : Listing) : Prop where
  run : ∀ pos, ∃ modified stop, Ends crash (prepare stamp) e s pos (.ok modified) t stop
  unmoved : t.image.fileEnd = s.image.fileEnd
  closed : t.image.status = .closed
  holds : t.image.Holds l
  initialized : t.cache.initialized = true
  limits : t.cache.limits.pointers = t.image.limits
  size : t.cache.size = t.image.size

theorem opens_closed (e : Env) (stamp : Bool) (closed : img.status = .closed) (coherent : Coherent k img)
    (holds : img.Holds l) : Opens crash e stamp ⟨k, img⟩ ⟨k.prepared img stamp, img⟩ l where
  run pos := prepare_ends crash e k pos holds.clean closed stamp
  unmoved := rfl
  closed
  holds
  initialized := (coherent.prepared stamp).1
  limits := (coherent.prepared stamp).2.1
  size := (coherent.prepared stamp).2.2

/-! The records are changed. -/

def Image.started (img : Image) (e : Env) (k : Cache) : Image :=
  { img with stamp := nextStamp e k img, status := .opened }

structure Staged (img : Image) (statuses : List FileStatus) (l : Listing)
    (t : Snapshot Cache Image) : Prop where
  linked : t.image.Linked l
  status : t.image.status ∈ statuses
  size : t.image.size = img.size
  initialized : t.cache.initialized = true
  counted : t.cache.size = img.size
  stamp : t.cache.stamp = t.image.stamp
  limits : t.cache.limits.pointers = t.image.limits

theorem endAfter_ends (modified : Bool) :
    Ends crash (endAfter modified img.fileEnd) e ⟨k, img⟩ pos (.ok img.fileEnd) ⟨k, img⟩
      (if modified then img.fileEnd else pos) := by
  cases modified with
  | true => exact getEnd_ends
  | false => exact .pure _

def Cache.started (k : Cache) (e : Env) (img : Image) : Cache :=
  { k with stamp := nextStamp e k img, ticks := k.ticks + 2 }

theorem start_ends (clean : img.scar = []) (closed : img.status = .closed)
    (covers : ∀ X, Covered (img.started e k) X → Leaves crash X) {α : Type} {m : Method α}
    {post : Except IOStatus α → Snapshot Cache Image → Prop}
    (rest : Reaches crash m e ⟨k.started e img, img.started e k⟩ 27 post) :
    Reaches crash (do updateTimeStamp; writeFileStatus .opened; m) e ⟨k, img⟩ pos post := by
  refine .bind (updateTimeStamp_ends clean (covers _ ?_)) (.bind (writeFileStatus_ends (covers _ ?_)) rest)
  · exact .untouched ⟨clean, rfl⟩ (closed ▸ .head _) (.of_same rfl) rfl rfl
  · exact .untouched ⟨clean, rfl⟩ (.tail _ (.head _)) (.of_same rfl) rfl rfl

variable {t s : Snapshot Cache Image}

theorem Relisted.staged {base : Image} {k₀ : Cache} {status : FileStatus} {statuses : List FileStatus}
    (relisted : Relisted base k₀ status l t) (member : status ∈ statuses)
    (initialized : k₀.initialized = true) (counted : k₀.size = base.size) (stamp : k₀.stamp = base.stamp) :
    Staged base statuses l t where
  linked := relisted.linked
  status := relisted.status ▸ member
  size := relisted.size
  initialized := by rw [relisted.cache]; exact initialized
  counted := by rw [relisted.cache]; exact counted
  stamp := by rw [relisted.cache, relisted.stamp]; exact stamp
  limits := relisted.limits

section

variable {s t : Snapshot Cache Image} (opens : Opens crash e false s t l)
  (covers : ∀ X, Covered (t.image.started e t.cache) X → Leaves crash X)
include opens covers

/-- The first part of `add_data` when there are other elements. Empty data is refused when the
neighbours have been changed. -/
theorem stageAddition_opened (nonempty : l ≠ [])
    (bound : data ≠ [] → t.image.fileEnd + calculateDataSize data.length < offBound)
    (place : offset = t.image.fileEnd ∨ offset ∈ keys l) :
    Reaches crash (stageAddition data offset) e s pos fun r u =>
      (data = [] ∧ r = .error .dataError ∧
        Halted (t.image.started e t.cache) (t.cache.started e t.image) u) ∨
      (data ≠ [] ∧ ∃ it : FileIterator, it.current = t.image.fileEnd ∧ r = .ok it ∧
        Staged t.image [FileStatus.aeWritten, .abLast, .amLast]
          (Listing.insertAt offset (t.image.fileEnd, data) l) u ∧
        Appended t.image data u.image) := by
  obtain ⟨modified, mid, prepared⟩ := opens.run s.image.fileEnd
  have linked : (t.image.started e t.cache).Linked l := { opens.holds.toLinked with }
  refine .bind getEnd_ends (.bind prepared ?_)
  rw [← opens.unmoved]
  refine .bind (endAfter_ends modified) (start_ends opens.holds.clean opens.closed covers ?_)
  refine .mono (insertData_ends rfl opens.limits bound covers linked nonempty place) ?_
  rintro r u ⟨status, member, it, here, ⟨nothing, refused⟩ | ⟨nonempty, added, relisted, appended⟩, halted⟩
  · exact .inl ⟨nothing, refused, halted nothing⟩
  · exact .inr ⟨nonempty, it, here, added,
      { relisted.staged member opens.initialized opens.size rfl with }, appended⟩

theorem stageRemoval_opened (several : 2 ≤ l.length) (member : offset ∈ keys l) :
    Reaches crash (stageRemoval offset) e s pos fun r u =>
      r = .ok () ∧ Staged t.image [FileStatus.rdMark1, .rdMark2] (Listing.removeAt offset l) u ∧
        Retired t.image offset u.image := by
  obtain ⟨modified, mid, prepared⟩ := opens.run pos
  have linked : (t.image.started e t.cache).Linked l := { opens.holds.toLinked with }
  refine .bind prepared (start_ends opens.holds.clean opens.closed covers ?_)
  refine .mono (eraseData_ends rfl opens.limits covers linked member several) ?_
  rintro r u ⟨done, status, member, relisted, retired⟩
  exact ⟨done, { relisted.staged member opens.initialized opens.size rfl with }, { retired with }⟩

end

theorem stageAddition_empty_opened (pos : Nat) (opens : Opens Unchecked e false s t [])
    (bound : data ≠ [] → t.image.fileEnd + calculateDataSize data.length < offBound) :
    Reaches Unchecked (stageAddition data t.image.fileEnd) e s pos fun r u =>
      ((data = [] ∧ r = .error .dataError ∧
        Refused (t.image.started e t.cache) (t.cache.started e t.image) u ∧
          u.image.scar = [] ∧ u.image.status = .aeLimits) ∨
        (data ≠ [] ∧ ∃ it : FileIterator, it.current = t.image.fileEnd ∧ r = .ok it ∧
          Staged t.image [FileStatus.aeWritten] [(t.image.fileEnd, data)] u ∧
            Appended t.image data u.image)) ∧
      u.image.backup = t.image.backup ∧ u.image.limitsBackup = t.image.limits := by
  obtain ⟨modified, mid, prepared⟩ := opens.run s.image.fileEnd
  have linked : (t.image.started e t.cache).Linked [] := { opens.holds.toLinked with }
  refine .bind getEnd_ends (.bind prepared ?_)
  rw [← opens.unmoved]
  refine .bind (endAfter_ends modified) (start_ends opens.holds.clean opens.closed (fun _ _ =>
    .unchecked) ?_)
  refine .bind .cache (.on_true rfl (.mono (addDataAtEnd_empty_ends opens.limits bound linked) ?_))
  rintro r u ⟨⟨nothing, refused⟩ | ⟨nonempty, added, relisted, appended⟩, backup, saved, -, halted⟩
  · exact ⟨.inl ⟨nothing, refused, halted nothing⟩, backup, saved⟩
  · exact ⟨.inr ⟨nonempty, _, rfl, added,
      { relisted.staged (.head _) opens.initialized opens.size rfl with }, appended⟩,
      backup, saved⟩

theorem Staged.mono {statuses more : List FileStatus} (staged : Staged img statuses l t)
    (wider : statuses ⊆ more) : Staged img more l t :=
  { staged with status := wider staged.status }

theorem stageAddition_staged (opens : Opens Unchecked e false s t l) (nonempty : data ≠ [])
    (bound : t.image.fileEnd + calculateDataSize data.length < offBound)
    (place : offset = t.image.fileEnd ∨ offset ∈ keys l) :
    Reaches Unchecked (stageAddition data offset) e s pos fun r u =>
      ∃ it : FileIterator, it.current = t.image.fileEnd ∧ r = .ok it ∧
        Staged t.image [FileStatus.aeWritten, .abLast, .amLast]
          (Listing.insertAt offset (t.image.fileEnd, data) l) u ∧
        Appended t.image data u.image := by
  by_cases empty : l = []
  · subst empty
    obtain rfl : offset = t.image.fileEnd := place.resolve_right (by simp)
    refine (stageAddition_empty_opened pos opens fun _ => bound).mono fun r u ends => ?_
    obtain ⟨-, it, here, added, staged, appended⟩ := ends.1.resolve_left fun refused => nonempty refused.1
    exact ⟨it, here, added, staged.mono (cons_subset_cons _ (nil_subset _)), appended⟩
  · refine (stageAddition_opened opens (fun _ _ => .unchecked) empty (fun _ => bound) place).mono
      fun r u ends => ?_
    exact (ends.resolve_left fun refused => nonempty refused.1).2

theorem stageRemoval_only_opened {value : Bytes} (pos : Nat)
    (opens : Opens Unchecked e false s t [(offset, value)]) :
    ∃ stop, Ends Unchecked (stageRemoval offset) e s pos (.ok ())
      ⟨(t.cache.started e t.image).cleared, (t.image.started e t.cache).cleared⟩ stop := by
  obtain ⟨modified, mid, prepared⟩ := opens.run pos
  obtain ⟨r, found, live, list, -⟩ := opens.holds.toLinked.record (a := [])
  obtain ⟨stop, run⟩ := removeOnlyData_ends e (t.image.started e t.cache) t.image.fileEnd
    (show (t.cache.started e t.image).size = 1 from opens.size.trans opens.holds.size)
  refine ⟨stop, .bind prepared (.bind (updateTimeStamp_ends opens.holds.clean .unchecked)
    (.bind (writeFileStatus_ends .unchecked) ?_))⟩
  have here : (t.image.started e t.cache).at? offset = some r := found
  refine .bind (readIterator_ends here) (.bind (readSize_of_record_ends here) ?_)
  refine .on_true (show r.state = 'g' by simp [Record.state, live]) (.bind getEnd_ends ?_)
  rw [list]
  exact .on_true ⟨rfl, rfl⟩ run

/-! The commit. -/

def commitWrites (status : FileStatus) (size : Nat) : List Write :=
  [.put (statusPosition + 2) emptyBackup, .put statusPosition [status.char, '\n'],
    .put stampSize (numberLine size), .put statusPosition [FileStatus.closed.char, '\n']]

def Image.commitStep (img : Image) (status : FileStatus) (size : Nat) : Nat → Image
  | 0 => img
  | 1 => img.blankBackup
  | 2 => { img.blankBackup with status }
  | 3 => { img.blankBackup with status, size }
  | _ => { img.blankBackup with status := .closed, size }

theorem applyWrites_commit (status : FileStatus) {size : Nat} (fits : img.Fits) (clean : img.scar = [])
    (small : size < sizeBound) (made : Nat) : (img.commitStep status size made).Fits ∧
      applyWrites (encode img) ((commitWrites status size).take made) = encode
        (img.commitStep status size made) := by
  have blanked : img.blankBackup.Fits := Image.Fits.blankBackup fits
  have marked : Image.Fits { img.blankBackup with status } := { blanked with }
  have counted : Image.Fits { img.blankBackup with status, size } := { marked with size := small }
  have first : overwrite (encode img) (statusPosition + 2) emptyBackup = encode img.blankBackup :=
    Image.overwrite_blank fits
  have second : overwrite (encode img.blankBackup) statusPosition [status.char, '\n'] =
      encode { img.blankBackup with status } := Image.overwrite_field blanked 1 rfl rfl rfl
  have third : overwrite (encode { img.blankBackup with status }) stampSize (numberLine size) =
      encode { img.blankBackup with status, size } := Image.overwrite_size marked clean small
  have last : overwrite (encode { img.blankBackup with status, size }) statusPosition
      [FileStatus.closed.char, '\n'] = encode { img.blankBackup with status := .closed, size } :=
    Image.overwrite_field counted 1 rfl rfl rfl
  match made with
  | 0 => exact ⟨fits, rfl⟩
  | 1 => exact ⟨blanked, first⟩
  | 2 => exact ⟨marked, by simp [applyWrites, commitWrites, Write.apply, first, second, Image.commitStep]⟩
  | 3 => exact ⟨counted, by simp [applyWrites, commitWrites, Write.apply, first, second, third, Image.commitStep]⟩
  | made + 4 =>
    refine ⟨{ counted with }, ?_⟩
    rw [take_of_length_le (by simp [commitWrites])]
    simp [applyWrites, commitWrites, Write.apply, first, second, third, last, Image.commitStep]

/-! The whole call, given how its first part ends. -/

section

variable {t : Snapshot Cache Image} {stop size : Nat} {writes before : List Write} {c : Container}
  (fits : t.image.Fits) (clean : t.image.scar = []) (small : size < sizeBound)
include fits clean small

theorem commit_run (e : Env) (status : FileStatus) (stop : Nat) (writes : List Write) :
    (do createEmptyBackup status; writeAndSetSize size; writeFileStatus .closed : Method Unit) e
      (t.at stop writes) =
      .ok () (Snapshot.at ⟨{ t.cache with size }, t.image.commitStep status size 4⟩ stop
        (writes ++ commitWrites status size)) := by
  have text := (applyWrites_commit status fits clean small 4).2
  rw [take_of_length_le (by simp [commitWrites])] at text
  have trace (a b c d : Write) : writes ++ [a, b, c, d] = writes ++ [a] ++ [b] ++ [c] ++ [d] := by simp
  rw [Snapshot.at, Snapshot.at, ← text, commitWrites, trace]
  rfl

theorem addData_commits {it : FileIterator} (counted : t.cache.size + 1 = size)
    (run : stageAddition data offset e c = .ok it (t.at stop (writes ++ before))) :
    addData data offset e c = .ok it (Snapshot.at ⟨{ t.cache with size },
      t.image.commitStep .adEmpty size 4⟩ stop
      (writes ++ (before ++ commitWrites .adEmpty size))) := by
  have next : (t.cache.size + 1) % sizeBound = size := by rw [counted, Nat.mod_eq_of_lt small]
  have commits : commitAddition e (t.at stop (writes ++ before)) = _ :=
    .trans (by rw [← next]; rfl) (commit_run fits clean small e .adEmpty stop (writes ++ before))
  rw [addData, bind_ok run, bind_ok commits, append_assoc]
  rfl

theorem removeData_commits (counted : t.cache.size = size + 1)
    (run : stageRemoval offset e c = .ok () (t.at stop (writes ++ before))) :
    removeData offset e c = .ok () (Snapshot.at ⟨{ t.cache with size },
      t.image.commitStep .rdEmpty size 4⟩ stop
      (writes ++ (before ++ commitWrites .rdEmpty size))) := by
  have next : t.cache.size - 1 = size := by omega
  have kept (stream : FileStream) : recountSize e ⟨t.cache, stream⟩ = .ok () ⟨t.cache, stream⟩ := by
    rw [recountSize, bind_ok (show cache e _ = .ok t.cache _ from rfl), if_neg (by omega)]
    rfl
  rw [removeData, bind_ok run, ← append_assoc, ← commit_run fits clean small e .rdEmpty, ← next]
  exact (bind_ok (show createEmptyBackup .rdEmpty e _ = .ok () ⟨t.cache, _⟩ from rfl)).trans
    ((bind_ok (kept _)).trans rfl)

end

end Wms.FileContainer
