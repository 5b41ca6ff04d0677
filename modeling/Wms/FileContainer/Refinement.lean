import Wms.FileContainer.UpdateCalls

/-! A container refines a list.

An object is ready when its file is a closed container and its cache will be right by the
time it is used. The calls of one process keep it ready and change the list as a list.
-/

set_option autoImplicit false

namespace Wms.FileContainer

open Lib Lib.FileProg Lib.Links Image Prog Listing List

/-- An object at work on a closed container that holds a list. -/
def Ready (c : Container) (l : Listing) : Prop :=
  ∃ (k : Cache) (img : Image) (pos : Nat) (writes : List Write), c = Snapshot.at ⟨k, img⟩ pos writes ∧
    img.Fits ∧ img.status = .closed ∧ img.Holds l ∧ Coherent k img

structure Serving (k : Cache) (img : Image) (l : Listing) : Prop where
  fits : img.Fits
  closed : img.status = .closed
  holds : img.Holds l
  coherent : Coherent k img

variable {c : Container} {e : Env} {l a b : Listing} {data : Bytes} {offset : Nat}

section

variable {k : Cache} {img : Image} {pos : Nat} {writes : List Write}

theorem Serving.ready (serving : Serving k img l) : Ready (Snapshot.at ⟨k, img⟩ pos writes) l :=
  ⟨k, img, pos, writes, rfl, serving.fits, serving.closed, serving.holds, serving.coherent⟩

theorem Serving.opens (serving : Serving k img l) (e : Env) (stamp : Bool) :
    Opens Unchecked e stamp ⟨k, img⟩ ⟨k.prepared img stamp, img⟩ l :=
  opens_closed e stamp serving.closed serving.coherent serving.holds

theorem Ready.serving (ready : Ready c l) :
    ∃ k img pos writes, c = Snapshot.at ⟨k, img⟩ pos writes ∧ Serving k img l := by
  obtain ⟨k, img, pos, writes, same, fits, closed, holds, coherent⟩ := ready
  exact ⟨k, img, pos, writes, same, fits, closed, holds, coherent⟩

theorem ready_length (fits : img.Fits) :
    (Snapshot.at ⟨k, img⟩ pos writes : Container).stream.file.length = img.fileEnd :=
  length_encode fits

end

variable {s t : Snapshot Cache Image} (stamp : TimeStamp)

theorem ready_openFile {file : Bytes} (wellFormed : WellFormed file l) :
    Ready (Container.openFile file stamp) l := by
  obtain ⟨img, rfl, fits, closed, holds⟩ := wellFormed
  exact ⟨_, img, 0, [], rfl, fits, closed, holds, fun initialized => absurd initialized Bool.false_ne_true⟩

theorem Ready.wellFormed (ready : Ready c l) : WellFormed c.stream.file l := by
  obtain ⟨k, img, pos, writes, rfl, fits, closed, holds, -⟩ := ready
  exact ⟨img, rfl, fits, closed, holds⟩

theorem Ready.length_lt (ready : Ready c l) : l.length < sizeBound := by
  obtain ⟨img, -, fits, -, holds⟩ := ready.wellFormed
  exact holds.length_lt fits

/-! The calls keep an object ready. -/

theorem Image.linked_cleared (img : Image) (clean : img.scar = []) (status : FileStatus) :
    (img.cleared.commitStep status 0 4).Linked [] where
  clean := clean
  finished := rfl
  segment := trivial
  nodup := nodup_nil
  first := rfl
  last := rfl
  bare _ := rfl
  blank _ := rfl

theorem Listing.length_insertAt (new : Nat × Bytes) : (insertAt offset new l).length = l.length + 1 := by
  induction l with
  | nil => rfl
  | cons first rest ih =>
    rw [insertAt]
    split
    · rfl
    · rw [length_cons, ih, length_cons]

section

variable (pos : Nat) (writes : List Write) (fits : s.image.Fits) (opens : Opens Unchecked e false s t l)
  (nonempty : data ≠ []) (place : offset = s.image.fileEnd ∨ offset ∈ keys l)
  (bound : s.image.fileEnd + calculateDataSize data.length < offBound)
include fits opens nonempty place bound

/-- `add_data` returns the place of the new element, which was the end of the file. -/
theorem addData_appends :
    ∃ it k' new stop made, addData data offset e (s.at pos writes) = .ok it
      (Snapshot.at ⟨k', new⟩ stop made) ∧
      it.current = s.image.fileEnd ∧ Serving k' new (insertAt offset (it.current, data) l) ∧
      Appended t.image data new := by
  rw [← opens.unmoved] at place bound ⊢
  have reaches : Reaches Unchecked (stageAddition data offset) e s pos _ :=
    stageAddition_staged opens nonempty bound place
  obtain ⟨r, u, stop, before, run, fitsEnd, -, -, it, here, rfl, staged, appended⟩ :=
    reaches.run fits writes
  have length : (insertAt offset (it.current, data) l).length = t.image.size + 1 := by
    rw [length_insertAt, opens.holds.size]
  rw [← here] at staged
  have small := staged.linked.length_lt fitsEnd
  refine ⟨it, _, _, _, _, addData_commits fitsEnd staged.linked.clean small ?_ run, here,
    ⟨(applyWrites_commit .adEmpty fitsEnd staged.linked.clean small 4).1, rfl,
      { staged.linked with blank := fun _ => rfl, size := rfl }, fun _ _ => ⟨staged.limits, rfl⟩⟩,
        appended⟩
  rw [length, staged.counted]

theorem addData_opened : ∃ it c', addData data offset e (s.at pos writes) = .ok it c' ∧
    it.current = s.image.fileEnd ∧
      Ready c' (insertAt offset (it.current, data) l) := by
  obtain ⟨it, k', new, stop, made, run, here, serving, -⟩ :=
    addData_appends pos writes fits opens nonempty place bound
  exact ⟨it, _, run, here, serving.ready⟩

end

theorem addData_ready (ready : Ready c l) (nonempty : data ≠ [])
    (place : offset = c.stream.file.length ∨ offset ∈ keys l)
    (bound : c.stream.file.length + calculateDataSize data.length < offBound) :
    ∃ it c', addData data offset e c = .ok it c' ∧ it.current = c.stream.file.length ∧
      Ready c' (insertAt offset (it.current, data) l) := by
  obtain ⟨k, img, pos, writes, rfl, serving⟩ := ready.serving
  rw [ready_length serving.fits] at place bound ⊢
  exact addData_opened pos writes serving.fits (serving.opens e false) nonempty place bound

theorem Listing.length_removeAt (nodup : (keys l).Nodup) (member : offset ∈ keys l) :
    (removeAt offset l).length + 1 = l.length := by
  obtain ⟨a, value, b, rfl⟩ := exists_split member
  rw [removeAt_of_nodup nodup]
  simp only [length_append, length_cons]
  omega

section

variable {s t : Snapshot Cache Image} (pos : Nat) (writes : List Write) (fits : s.image.Fits)
include fits

/-- The record of a removed element stays where it was, unless it was the only one. -/
theorem removeData_retires (opens : Opens Unchecked e false s t l) (several : 2 ≤ l.length)
    (member : offset ∈ keys l) :
    ∃ k' new stop made, removeData offset e (s.at pos writes) = .ok () (Snapshot.at ⟨k', new⟩ stop made) ∧
      Serving k' new (removeAt offset l) ∧ Retired t.image offset new := by
  have length := length_removeAt opens.holds.nodup member
  have reaches : Reaches Unchecked (stageRemoval offset) e s pos _ :=
    stageRemoval_opened opens (fun _ _ => .unchecked) several member
  obtain ⟨r, u, stop, before, run, fitsEnd, -, -, rfl, staged, retired⟩ := reaches.run fits writes
  have small := staged.linked.length_lt fitsEnd
  refine ⟨_, _, _, _, removeData_commits fitsEnd staged.linked.clean small ?_ run,
    ⟨(applyWrites_commit .rdEmpty fitsEnd staged.linked.clean small 4).1, rfl,
      { staged.linked with blank := fun _ => rfl, size := rfl }, fun _ _ => ⟨staged.limits, rfl⟩⟩,
        { retired with }⟩
  rw [length, staged.counted, opens.holds.size]

theorem removeData_only {value : Bytes} (opens : Opens Unchecked e false s t [(offset, value)]) :
    ∃ k' new stop made,
      removeData offset e (s.at pos writes) = .ok () (Snapshot.at ⟨k', new⟩ stop made) ∧
        Serving k' new [] := by
  obtain ⟨stop, ends⟩ := stageRemoval_only_opened pos opens
  obtain ⟨fitsEnd, runs⟩ := ends fits
  obtain ⟨before, run, -, -⟩ := runs writes
  have small : 0 < sizeBound := by decide
  refine ⟨_, _, _, _, removeData_commits fitsEnd opens.holds.clean small ?_ run,
    (applyWrites_commit .rdEmpty fitsEnd opens.holds.clean small 4).1, rfl, ?_, fun _ _ => ⟨rfl, rfl⟩⟩
  · exact opens.size.trans opens.holds.size
  · exact { linked_cleared (t.image.started e t.cache) opens.holds.clean .rdEmpty with size := rfl }

theorem removeData_opened (opens : Opens Unchecked e false s t l) (member : offset ∈ keys l) :
    ∃ c', removeData offset e (s.at pos writes) = .ok () c' ∧ Ready c' (removeAt offset l) := by
  by_cases several : 2 ≤ l.length
  · obtain ⟨k', new, stop, made, run, serving, -⟩ :=
      removeData_retires pos writes fits opens several member
    exact ⟨_, run, serving.ready⟩
  · obtain ⟨value, rfl⟩ := eq_single member several
    obtain ⟨k', new, stop, made, run, serving⟩ := removeData_only pos writes fits opens
    rw [removeAt_single]
    exact ⟨_, run, serving.ready⟩

end

theorem removeData_ready (ready : Ready c l) (member : offset ∈ keys l) :
    ∃ c', removeData offset e c = .ok () c' ∧ Ready c' (removeAt offset l) := by
  obtain ⟨k, img, pos, writes, rfl, serving⟩ := ready.serving
  exact removeData_opened pos writes serving.fits (serving.opens e false) member

theorem Image.holds_empty (status : FileStatus) : (empty stamp status).Holds [] where
  clean := rfl
  finished := rfl
  segment := trivial
  nodup := nodup_nil
  first := rfl
  last := rfl
  bare _ := rfl
  blank _ := rfl
  size := rfl

theorem ready_stamped (e : Env) (k : Cache) {img : Image} (pos : Nat) (writes : List Write)
    (fits : img.Fits)
    (closed : img.status = .closed) (holds : img.Holds l) (limits : k.limits.pointers = img.limits)
    (size : k.size = img.size) :
    ∃ c, (do updateTimeStamp; update fun c => { c with initialized := true } : Method Unit) e
      (Snapshot.at ⟨k, img⟩ pos writes) = .ok () c ∧ Ready c l := by
  have ends : Ends Unchecked (do updateTimeStamp; update fun c => { c with initialized := true } : Method Unit) e
      ⟨k, img⟩ pos (.ok ()) ⟨{ k with stamp := nextStamp e k img, ticks := k.ticks + 2, initialized := true },
        { img with stamp := nextStamp e k img }⟩ 27 :=
    .bind (updateTimeStamp_ends holds.clean .unchecked) (.update _)
  obtain ⟨fitsEnd, runs⟩ := ends fits
  obtain ⟨made, run, -⟩ := runs writes
  exact ⟨_, run, _, _, 27, _, rfl, fitsEnd, closed, { holds with }, fun _ _ => ⟨limits, size⟩⟩

theorem createFile_ready (e : Env) (stamp : TimeStamp) :
    ∃ c, createFile e (Container.openFile [] stamp) = .ok () c ∧ Ready c [] := by
  have created : Ends Unchecked createEmptyFile e
    (⟨(Container.openFile [] stamp).cache, []⟩ : Snapshot Cache Bytes) 0 _ _ _ := createEmptyFile_text
  obtain ⟨made, run, -⟩ := (created trivial).2 []
  rw [Snapshot.at_text] at run
  have fits : (empty ⟨e.clock 1, 0⟩ .closed).Fits :=
    fits_empty .closed (Fin.isLt _) (by exact Nat.zero_lt_succ _)
  -- Stated in full: the result of the run has to match the state of `ready_stamped` as it stands.
  have emptied : createEmptyFile e (Container.openFile [] stamp) = .ok () (Snapshot.at
      ⟨(Container.openFile [] stamp).cache.emptied ⟨e.clock 1, 0⟩, empty ⟨e.clock 1, 0⟩ .closed⟩ 391
      ([] ++ made)) := run
  obtain ⟨c, stamped, ready⟩ := ready_stamped e
    ((Container.openFile [] stamp).cache.emptied ⟨e.clock 1, 0⟩) 391
    ([] ++ made) fits rfl (holds_empty _ _) rfl rfl
  refine ⟨c, ?_, ready⟩
  rw [createFile, bind_ok emptied]
  exact stamped

/-! What can be read from the file. -/

def walkNext : Nat → Nat → Method (List Nat)
  | 0, _ => diverge
  | fuel + 1, offset => do
    let fileEnd ← getEnd
    if offset = fileEnd then pure []
    else do
      let it ← readIterator offset false
      let rest ← walkNext fuel it.next
      pure (offset :: rest)

def walkPrev : Nat → Nat → Method (List Nat)
  | 0, _ => diverge
  | fuel + 1, offset =>
    if offset = 0 then pure []
    else do
      let it ← readIterator offset false
      let rest ← walkPrev fuel it.prev
      pure (offset :: rest)

def forwardWalk : Method (List Nat) := do
  let limits ← readInitialPosition ⟨0, 0, 0⟩ false
  let env ← ask
  walkNext env.fuel limits.prev

def backwardWalk : Method (List Nat) := do
  let limits ← readInitialPosition ⟨0, 0, 0⟩ false
  let fileEnd ← getEnd
  if limits.next = fileEnd then pure []
  else
    let env ← ask
    walkPrev env.fuel limits.next

def sizeField : Method Nat := do
  readSize
  let c ← cache
  return c.size

section

variable {crash : Bytes → Prop} {k : Cache} {img : Image}

theorem walkNext_ends {fuel : Nat} (pos : Nat) (linked : img.Linked (a ++ b)) (enough : b.length < fuel) :
    ∃ stop, Ends crash (walkNext fuel (headKey b img.fileEnd)) e ⟨k, img⟩ pos
      (.ok (keys b)) ⟨k, img⟩ stop := by
  induction b generalizing a fuel pos with
  | nil =>
    obtain ⟨fuel, rfl⟩ := Nat.exists_eq_add_one.mpr enough
    exact ⟨_, .bind getEnd_ends (.on_true rfl (.pure _))⟩
  | cons first rest ih =>
    obtain ⟨key, value⟩ := first
    obtain ⟨fuel, rfl⟩ := Nat.exists_eq_add_one.mpr (Nat.zero_lt_of_lt enough)
    obtain ⟨r, found, -, list, -⟩ := linked.record
    have shape : img.Linked (a ++ [(key, value)] ++ rest) := by rwa [append_assoc]
    have inside : key ≠ 0 ∧ key ≠ img.fileEnd := linked.key_ne (by simp)
    obtain ⟨stop, run⟩ := ih (key + 34) shape (Nat.lt_of_succ_lt_succ enough)
    refine ⟨stop, .bind getEnd_ends (.on_false inside.2 (.bind (readIterator_ends found) ?_))⟩
    rw [list]
    exact .bind run (.pure _)

theorem walkPrev_ends {fuel : Nat} (pos : Nat) (linked : img.Linked (a ++ b)) (enough : a.length < fuel) :
    ∃ stop, Ends crash (walkPrev fuel (lastKey a 0)) e ⟨k, img⟩ pos
      (.ok (keys a).reverse) ⟨k, img⟩ stop := by
  induction fuel generalizing a b pos with
  | zero => exact absurd enough (Nat.not_lt_zero _)
  | succ fuel ih =>
    rcases eq_nil_or_concat' a with rfl | ⟨front, ⟨key, value⟩, rfl⟩
    · exact ⟨_, .on_true rfl (.pure _)⟩
    · rw [append_assoc] at linked
      obtain ⟨r, found, -, list, -⟩ := linked.record
      have inside : key ≠ 0 := (linked.key_ne (by simp)).1
      obtain ⟨stop, run⟩ := ih (key + 34) linked (by simp at enough; omega)
      rw [lastKey_append, keys_append, reverse_append]
      refine ⟨stop, .on_false inside (.bind (readIterator_ends found) ?_)⟩
      rw [list]
      exact .bind run (.pure _)

theorem forwardWalk_ends (pos : Nat) (linked : img.Linked l) (enough : l.length < e.fuel) :
    ∃ stop, Ends crash forwardWalk e ⟨k, img⟩ pos (.ok (keys l)) ⟨k, img⟩ stop := by
  obtain ⟨stop, run⟩ := walkNext_ends (a := []) 356 linked enough
  refine ⟨stop, .bind (readInitialPosition_ends _) (.bind .ask ?_)⟩
  rw [← linked.first] at run
  exact run

theorem backwardWalk_ends (pos : Nat) (linked : img.Linked l) (enough : l.length < e.fuel) :
    ∃ stop, Ends crash backwardWalk e ⟨k, img⟩ pos (.ok (keys l).reverse) ⟨k, img⟩ stop := by
  by_cases empty : l = []
  · subst empty
    exact ⟨img.fileEnd, .bind (readInitialPosition_ends _)
      (.bind getEnd_ends (.on_true linked.last (.pure _)))⟩
  · have last : img.limits.next = lastKey l 0 := linked.last.trans (lastKey_of_ne_nil empty _)
    have inside : img.limits.next ≠ img.fileEnd := last ▸ (linked.key_ne (lastKey_mem 0 empty)).2
    obtain ⟨stop, run⟩ := walkPrev_ends (b := []) img.fileEnd (by rwa [append_nil]) enough
    refine ⟨stop, .bind (readInitialPosition_ends _)
      (.bind getEnd_ends (.on_false inside (.bind .ask ?_)))⟩
    rw [← last] at run
    exact run

end

theorem readData_opened {crash : Bytes → Prop} {a b : Listing} {key : Nat} {value : Bytes} (pos : Nat)
    (opens : Opens crash e true s t (a ++ (key, value) :: b)) (enough : value.length < e.fuel) :
    ∃ stop, Ends crash (readData key false) e s pos
      (.ok (⟨lastKey a 0, headKey b s.image.fileEnd, key⟩, value)) t stop := by
  obtain ⟨modified, mid, prepared⟩ := opens.run s.image.fileEnd
  have linked := opens.holds.toLinked
  obtain ⟨r, found, live, list, rfl⟩ := linked.record
  have inside : key < t.image.fileEnd := (linked.key_bound (by simp)).2
  refine ⟨key + 94 + r.data.length, .bind getEnd_ends (.bind prepared ?_)⟩
  rw [← opens.unmoved]
  refine .bind (endAfter_ends modified) (.on_true (Nat.le_of_lt inside) (.bind (.seek _)
    (.bind (readDataHere_ends found (.inl live) enough) ?_)))
  rw [list]
  exact .pure _

def Answers {α : Type} (m : Method α) (e : Env) (c : Container) (answer : α) : Prop :=
  ∃ c', m e c = .ok answer c' ∧ c'.stream.file = c.stream.file

theorem Answers.of_ends {α : Type} {m : Method α} {answer : α} {k k' : Cache} {img : Image}
    {pos stop : Nat} {writes : List Write} (fits : img.Fits)
      (ends : Ends Unchecked m e ⟨k, img⟩ pos (.ok answer) ⟨k', img⟩ stop) :
    Answers m e (Snapshot.at ⟨k, img⟩ pos writes) answer := by
  obtain ⟨made, run, -⟩ := (ends fits).2 writes
  exact ⟨_, run, rfl⟩

/-- What a reader of the file sees is the list. -/
structure Refines (c : Container) (l : Listing) : Prop where
  forward : ∀ e : Env, l.length < e.fuel → Answers forwardWalk e c (keys l)
  backward : ∀ e : Env, l.length < e.fuel → Answers backwardWalk e c (keys l).reverse
  size : ∀ e, Answers sizeField e c l.length
  data : ∀ (e : Env) (a b : Listing) (key : Nat) (value : Bytes), l = a ++ (key, value) :: b →
    value.length < e.fuel →
    Answers (readData key false) e c (⟨lastKey a 0, headKey b c.stream.file.length, key⟩, value)

theorem Ready.refines (ready : Ready c l) : Refines c l := by
  obtain ⟨k, img, pos, writes, rfl, fits, closed, holds, coherent⟩ := ready
  constructor
  case forward =>
    intro e enough
    obtain ⟨stop, run⟩ := forwardWalk_ends pos holds.toLinked enough
    exact .of_ends fits run
  case backward =>
    intro e enough
    obtain ⟨stop, run⟩ := backwardWalk_ends pos holds.toLinked enough
    exact .of_ends fits run
  case size =>
    intro e
    rw [← holds.size]
    exact .of_ends fits (.bind (readSize_ends holds.clean) (.bind .cache (.pure _)))
  case data =>
    rintro e a b key value rfl enough
    rw [ready_length fits]
    obtain ⟨stop, run⟩ := readData_opened pos (opens_closed e true closed coherent holds) enough
    exact .of_ends fits run

/-- One process works on a container that is empty at first. The calls may be made at any
time; a file never grows beyond what `streamoff` can address. -/
inductive Run : Container → Listing → Prop
  | created {e : Env} {stamp : TimeStamp} {c : Container}
      (run : createFile e (Container.openFile [] stamp) = .ok () c) : Run c []
  | opened {file : Bytes} {stamp : TimeStamp} (empty : WellFormed file []) :
      Run (Container.openFile file stamp) []
  | added {e : Env} {c c' : Container} {l : Listing} {data : Bytes} {offset : Nat} {it : FileIterator}
      (before : Run c l) (nonempty : data ≠ []) (place : offset = c.stream.file.length ∨ offset ∈ keys l)
      (bound : c.stream.file.length + calculateDataSize data.length < offBound)
      (run : addData data offset e c = .ok it c') : Run c' (insertAt offset (it.current, data) l)
  | removed {e : Env} {c c' : Container} {l : Listing} {offset : Nat} (before : Run c l)
      (member : offset ∈ keys l)
      (run : removeData offset e c = .ok () c') : Run c' (removeAt offset l)

theorem Run.ready (run : Run c l) : Ready c l := by
  induction run with
  | created run =>
    obtain ⟨c, created, ready⟩ := createFile_ready _ _
    cases run.symm.trans created
    exact ready
  | opened empty => exact ready_openFile _ empty
  | added before nonempty place bound run ih =>
    obtain ⟨it, c, added, -, ready⟩ := addData_ready ih nonempty place bound
    cases run.symm.trans added
    exact ready
  | removed before member run ih =>
    obtain ⟨c, removed, ready⟩ := removeData_ready ih member
    cases run.symm.trans removed
    exact ready

/-- After every run of additions and removals the file holds the list they make. -/
theorem run_refines_listing (run : Run c l) : Refines c l := run.ready.refines

theorem run_refines_listing_one : ∃ c, Run c [(headerSize, ['a'])] ∧ Refines c [(headerSize, ['a'])] := by
  let e : Env := ⟨fun _ => ⟨0, offBound_pos⟩, 1⟩
  obtain ⟨c, created, ready⟩ := createFile_ready e ⟨0, 0⟩
  have length : c.stream.file.length = headerSize := by
    obtain ⟨k, img, pos, writes, rfl, fits, -, holds, -⟩ := ready
    rw [ready_length fits, holds.fileEnd_of_nil]
  obtain ⟨it, c', added, here, -⟩ := addData_ready (e := e) ready (cons_ne_nil 'a' []) (.inl rfl)
    (by rw [length]; decide)
  have run := Run.added (.created created) (cons_ne_nil 'a' []) (.inl rfl) (by rw [length]; decide) added
  rw [here, length] at run
  exact ⟨c', run, run_refines_listing run⟩

end Wms.FileContainer
