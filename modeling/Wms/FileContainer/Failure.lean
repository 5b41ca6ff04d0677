import Wms.FileContainer.Interval

/-! What a call that fails leaves to the calls after it.

An addition of empty data is refused when its neighbours have been relinked already, and undoing
that is left to the recovery that the next call starts. By then the next call knows the end of the
file, which the recovery may move. A call that is refused for what it reads at its offset leaves
the list alone, but a read beyond the end of the file leaves a failed stream.
-/

set_option autoImplicit false

namespace Wms.FileContainer

open Lib Lib.FileProg Lib.Links Image Prog

/-- The list is what every following call works on: the readers, the changes, and a process that
opens the file again. -/
structure Sees (c : Container) (l : Listing) : Prop where
  first : ∀ e : Env, l.length ≤ e.fuel →
    ∃ c', readBegin e c = .ok (headKey l c'.stream.file.length) c' ∧ Ready c' l
  next : ∀ (e : Env) (a b : Listing) (key : Nat) (value : Bytes), l = a ++ (key, value) :: b →
    l.length ≤ e.fuel →
    ∃ it c', incrementIterator ⟨lastKey a 0, headKey b c.stream.file.length, key⟩ e c = .ok it c' ∧
      it.current = headKey b c'.stream.file.length ∧ Ready c' l
  data : ∀ (e : Env) (a b : Listing) (key : Nat) (value : Bytes), l = a ++ (key, value) :: b →
    l.length ≤ e.fuel →
    value.length < e.fuel →
    ∃ c', readData key false e c = .ok (⟨lastKey a 0, headKey b c'.stream.file.length, key⟩,
      value) c' ∧ Ready c' l
  update : ∀ (e : Env) (call : Call), call.Valid c.stream.file l → (∀ offset, call ≠ .add [] offset) →
    l.length ≤ e.fuel → ∃ c', call.run e c = .ok () c' ∧ Ready c' (call.listing c.stream.file l)
  reopen : ∀ e : Env, l.length ≤ e.fuel → Restores e c.stream.file l

variable {e : Env} {k k' : Cache} {img new : Image} {pos stop offset : Nat} {writes : List Write}
  {l : Listing} {data : Bytes} {s t : Snapshot Cache Image} {call : Call}

/-! Calls that find the container closed, or make it so. -/

theorem Opens.ready {stamp : Bool} (opens : Opens Unchecked e stamp s t l) (fits : t.image.Fits) :
    Ready (t.at pos writes) l :=
  ⟨t.cache, t.image, pos, writes, rfl, fits, opens.closed, opens.holds,
    fun _ _ => ⟨opens.limits, opens.size⟩⟩

theorem Opens.reads {stamp : Bool} {α : Type} {m : Method α} {answer : α}
    (opens : Opens Unchecked e stamp s t l)
    (fits : s.image.Fits) (ends : ∃ stop, Ends Unchecked m e s pos (.ok answer) t stop) :
    ∃ c', m e (s.at pos writes) = .ok answer c' ∧ c'.stream.file.length = s.image.fileEnd ∧
      Ready c' l := by
  obtain ⟨stop, ends⟩ := ends
  obtain ⟨fitsEnd, runs⟩ := ends fits
  obtain ⟨made, run, -⟩ := runs writes
  refine ⟨_, run, ?_, opens.ready fitsEnd⟩
  rw [← opens.unmoved]
  exact length_encode fitsEnd

theorem readBegin_opened (pos : Nat) (opens : Opens Unchecked e true s t l) :
    ∃ stop, Ends Unchecked readBegin e s pos (.ok (headKey l s.image.fileEnd)) t stop := by
  obtain ⟨modified, stop, prepared⟩ := opens.run pos
  have first : t.cache.limits.prev = headKey l s.image.fileEnd := by
    rw [← opens.unmoved, ← opens.holds.first, ← opens.limits]
    rfl
  rw [← first]
  exact ⟨stop, .bind prepared (.bind .cache (.pure _))⟩

theorem incrementIterator_opened {a b : Listing} {key : Nat} {value : Bytes} (pos : Nat)
    (opens : Opens Unchecked e true s t (a ++ (key, value) :: b)) : ∃ it : FileIterator,
      it.current = headKey b s.image.fileEnd ∧ ∃ stop, Ends Unchecked
        (incrementIterator ⟨lastKey a 0, headKey b s.image.fileEnd, key⟩) e s pos (.ok it) t stop := by
  obtain ⟨modified, mid, prepared⟩ := opens.run s.image.fileEnd
  have linked := opens.holds.toLinked
  have inside : key ≠ 0 := (linked.key_ne (by simp)).1
  have start {it : FileIterator} (rest : ∀ mid, ∃ stop, Ends Unchecked
      (if headKey b t.image.fileEnd = t.image.fileEnd then pure ⟨0, 0, t.image.fileEnd⟩ else do
        let it ← readIterator key false
        readIterator it.next false : Method FileIterator) e t mid (.ok it) t stop) :
      ∃ stop, Ends Unchecked (incrementIterator ⟨lastKey a 0, headKey b t.image.fileEnd, key⟩) e s
        pos (.ok it) t
        stop := by
    obtain ⟨stop, rest⟩ := rest (if modified then t.image.fileEnd else mid)
    refine ⟨stop, .bind getEnd_ends (.bind prepared ?_)⟩
    rw [← opens.unmoved]
    exact .bind (endAfter_ends modified) (.bind .cache (.on_false inside rest))
  rw [← opens.unmoved]
  cases b with
  | nil => exact ⟨⟨0, 0, t.image.fileEnd⟩, rfl, start fun mid => ⟨mid, .on_true rfl (.pure _)⟩⟩
  | cons second rest =>
    obtain ⟨next, w⟩ := second
    obtain ⟨r, found, -, list, -⟩ := linked.record
    have split : a ++ (key, value) :: (next, w) :: rest = (a ++ [(key, value)]) ++ (next, w) ::
        rest := by simp
    obtain ⟨r', found', -⟩ := (split ▸ linked).record
    have apart : next ≠ t.image.fileEnd := (linked.key_ne (by simp)).2
    refine ⟨r'.list.at next, rfl, start fun mid =>
      ⟨next + 34, .on_false apart (.bind (readIterator_ends found) ?_)⟩⟩
    rw [list]
    exact readIterator_ends found'

theorem sees_of_opens (fits : s.image.Fits)
    (reopen : ∀ e : Env, l.length ≤ e.fuel → Restores e (encode s.image) l)
    (opens : ∀ (e : Env) (stamp : Bool), l.length ≤ e.fuel → ∃ t, Opens Unchecked e stamp s t l) :
    Sees (s.at pos writes) l := by
  have length : (s.at pos writes).stream.file.length = s.image.fileEnd := length_encode fits
  constructor
  case first =>
    intro e enough
    obtain ⟨t, opens⟩ := opens e true enough
    obtain ⟨c', run, same, ready⟩ := opens.reads fits (readBegin_opened _ opens)
    exact ⟨c', same ▸ run, ready⟩
  case next =>
    rintro e a b key value rfl enough
    obtain ⟨t, opens⟩ := opens e true enough
    obtain ⟨it, here, ends⟩ := incrementIterator_opened _ opens
    obtain ⟨c', run, same, ready⟩ := opens.reads fits ends
    exact ⟨it, c', length ▸ run, same ▸ here, ready⟩
  case data =>
    rintro e a b key value rfl enough more
    obtain ⟨t, opens⟩ := opens e true enough
    obtain ⟨c', run, same, ready⟩ := opens.reads fits (readData_opened pos opens more)
    exact ⟨c', same ▸ run, ready⟩
  case update =>
    intro e call valid filled enough
    obtain ⟨t, opens⟩ := opens e false enough
    rw [Call.Valid.eq_def, length] at valid
    cases call with
    | add data offset =>
      have nonempty : data ≠ [] := fun empty => filled offset (empty ▸ rfl)
      obtain ⟨it, c', run, here, ready⟩ := addData_opened pos writes fits opens nonempty valid.1 valid.2
      rw [Call.listing, length, ← here]
      exact ⟨c', bind_ok run, ready⟩
    | remove offset =>
      exact removeData_opened pos writes fits opens valid
  case reopen => exact reopen

/-! The first call after one that failed: the file is open, and nobody else has written to it. -/

structure Suspended (k : Cache) (img : Image) : Prop where
  initialized : k.initialized = true
  own : k.stamp = img.stamp
  clean : img.scar = []
  unclosed : img.status ≠ .closed

theorem checkStamp_own_ends (own : k.stamp = img.stamp) (clean : img.scar = []) :
    Ends Unchecked checkStamp e ⟨k, img⟩ pos (.ok false) ⟨{ k with ticks := k.ticks + 1 }, img⟩ 26 := by
  have same : img.stamp.gt k.stamp = false := by simp [own, TimeStamp.gt]
  rw [← same]
  exact checkStamp_ends clean

namespace Suspended

variable (suspended : Suspended k img)
include suspended

theorem refresh_ends : Ends Unchecked refresh e ⟨k, img⟩ pos
    (.ok ()) ⟨{ k with ticks := k.ticks + 1 }, img⟩ 26 := by
  have unmodified : Ends Unchecked checkStreamAndStampOnly e ⟨k, img⟩ pos (.ok ())
      ⟨{ k with ticks := k.ticks + 1 }, img⟩ 26 :=
    .bind readFileStatus_ends (.bind (checkStamp_own_ends suspended.own suspended.clean)
      (.on_false (by decide) (.pure _)))
  exact .bind .cache (.on_false (by simp [suspended.initialized]) (.bind (.attempt unmodified) (.pure _)))

variable (run : Ends Unchecked (recoverCase img.status) e ⟨{ k with ticks := k.ticks + 1 },
  img⟩ 0 (.ok ()) ⟨k', new⟩ stop)
  (settled : Settled { k with ticks := k.ticks + 1 } img l k' new)
include run settled

/-- The start of the call recovers the list and does not notice a modification. -/
theorem prepare_ends (stamp : Bool) : Ends Unchecked (prepare stamp) e ⟨k, img⟩ pos (.ok false)
    ⟨{ k' with ticks := k'.ticks + 1 }, { new with status := .closed }⟩ 26 := by
  have recovered : Ends Unchecked checkStream e ⟨k, img⟩ pos
      (.ok ()) ⟨k', { new with status := .closed }⟩ stop :=
    .bind readFileStatus_ends (.on_true suspended.unclosed
      (.bind suspended.refresh_ends (.bind backupFile_ends
      (.bind (statusOr_ends rfl) (.bind run
        (.on_true suspended.unclosed (writeFileStatus_ends .unchecked)))))))
  have own : k'.stamp = new.stamp := settled.own.trans (suspended.own.trans settled.stamp.symm)
  have checked : Ends Unchecked checkStreamAndStamp e ⟨k, img⟩ pos (.ok ())
      ⟨{ k' with ticks := k'.ticks + 1 }, { new with status := .closed }⟩ 26 :=
    .bind recovered (.bind (checkStamp_own_ends own settled.linked.clean)
      (.on_false (by decide) (.pure _)))
  exact .bind .cache (.on_false (by simp [suspended.initialized]) (.bind (.attempt checked) (.pure _)))

theorem opens (stamp : Bool) (unmoved : new.fileEnd = img.fileEnd) : Opens Unchecked e stamp ⟨k, img⟩
    ⟨{ k' with ticks := k'.ticks + 1 }, { new with status := .closed }⟩ l where
  run _ := ⟨false, 26, suspended.prepare_ends run settled stamp⟩
  unmoved
  closed := rfl
  holds := { settled.linked with size := settled.size }
  initialized := settled.initialized.trans suspended.initialized
  limits := settled.limits
  size := settled.counted

/-- An iterator at the last element is taken to where the file used to end. -/
theorem increment_to_old_end (prev pos : Nat) {key : Nat} (inside : key ≠ 0) :
    Ends Unchecked (incrementIterator ⟨prev, img.fileEnd, key⟩) e ⟨k, img⟩ pos (.ok ⟨0, 0, img.fileEnd⟩)
      ⟨{ k' with ticks := k'.ticks + 1 }, { new with status := .closed }⟩ 26 :=
  .bind getEnd_ends (.bind (suspended.prepare_ends run settled true) (.bind (.pure _) (.bind .cache
    (.on_false inside (.on_true rfl (.pure _))))))

end Suspended

/-! A call that has only marked the file as open. -/

section Started

variable (serving : Serving k img l)
include serving

theorem suspended_started : Suspended ((k.prepared img false).started e img)
    (img.started e (k.prepared img false)) where
  initialized := (serving.coherent.prepared false).1
  own := rfl
  clean := serving.holds.clean
  unclosed := nofun

theorem fits_started : (img.started e (k.prepared img false)).Fits := by
  obtain ⟨epoch, counter⟩ : (nextStamp e (k.prepared img false) img).epoch < offBound ∧
      (nextStamp e (k.prepared img false) img).counter < counterBound :=
    TimeStamp.updateStamp_fits (Fin.isLt _) serving.fits.epoch
  exact { serving.fits with epoch, counter }

theorem started_sees : Sees (Snapshot.at ⟨(k.prepared img false).started e img,
    img.started e (k.prepared img false)⟩
    pos writes) l := by
  have linked : (img.started e (k.prepared img false)).Linked l := { serving.holds.toLinked with }
  refine sees_of_opens (fits_started serving) (fun e' _ => ?_) fun e' stamp _ =>
    ⟨_, (suspended_started serving).opens (writeFileStatus_ends .unchecked) ?_ stamp rfl⟩
  · refine restores_of_ends (fits_started serving) fun k pos =>
      initContainer_open_ends linked.clean nofun fun k' _ pos =>
        ⟨k', _, _, writeFileStatus_ends .unchecked, ?_⟩
    exact ⟨{ linked with }, serving.holds.size⟩
  · exact {
      linked := { linked with }
      size := serving.holds.size
      stamp := rfl
      own := rfl
      initialized := rfl
      limits := (serving.coherent.prepared false).2.1
      counted := (serving.coherent.prepared false).2.2 }

/-! An addition of empty data. -/

def Closes (l : Listing) (fileEnd : Nat) : Prop := ∃ x ∈ l, elementEnd x = fileEnd

variable (nonempty : l ≠ []) (fits : t.image.Fits)
  (halted : Halted (img.started e (k.prepared img false)) ((k.prepared img false).started e img) t)

include halted in
theorem suspended_halted : Suspended t.cache t.image where
  initialized := by rw [halted.cache]; exact (serving.coherent.prepared false).1
  own := by rw [halted.cache]; exact halted.stamp.symm
  clean := halted.covered.kept.1
  unclosed closed := by
    have status := halted.status
    rw [closed] at status
    exact absurd status (by decide)

include nonempty halted in
/-- The recovery undoes the addition and cuts off what lies behind the list. -/
theorem halted_resumes (e' : Env) (enough : l.length ≤ e'.fuel) : ∃ k' new stop,
    Ends Unchecked (recoverCase t.image.status) e' ⟨{ t.cache with ticks := t.cache.ticks + 1 },
      t.image⟩ 0 (.ok ())
      ⟨k', new⟩ stop ∧ Resumed { t.cache with ticks := t.cache.ticks + 1 } t.image l k' new := by
  have holds : (img.started e (k.prepared img false)).Holds l := { serving.holds with }
  have changed : t.image.status ∉ [FileStatus.closed, .opened] := fun member => by
    have status := halted.status
    simp only [List.mem_cons, List.not_mem_nil, or_false] at member status
    rcases member with same | same <;> rw [same] at status <;> simp at status
  exact resumes_covered (k := { t.cache with ticks := t.cache.ticks + 1 }) ⟨holds, nonempty, enough,
    serving.holds.toLinked.length_lt serving.fits⟩ halted.covered changed halted.limits 0

include nonempty fits halted in
theorem halted_sees_iff : Sees (t.at pos writes) l ↔ Closes l img.fileEnd := by
  have suspended := suspended_halted serving halted
  have length : (t.at pos writes).stream.file.length = t.image.fileEnd := length_encode fits
  have unmoved : t.image.fileEnd = img.fileEnd := halted.unmoved
  rw [← unmoved]
  constructor
  · intro sees
    obtain ⟨a, key, value, rfl⟩ := exists_last nonempty
    have inside : key ≠ 0 := (serving.holds.toLinked.key_ne (by simp)).1
    obtain ⟨k', new, stop, run, resumed⟩ :=
      halted_resumes serving nonempty halted (.still _) (Nat.le_refl _)
    obtain ⟨fitsEnd, runs⟩ := suspended.increment_to_old_end run resumed.toSettled
      (lastKey a 0) pos inside fits
    obtain ⟨made, stepped, -⟩ := runs writes
    obtain ⟨it, c', stepped', here, -⟩ := sees.next (.still _) a [] key value rfl (Nat.le_refl _)
    rw [length] at stepped'
    obtain ⟨rfl, rfl⟩ := Outcome.ok.inj (stepped'.symm.trans stepped)
    have ended : t.image.fileEnd = new.fileEnd := here.trans (length_encode fitsEnd)
    obtain ⟨x, member, same⟩ := resumed.reach.tight nonempty
    exact ⟨x, member, same.symm.trans ended.symm⟩
  · rintro ⟨x, member, same⟩
    refine sees_of_opens fits (fun e' enough => ?_) fun e' stamp enough => ?_
    · have holds : (img.started e (k.prepared img false)).Holds l := { serving.holds with }
      exact Undoable.restores ⟨_, fits, halted.covered, rfl⟩ ⟨holds, nonempty, enough,
        serving.holds.toLinked.length_lt serving.fits⟩
    · obtain ⟨k', new, stop, run, resumed⟩ := halted_resumes serving nonempty halted e' enough
      refine ⟨_, suspended.opens run resumed.toSettled stamp
        (Nat.le_antisymm ?_ (same ▸ resumed.reach.bound x member))⟩
      obtain ⟨y, inside, last⟩ := resumed.reach.tight nonempty
      obtain ⟨r, found, whole⟩ := serving.holds.toLinked.found inside
      have within := record_end_le found
      rw [whole, ← last, ← serving.holds.toLinked.fileEnd_eq, ← unmoved] at within
      exact within

end Started

/-! The calls that fail. -/

/-- The offset lies in the header or behind the end of the file. -/
def Astray (img : Image) (offset : Nat) : Prop := 0 < offset ∧ (offset < headerSize ∨ img.fileEnd < offset)

theorem readIterator_astray_ends (astray : Astray img offset) :
    Ends Unchecked (readIterator offset false) e ⟨k, img⟩ pos
      (.error .unavailablePosition) ⟨k, img⟩ img.fileEnd := by
  have least := img.headerSize_le_fileEnd
  obtain ⟨positive, outside⟩ := astray
  refine .bind getEnd_ends ?_
  rw [if_neg (by omega), if_neg (by omega), if_neg (by omega)]
  exact .throw _

/-- What a call reads at its offset before it writes to a record. -/
def Call.look : Call → Method Unit
  | .add _ offset => do
    let it ← readIterator offset false
    let _ ← readIterator it.prev false
    return ()
  | .remove offset => do
    let _ ← readIterator offset false
    let (_, state) ← readSizeAndState
    if state = 'g' then return () else Prog.throw .unavailablePosition

/-- A call has marked the file as open. -/
abbrev marked (e : Env) (k : Cache) (img : Image) : Snapshot Cache Image :=
  ⟨(k.prepared img false).started e img, img.started e (k.prepared img false)⟩

/-- What the call reads then makes it fail. -/
def Call.Refused (e : Env) (k : Cache) (img : Image) (good : Bool) (call : Call) : Prop :=
  ∃ code, Stops call.look e (marked e k img) img.fileEnd code fun c => c.stream.good = good

/-- The calls that fail while they read at their offset, and the additions of nothing at an element
or the end. -/
def Call.Failing (e : Env) (k : Cache) (img : Image) (l : Listing) (call : Call) : Prop :=
  (∃ good, call.Refused e k img good) ∨
    ∃ offset, call = .add [] offset ∧ (offset = img.fileEnd ∨ offset ∈ keys l)

/-- The calls that are no trouble to the calls that follow. -/
def Call.Harmless (e : Env) (k : Cache) (img : Image) (l : Listing) (call : Call) : Prop :=
  call.Refused e k img true ∨
    ∃ offset, call = .add [] offset ∧ (offset = img.fileEnd ∨ offset ∈ keys l) ∧ Closes l img.fileEnd

theorem Call.look_reader : ∀ call : Call, Reader call.look
  | .add _ offset => .bind (readIterator_reader offset) fun _ => .bind (readIterator_reader _) fun _ => .pure _
  | .remove offset => .bind (readIterator_reader offset) fun _ => .bind readSizeAndState_reader fun _ =>
      .branch (.pure _) (.throw _)

def Looked (e : Env) (k : Cache) (img : Image) (good : Bool) (c : Container) : Prop :=
  c.stream.good = good ∧ ∃ stop writes, ((marked e k img).at stop writes).Same c

/-- The first step of a look goes to the end of the file. -/
theorem Call.Refused.looks {good : Bool} (refused : call.Refused e k img good) :
    ∃ code, ∀ mid, Stops call.look e (marked e k img) mid code (Looked e k img good) := by
  obtain ⟨code, looks⟩ := refused
  refine ⟨code, fun mid fits writes => ?_⟩
  obtain ⟨c, run, ends⟩ := looks fits writes
  refine ⟨c, Eq.trans ?_ run, ends, _, _, call.look_reader.keeps e _ c (by rw [run]; rfl)⟩
  cases call <;> rfl

theorem eraseData_refused {good : Bool} (refused : (Call.remove offset).Refused e k img good) :
    ∃ code, ∀ mid, Stops (eraseData offset) e (marked e k img) mid code (Looked e k img good) := by
  obtain ⟨code, looks⟩ := refused.looks
  refine ⟨code, fun mid fits writes => ?_⟩
  obtain ⟨c, run, ends⟩ := looks mid fits writes
  refine ⟨c, bind_error_of run fun _ _ run => bind_error_of run fun (size, state) d run => ?_, ends⟩
  have run : (if state = 'g' then pure () else Prog.throw .unavailablePosition : Method Unit) e d =
      .error code c := run
  by_cases mark : state = 'g'
  · rw [if_pos mark] at run
    cases run
  · rw [if_neg mark] at run
    exact (congrFun (congrFun (if_neg mark) e) d).trans run

section Calls

variable (serving : Serving k img l)
include serving

/-- At the end and at the first element an addition reads what it expects. -/
theorem add_refused_apart {good : Bool} (refused : (Call.add data offset).Refused e k img good) :
    offset ≠ img.fileEnd ∧ offset ≠ headKey l img.fileEnd := by
  obtain ⟨code, stops⟩ := refused
  have expected {it : FileIterator} {stop : Nat} (start : it.prev = 0) (first : Ends Unchecked
      (readIterator offset false) e (marked e k img) img.fileEnd (.ok it) (marked e k img) stop) : False := by
    have looks : Ends Unchecked (Call.add data offset).look e (marked e k img) img.fileEnd (.ok ())
        (marked e k img) img.fileEnd :=
      .bind first (.bind (readIterator_nowhere_ends e _ _ (.inl start)) (.pure ()))
    obtain ⟨made, run, -⟩ := (looks (fits_started serving)).2 []
    obtain ⟨c, failed, -⟩ := stops (fits_started serving) []
    exact nomatch failed.symm.trans run
  have notEnd : offset ≠ img.fileEnd := fun same =>
    expected rfl (readIterator_nowhere_ends e _ _ (.inr same))
  refine ⟨notEnd, fun same => ?_⟩
  cases l with
  | nil => exact notEnd same
  | cons first rest =>
    obtain ⟨r, found, -, list, -⟩ := serving.holds.toLinked.record (a := [])
    have here : (img.started e (k.prepared img false)).at? offset = some r := same ▸ found
    exact expected (by rw [list]; rfl) (readIterator_ends here)

theorem insertData_refused {good : Bool} (refused : (Call.add data offset).Refused e k img good) :
    ∃ code, ∀ mid, Stops (insertData data offset img.fileEnd) e (marked e k img) mid code
      (Looked e k img good) := by
  obtain ⟨notEnd, notFirst⟩ := add_refused_apart serving refused
  have first : ((k.prepared img false).started e img).limits.prev = headKey l img.fileEnd := by
    rw [← serving.holds.first, ← (serving.coherent.prepared false).2.1]
    rfl
  obtain ⟨code, looks⟩ := refused.looks
  refine ⟨code, fun mid fits writes => ?_⟩
  obtain ⟨c, run, ends⟩ := looks mid fits writes
  refine ⟨c, (bind_ok (x := cache) rfl).trans ?_, ends⟩
  rw [if_neg notEnd, if_neg (first ▸ notFirst)]
  refine (bind_ok (x := cache) rfl).trans ?_
  exact bind_error_of run fun it _ run => bind_error_of run fun _ _ run => by cases run

/-- The call ends as its look at the file does. -/
theorem Call.Refused.fails {good : Bool} (refused : call.Refused e k img good) (pos : Nat)
    (writes : List Write) : ∃ code c', call.run e (Snapshot.at ⟨k, img⟩ pos writes) = .error code c' ∧
      Looked e k img good c' := by
  cases call with
  | add data offset =>
    obtain ⟨code, inserts⟩ := insertData_refused serving refused
    obtain ⟨modified, mid, prepared⟩ := (serving.opens e false).run img.fileEnd
    have stops : Stops (stageAddition data offset) e ⟨k, img⟩ pos code (Looked e k img good) :=
      .after getEnd_ends (.after prepared (.after (endAfter_ends modified)
        (.after (updateTimeStamp_ends serving.holds.clean .unchecked)
        (.after (writeFileStatus_ends .unchecked) (inserts _)))))
    obtain ⟨c', run, ends⟩ := stops serving.fits writes
    exact ⟨code, c', bind_error (bind_error run), ends⟩
  | remove offset =>
    obtain ⟨code, erases⟩ := eraseData_refused refused
    obtain ⟨modified, mid, prepared⟩ := (serving.opens e false).run pos
    have stops : Stops (stageRemoval offset) e ⟨k, img⟩ pos code (Looked e k img good) :=
      .after prepared (.after (updateTimeStamp_ends serving.holds.clean .unchecked)
        (.after (writeFileStatus_ends .unchecked) (erases _)))
    obtain ⟨c', run, ends⟩ := stops serving.fits writes
    exact ⟨code, c', bind_error run, ends⟩

theorem add_nothing_fails (nonempty : l ≠ []) (place : offset = img.fileEnd ∨ offset ∈ keys l) : ∃ code c',
    (Call.add [] offset).run e (Snapshot.at ⟨k, img⟩ pos writes) = .error code c' ∧
      (Sees c' l ↔ Closes l img.fileEnd) := by
  have reaches : Reaches Unchecked (stageAddition [] offset) e ⟨k, img⟩ pos _ :=
    stageAddition_opened (serving.opens e false) (fun _ _ => .unchecked)
      nonempty (fun nothing => absurd rfl nothing) place
  obtain ⟨r, t, stop, made, run, fits, -, -, ends⟩ := reaches.run serving.fits writes
  obtain ⟨-, rfl, halted⟩ := ends.resolve_right fun added => added.1 rfl
  exact ⟨_, _, bind_error (bind_error run), halted_sees_iff serving nonempty fits halted⟩

end Calls

/-- The first element has no neighbours, and the recovery that undoes its addition follows a
backup that was never made. -/
theorem add_nothing_to_nothing_fails (serving : Serving k img []) : ∃ code c',
    (Call.add [] img.fileEnd).run e (Snapshot.at ⟨k, img⟩ pos writes) = .error code c' ∧
      ∀ e' : Env, 0 < e'.fuel → ∃ c'', readBegin e' c' = .error .unavailablePosition c'' := by
  obtain ⟨r, t, stop, made, run, fits, -, -, ends, backup, saved⟩ :=
    (stageAddition_empty_opened pos (serving.opens e false) fun nothing =>
      absurd rfl nothing).run serving.fits writes
  obtain ⟨-, rfl, refused, clean, status⟩ := ends.resolve_right fun added => added.1 rfl
  refine ⟨_, _, bind_error (bind_error run), fun e' positive => ?_⟩
  have suspended : Suspended t.cache t.image := {
    initialized := by rw [refused.cache]; exact (serving.coherent.prepared false).1
    own := by rw [refused.cache]; exact refused.stamp.symm
    clean
    unclosed := by rw [status]; decide }
  have blank : t.image.backup 0 = ⟨0, 0, 0⟩ := (congrFun backup 0).trans (serving.holds.blank rfl)
  have nowhere : t.image.limitsBackup.prev = t.image.fileEnd := by
    rw [saved, refused.unmoved]
    exact serving.holds.first
  have fails : Fails checkStreamAndStamp e' ⟨t.cache, t.image⟩ stop .unavailablePosition := by
    refine .bind (.after readFileStatus_ends ?_)
    rw [if_pos suspended.unclosed]
    refine .after suspended.refresh_ends (.after backupFile_ends (.after (statusOr_ends rfl) (.bind ?_)))
    rw [status]
    exact limitsAndLink_fails positive (by exact blank) (.inr nowhere)
  obtain ⟨c, failed⟩ := fails fits (writes ++ made)
  refine ⟨c, bind_error ?_⟩
  have known : (!t.cache.initialized) = false := by rw [suspended.initialized]; rfl
  rw [prepare, bind_ok (show cache e' (t.at stop (writes ++ made)) = .ok t.cache _ from rfl), known,
    if_neg (by decide), bind_ok (attempt_error failed)]
  rfl

theorem readBegin_failed {c : Container} (initialized : c.cache.initialized = true)
    (failed : c.stream.good = false) :
    ∃ c', readBegin e c = .error .syntaxError c' := by
  obtain ⟨c', unread⟩ : ∃ c', readFileStatus e c = .error .syntaxError c' := by
    obtain ⟨k, ⟨file, pos, eof, fail, writes⟩⟩ := c
    cases fail with
    | true => exact ⟨⟨k, ⟨file, pos, eof, true, writes⟩⟩, by cases eof <;> rfl⟩
    | false =>
      cases eof with
      | true => exact ⟨⟨k, ⟨file, statusPosition, true, true, writes⟩⟩, rfl⟩
      | false => cases failed
  have unchecked : checkStreamAndStamp e c = .error .syntaxError c' := bind_error (bind_error unread)
  have known : (!c.cache.initialized) = false := by rw [initialized]; rfl
  refine ⟨c', bind_error ?_⟩
  rw [prepare, bind_ok (show cache e c = .ok c.cache c from rfl), known, if_neg (by decide),
    bind_ok (attempt_error unchecked)]
  rfl

theorem not_sees_of_failed {c : Container} {code : IOStatus}
    (failed : ∀ e : Env, 0 < e.fuel → ∃ c', readBegin e c = .error code c') :
    ¬ Sees c l := by
  intro sees
  obtain ⟨c', run, -⟩ := sees.first (.still (l.length + 1)) (Nat.le_succ _)
  obtain ⟨c'', error⟩ := failed (.still (l.length + 1)) (Nat.succ_pos _)
  exact nomatch run.symm.trans error

theorem remove_nowhere_unseen (serving : Serving k img l) (nowhere : offset = 0 ∨ offset = img.fileEnd) :
    ∃ c', (Call.remove offset).run e (Snapshot.at ⟨k, img⟩ pos writes) = .error .syntaxError c' ∧
      ¬ Sees c' l := by
  obtain ⟨c', run, initialized, failed⟩ :=
    removeData_nowhere_stops e pos serving nowhere serving.fits writes
  exact ⟨c', run, not_sees_of_failed fun _ _ => readBegin_failed initialized (by simp [FileStream.good, failed])⟩

theorem Call.Refused.seen_iff {good : Bool} (serving : Serving k img l)
    (refused : call.Refused e k img good) : ∃ code c',
      call.run e (Snapshot.at ⟨k, img⟩ pos writes) = .error code c' ∧ (Sees c' l ↔ good = true) := by
  obtain ⟨code, c', run, ends, stop, left, same⟩ := refused.fails serving pos writes
  refine ⟨code, c', run, ?_⟩
  cases good with
  | true =>
    have moved : c' = (marked e k img).at c'.stream.pos left := same.eq_moved rfl ends
    rw [moved]
    exact iff_of_true (started_sees serving) rfl
  | false =>
    have initialized : c'.cache.initialized = true := by
      rw [same.cache]
      exact (serving.coherent.prepared false).1
    exact iff_of_false (not_sees_of_failed fun _ _ => readBegin_failed initialized ends) nofun

/-- Offsets in the header and behind the end are refused, and so is the removal of an erased record. -/
theorem Astray.refused (astray : Astray img offset) :
    (Call.add data offset).Refused e k img true ∧ (Call.remove offset).Refused e k img true := by
  have astray : Astray (img.started e (k.prepared img false)) offset := astray
  exact ⟨⟨_, .of_ends (.bind_error (readIterator_astray_ends astray))⟩,
    ⟨_, .of_ends (.bind_error (readIterator_astray_ends astray))⟩⟩

theorem erased_refused {r : Record} (found : img.at? offset = some r) (erased : r.erased = true) :
    (Call.remove offset).Refused e k img true := by
  have here : (img.started e (k.prepared img false)).at? offset = some r := found
  exact ⟨_, .of_ends (.bind (readIterator_ends here) (.bind (readSize_of_record_ends here)
    (.on_false (by simp [Record.state, erased]) (.throw _))))⟩

theorem single_serving : Serving (Container.single ['a']).cache (single ['a']) [(headerSize, ['a'])] :=
  ⟨fits_single (by decide), rfl, holds_single ['a'], nofun⟩

def Container.empty : Container := .openFile (encode (Image.empty ⟨0, 0⟩ .closed)) ⟨0, 0⟩

theorem empty_serving : Serving Container.empty.cache (empty ⟨0, 0⟩ .closed) [] :=
  ⟨Image.fits_empty .closed offBound_pos (by exact Nat.zero_lt_succ _), rfl, Image.holds_empty _ _, nofun⟩

end Wms.FileContainer
