import Wms.FileContainer.Commit

/-! Erasing an interval of a file list.

The loop removes the element at its iterator before it compares the iterator with the end of
the interval, and it steps on from the record that it has just removed.
-/

set_option autoImplicit false

namespace Wms.FileContainer

open Lib Lib.FileProg Lib.Links Image Prog List

def eraseNext (iter : FileIterator) : Method (FileIterator × Nat) := do
  let iter ← getIterator iter.current
  removeData iter.current
  let iter ← incrementIterator iter
  let fileEnd ← readEnd
  return (iter, fileEnd)

def eraseLoop (last : FileIterator) : Nat → FileIterator → Method FileIterator
  | 0, _ => diverge
  | fuel + 1, iter => do
    let (iter, fileEnd) ← eraseNext iter
    if iter.current ≠ last.current ∧ iter.current ≠ fileEnd then eraseLoop last fuel iter
    else return iter

def eraseInterval (first last : FileIterator) : Method FileIterator := do
  let env ← ask
  eraseLoop last env.fuel first

def stepOn (iter : FileIterator) : Method (FileIterator × Nat) := do
  let iter ← incrementIterator iter
  let fileEnd ← readEnd
  return (iter, fileEnd)

variable {e : Env} {k : Cache} {img : Image} {pos : Nat} {writes : List Write} {l a b d : Listing}
  {iter last : FileIterator} {key : Nat} {value : Bytes}

namespace Serving

theorem prepared (serving : Serving k img l) : Serving (k.prepared img true) img l :=
  { serving with coherent := fun _ _ => (serving.coherent.prepared true).2 }

theorem reads {α : Type} {m : Method α} {r : Except IOStatus α} (writes : List Write)
    (serving : Serving k img l)
    (ends : ∃ stop, Ends Unchecked m e ⟨k, img⟩ pos r ⟨k.prepared img true, img⟩ stop) :
    ∃ stop made, m e (Snapshot.at ⟨k, img⟩ pos writes) =
      .of r (Snapshot.at ⟨k.prepared img true, img⟩ stop (writes ++ made)) := by
  obtain ⟨stop, ends⟩ := ends
  obtain ⟨made, run, -⟩ := (ends serving.fits).2 writes
  exact ⟨stop, made, run⟩

theorem getIterator_ends {r : Record} (e : Env) (pos : Nat) (serving : Serving k img l)
    (found : img.at? key = some r) :
    ∃ stop, Ends Unchecked (getIterator key) e ⟨k, img⟩ pos
      (.ok (r.list.at key)) ⟨k.prepared img true, img⟩ stop := by
  obtain ⟨modified, mid, prepared⟩ := (serving.opens e true).run pos
  exact ⟨key + 34, .bind prepared (readIterator_ends found)⟩

theorem readEnd_ends (e : Env) (pos : Nat) (serving : Serving k img l) :
    ∃ stop, Ends Unchecked readEnd e ⟨k, img⟩ pos (.ok img.fileEnd) ⟨k.prepared img true, img⟩ stop := by
  obtain ⟨modified, mid, prepared⟩ := (serving.opens e true).run pos
  exact ⟨img.fileEnd, .bind prepared getEnd_ends⟩

theorem incrementWith_ends (fileorder : Bool) (e : Env) (iter : FileIterator)
    (r : Except IOStatus FileIterator)
    (pos : Nat) (serving : Serving k img l) (inside : iter.current ≠ 0)
    (rest : ∀ mid, ∃ stop, Ends Unchecked (if iter.next = img.fileEnd then pure ⟨0, 0, img.fileEnd⟩ else do
      let it ← readIterator iter.current fileorder
      readIterator it.next fileorder : Method FileIterator) e ⟨k.prepared img true, img⟩ mid r
        ⟨k.prepared img true, img⟩ stop) :
    ∃ stop, Ends Unchecked (incrementWith fileorder iter) e ⟨k, img⟩ pos r ⟨k.prepared img true,
      img⟩ stop := by
  obtain ⟨modified, mid, prepared⟩ := (serving.opens e true).run img.fileEnd
  obtain ⟨stop, run⟩ := rest (if modified then img.fileEnd else mid)
  exact ⟨stop, .bind getEnd_ends (.bind prepared (.bind (endAfter_ends modified) (.bind .cache
    (.on_false inside run))))⟩

/-- The step from a record that has been removed leads to the element that followed it. -/
theorem step_from_retired {old : Image} {r : Record} (e : Env) (pos : Nat)
    (serving : Serving k img (a ++ b))
    (retired : Retired old key img) (inside : key ≠ 0) (found : old.at? key = some r)
    (list : r.list = ⟨lastKey a 0, headKey b old.fileEnd⟩) :
    ∃ it stop, it.current = headKey b old.fileEnd ∧
      Ends Unchecked (incrementIterator (r.list.at key)) e ⟨k, img⟩ pos
      (.ok it) ⟨k.prepared img true, img⟩ stop := by
  have unmoved := retired.unmoved
  obtain ⟨r', s, foundOld, foundNew, same⟩ := retired.found
  cases foundOld.symm.trans found
  rw [list] at same ⊢
  rw [← unmoved] at same ⊢
  cases b with
  | nil =>
    obtain ⟨stop, run⟩ := serving.incrementWith_ends false e ⟨lastKey a 0, img.fileEnd, key⟩ _ pos inside
      fun mid => ⟨mid, .on_true rfl (.pure _)⟩
    exact ⟨⟨0, 0, img.fileEnd⟩, stop, rfl, run⟩
  | cons next rest =>
    obtain ⟨next, w⟩ := next
    obtain ⟨t, foundNext, -⟩ := serving.holds.toLinked.record
    have apart : next ≠ img.fileEnd := (serving.holds.toLinked.key_ne (by simp)).2
    obtain ⟨stop, run⟩ := serving.incrementWith_ends false e ⟨lastKey a 0, next, key⟩
      (.ok (t.list.at next)) pos inside
      fun mid => by
      refine ⟨next + 34, .on_false apart (.bind (readIterator_ends foundNew) ?_)⟩
      rw [same]
      exact readIterator_ends foundNext
    exact ⟨t.list.at next, stop, rfl, run⟩

theorem stepOn_run {it : FileIterator} (writes : List Write) (serving : Serving k img l)
    (stepped : ∃ stop, Ends Unchecked (incrementIterator iter) e
    ⟨k, img⟩ pos (.ok it) ⟨k.prepared img true, img⟩ stop) : ∃ k' stop made,
      stepOn iter e (Snapshot.at ⟨k, img⟩ pos writes) = .ok (it, img.fileEnd)
        (Snapshot.at ⟨k', img⟩ stop made) ∧
      Serving k' img l := by
  obtain ⟨mid, made, stepped⟩ := serving.reads writes stepped
  obtain ⟨stop, more, ended⟩ := serving.prepared.reads (writes ++ made)
    (serving.prepared.readEnd_ends e mid)
  refine ⟨_, stop, writes ++ made ++ more, ?_, serving.prepared.prepared⟩
  rw [stepOn, bind_ok stepped, bind_ok ended]
  rfl

end Serving

theorem removed_step (e : Env) (pos : Nat) (writes : List Write)
    (serving : Serving k img (a ++ (key, value) :: b))
    (others : a ++ b ≠ []) : ∃ it k' new stop made,
      (do removeData key; stepOn ⟨lastKey a 0, headKey b img.fileEnd, key⟩ : Method (FileIterator × Nat)) e
        (Snapshot.at ⟨k, img⟩ pos writes) = .ok (it, img.fileEnd) (Snapshot.at ⟨k', new⟩ stop made) ∧
      Serving k' new (a ++ b) ∧ new.fileEnd = img.fileEnd ∧ it.current = headKey b img.fileEnd := by
  obtain ⟨r, found, -, list, -⟩ := serving.holds.toLinked.record
  have several : 2 ≤ (a ++ (key, value) :: b).length := by
    have positive := length_pos_iff.mpr others
    simp only [length_append, length_cons] at positive ⊢
    omega
  have inside : key ≠ 0 := (serving.holds.toLinked.key_ne (by simp)).1
  obtain ⟨k₁, new, stop₁, made₁, removed, remains, retired⟩ := removeData_retires pos writes serving.fits
    (serving.opens e false) several (show key ∈ keys _ by simp)
  rw [Listing.removeAt_of_nodup serving.holds.nodup] at remains
  obtain ⟨it, stop₂, here, stepped⟩ := remains.step_from_retired e stop₁ retired inside found list
  rw [list] at stepped
  obtain ⟨k₂, stop, made, round, served⟩ := remains.stepOn_run made₁ ⟨stop₂, stepped⟩
  refine ⟨it, k₂, new, stop, made, ?_, served, retired.unmoved, here⟩
  rw [bind_ok removed]
  exact retired.unmoved ▸ round

theorem eraseNext_run (e : Env) (pos : Nat) (writes : List Write)
    (serving : Serving k img (a ++ (key, value) :: b))
    (start : iter.current = key) : ∃ stop made, eraseNext iter e (Snapshot.at ⟨k, img⟩ pos writes) =
      (do removeData key; stepOn ⟨lastKey a 0, headKey b img.fileEnd, key⟩ : Method (FileIterator × Nat)) e
        (Snapshot.at ⟨k.prepared img true, img⟩ stop made) := by
  obtain ⟨r, found, -, list, -⟩ := serving.holds.toLinked.record
  obtain ⟨stop, made, read⟩ := serving.reads writes (serving.getIterator_ends e pos found)
  refine ⟨stop, writes ++ made, ?_⟩
  rw [eraseNext, start, bind_ok read, list]
  rfl

theorem eraseNext_step (e : Env) (pos : Nat) (writes : List Write)
    (serving : Serving k img (a ++ (key, value) :: b))
    (others : a ++ b ≠ []) (start : iter.current = key) : ∃ it k' new stop made,
      eraseNext iter e (Snapshot.at ⟨k, img⟩ pos writes) = .ok (it, img.fileEnd)
        (Snapshot.at ⟨k', new⟩ stop made) ∧
      Serving k' new (a ++ b) ∧ new.fileEnd = img.fileEnd ∧ it.current = headKey b img.fileEnd := by
  obtain ⟨stop, made, run⟩ := eraseNext_run e pos writes serving start
  rw [run]
  exact removed_step e stop made serving.prepared others

theorem eraseLoop_step {next : Nat} {w : Bytes} (fuel pos : Nat) (writes : List Write)
    (serving : Serving k img (a ++ (key, value) :: (next, w) :: b)) (start : iter.current = key)
    (avoids : next ≠ last.current) : ∃ it k' new stop made,
      eraseLoop last (fuel + 1) iter e (Snapshot.at ⟨k, img⟩ pos writes) =
        eraseLoop last fuel it e (Snapshot.at ⟨k', new⟩ stop made) ∧
      Serving k' new (a ++ (next, w) :: b) ∧ new.fileEnd = img.fileEnd ∧ it.current = next := by
  obtain ⟨it, k', new, stop, made, round, remains, unmoved, here⟩ :=
    eraseNext_step e pos writes serving (by simp) start
  have inside : next ≠ img.fileEnd := (serving.holds.toLinked.key_ne (by simp)).2
  have goesOn : it.current ≠ last.current ∧ it.current ≠ img.fileEnd := by
    rw [here]
    exact ⟨avoids, inside⟩
  refine ⟨it, k', new, stop, made, ?_, remains, unmoved, here⟩
  rw [eraseLoop, bind_ok round]
  exact congrFun (congrFun (if_pos goesOn) _) _

theorem eraseLoop_ends (fuel pos : Nat) (writes : List Write)
    (serving : Serving k img (a ++ (key, value) :: b ++ d)) (others : a ++ d ≠ [])
    (start : iter.current = key) (avoids : last.current ∉ keys b)
    (stops : d = [] ∨ last.current = headKey d img.fileEnd) (enough : b.length < fuel) :
    ∃ it k' new stop made, eraseLoop last fuel iter e (Snapshot.at ⟨k, img⟩ pos writes) =
        .ok it (Snapshot.at ⟨k', new⟩ stop made) ∧
      Serving k' new (a ++ d) ∧ new.fileEnd = img.fileEnd ∧ it.current = headKey d img.fileEnd := by
  induction b generalizing key value fuel iter k img pos writes with
  | nil =>
    obtain ⟨fuel, rfl⟩ := Nat.exists_eq_add_one.mpr enough
    rw [append_assoc] at serving
    obtain ⟨it, k', new, stop, made, round, remains, unmoved, here⟩ :=
      eraseNext_step e pos writes serving others start
    refine ⟨it, k', new, stop, made, ?_, remains, unmoved, here⟩
    have ended : ¬ (it.current ≠ last.current ∧ it.current ≠ img.fileEnd) := by
      rintro ⟨other, inside⟩
      rcases stops with rfl | same
      · exact inside here
      · exact other (here.trans same.symm)
    rw [eraseLoop, bind_ok round]
    exact congrFun (congrFun (if_neg ended) _) _
  | cons second rest ih =>
    obtain ⟨next, w⟩ := second
    obtain ⟨fuel, rfl⟩ := Nat.exists_eq_add_one.mpr (Nat.zero_lt_of_lt enough)
    simp only [append_assoc, cons_append] at serving ih
    obtain ⟨it, k₁, new₁, stop₁, made₁, round, remains, unmoved, here⟩ :=
      eraseLoop_step fuel pos writes serving start (ne_of_mem_of_not_mem mem_cons_self avoids)
    rw [← unmoved] at stops ⊢
    rw [round]
    exact ih fuel stop₁ made₁ remains here (fun inside => avoids (mem_cons_of_mem _ inside)) stops
      (Nat.lt_of_succ_lt_succ enough)

/-! Where the loop comes to a position without a record. -/

theorem readIterator_beyond_ends {crash : Bytes → Prop} {offset : Nat} (beyond : img.fileEnd < offset) :
    Ends crash (readIterator offset false) e ⟨k, img⟩ pos
      (.error .unavailablePosition) ⟨k, img⟩ img.fileEnd := by
  refine .bind getEnd_ends ?_
  rw [if_neg (fun inside => Nat.lt_asymm inside.2 beyond), if_neg (Nat.ne_of_gt beyond),
    if_neg (Nat.ne_of_gt (Nat.zero_lt_of_lt beyond))]
  exact .throw _

theorem readIterator_nowhere_ends {crash : Bytes → Prop} (e : Env) (k : Cache) (pos : Nat) {offset : Nat}
    (nowhere : offset = 0 ∨ offset = img.fileEnd) : Ends crash (readIterator offset false) e ⟨k, img⟩ pos
      (.ok ⟨0, 0, offset⟩) ⟨k, img⟩ img.fileEnd := by
  rcases nowhere with rfl | rfl
  · exact readIterator_zero_ends
  · exact readIterator_end_ends

theorem removeData_nowhere_stops {offset : Nat} (e : Env) (pos : Nat) (serving : Serving k img l)
    (nowhere : offset = 0 ∨ offset = img.fileEnd) :
    Stops (removeData offset) e ⟨k, img⟩ pos .syntaxError fun c =>
      c.cache.initialized = true ∧ c.stream.fail = true := by
  obtain ⟨modified, mid, prepared⟩ := (serving.opens e false).run pos
  have unread (k : Cache) (new : Image) (initialized : k.initialized = true) :
      Stops readSizeAndState e ⟨k, new⟩ new.fileEnd .syntaxError fun c =>
        c.cache.initialized = true ∧ c.stream.fail = true := by
    intro fits writes
    have ended : (encode new).drop new.fileEnd = [] := by rw [← length_encode fits, drop_length]
    obtain ⟨c, failed, same, broken⟩ := readSizeAndState_end ⟨encode new, new.fileEnd, false, false,
      writes⟩ rfl ended
    exact ⟨c, failed, same ▸ initialized, broken⟩
  exact .bind (.after prepared (.after (updateTimeStamp_ends serving.holds.clean .unchecked)
    (.after (writeFileStatus_ends .unchecked) (.after (readIterator_nowhere_ends e _ _ nowhere)
      (.bind (unread _ _ (serving.coherent.prepared false).1))))))

theorem removeData_nowhere_fails {offset : Nat} (e : Env) (pos : Nat) (writes : List Write)
    (serving : Serving k img l) (nowhere : offset = 0 ∨ offset = img.fileEnd) :
    ∃ c, removeData offset e (Snapshot.at ⟨k, img⟩ pos writes) = .error .syntaxError c :=
  (removeData_nowhere_stops e pos serving nowhere).fails serving.fits writes

theorem eraseNext_nowhere_fails (e : Env) (pos : Nat) (writes : List Write) (serving : Serving k img l)
    (nowhere : iter.current = 0 ∨ iter.current = img.fileEnd) :
    ∃ c, eraseNext iter e (Snapshot.at ⟨k, img⟩ pos writes) = .error .syntaxError c := by
  obtain ⟨modified, mid, prepared⟩ := (serving.opens e true).run pos
  obtain ⟨stop, made, read⟩ := serving.reads writes (m := getIterator iter.current)
    ⟨_, .bind prepared (readIterator_nowhere_ends e _ _ nowhere)⟩
  obtain ⟨c, failed⟩ := removeData_nowhere_fails e stop (writes ++ made) serving.prepared nowhere
  exact ⟨c, by rw [eraseNext, bind_ok read, bind_error failed]⟩

/-- The removal of the only element: the file is cut, and the step from the record that has gone
fails or leads to 0. -/
theorem removed_only (e : Env) (pos : Nat) (writes : List Write) (serving : Serving k img [(key, value)])
    {m : Method (FileIterator × Nat)} (same : m = do removeData key; stepOn ⟨0, img.fileEnd, key⟩) :
    (∃ code c, m e (Snapshot.at ⟨k, img⟩ pos writes) = .error code c) ∨
      ∃ it k' new stop made, m e (Snapshot.at ⟨k, img⟩ pos writes) =
        .ok (it, new.fileEnd) (Snapshot.at ⟨k', new⟩ stop made) ∧ Serving k' new [] ∧ it.current = 0 := by
  have bounds : headerSize ≤ key ∧ key < img.fileEnd := serving.holds.toLinked.key_bound (by simp)
  have inside : key ≠ 0 := (serving.holds.toLinked.key_ne (by simp)).1
  obtain ⟨k₁, new, stop₁, made₁, removed, remains⟩ :=
    removeData_only pos writes serving.fits (serving.opens e false)
  have newEnd := remains.holds.fileEnd_of_nil
  have apart : img.fileEnd ≠ new.fileEnd := by
    rw [newEnd]
    exact Nat.ne_of_gt (Nat.lt_of_le_of_lt bounds.1 bounds.2)
  rw [same, bind_ok removed]
  by_cases first : key = new.fileEnd
  · obtain ⟨k₂, stop, made, round, served⟩ := remains.stepOn_run made₁ (remains.incrementWith_ends false e
      ⟨0, img.fileEnd, key⟩ (.ok ⟨0, 0, 0⟩) stop₁ inside fun mid => ⟨new.fileEnd, .on_false apart
        (.bind (readIterator_nowhere_ends e _ _ (.inr first)) readIterator_zero_ends)⟩)
    exact .inr ⟨⟨0, 0, 0⟩, k₂, new, stop, made, round, served, rfl⟩
  · have beyond : new.fileEnd < key := by omega
    obtain ⟨stop, made, stepped⟩ := remains.reads made₁
      (remains.incrementWith_ends false e ⟨0, img.fileEnd, key⟩
      (.error .unavailablePosition) stop₁ inside fun mid =>
        ⟨new.fileEnd, .on_false apart (.bind_error (readIterator_beyond_ends beyond))⟩)
    exact .inl ⟨.unavailablePosition, _, bind_error stepped⟩

theorem eraseLoop_whole_fails (fuel pos : Nat) (writes : List Write)
    (serving : Serving k img ((key, value) :: b))
    (start : iter.current = key) (avoids : last.current ∉ keys b) (inside : last.current ≠ 0)
    (enough : b.length + 1 < fuel) :
    ∃ code c, eraseLoop last fuel iter e (Snapshot.at ⟨k, img⟩ pos writes) = .error code c := by
  induction b generalizing key value fuel iter k img pos writes with
  | nil =>
    obtain ⟨fuel, rfl⟩ : ∃ more, fuel = more + 2 := ⟨fuel - 2, by simp at enough; omega⟩
    obtain ⟨stop₁, made₁, run⟩ := eraseNext_run (a := []) e pos writes serving start
    rcases removed_only e stop₁ made₁ serving.prepared rfl with
      ⟨code, c, failed⟩ | ⟨it, k', new, stop, made, round, remains, zero⟩
    · exact ⟨code, c, by rw [eraseLoop, bind_error (run.trans failed)]⟩
    · obtain ⟨c, failed⟩ := eraseNext_nowhere_fails e stop made remains (.inl zero)
      have goesOn : it.current ≠ last.current ∧ it.current ≠ new.fileEnd := by
        rw [zero, remains.holds.fileEnd_of_nil]
        exact ⟨Ne.symm inside, by decide⟩
      refine ⟨.syntaxError, c, ?_⟩
      rw [eraseLoop, bind_ok (run.trans round)]
      refine (congrFun (congrFun (if_pos goesOn) _) _).trans ?_
      rw [eraseLoop, bind_error failed]
  | cons second rest ih =>
    obtain ⟨next, w⟩ := second
    obtain ⟨fuel, rfl⟩ := Nat.exists_eq_add_one.mpr (Nat.zero_lt_of_lt enough)
    obtain ⟨it, k₁, new₁, stop₁, made₁, round, remains, -, here⟩ :=
      eraseLoop_step (a := []) fuel pos writes serving start (ne_of_mem_of_not_mem mem_cons_self avoids)
    rw [round]
    exact ih fuel stop₁ made₁ remains here (fun inside => avoids (mem_cons_of_mem _ inside))
      (Nat.lt_of_succ_lt_succ enough)

/-! The interval. -/

/-- The call returns, its iterator is at the end of the interval or of the list, and of the
list only what lies outside the interval is left. -/
def ErasesInterval (e : Env) (c : Container) (first last : FileIterator) (remains : Listing) : Prop :=
  ∃ it c', eraseInterval first last e c = .ok it c' ∧
    (it.current = last.current ∨ it.current = c'.stream.file.length) ∧
    Ready c' remains

theorem Ready.length_eq {c : Container} {l' : Listing} (ready : Ready c l) (other : Ready c l') :
    l.length = l'.length := by
  obtain ⟨d, first, -⟩ := ready.refines.size ⟨fun _ => ⟨0, offBound_pos⟩, 0⟩
  obtain ⟨d', second, -⟩ := other.refines.size ⟨fun _ => ⟨0, offBound_pos⟩, 0⟩
  exact (Outcome.ok.inj (first.symm.trans second)).1

section

variable {c' : Container} {it : FileIterator} {fuel : Nat} (serving : Serving k img (a ++ b ++ d))
  (start : iter.current = headKey (b ++ d) img.fileEnd) (stop : last.current = headKey d img.fileEnd)
  (enough : (a ++ b ++ d).length + 1 < fuel)
  (ended : eraseLoop last fuel iter e (Snapshot.at ⟨k, img⟩ pos writes) = .ok it c')
    (remains : Ready c' (a ++ d))
include serving start stop enough ended remains

/-- An interval without elements is not passed over: its first element would be removed. -/
theorem eraseLoop_some : b ≠ [] := by
  rintro rfl
  rw [append_nil] at serving enough
  rw [nil_append] at start
  cases d with
  | nil =>
    obtain ⟨fuel, rfl⟩ := Nat.exists_eq_add_one.mpr (Nat.zero_lt_of_lt enough)
    obtain ⟨c, failed⟩ := eraseNext_nowhere_fails e pos writes serving (.inr start)
    rw [eraseLoop, bind_error failed] at ended
    cases ended
  | cons first rest =>
    obtain ⟨key, value⟩ := first
    have nodup := serving.holds.nodup
    rw [keys_append, nodup_append] at nodup
    have avoids : last.current ∉ keys rest := stop ▸ (nodup_cons.mp nodup.2.1).1
    simp only [length_append, length_cons] at enough
    by_cases alone : a = []
    · subst alone
      have inside : key ≠ 0 := (serving.holds.toLinked.key_ne (by simp)).1
      obtain ⟨code, c, failed⟩ := eraseLoop_whole_fails (b := rest)
        (e := e) fuel pos writes serving start avoids
        (stop ▸ inside) (by simp only [length_nil] at enough; omega)
      rw [failed] at ended
      cases ended
    · rw [← append_nil (a ++ (key, value) :: rest)] at serving
      obtain ⟨it', k', new, stop', made, loop, fewer, -, -⟩ :=
        eraseLoop_ends (b := rest) (e := e) (d := []) fuel pos writes
        serving (by rwa [append_nil]) start avoids (.inl rfl) (by omega)
      obtain ⟨-, rfl⟩ := Outcome.ok.inj (loop.symm.trans ended)
      have short := fewer.ready.length_eq remains
      simp at short

theorem eraseLoop_others (nonempty : b ≠ []) : a ++ d ≠ [] := by
  intro nothing
  obtain ⟨rfl, rfl⟩ := append_eq_nil_iff.mp nothing
  obtain ⟨⟨key, value⟩, rest, rfl⟩ := exists_cons_of_ne_nil nonempty
  rw [append_nil] at serving enough start
  have outside : last.current ∉ keys rest := by
    rw [stop]
    exact fun member => serving.holds.toLinked.end_not_mem (mem_cons_of_mem _ member)
  have large : last.current ≠ 0 := by
    rw [stop]
    exact Nat.ne_of_gt (Nat.zero_lt_of_lt (serving.holds.toLinked.key_bound (show key ∈ keys _ by simp)).2)
  obtain ⟨code, c, failed⟩ := eraseLoop_whole_fails (b := rest)
    (e := e) fuel pos writes serving start outside large
    (by simp only [nil_append, length_cons] at enough; omega)
  rw [failed] at ended
  cases ended

end

theorem eraseInterval_run {c : Container} (first : FileIterator) :
    eraseInterval first last e c = eraseLoop last e.fuel first e c :=
  bind_ok (show ask e c = .ok e c from rfl)

section

variable {c : Container} {first : FileIterator} (ready : Ready c (a ++ b ++ d))
  (start : first.current = headKey (b ++ d) c.stream.file.length)
  (stop : last.current = headKey d c.stream.file.length) (enough : (a ++ b ++ d).length + 1 < e.fuel)
include ready start stop enough

theorem ErasesInterval.proper (erases : ErasesInterval e c first last (a ++ d)) : b ≠ [] ∧
    a ++ d ≠ [] := by
  obtain ⟨k, img, pos, writes, rfl, serving⟩ := ready.serving
  rw [ready_length serving.fits] at start stop
  obtain ⟨it, c', ended, -, remains⟩ := erases
  rw [eraseInterval_run] at ended
  have nonempty := eraseLoop_some serving start stop enough ended remains
  exact ⟨nonempty, eraseLoop_others serving start stop enough ended remains nonempty⟩

/-- An interval is erased rightly iff it has elements and is not the whole list. -/
theorem eraseInterval_right_iff : ErasesInterval e c first last (a ++ d) ↔ b ≠ [] ∧ a ++ d ≠ [] := by
  refine ⟨ErasesInterval.proper ready start stop enough, ?_⟩
  rintro ⟨nonempty, others⟩
  obtain ⟨k, img, pos, writes, rfl, serving⟩ := ready.serving
  rw [ready_length serving.fits] at start stop
  obtain ⟨⟨key, value⟩, rest, rfl⟩ := exists_cons_of_ne_nil nonempty
  have avoids : last.current ∉ keys rest := by
    have nodup := serving.holds.nodup
    rw [append_assoc, keys_append, nodup_append, cons_append, keys_cons, nodup_cons,
      keys_append, nodup_append] at nodup
    intro member
    rw [stop] at member
    by_cases empty : d = []
    · subst empty
      exact serving.holds.end_not_mem (by simp [headKey] at member ⊢; exact .inr (.inr member))
    · exact nodup.2.1.2.2.2 _ member _ (headKey_mem empty) rfl
  simp only [length_append, length_cons] at enough
  obtain ⟨it, k', new, stop', made, loop, remains, unmoved, here⟩ :=
    eraseLoop_ends (b := rest) (e := e) e.fuel pos writes
    serving others start avoids (.inr stop) (by omega)
  exact ⟨it, _, (eraseInterval_run first).trans loop, .inl (here.trans stop.symm), remains.ready⟩

end

theorem two_ready : ∃ c, Ready c [(headerSize, ['a']), (headerSize + calculateDataSize 1, ['b'])] := by
  obtain ⟨it, c, added, here, two⟩ := addData_ready (e := .still 1) single_ready
    (cons_ne_nil 'b' []) (.inl rfl)
    (by rw [single_length]; decide)
  rw [here, single_length] at two
  exact ⟨c, two⟩

/-- The first of two elements. -/
theorem eraseInterval_right_first : ∃ c second,
    Ready c ([] ++ [(headerSize, ['a'])] ++ [(second, ['b'])]) ∧
      ErasesInterval ⟨fun _ => ⟨0, offBound_pos⟩, 4⟩ c ⟨0, 0, headerSize⟩ ⟨0, 0, second⟩
        [(second, ['b'])] := by
  obtain ⟨c, two⟩ := two_ready
  exact ⟨c, headerSize + calculateDataSize 1, two,
    (eraseInterval_right_iff (a := []) (b := [(headerSize, ['a'])]) (d :=
      [(_, ['b'])]) two rfl rfl (by decide)).mpr
      ⟨by simp, by simp⟩⟩

/-- The only element: it is not removed without an error, and the empty interval before it is
not left alone. -/
theorem eraseInterval_wrong :
    ¬ ErasesInterval ⟨fun _ => ⟨0, offBound_pos⟩, 3⟩ (Container.openFile (encode (single ['a'])) ⟨0, 0⟩)
      ⟨0, 0, headerSize⟩ ⟨0, 0, headerSize + calculateDataSize 1⟩ [] ∧
    ¬ ErasesInterval ⟨fun _ => ⟨0, offBound_pos⟩, 3⟩ (Container.openFile (encode (single ['a'])) ⟨0, 0⟩)
      ⟨0, 0, headerSize⟩ ⟨0, 0, headerSize⟩ [(headerSize, ['a'])] := by
  constructor
  · intro erases
    exact (ErasesInterval.proper (a := []) (b := [(headerSize, ['a'])]) (d :=
      []) single_ready rfl single_length.symm
      (by decide) erases).2 rfl
  · intro erases
    exact (ErasesInterval.proper (a := []) (b := []) (d :=
      [(headerSize, ['a'])]) single_ready rfl rfl (by decide)
      erases).1 rfl

end Wms.FileContainer
