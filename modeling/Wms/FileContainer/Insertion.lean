import Wms.FileContainer.RecordsSpec
import Wms.FileContainer.Listing
import Wms.FileContainer.Operations

/-! The three ways of inserting a record, up to the blanking of the backups.

Each run ends with the new list, and every file on its way is covered by the backups. The
end of the file is where the new record goes.
-/

set_option autoImplicit false

namespace Wms.FileContainer

open Lib Lib.FileProg Lib.Links Image Pointers

/-! The list after the links have been changed and the record has been appended. -/

section

variable {img : Image} {a b l : Listing} {r s : Record} {stop : Nat}

theorem Image.Linked.list_of_found {key : Nat} {value : Bytes}
    (linked : img.Linked (a ++ (key, value) :: b))
    (found : img.at? key = some r) : r.list = ⟨lastKey a 0, headKey b img.fileEnd⟩ := by
  obtain ⟨s, same, -, list, -⟩ := linked.record
  rw [found] at same
  exact Option.some.inj same ▸ list

theorem Image.Linked.insert_first {first : Nat} {value : Bytes} (new : Record)
    (linked : img.Linked ((first, value) :: b))
    (found : img.at? first = some r) (live : new.erased = false) (list : new.list = ⟨0, first⟩) :
    Segment ((img.setList first ⟨img.fileEnd, r.list.next⟩).addRecord new).live 0
      ((img.fileEnd, new.data) :: (first, value) :: b) img.fileEnd := by
  rw [live_addRecord live, live_setList linked.segment.1, recordsEnd_setList, ← linked.fileEnd_eq,
    linked.list_of_found (a := []) found, list]
  exact linked.segment.insert_first (List.nodup_cons.mp linked.nodup).1 linked.end_not_mem

theorem Image.Linked.insert_last {last : Nat} {value : Bytes} (new : Record)
    (linked : img.Linked (a ++ [(last, value)]))
    (found : img.at? last = some r) (live : new.erased = false) (list : new.list = ⟨last, stop⟩) :
    Segment ((img.setList last ⟨r.list.prev, img.fileEnd⟩).addRecord new).live 0
      (a ++ [(last, value)] ++ [(img.fileEnd, new.data)]) stop := by
  have nodup := linked.nodup
  rw [keys_append, List.nodup_append] at nodup
  rw [live_addRecord live, live_setList linked.segment.node, recordsEnd_setList, ← linked.fileEnd_eq,
    linked.list_of_found found, list]
  exact linked.segment.insert_last (fun inside => nodup.2.2 last inside last List.mem_cons_self rfl)
    linked.end_not_mem

theorem Image.Linked.insert_between {before after : Nat} {u w : Bytes} (new : Record)
    (linked : img.Linked (a ++ [(before, u)] ++ (after, w) :: b)) (found : img.at? after = some r)
    (foundBefore : img.at? before = some s) (live : new.erased = false)
      (list : new.list = ⟨before, after⟩) :
    Segment (((img.setList after ⟨img.fileEnd, r.list.next⟩).setList before
        ⟨s.list.prev, img.fileEnd⟩).addRecord new).live 0
      (a ++ [(before, u)] ++ (img.fileEnd, new.data) :: (after, w) :: b) img.fileEnd := by
  have apart : before ≠ after := by
    have nodup := linked.nodup
    rw [keys_append, List.nodup_append] at nodup
    exact nodup.2.2 before (by simp) after List.mem_cons_self
  have node : img.live before = some ⟨lastKey a 0, after, u⟩ := by
    have shape := linked.segment
    rw [List.append_assoc] at shape
    exact shape.node
  have moved : (img.setList after ⟨img.fileEnd, r.list.next⟩).live before =
      some ⟨lastKey a 0, after, u⟩ := by
    rw [live_setList linked.segment.node, Function.update_of_ne apart, node]
  have links : s.list = ⟨lastKey a 0, after⟩ := by
    have shape := linked
    rw [List.append_assoc] at shape
    exact shape.list_of_found foundBefore
  rw [live_addRecord live, live_setList moved, live_setList linked.segment.node, recordsEnd_setList,
    recordsEnd_setList, ← linked.fileEnd_eq, linked.list_of_found found, links, list]
  exact linked.segment.insert_between linked.nodup linked.end_not_mem

theorem Image.linked_setList_last {last : Nat} (clean : img.scar = []) (finished : img.tail = [])
    (segment : Segment img.live 0 l stop) (nodup : (keys l).Nodup) (nonempty : l ≠ [])
    (first : img.limits.prev = headKey l 0) (next : img.limits.next = last) (here : last = lastKey l 0)
    (found : img.at? last = Option.some r) : (img.setList last ⟨r.list.prev, img.fileEnd⟩).Linked l := by
  obtain ⟨front, key, value, rfl⟩ := exists_last nonempty
  rw [lastKey_append] at here
  obtain ⟨s, same, -, list, -⟩ := found_of_live segment.node
  change last = key at here
  rw [here, same] at found
  rw [here, ← Option.some.inj found, list]
  refine .of_segment clean finished (segment_setList_last segment nodup) rfl
    (recordsEnd_eq finished) nodup nonempty first ?_
  rw [lastKey_append]
  exact next.trans here

end

/-- An operation has relinked the records into a list; the size field does not follow yet. -/
structure Relisted (img : Image) (k : Cache) (status : FileStatus) (l : Listing)
    (t : Snapshot Cache Image) :
    Prop where
  linked : t.image.Linked l
  status : t.image.status = status
  size : t.image.size = img.size
  stamp : t.image.stamp = img.stamp
  cache : t.cache = { k with limits := t.cache.limits }
  limits : t.cache.limits.pointers = t.image.limits

def Appended (img : Image) (data : Bytes) (new : Image) : Prop :=
  new.fileEnd = img.fileEnd + calculateDataSize data.length ∧ ∃ more, new.bodies = img.bodies ++ more ++
    [(data, ⟨img.limits.next, img.fileEnd + calculateDataSize data.length⟩)]

/-- How an insertion ends: empty data is refused once the neighbours point to the new record. -/
def Inserted (img : Image) (k : Cache) (status : FileStatus) (l : Listing) (data : Bytes)
    (it : FileIterator) (r : Except IOStatus FileIterator) (t : Snapshot Cache Image) : Prop :=
  (data = [] ∧ r = .error .dataError) ∨ (data ≠ [] ∧ r = .ok it ∧ Relisted img k status l t ∧
    Appended img data t.image)

/-- What the insertion of empty data leaves: the neighbours and the limits point to a record that
is not there. -/
structure Refused (img : Image) (k : Cache) (t : Snapshot Cache Image) : Prop where
  status : t.image.status ∈ [FileStatus.aeLimits, .abLimits, .amIterator2]
  unmoved : t.image.fileEnd = img.fileEnd
  stamp : t.image.stamp = img.stamp
  cache : t.cache = { k with limits := t.cache.limits }
  limits : t.cache.limits.pointers = t.image.limits

structure Halted (img : Image) (k : Cache) (t : Snapshot Cache Image) : Prop extends Refused img k t where
  covered : Covered img t.image

structure Extended (img : Image) (data : Bytes) (new : Image) : Prop where
  grown : new.fileEnd = img.fileEnd + calculateDataSize data.length
  live : (∀ r ∈ img.records, r.erased = false) → ∀ r ∈ new.records, r.erased = false

theorem Extended.of_addRecord {img mid : Image} {data : Bytes} {new : Record}
    (unmoved : mid.fileEnd = img.fileEnd)
    (kept : (∀ r ∈ img.records, r.erased = false) → ∀ r ∈ mid.records, r.erased = false)
    (live : new.erased = false) (same : new.data = data) : Extended img data (mid.addRecord new) where
  grown := by rw [fileEnd_addRecord, unmoved, Record.size, same]
  live all r member := by
    rcases List.mem_append.mp member with old | added
    · exact kept all r old
    · rw [List.mem_singleton.mp added]
      exact live

variable {crash : Bytes → Prop} {e : Env} {k : Cache} {img : Image} {pos : Nat} {a b l : Listing}
  {data : Bytes}

/-- The record is appended once the neighbours point to it. The neighbour behind it may be
the last element, whose links are then backed up a second time. -/
theorem appendInMiddle_ends {base : Image} {it : FileIterator} {old r : Record}
    (covers : ∀ X, Covered base X → Leaves crash X)
    (bound : data ≠ [] → base.fileEnd + calculateDataSize data.length < offBound)
    (kept : Kept base img) (stamp : img.stamp = base.stamp) (finished : img.tail = [])
    (next : Saved base img 0) (prev : Saved base img 1)
    (drift : Drifted base img [(img.backup 1).current, (img.backup 0).current] [])
    (limits : k.limits.pointers = img.limits) (same : img.limits = base.limits)
      (unmoved : img.fileEnd = base.fileEnd)
    (status : img.status = .amIterator2)
    (behind : img.at? (img.backup 0).current = Option.some r) (pointsBack : r.list.prev = base.fileEnd)
    (foundOld : base.at? k.limits.next = Option.some old) (liveOld : old.erased = false)
    (notBefore : k.limits.next ≠ (img.backup 1).current) (small : it.pointers.Fits)
    (segment : Segment (img.addRecord (newRecord it
      ⟨k.limits.next, base.fileEnd + calculateDataSize data.length, base.fileEnd⟩ data)).live 0 l
        base.fileEnd)
    (nodup : (keys l).Nodup) (first : img.limits.prev = headKey l 0) (last : img.limits.next = lastKey l 0)
    (nonempty : l ≠ []) :
    Reaches crash (do
        writeDataHere it ⟨k.limits.next, base.fileEnd + calculateDataSize data.length,
          base.fileEnd⟩ data .amWriting
        resetNextOfLast .amLast
        pure it) e ⟨k, img⟩ pos fun r t =>
      Inserted base k .amLast l data it r t ∧ (data = [] → Halted base k t) := by
  let new := newRecord it ⟨k.limits.next, base.fileEnd + calculateDataSize data.length, base.fileEnd⟩ data
  have appended : Drifted base (img.addRecord new) [(img.backup 1).current, (img.backup 0).current]
      [] := drift.append
  have foundAppended : (img.addRecord new).at? (img.backup 0).current = Option.some r :=
    Layout.locate_append_left behind
  obtain ⟨s, foundLast, alike⟩ := appended.at? foundOld
  have lastSaved : ((∃ r, base.at? k.limits.next = Option.some r ∧ r.list = s.list ∧ r.erased = false) ∧
      k.limits.next ≠ (img.backup 0).current) ∨
      (k.limits.next = (img.backup 0).current ∧ s.list.prev = base.fileEnd) := by
    by_cases same : k.limits.next = (img.backup 0).current
    · rw [same, foundAppended] at foundLast
      exact .inr ⟨same, Option.some.inj foundLast ▸ pointsBack⟩
    · refine .inl ⟨⟨old, foundOld, ?_, liveOld⟩, same⟩
      exact (alike.2.2.1.resolve_right (by simp [notBefore, same])).symm
  have stillBack (x : Record) (there : (img.addRecord new).at? (img.backup 0).current = Option.some x) :
      x.list.prev = base.fileEnd := by
    rw [foundAppended] at there
    exact Option.some.inj there ▸ pointsBack
  have finallyBack (stop : Nat) (x : Record) (there : ((img.addRecord new).setList k.limits.next
      ⟨s.list.prev, stop⟩).at? (img.backup 0).current = Option.some x) : x.list.prev = base.fileEnd := by
    rw [at?_setList] at there
    split at there
    · rename_i again
      rw [← again, foundAppended] at there
      rw [← Option.some.inj there]
      exact (lastSaved.resolve_left fun other => other.2 again.symm).2
    · exact stillBack x there
  refine .of_fits fun fits => ?_
  have limitsSmall : k.limits.pointers.Fits := limits ▸ fits.limits
  rcases eq_or_ne data [] with rfl | filled
  · refine .of_ends (.bind_error writeDataHere_empty_ends) ⟨.inl ⟨rfl, rfl⟩, fun _ => ?_⟩
    exact { status := status ▸ .tail _ (.tail _ (.head _)), unmoved, stamp, cache := rfl, limits
            covered := .twoLinks kept (status ▸ .head _) next prev drift unmoved same }
  have newEnd : (img.addRecord new).fileEnd < offBound := by
    rw [fileEnd_addRecord, unmoved]
    exact bound filled
  refine .bind (writeDataHere_ends filled finished
    (newRecord_fits small limitsSmall.2 (bound filled)) (fun tail => covers _ ?_)
    (covers _ ?_) (covers _ ?_)) ?_
  · exact .writingInMiddle kept (.head _) next prev drift same
      fun x there => Option.some.inj (behind.symm.trans there) ▸ pointsBack
  · exact .writingInMiddle kept (.head _) next prev appended same stillBack
  · exact .writingInMiddle kept (.tail _ (.head _)) next prev appended same stillBack
  refine .bind (resetNextOfLast_ends foundLast limitsSmall.2 newEnd (covers _ ?_) (covers _ ?_)
    (covers _ ?_))
    (.of_ends (.pure _) ?_)
  · exact .writingInMiddle kept (.tail _ (.head _)) next prev appended same stillBack
  · exact .lastInMiddle kept rfl next prev lastSaved
      (appended.mono (List.subset_cons_self _ _) (List.Subset.refl _)) same stillBack
  · exact .lastInMiddle kept rfl next prev lastSaved (appended.setList foundOld) same (finallyBack _)
  · have here : k.limits.next = img.limits.next := congrArg Pointers.next limits
    refine ⟨.inr ⟨filled, rfl, {
      linked := linked_setList_last kept.1 finished segment nodup nonempty first here.symm
        (here.trans last) foundLast
      status := rfl, size := kept.2, stamp, cache := rfl, limits }, ?_⟩, fun empty => absurd empty filled⟩
    obtain ⟨more, bodies⟩ := drift.bodies
    refine ⟨fileEnd_setList.trans (fileEnd_addRecord.trans (congrArg (· + _) unmoved)), more,
      bodies_setList.trans (bodies_addRecord.trans ?_)⟩
    rw [← same, ← here, ← bodies]
    rfl

theorem appendLast_ends {last : Nat} {value : Bytes} (limits : k.limits.pointers = img.limits)
    (bound : data ≠ [] → img.fileEnd + calculateDataSize data.length < offBound)
    (begins : ∀ it, Leaves crash (img.setBackup 0 it)) (covers : ∀ X, Covered img X → Leaves crash X)
    (linked : img.Linked (a ++ [(last, value)])) :
    Reaches crash (addDataAtEnd data img.fileEnd) e ⟨k, img⟩ pos fun r t =>
      Inserted img k .aeWritten (a ++ [(last, value)] ++ [(img.fileEnd, data)]) data
        ⟨last, img.fileEnd + calculateDataSize data.length, img.fileEnd⟩ r t ∧
      (data ≠ [] → Extended img data t.image) ∧ (data = [] → Halted img k t) := by
  have next : k.limits.next = last := by
    rw [show k.limits.next = img.limits.next from congrArg next limits, linked.last, lastKey_append]
    rfl
  subst next
  obtain ⟨r, found, live, -, -⟩ := linked.record
  let lit : FileIterator := ⟨k.limits.next, img.fileEnd + calculateDataSize data.length, img.fileEnd⟩
  have saved := (⟨r, found, rfl, live⟩ : ∃ s, img.at? k.limits.next = _ ∧ s.list = r.list ∧
      s.erased = false)
  have drift : Drifted img (img.setList k.limits.next ⟨r.list.prev, img.fileEnd⟩) [k.limits.next] [] :=
    (Drifted.refl rfl).setList found
  have newEnd : ((img.setList k.limits.next ⟨r.list.prev, img.fileEnd⟩).addRecord
      (newRecord lit lit data)).fileEnd = img.fileEnd + calculateDataSize data.length :=
    fileEnd_addRecord.trans (congrArg (· + _) fileEnd_setList)
  have others : k.limits.next ≠ img.fileEnd := Nat.ne_of_lt (linked.key_bound (by simp)).2
  refine .of_fits fun fits => ?_
  have small := (fits.records r (mem_records found)).list
  have endSmall := linked.end_lt fits
  have limitsSmall : k.limits.pointers.Fits := limits ▸ fits.limits
  refine .bind .cache (.bind (.bind .cache (.on_false others (.bind (readIterator_ends found)
    (.bind (writeIteratorBackup_ends 0 ⟨small.1, small.2, limitsSmall.2⟩ (begins _) (covers _ ?_))
      (.bind (writeIterator_ends ⟨r.list.prev, img.fileEnd, k.limits.next⟩ found ⟨small.1,
        endSmall⟩ (covers _ ?_))
        (.pure _)))))) ?_)
  · exact .oneLink ⟨linked.clean, rfl⟩ (.head _) saved (.of_same rfl) rfl rfl
  · exact .oneLink ⟨linked.clean, rfl⟩ (.head _) saved drift fileEnd_setList rfl
  refine .bind (writeLimitsBackup_ends limitsSmall (covers _ ?_) (covers _ ?_)) ?_
  · exact .oneLink ⟨linked.clean, rfl⟩ (.head _) saved drift fileEnd_setList rfl
  · exact .oneLinkAndLimits ⟨linked.clean, rfl⟩ (.head _) saved drift fileEnd_setList limits
  refine .bind (.update _) (.bind (writeLimits_ends ⟨k.limits.prev, img.fileEnd, k.limits.current⟩
    ⟨limitsSmall.1, endSmall⟩ (covers _ ?_)) ?_)
  · exact .oneLinkAndLimits ⟨linked.clean, rfl⟩ (.head _) saved drift fileEnd_setList limits
  rcases eq_or_ne data [] with rfl | nonempty
  · refine .of_ends (.bind_error writeDataHere_empty_ends) ⟨.inl ⟨rfl, rfl⟩, fun other =>
      absurd rfl other, fun _ => ?_⟩
    exact { status := .head _, unmoved := fileEnd_setList, stamp := rfl, cache := rfl, limits := rfl
            covered := .oneLinkAndLimits ⟨linked.clean, rfl⟩ (.head _) saved drift fileEnd_setList limits }
  have smallNew : (newRecord lit lit data).Fits :=
    newRecord_fits ⟨limitsSmall.2, bound nonempty⟩ limitsSmall.2 (bound nonempty)
  refine .bind (writeDataHere_ends nonempty linked.finished smallNew (fun tail =>
    covers _ ?_) (covers _ ?_) (covers _ ?_))
    (.of_ends (.pure _) ?_)
  · exact .writingAtEnd ⟨linked.clean, rfl⟩ (.head _) saved drift limits rfl
  · exact .writingAtEnd ⟨linked.clean, rfl⟩ (.head _) saved drift.append limits rfl
  · exact .writingAtEnd ⟨linked.clean, rfl⟩ (.tail _ (.head _)) saved drift.append limits rfl
  · have segment := linked.insert_last (newRecord lit lit data) found rfl
      (congrArg (mk k.limits.next) newEnd.symm)
    have nodup : (keys (a ++ [(k.limits.next, value)] ++ [(img.fileEnd, data)])).Nodup :=
      nodup_insert (by rw [List.append_nil]; exact linked.nodup)
        (by rw [List.append_nil]; exact linked.end_not_mem)
    have first : k.limits.prev = headKey (a ++ [(k.limits.next, value)] ++ [(img.fileEnd, data)]) 0 := by
      rw [headKey_append]
      exact (congrArg prev limits).trans (linked.first.trans (headKey_of_ne_nil (by simp) _))
    have last : img.fileEnd = lastKey (a ++ [(k.limits.next, value)] ++ [(img.fileEnd, data)]) 0 := by
      rw [lastKey_append]
      rfl
    refine ⟨.inr ⟨nonempty, rfl, ?linked, ?appended⟩, fun _ => ?extended, fun empty =>
      absurd empty nonempty⟩
    case appended =>
      refine ⟨newEnd, [], bodies_addRecord.trans ?_⟩
      rw [List.append_nil, ← limits]
      exact congrArg (· ++ [(data, lit.pointers)])
        (bodies_setList : (img.setList k.limits.next ⟨r.list.prev, img.fileEnd⟩).bodies = img.bodies)
    case extended =>
      exact { Extended.of_addRecord (fileEnd_setList : (img.setList _ _).fileEnd = _)
        (fun all => Layout.forall_modifyAt all fun _ opened => opened) rfl rfl with }
    case linked =>
      exact {
        linked := .of_segment linked.clean linked.finished segment rfl
          (recordsEnd_eq linked.finished) nodup
          (by simp) first last
        status := rfl, size := rfl, stamp := rfl, cache := rfl, limits := rfl }

/-- The first element of an empty container has no neighbours, so no iterator is backed up. -/
theorem addDataAtEnd_empty_ends (limits : k.limits.pointers = img.limits)
    (bound : data ≠ [] → img.fileEnd + calculateDataSize data.length < offBound) (linked : img.Linked []) :
    Reaches Unchecked (addDataAtEnd data img.fileEnd) e ⟨k, img⟩ pos fun r t =>
      Inserted img k .aeWritten [(img.fileEnd, data)] data
        ⟨0, img.fileEnd + calculateDataSize data.length, img.fileEnd⟩ r t ∧
      t.image.backup = img.backup ∧ t.image.limitsBackup = img.limits ∧
        (data ≠ [] → Extended img data t.image) ∧
      (data = [] → Refused img k t ∧ t.image.scar = [] ∧ t.image.status = .aeLimits) := by
  have next : k.limits.next = img.fileEnd := (congrArg next limits).trans linked.last
  let it : FileIterator := ⟨0, img.fileEnd + calculateDataSize data.length, img.fileEnd⟩
  let lit : FileIterator := ⟨k.limits.next, img.fileEnd + calculateDataSize data.length, img.fileEnd⟩
  refine .of_fits fun fits => ?_
  have endSmall := linked.end_lt fits
  have limitsSmall : k.limits.pointers.Fits := limits ▸ fits.limits
  refine .bind .cache (.bind (.bind .cache (.on_true next (.pure _))) ?_)
  refine .bind (writeLimitsBackup_ends limitsSmall .unchecked .unchecked) (.bind (.update _) ?_)
  refine .bind (writeLimits_ends ⟨k.limits.prev, img.fileEnd, k.limits.current⟩ ⟨limitsSmall.1,
    endSmall⟩ .unchecked) ?_
  rcases eq_or_ne data [] with rfl | nonempty
  · refine .of_ends (.bind_error writeDataHere_empty_ends) ⟨.inl ⟨rfl, rfl⟩, rfl, limits,
      fun other => absurd rfl other,
      fun _ => ⟨?_, linked.clean, rfl⟩⟩
    exact { status := .head _, unmoved := rfl, stamp := rfl, cache := rfl, limits := rfl }
  have smallNew : (newRecord it lit data).Fits :=
    newRecord_fits ⟨offBound_pos, bound nonempty⟩ limitsSmall.2 (bound nonempty)
  refine .bind (writeDataHere_ends nonempty linked.finished smallNew (fun _ =>
    .unchecked) .unchecked .unchecked)
    (.of_ends (.pure _) ⟨.inr ⟨nonempty, rfl, ?_, fileEnd_addRecord, [], ?_⟩, rfl, limits,
      fun _ => { Extended.of_addRecord (show img.fileEnd = img.fileEnd from rfl) id rfl rfl with },
      fun bare => absurd bare nonempty⟩)
  have newEnd : (img.addRecord (newRecord it lit data)).fileEnd = img.fileEnd +
      calculateDataSize data.length :=
    fileEnd_addRecord
  have node : (img.addRecord (newRecord it lit data)).live img.fileEnd =
      Option.some ⟨0, (img.addRecord (newRecord it lit data)).fileEnd, data⟩ := by
    rw [live_addRecord rfl, ← linked.fileEnd_eq, Function.update_self, newEnd]
    rfl
  · exact {
      linked := .of_segment linked.clean linked.finished (show Segment _ 0 [_] _ from ⟨node, trivial⟩) rfl
        (recordsEnd_eq linked.finished) (List.nodup_singleton _) (by simp)
        ((congrArg prev limits).trans linked.first) rfl
      status := rfl, size := rfl, stamp := rfl, cache := rfl, limits := rfl }
  · rw [List.append_nil, ← limits]
    exact bodies_addRecord

section

variable {offset : Nat} (opened : img.status = .opened) (limits : k.limits.pointers = img.limits)
  (bound : data ≠ [] → img.fileEnd + calculateDataSize data.length < offBound)
  (covers : ∀ X, Covered img X → Leaves crash X)
include opened limits bound covers

theorem addDataAtBegin_ends {first : Nat} {value : Bytes} (linked : img.Linked ((first, value) :: b)) :
    Reaches crash (addDataAtBegin data img.fileEnd) e ⟨k, img⟩ pos fun r t =>
      Inserted img k .abLast ((img.fileEnd, data) :: (first, value) :: b) data ⟨0, first, img.fileEnd⟩ r t ∧
      (data = [] → Halted img k t) := by
  have prev : k.limits.prev = first := (congrArg prev limits).trans linked.first
  have next : k.limits.next = lastKey b first := (congrArg next limits).trans linked.last
  subst prev
  obtain ⟨r, found, live, -, -⟩ := linked.record (a := [])
  obtain ⟨c, last, u, shape⟩ := exists_last (l := (k.limits.prev, value) :: b) (by simp)
  obtain ⟨old, foundOld, liveOld, -, -⟩ := (shape ▸ linked).record
  have here : last = k.limits.next := by
    rw [next, ← show lastKey ((k.limits.prev, value) :: b) 0 = lastKey b k.limits.prev from rfl,
      shape, lastKey_append]
    rfl
  subst here
  let lit : FileIterator := ⟨k.limits.next, img.fileEnd + calculateDataSize data.length, img.fileEnd⟩
  have saved := (⟨r, found, rfl, live⟩ : ∃ s, img.at? k.limits.prev = _ ∧ s.list = r.list ∧
      s.erased = false)
  have drift : Drifted img (img.setList k.limits.prev ⟨img.fileEnd, r.list.next⟩) [k.limits.prev] [] :=
    (Drifted.refl rfl).setList found
  have appended : Drifted img ((img.setList k.limits.prev ⟨img.fileEnd, r.list.next⟩).addRecord
      (newRecord ⟨0, k.limits.prev, img.fileEnd⟩ lit data)) [k.limits.prev] [] := drift.append
  obtain ⟨s, foundLast, alike⟩ := appended.at? foundOld
  -- the only element is at once the first, whose links have changed, and the last
  have lastSaved : (∃ r, img.at? k.limits.next = Option.some r ∧ r.list = s.list ∧ r.erased = false) ∨
      k.limits.next = k.limits.prev :=
    alike.2.2.1.imp (fun same => ⟨old, foundOld, same.symm, liveOld⟩) List.mem_singleton.mp
  have newEnd : ((img.setList k.limits.prev ⟨img.fileEnd, r.list.next⟩).addRecord
      (newRecord ⟨0, k.limits.prev, img.fileEnd⟩ lit data)).fileEnd = img.fileEnd +
        calculateDataSize data.length :=
    fileEnd_addRecord.trans (congrArg (· + _) fileEnd_setList)
  refine .of_fits fun fits => ?_
  have small := (fits.records r (mem_records found)).list
  have endSmall := linked.end_lt fits
  have firstSmall : k.limits.prev < offBound := linked.key_lt fits List.mem_cons_self
  have limitsSmall : k.limits.pointers.Fits := limits ▸ fits.limits
  refine .bind .cache (.bind (readIterator_ends found) ?_)
  refine .bind (writeIteratorBackup_ends 0 ⟨small.1, small.2, firstSmall⟩ (covers _ ?_) (covers _ ?_)) ?_
  · exact .untouched ⟨linked.clean, rfl⟩ (opened ▸ .tail _ (.head _)) (.of_same rfl) rfl rfl
  · exact .oneLink ⟨linked.clean, rfl⟩ (.tail _ (.head _)) saved (.of_same rfl) rfl rfl
  refine .bind (writeIterator_ends ⟨img.fileEnd, r.list.next, k.limits.prev⟩ found ⟨endSmall, small.2⟩
    (covers _ ?_)) ?_
  · exact .oneLink ⟨linked.clean, rfl⟩ (.tail _ (.head _)) saved drift fileEnd_setList rfl
  refine .bind (writeLimitsBackup_ends limitsSmall (covers _ ?_) (covers _ ?_)) ?_
  · exact .oneLink ⟨linked.clean, rfl⟩ (.tail _ (.head _)) saved drift fileEnd_setList rfl
  · exact .oneLinkAndLimits ⟨linked.clean, rfl⟩ (.tail _ (.head _)) saved drift fileEnd_setList limits
  refine .bind (.update _) (.bind (writeLimits_ends ⟨img.fileEnd, k.limits.next, k.limits.current⟩
    ⟨endSmall, limitsSmall.2⟩ (covers _ ?_)) ?_)
  · exact .oneLinkAndLimits ⟨linked.clean, rfl⟩ (.tail _ (.head _)) saved drift fileEnd_setList limits
  rcases eq_or_ne data [] with rfl | nonempty
  · refine .of_ends (.bind_error writeDataHere_empty_ends) ⟨.inl ⟨rfl, rfl⟩, fun _ => ?_⟩
    exact { status := .tail _ (.head _), unmoved := fileEnd_setList, stamp := rfl, cache := rfl, limits := rfl
            covered := .oneLinkAndLimits ⟨linked.clean, rfl⟩ (.tail _ (.head _)) saved drift fileEnd_setList
              limits }
  have smallNew : (newRecord ⟨0, k.limits.prev, img.fileEnd⟩ lit data).Fits :=
    newRecord_fits ⟨offBound_pos, firstSmall⟩ limitsSmall.2 (bound nonempty)
  refine .bind (writeDataHere_ends nonempty linked.finished smallNew (fun tail =>
    covers _ ?_) (covers _ ?_) (covers _ ?_)) ?_
  · exact .writingAtBegin ⟨linked.clean, rfl⟩ (.head _) saved drift limits rfl
  · exact .writingAtBegin ⟨linked.clean, rfl⟩ (.head _) saved appended limits rfl
  · exact .writingAtBegin ⟨linked.clean, rfl⟩ (.tail _ (.head _)) saved appended limits rfl
  refine .bind (resetNextOfLast_ends foundLast limitsSmall.2 (newEnd.trans_lt (bound nonempty))
    (covers _ ?_) (covers _ ?_)
    (covers _ ?_)) (.of_ends (.pure _) ?_)
  · exact .writingAtBegin ⟨linked.clean, rfl⟩ (.tail _ (.head _)) saved appended limits rfl
  · exact .lastAtBegin ⟨linked.clean, rfl⟩ rfl saved lastSaved
      (appended.mono (List.subset_cons_self _ _) (List.Subset.refl _)) limits rfl
  · exact .lastAtBegin ⟨linked.clean, rfl⟩ rfl saved lastSaved (appended.setList foundOld) limits rfl
  · have segment := linked.insert_first (newRecord ⟨0, k.limits.prev, img.fileEnd⟩ lit data) found rfl rfl
    have nodup : (keys ((img.fileEnd, data) :: (k.limits.prev, value) :: b)).Nodup :=
      List.nodup_cons.mpr ⟨linked.end_not_mem, linked.nodup⟩
    refine ⟨.inr ⟨nonempty, rfl, {
      linked := linked_setList_last linked.clean linked.finished segment nodup
        (by simp) rfl rfl next foundLast
      status := rfl, size := rfl, stamp := rfl, cache := rfl, limits := rfl }, ?_⟩, fun empty =>
        absurd empty nonempty⟩
    refine ⟨fileEnd_setList.trans newEnd, [], bodies_setList.trans (bodies_addRecord.trans ?_)⟩
    rw [List.append_nil, ← limits]
    exact congrArg (· ++ [(data, lit.pointers)])
      (bodies_setList : (img.setList k.limits.prev ⟨img.fileEnd, r.list.next⟩).bodies = img.bodies)

theorem addDataAtEnd_ends {last : Nat} {value : Bytes} (linked : img.Linked (a ++ [(last, value)])) :
    Reaches crash (addDataAtEnd data img.fileEnd) e ⟨k, img⟩ pos fun r t =>
      Inserted img k .aeWritten (a ++ [(last, value)] ++ [(img.fileEnd, data)]) data
        ⟨last, img.fileEnd + calculateDataSize data.length, img.fileEnd⟩ r t ∧
          (data = [] → Halted img k t) := by
  refine .mono (appendLast_ends limits bound (fun it => covers _ ?_) covers linked) fun r t ends =>
    ⟨ends.1, ends.2.2⟩
  exact .untouched ⟨linked.clean, rfl⟩ (opened ▸ .tail _ (.head _)) (.of_same rfl) rfl rfl

theorem addDataInMiddle_ends {before after : Nat} {u w : Bytes}
    (linked : img.Linked (a ++ [(before, u)] ++ (after, w) :: b)) :
    Reaches crash (addDataInMiddle data after img.fileEnd) e ⟨k, img⟩ pos fun r t =>
      Inserted img k .amLast (a ++ [(before, u)] ++ (img.fileEnd, data) :: (after, w) :: b) data
        ⟨before, after, img.fileEnd⟩ r t ∧ (data = [] → Halted img k t) := by
  obtain ⟨r, found, live, links, -⟩ := linked.record
  rw [lastKey_append] at links
  have back : r.list.prev = before := congrArg prev links
  subst back
  obtain ⟨t, foundBefore, liveBefore, -, -⟩ := (List.append_assoc _ _ _ ▸ linked).record
  have nodup := linked.nodup
  rw [keys_append, List.nodup_append] at nodup
  have apart (key : Nat) (member : key ∈ keys ((after, w) :: b)) : key ≠ r.list.prev :=
    fun same => nodup.2.2 r.list.prev (by simp) key member same.symm
  have last : img.limits.next = lastKey ((after, w) :: b) 0 := by rw [linked.last, lastKey_append]; rfl
  have lastMember : k.limits.next ∈ keys ((after, w) :: b) := by
    rw [show k.limits.next = img.limits.next from congrArg next limits, last]
    exact lastKey_mem 0 (by simp)
  obtain ⟨old, foundOld, liveOld⟩ : ∃ old, img.at? k.limits.next = Option.some old ∧
    old.erased = false := by
    obtain ⟨c, value, d, shape⟩ := exists_split lastMember
    rw [shape, ← List.append_assoc] at linked
    obtain ⟨old, found, live, -⟩ := linked.record
    exact ⟨old, found, live⟩
  let lit : FileIterator := ⟨k.limits.next, img.fileEnd + calculateDataSize data.length, img.fileEnd⟩
  have saved := (⟨r, found, rfl, live⟩ : ∃ s, img.at? after = _ ∧ s.list = r.list ∧ s.erased = false)
  have savedBefore := (⟨t, foundBefore, rfl, liveBefore⟩ :
    ∃ s, img.at? r.list.prev = _ ∧ s.list = t.list ∧ s.erased = false)
  have driftAfter : Drifted img (img.setList after ⟨img.fileEnd, r.list.next⟩) [after] [] :=
    (Drifted.refl rfl).setList found
  have drift : Drifted img ((img.setList after ⟨img.fileEnd, r.list.next⟩).setList r.list.prev
      ⟨t.list.prev, img.fileEnd⟩) [r.list.prev, after] [] :=
    driftAfter.setList foundBefore
  obtain ⟨t', foundBefore', -⟩ := driftAfter.at? foundBefore
  have foundAfter : ((img.setList after ⟨img.fileEnd, r.list.next⟩).setList r.list.prev
      ⟨t.list.prev, img.fileEnd⟩).at? after = Option.some { r with list :=
        ⟨img.fileEnd, r.list.next⟩ } := by
    rw [at?_setList, if_neg (apart after List.mem_cons_self), at?_setList, if_pos rfl, found]
    rfl
  have unmoved : ((img.setList after ⟨img.fileEnd, r.list.next⟩).setList r.list.prev
      ⟨t.list.prev, img.fileEnd⟩).fileEnd = img.fileEnd := fileEnd_setList.trans fileEnd_setList
  refine .of_fits fun fits => ?_
  have small := (fits.records r (mem_records found)).list
  have smallBefore := (fits.records t (mem_records foundBefore)).list
  have endSmall := linked.end_lt fits
  have afterSmall : after < offBound := linked.key_lt fits (by simp)
  have beforeSmall : r.list.prev < offBound := linked.key_lt fits (by simp)
  refine .bind .cache (.bind (readIterator_ends found) (.bind (readIterator_ends foundBefore) ?_))
  refine .bind (writeIteratorBackup_ends 0 ⟨small.1, small.2, afterSmall⟩ (covers _ ?_) (covers _ ?_)) ?_
  · exact .untouched ⟨linked.clean, rfl⟩ (opened ▸ .tail _ (.head _)) (.of_same rfl) rfl rfl
  · exact .oneLink ⟨linked.clean, rfl⟩ (.tail _ (.tail _ (.head _))) saved (.of_same rfl) rfl rfl
  refine .bind (writeIteratorBackup_ends 1 ⟨smallBefore.1, smallBefore.2,
    beforeSmall⟩ (covers _ ?_) (covers _ ?_)) ?_
  · exact .oneLink ⟨linked.clean, rfl⟩ (.tail _ (.tail _ (.head _))) saved (.of_same rfl) rfl rfl
  · exact .twoLinks ⟨linked.clean, rfl⟩ (.head _) saved savedBefore (.of_same rfl) rfl rfl
  refine .bind (writeIterator_ends ⟨img.fileEnd, r.list.next, after⟩ found ⟨endSmall,
    small.2⟩ (covers _ ?_)) ?_
  · exact .twoLinks ⟨linked.clean, rfl⟩ (.head _) saved savedBefore
      (driftAfter.mono (List.subset_cons_self _ _) (List.Subset.refl _)) fileEnd_setList rfl
  refine .bind (writeIterator_ends ⟨t.list.prev, img.fileEnd,
    r.list.prev⟩ foundBefore' ⟨smallBefore.1, endSmall⟩
    (covers _ ?_)) ?_
  · exact .twoLinks ⟨linked.clean, rfl⟩ (.head _) saved savedBefore drift unmoved rfl
  have segment := linked.insert_between (newRecord ⟨r.list.prev, after, img.fileEnd⟩ lit data) found
      foundBefore rfl rfl
  refine appendInMiddle_ends covers bound ⟨linked.clean,
    rfl⟩ rfl linked.finished saved savedBefore drift limits rfl
    unmoved rfl foundAfter rfl foundOld liveOld (apart _ lastMember) ⟨beforeSmall, afterSmall⟩ segment
    (nodup_insert linked.nodup linked.end_not_mem) ?_ ?_ (by simp)
  · have first := linked.first
    rw [headKey_append] at first ⊢
    exact first.trans (headKey_of_ne_nil (by simp) _)
  · rw [lastKey_append]
    exact last

theorem insertData_ends (linked : img.Linked l) (nonempty : l ≠ [])
    (place : offset = img.fileEnd ∨ offset ∈ keys l) :
    Reaches crash (insertData data offset img.fileEnd) e ⟨k, img⟩ pos fun r t =>
      ∃ status ∈ [FileStatus.aeWritten, .abLast, .amLast], ∃ it : FileIterator, it.current = img.fileEnd ∧
        Inserted img k status (Listing.insertAt offset (img.fileEnd, data) l) data it r t ∧
        (data = [] → Halted img k t) := by
  unfold insertData
  refine .bind .cache ?_
  by_cases atEnd : offset = img.fileEnd
  · subst atEnd
    rw [if_pos rfl, Listing.insertAt_of_not_mem linked.end_not_mem]
    obtain ⟨a, last, value, rfl⟩ := exists_last nonempty
    exact (addDataAtEnd_ends opened limits bound covers linked).mono fun r t inserted =>
      ⟨_, .head _, _, rfl, inserted⟩
  rw [if_neg atEnd]
  obtain ⟨a, value, b, rfl⟩ := exists_split (place.resolve_left atEnd)
  have nodup := linked.nodup
  rw [keys_append, List.nodup_append] at nodup
  rw [Listing.insertAt_of_mem fun inside => nodup.2.2 offset inside offset List.mem_cons_self rfl]
  have first : k.limits.prev = headKey (a ++ (offset, value) :: b) img.fileEnd :=
    (congrArg prev limits).trans linked.first
  rw [headKey_append] at first
  by_cases atBegin : a = []
  · subst atBegin
    rw [if_pos (show offset = k.limits.prev from first.symm)]
    exact (addDataAtBegin_ends opened limits bound covers linked).mono fun r t inserted =>
      ⟨_, .tail _ (.head _), _, rfl, inserted⟩
  · have other : offset ≠ k.limits.prev := fun same =>
      nodup.2.2 _ (headKey_mem atBegin) offset List.mem_cons_self (first.symm.trans same.symm)
    rw [if_neg other]
    obtain ⟨c, before, u, rfl⟩ := exists_last atBegin
    exact (addDataInMiddle_ends opened limits bound covers linked).mono fun r t inserted =>
      ⟨_, .tail _ (.tail _ (.head _)), _, rfl, inserted⟩

end

end Wms.FileContainer
