import Wms.FileContainer.Insertion
import Wms.FileContainer.RecoverySpec

/-! The ways of removing a record, up to the blanking of the backups.

The record stays in the file and is marked as erased, unless it is the only one: then the
file is cut behind its header.
-/

set_option autoImplicit false

namespace Wms.FileContainer

open Lib Lib.FileProg Lib.Links Image Function List

/-! The list after the neighbours have been linked and the record has been marked. -/

section

variable {img : Image} {a b l : Listing} {r s : Record}

/-- Marking a record takes it out of the list; its links are written again and do not matter. -/
theorem Image.live_mark {key : Nat} (list : Pointers) :
    ((img.setList key list).setErased key true).live = update img.live key none := by
  rw [live_setErased]
  funext other
  by_cases same : other = key
  · rw [same, update_self, update_self]
  · rw [update_of_ne same, update_of_ne same, live, at?_setList, if_neg same, live]

theorem Image.Linked.remove_last {key last : Nat} {value u : Bytes}
    (linked : img.Linked (a ++ [(last, u)] ++ [(key, value)])) (found : img.at? last = some r) :
    Segment (update (img.setList last ⟨r.list.prev, img.fileEnd⟩).live key none) 0
      (a ++ [(last, u)]) img.fileEnd := by
  have shape := linked
  rw [append_assoc] at shape
  rw [live_setList shape.segment.node, shape.list_of_found found]
  exact linked.segment.remove_last linked.nodup

theorem Image.Linked.remove_first {key first : Nat} {value w : Bytes}
    (linked : img.Linked ((key, value) :: (first, w) :: b)) (found : img.at? first = some r) :
    Segment (update (img.setList first ⟨0, r.list.next⟩).live key none) 0
      ((first, w) :: b) img.fileEnd := by
  rw [live_setList linked.segment.2.1, linked.list_of_found (a := [(key, value)]) found]
  exact linked.segment.remove_first linked.nodup

theorem Image.Linked.remove_between {key before after : Nat} {value u w : Bytes}
    (linked : img.Linked (a ++ [(before, u)] ++ (key, value) :: (after, w) :: b))
    (found : img.at? after = some r) (foundBefore : img.at? before = some s) :
    Segment (update ((img.setList after ⟨before, r.list.next⟩).setList before ⟨s.list.prev, after⟩).live
        key none) 0 (a ++ [(before, u)] ++ (after, w) :: b) img.fileEnd := by
  have apart : before ≠ after := by
    have nodup := linked.nodup
    rw [keys_append, nodup_append] at nodup
    exact nodup.2.2 before (by simp) after (by simp)
  have shape : img.Linked (a ++ (before, u) :: (key, value) :: (after, w) :: b) := by
    rw [append_assoc] at linked
    exact linked
  have shape' : img.Linked (a ++ [(before, u), (key, value)] ++ (after, w) :: b) := by
    rw [append_assoc]
    exact shape
  have moved : (img.setList after ⟨before, r.list.next⟩).live before = some ⟨lastKey a 0, key, u⟩ := by
    rw [live_setList shape'.segment.node, update_of_ne apart, shape.segment.node]
    rfl
  rw [live_setList moved, live_setList shape'.segment.node, shape'.list_of_found found,
    shape.list_of_found foundBefore]
  exact linked.segment.remove_between linked.nodup

end

structure Retired (base : Image) (offset : Nat) (img : Image) : Prop where
  unmoved : img.fileEnd = base.fileEnd
  found : ∃ r s, base.at? offset = some r ∧ img.at? offset = some s ∧ s.list = r.list
  bodies : ∃ more, img.bodies = base.bodies ++ more

variable {crash : Bytes → Prop} {e : Env} {k : Cache} {img : Image} {pos : Nat} {a b l : Listing}

/-! The marking of the record, the last step before the backups are blanked. -/

section

variable {base : Image} {iter : FileIterator} {r : Record} {status : FileStatus}
  (covers : ∀ X, Covered base X → Leaves crash X) (kept : Kept base img) (stamp : img.stamp = base.stamp)
  (finished : img.tail = []) (found : base.at? iter.current = some r) (list : r.list = iter.pointers)
  (small : iter.Fits) (unmoved : img.fileEnd = base.fileEnd)
  (segment : Segment (update img.live iter.current none) 0 l base.fileEnd) (nodup : (keys l).Nodup)
  (nonempty : l ≠ []) (first : img.limits.prev = headKey l 0) (last : img.limits.next = lastKey l 0)
  (limits : k.limits.pointers = img.limits)
include covers kept stamp finished found list small unmoved segment nodup nonempty first last limits

theorem mark_ends {touched : List Nat} (drift : Drifted base img touched [])
    (before : Covered base (img.setBackup 2 iter))
    (marked : ∀ records : List Record, let X : Image := { img.setBackup 2 iter with status, records }
      Drifted base X (iter.current :: touched) [iter.current] → X.fileEnd = base.fileEnd →
        Covered base X) :
    Reaches crash (markDataAsErased iter r.data.length status) e ⟨k, img⟩ pos fun r t =>
      r = .ok () ∧ Relisted base k status l t ∧ Retired base iter.current t.image := by
  obtain ⟨s, here, alike⟩ := drift.at? found
  rw [← alike.1]
  refine .of_ends (markDataAsErased_ends here small (covers _ before) (covers _ ?_) (covers _ ?_)
    (covers _ ?_))
    ⟨rfl, ?relisted, ?retired⟩
  case relisted =>
    rw [← live_mark iter.pointers] at segment
    refine ⟨.of_segment kept.1 finished segment rfl ?_ nodup nonempty first last, rfl, kept.2,
      stamp, rfl, limits⟩
    rw [recordsEnd_setErased, recordsEnd_setList, recordsEnd_eq finished, unmoved]
  case retired =>
    refine ⟨fileEnd_setErased.trans (fileEnd_setList.trans unmoved), ?_, ?_⟩
    · have there : at? { img.setBackup 2 iter with status } iter.current = Option.some s := here
      rw [at?_setErased, if_pos rfl, at?_setList, if_pos rfl, there]
      exact ⟨r, _, found, rfl, list.symm⟩
    · rw [bodies_setErased, bodies_setList]
      exact drift.bodies
  · exact marked _ (drift.mono (subset_cons_self _ _) (nil_subset _)) unmoved
  · exact marked _ ((drift.setList found).mono (List.Subset.refl _) (nil_subset _))
      (fileEnd_setList.trans unmoved)
  · exact marked _ ((drift.setList found).setErased found)
      (fileEnd_setErased.trans (fileEnd_setList.trans unmoved))

end

section

variable (opened : img.status = .opened) (limits : k.limits.pointers = img.limits)
  (covers : ∀ X, Covered img X → Leaves crash X)
include opened limits covers

theorem unlinkAtEnds_ends {near : Nat} {iter newLimits : FileIterator} {r t : Record} {f : Cache → Cache}
    {change : FileIterator → FileIterator} (clean : img.scar = []) (finished : img.tail = [])
    (found : img.at? iter.current = some r) (list : r.list = iter.pointers) (live : r.erased = false)
    (foundNear : img.at? near = some t) (liveNear : t.erased = false)
      (updated : f k = { k with limits := newLimits })
    (small : img.Fits → iter.Fits ∧ near < offBound ∧ newLimits.pointers.Fits ∧
      (change (t.list.at near)).pointers.Fits)
    (segment : Segment (update (img.setList near (change (t.list.at near)).pointers).live
      iter.current none)
      0 l img.fileEnd) (nodup : (keys l).Nodup) (nonempty : l ≠ [])
    (first : newLimits.prev = headKey l 0) (last : newLimits.next = lastKey l 0) :
    Reaches crash (do
      writeLimitsBackup .rdLimits k.limits
      update f
      writeInitialPosition newLimits false
      let temp ← readIterator near false
      writeIteratorBackup 0 temp .rdIterator
      writeIterator temp.current (change temp)
      markDataAsErased iter r.data.length .rdMark1) e ⟨k, img⟩ pos fun r t =>
      r = .ok () ∧ Relisted img k .rdMark1 l t ∧ Retired img iter.current t.image := by
  have saved := (⟨t, foundNear, rfl, liveNear⟩ : ∃ s, img.at? near = _ ∧ s.list = t.list ∧
      s.erased = false)
  have drift : Drifted img (img.setList near (change (t.list.at near)).pointers) [near] [] :=
    (Drifted.refl rfl).setList foundNear
  have unmoved : (img.setList near (change (t.list.at near)).pointers).fileEnd = img.fileEnd :=
    fileEnd_setList
  refine .of_fits fun fits => ?_
  have links := (fits.records t (mem_records foundNear)).list
  have limitsSmall : k.limits.pointers.Fits := limits ▸ fits.limits
  obtain ⟨iterSmall, nearSmall, newSmall, changeSmall⟩ := small fits
  refine .bind (writeLimitsBackup_ends limitsSmall (covers _ ?_) (covers _ ?_)) (.bind (.update _) ?_)
  · exact .untouched ⟨clean, rfl⟩ (opened ▸ .tail _ (.head _)) (.of_same rfl) rfl rfl
  · exact .onlyLimits ⟨clean, rfl⟩ rfl (.of_same rfl) rfl limits
  rw [updated]
  refine .bind (writeLimits_ends newLimits newSmall (covers _ ?_)) (.bind (readIterator_ends foundNear) ?_)
  · exact .onlyLimits ⟨clean, rfl⟩ rfl (.of_same rfl) rfl limits
  refine .bind (writeIteratorBackup_ends 0 ⟨links.1, links.2, nearSmall⟩ (covers _ ?_) (covers _ ?_)) ?_
  · exact .onlyLimits ⟨clean, rfl⟩ rfl (.of_same rfl) rfl limits
  · exact .oneLinkAndLimits ⟨clean, rfl⟩ (.tail _ (.tail _ (.head _))) saved (.of_same rfl) rfl limits
  refine .bind (writeIterator_ends (change (t.list.at near)) foundNear changeSmall (covers _ ?_)) ?_
  · exact .oneLinkAndLimits ⟨clean, rfl⟩ (.tail _ (.tail _ (.head _))) saved drift unmoved limits
  refine .mono (mark_ends covers ⟨clean, rfl⟩ rfl finished found list iterSmall unmoved segment
    nodup nonempty
    first last rfl drift (.oneLinkAndLimits ⟨clean, rfl⟩ (.tail _ (.tail _ (.head _))) saved drift
      unmoved limits)
    fun records drift unmoved =>
      .markedAtEnds ⟨clean, rfl⟩ rfl saved ⟨r, found, list, live⟩ drift unmoved limits) fun r t
        relisted => ?_
  exact ⟨relisted.1, { relisted.2.1 with }, relisted.2.2⟩

theorem removeLastData_ends {key last : Nat} {value u : Bytes}
    (linked : img.Linked (a ++ [(last, u)] ++ [(key, value)])) :
    Reaches crash (removeLastData ⟨last, img.fileEnd, key⟩ value.length img.fileEnd) e ⟨k,
      img⟩ pos fun r t =>
      r = .ok () ∧ Relisted img k .rdMark1 (a ++ [(last, u)]) t ∧ Retired img key t.image := by
  obtain ⟨r, found, live, list, rfl⟩ := linked.record
  rw [lastKey_append] at list
  obtain ⟨t, foundLast, liveLast, -, -⟩ := (append_assoc _ _ _ ▸ linked).record
  have nodup := linked.nodup
  rw [keys_append, nodup_append] at nodup
  have first : k.limits.prev = headKey (a ++ [(last, u)]) 0 := by
    rw [show k.limits.prev = img.limits.prev from congrArg Pointers.prev limits, linked.first,
      headKey_append]
    exact headKey_of_ne_nil (by simp) _
  refine .bind .cache (unlinkAtEnds_ends opened limits covers linked.clean linked.finished found
    list live foundLast
    liveLast rfl (fun fits => ?_) (linked.remove_last foundLast) nodup.1 (by simp) first
      (by rw [lastKey_append]; rfl))
  have lastSmall : last < offBound := linked.key_lt fits (by simp)
  have limitsSmall : k.limits.pointers.Fits := limits ▸ fits.limits
  exact ⟨⟨lastSmall, linked.end_lt fits, linked.key_lt fits (by simp)⟩, lastSmall,
    ⟨limitsSmall.1, lastSmall⟩,
    (fits.records t (mem_records foundLast)).list.1, linked.end_lt fits⟩

theorem removeFirstData_ends {key first : Nat} {value w : Bytes}
    (linked : img.Linked ((key, value) :: (first, w) :: b)) :
    Reaches crash (removeFirstData ⟨0, first, key⟩ value.length) e ⟨k, img⟩ pos fun r t =>
      r = .ok () ∧ Relisted img k .rdMark1 ((first, w) :: b) t ∧ Retired img key t.image := by
  obtain ⟨r, found, live, list, rfl⟩ := linked.record (a := [])
  obtain ⟨t, foundFirst, liveFirst, -, -⟩ := linked.record (a := [(key, r.data)])
  have next : k.limits.next = lastKey b first := (congrArg Pointers.next limits).trans linked.last
  refine .bind .cache (unlinkAtEnds_ends opened limits covers linked.clean linked.finished found
    list live foundFirst
    liveFirst rfl (fun fits => ?_) (linked.remove_first foundFirst) (nodup_cons.mp linked.nodup).2
      (by simp) rfl
    next)
  have firstSmall : first < offBound := linked.key_lt fits (by simp)
  have limitsSmall : k.limits.pointers.Fits := limits ▸ fits.limits
  exact ⟨⟨offBound_pos, firstSmall, linked.key_lt fits (by simp)⟩, firstSmall, ⟨firstSmall, limitsSmall.2⟩,
    offBound_pos, (fits.records t (mem_records foundFirst)).list.2⟩

theorem removeMiddleData_ends {key before after : Nat} {value u w : Bytes}
    (linked : img.Linked (a ++ [(before, u)] ++ (key, value) :: (after, w) :: b)) :
    Reaches crash (removeMiddleData ⟨before, after, key⟩ value.length) e ⟨k, img⟩ pos fun r t =>
      r = .ok () ∧ Relisted img k .rdMark2 (a ++ [(before, u)] ++ (after, w) :: b) t ∧
        Retired img key t.image := by
  obtain ⟨r, found, live, list, rfl⟩ := linked.record
  rw [lastKey_append] at list
  have shape : img.Linked (a ++ (before, u) :: (key, r.data) :: (after, w) :: b) := by
    rw [append_assoc] at linked
    exact linked
  have shape' : img.Linked (a ++ [(before, u), (key, r.data)] ++ (after, w) :: b) := by
    rw [append_assoc]
    exact shape
  obtain ⟨t, foundAfter, liveAfter, -, -⟩ := shape'.record
  obtain ⟨p, foundBefore, liveBefore, -, -⟩ := shape.record
  have savedAfter := (⟨t, foundAfter, rfl, liveAfter⟩ : ∃ s, img.at? after = _ ∧ s.list = t.list ∧
      s.erased = false)
  have savedBefore := (⟨p, foundBefore, rfl, liveBefore⟩ :
    ∃ s, img.at? before = _ ∧ s.list = p.list ∧ s.erased = false)
  have driftAfter : Drifted img (img.setList after ⟨before, t.list.next⟩) [after] [] :=
    (Drifted.refl rfl).setList foundAfter
  have drift : Drifted img ((img.setList after ⟨before, t.list.next⟩).setList before ⟨p.list.prev, after⟩)
      [before, after] [] := driftAfter.setList foundBefore
  have unmoved : ((img.setList after ⟨before, t.list.next⟩).setList before ⟨p.list.prev, after⟩).fileEnd =
      img.fileEnd := fileEnd_setList.trans fileEnd_setList
  obtain ⟨p', foundBefore', -⟩ := driftAfter.at? foundBefore
  have segment := linked.remove_between foundAfter foundBefore
  have fewer : (keys (a ++ [(before, u)] ++ (after, w) :: b)).Nodup := by
    have nodup := linked.nodup
    rw [keys_append] at nodup ⊢
    exact (nodup_middle.mp nodup).of_cons
  have first : img.limits.prev = headKey (a ++ [(before, u)] ++ (after, w) :: b) 0 := by
    rw [linked.first, headKey_append, headKey_append (b := (after, w) :: b)]
    exact headKey_of_ne_nil (by simp) _
  have last : img.limits.next = lastKey (a ++ [(before, u)] ++ (after, w) :: b) 0 := by
    rw [linked.last, lastKey_append, lastKey_append (b := (after, w) :: b)]
    rfl
  refine .of_fits fun fits => ?_
  have smallAfter := (fits.records t (mem_records foundAfter)).list
  have smallBefore := (fits.records p (mem_records foundBefore)).list
  have keySmall : key < offBound := linked.key_lt fits (by simp)
  have beforeSmall : before < offBound := linked.key_lt fits (by simp)
  have afterSmall : after < offBound := linked.key_lt fits (by simp)
  refine .bind (readIterator_ends foundAfter) (.bind (readIterator_ends foundBefore) ?_)
  refine .bind (writeIteratorBackup_ends 0 ⟨smallAfter.1, smallAfter.2,
    afterSmall⟩ (covers _ ?_) (covers _ ?_)) ?_
  · exact .untouched ⟨linked.clean, rfl⟩ (opened ▸ .tail _ (.head _)) (.of_same rfl) rfl rfl
  · exact .oneLink ⟨linked.clean, rfl⟩ (.tail _ (.tail _ (.tail _ (.head _)))) savedAfter
      (.of_same rfl) rfl rfl
  refine .bind (writeIteratorBackup_ends 1 ⟨smallBefore.1, smallBefore.2,
    beforeSmall⟩ (covers _ ?_) (covers _ ?_)) ?_
  · exact .oneLink ⟨linked.clean, rfl⟩ (.tail _ (.tail _ (.tail _ (.head _)))) savedAfter
      (.of_same rfl) rfl rfl
  · exact .twoLinks ⟨linked.clean, rfl⟩ (.tail _ (.head _)) savedAfter savedBefore (.of_same rfl) rfl rfl
  refine .bind (writeIterator_ends ⟨before, t.list.next, after⟩ foundAfter ⟨beforeSmall,
    smallAfter.2⟩ (covers _ ?_)) ?_
  · exact .twoLinks ⟨linked.clean, rfl⟩ (.tail _ (.head _)) savedAfter savedBefore
      (driftAfter.mono (subset_cons_self _ _) (List.Subset.refl _)) fileEnd_setList rfl
  refine .bind (writeIterator_ends ⟨p.list.prev, after, before⟩ foundBefore' ⟨smallBefore.1,
    afterSmall⟩ (covers _ ?_)) ?_
  · exact .twoLinks ⟨linked.clean, rfl⟩ (.tail _ (.head _)) savedAfter savedBefore drift unmoved rfl
  exact mark_ends covers ⟨linked.clean, rfl⟩ rfl linked.finished found list ⟨beforeSmall,
    afterSmall, keySmall⟩ unmoved
    segment fewer (by simp) first last limits drift
    (.twoLinks ⟨linked.clean, rfl⟩ (.tail _ (.head _)) savedAfter savedBefore drift unmoved rfl)
    fun records drift unmoved => .markedInMiddle ⟨linked.clean, rfl⟩ rfl savedAfter savedBefore ⟨r,
      found, list, live⟩
      drift unmoved rfl

end

def Cache.cleared (k : Cache) : Cache :=
  { k with limits := ⟨headerSize, headerSize, 0⟩, removed := ⟨unDead, unBeef, 0⟩ }

theorem removeOnlyData_ends (e : Env) (img : Image) (pos : Nat) (one : k.size = 1) :
    ∃ stop, Ends Unchecked removeOnlyData e ⟨k, img⟩ pos (.ok ()) ⟨k.cleared, img.cleared⟩ stop := by
  have header : headerSize < offBound := by decide
  have erased : Ends Unchecked (eraseFile headerSize) e ⟨k, img⟩ pos (.ok ())
      ⟨k, { img.setBackup 0 ⟨headerSize, headerSize, headerSize⟩ with
        records := [], tail := [], status := .ftEnd }⟩ 0 :=
    .bind (writeIteratorBackup_ends 0 ⟨header, header, header⟩ .unchecked .unchecked)
      (truncateFile_ends (a := []) rfl .unchecked .unchecked)
  refine ⟨391, ?_⟩
  refine .bind (.bind .cache (.on_false (fun wrong => wrong one) (.pure _)))
    (.bind erased (.bind (.update _) ?_))
  refine .bind (writeLimits_ends ⟨headerSize, headerSize, 0⟩ ⟨header, header⟩ .unchecked) ?_
  exact writeRemoved_ends ⟨by decide, by decide⟩ .unchecked

theorem eraseData_ends {offset : Nat} (opened : img.status = .opened)
    (limits : k.limits.pointers = img.limits)
    (covers : ∀ X, Covered img X → Leaves crash X) (linked : img.Linked l) (member : offset ∈ keys l)
    (several : 2 ≤ l.length) :
    Reaches crash (eraseData offset) e ⟨k, img⟩ pos fun r t =>
      r = .ok () ∧ ∃ status ∈ [FileStatus.rdMark1, .rdMark2], Relisted img k status
        (Listing.removeAt offset l) t ∧
        Retired img offset t.image := by
  obtain ⟨a, value, b, rfl⟩ := exists_split member
  obtain ⟨r, found, live, list, rfl⟩ := linked.record
  rw [Listing.removeAt_of_nodup linked.nodup]
  unfold eraseData
  refine .bind (readIterator_ends found) (.bind (readSize_of_record_ends found) ?_)
  refine .on_true (show r.state = 'g' by simp [Record.state, live]) ?_
  rw [list]
  refine .bind getEnd_ends ?_
  rcases eq_nil_or_concat' a with rfl | ⟨c, ⟨before, u⟩, rfl⟩ <;> rcases b with _ | ⟨⟨after, w⟩, b⟩
  · simp at several
  · have inside : after ≠ 0 ∧ after ≠ img.fileEnd := linked.key_ne (by simp)
    refine .on_false (fun both => inside.2 both.1) (.on_false inside.2 (.on_true rfl ?_))
    exact (removeFirstData_ends opened limits covers linked).mono fun r t done =>
      ⟨done.1, _, .head _, done.2⟩
  · have inside : before ≠ 0 ∧ before ≠ img.fileEnd := linked.key_ne (by simp)
    rw [lastKey_append, append_nil]
    refine .on_false (fun both => inside.1 both.2) (.on_true rfl ?_)
    exact (removeLastData_ends opened limits covers linked).mono fun r t done =>
      ⟨done.1, _, .head _, done.2⟩
  · have insideBefore : before ≠ 0 ∧ before ≠ img.fileEnd := linked.key_ne (by simp)
    have inside : after ≠ 0 ∧ after ≠ img.fileEnd := linked.key_ne (by simp)
    rw [lastKey_append]
    refine .on_false (fun both => inside.2 both.1) (.on_false inside.2 (.on_false insideBefore.1 ?_))
    exact (removeMiddleData_ends opened limits covers linked).mono fun r t done =>
      ⟨done.1, _, .tail _ (.head _), done.2⟩

end Wms.FileContainer
