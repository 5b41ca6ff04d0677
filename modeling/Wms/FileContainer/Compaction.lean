import Wms.FileContainer.Crash

/-! `compact_data` from its start to its end.

The list is copied through its pointers, the file is cut and written anew, and the copy is
appended one element after the other. Each element goes where the one before it ended.
-/

set_option autoImplicit false

namespace Wms.FileContainer

open Lib Lib.FileProg Lib.Links Image Listing List

def Listing.values (l : Listing) : List Bytes := l.map Prod.snd

def dataTotal (values : List Bytes) : Nat := (values.map fun data => calculateDataSize data.length).sum

variable {crash : Bytes → Prop} {e : Env} {k : Cache} {img : Image} {l a b : Listing}

theorem Image.Linked.total_le (linked : img.Linked l) : headerSize + dataTotal l.values ≤ img.fileEnd := by
  have apart : (l.map fun x => calculateDataSize x.2.length).sum ≤
      Layout.total Record.size img.records := by
    refine Layout.sum_located_le headerSize linked.nodup fun x member => ?_
    obtain ⟨before, after, rfl⟩ := append_of_mem member
    obtain ⟨r, found, -, -, data⟩ := linked.record
    exact ⟨r, found, by rw [Record.size, data]⟩
  rw [linked.fileEnd_eq, recordsEnd, dataTotal, values, map_map]
  exact Nat.add_le_add_left apart _

/-! The copy. -/

theorem fillLoop_ends {fuel : Nat} (crash : Bytes → Prop) (k : Cache) (pos : Nat) (vec : List Bytes)
    (linked : img.Linked (a ++ b))
    (enough : b.length < fuel) (blocks : ∀ x ∈ b, x.2.length < e.fuel) :
    ∃ stop, Ends crash (fillLoop img.fileEnd fuel (headKey b img.fileEnd) vec) e ⟨k, img⟩ pos
      (.ok (vec ++ values b)) ⟨k, img⟩ stop := by
  induction b generalizing a fuel pos vec with
  | nil =>
    obtain ⟨fuel, rfl⟩ := Nat.exists_eq_add_one.mpr enough
    exact ⟨pos, .on_false (Nat.lt_irrefl _) ((append_nil vec).symm ▸ .pure _)⟩
  | cons first rest ih =>
    obtain ⟨key, value⟩ := first
    obtain ⟨fuel, rfl⟩ := Nat.exists_eq_add_one.mpr (Nat.zero_lt_of_lt enough)
    obtain ⟨r, found, live, list, rfl⟩ := linked.record
    have shape : img.Linked (a ++ [(key, r.data)] ++ rest) := by rwa [append_assoc]
    have inside : key < img.fileEnd := (linked.key_bound (by simp)).2
    obtain ⟨stop, run⟩ := ih (key + 94 + r.data.length) (vec ++ [r.data]) shape
      (Nat.lt_of_succ_lt_succ enough)
      fun x member => blocks x (mem_cons_of_mem _ member)
    refine ⟨stop, .on_true inside (.bind (.seek _) (.bind
      (readDataHere_ends found (.inl live) (blocks _ mem_cons_self)) ?_))⟩
    rw [list]
    rw [append_assoc] at run
    exact run

theorem checkOrSync_ends (crash : Bytes → Prop) (e : Env) (pos : Nat) (clean : img.scar = [])
    (closed : img.status = .closed) (initialized : k.initialized = true) :
    ∃ stop, Ends crash checkOrSync e ⟨k, img⟩ pos (.ok ()) ⟨k.prepared img true, img⟩ stop := by
  unfold Cache.prepared
  rw [if_pos initialized]
  by_cases newer : img.stamp.gt k.stamp = true
  · rw [if_pos newer]
    exact ⟨26, .bind (.attempt (checkStreamAndStamp_ends clean closed (if_pos newer).symm))
      (syncData_ends clean true)⟩
  · rw [if_neg newer]
    exact ⟨26, .bind (.attempt (checkStreamAndStamp_ends clean closed (if_neg newer).symm)) (.pure _)⟩

theorem ensureInit_ends (pos : Nat) (clean : img.scar = []) (closed : img.status = .closed)
    (coherent : Coherent k img) :
    ∃ k' stop, Ends crash ensureInit e ⟨k, img⟩ pos (.ok ()) ⟨k', img⟩ stop ∧ k'.initialized = true ∧
      Coherent k' img := by
  by_cases initialized : k.initialized = true
  · exact ⟨k, pos, .bind .cache (.on_false (by simp [initialized]) (.pure _)), initialized, coherent⟩
  · exact ⟨_, 390, .bind .cache (.on_true (by simp [initialized])
      (initContainer_closed_ends clean closed)), rfl,
      fun _ _ => ⟨rfl, rfl⟩⟩

theorem fillVector_ends (pos : Nat) (closed : img.status = .closed) (initialized : k.initialized = true)
    (coherent : Coherent k img) (linked : img.Linked l) (enough : l.length < e.fuel)
    (blocks : ∀ x ∈ l, x.2.length < e.fuel) :
    ∃ stop, Ends crash fillVector e ⟨k, img⟩ pos (.ok l.values) ⟨k.prepared img true, img⟩ stop := by
  obtain ⟨mid, checked⟩ := checkOrSync_ends crash e img.fileEnd linked.clean closed initialized
  obtain ⟨-, limits, -⟩ := coherent.prepared true
  have start : (k.prepared img true).limits.prev = headKey l img.fileEnd :=
    (congrArg Pointers.prev limits).trans linked.first
  by_cases empty : l = []
  · subst empty
    obtain ⟨fuel, more⟩ := Nat.exists_eq_add_one.mpr enough
    refine ⟨img.fileEnd, .bind getEnd_ends (.bind checked (.bind .cache ?_))⟩
    rw [start]
    refine .bind readIterator_end_ends (.bind .ask ?_)
    rw [more]
    exact .on_false (Nat.lt_irrefl _) (.pure _)
  · obtain ⟨⟨key, value⟩, rest, rfl⟩ := exists_cons_of_ne_nil empty
    obtain ⟨r, found, -, -, -⟩ := linked.record (a := [])
    obtain ⟨stop, run⟩ := fillLoop_ends (a := []) crash (k.prepared img true) (key + 34)
      [] linked enough blocks
    refine ⟨stop, .bind getEnd_ends (.bind checked (.bind .cache ?_))⟩
    rw [start]
    exact .bind (readIterator_ends found) (.bind .ask run)

/-! The new file. -/

structure Packing (base img : Image) (k₀ k : Cache) (l : Listing) : Prop where
  linked : img.Linked l
  live : ∀ r ∈ img.records, r.erased = false
  size : img.size = base.size
  stamp : img.stamp = base.stamp
  cache : k = { k₀ with limits := k.limits }
  limits : k.limits.pointers = img.limits

theorem addDataAtEnd_packs {base : Image} {k₀ : Cache} {data : Bytes} {pos : Nat}
    (packing : Packing base img k₀ k l)
    (nonempty : data ≠ []) (bound : img.fileEnd + calculateDataSize data.length < offBound) :
    Reaches Unchecked (addDataAtEnd data img.fileEnd) e ⟨k, img⟩ pos fun r t =>
      (∃ it : FileIterator, r = .ok it ∧ it.next = t.image.fileEnd) ∧
      t.image.fileEnd = img.fileEnd + calculateDataSize data.length ∧
      Packing base t.image k₀ t.cache (l ++ [(img.fileEnd, data)]) := by
  have packed {prev : Nat} {t : Snapshot Cache Image} {r : Except IOStatus FileIterator}
      (inserted : Inserted img k .aeWritten (l ++ [(img.fileEnd, data)]) data
        ⟨prev, img.fileEnd + calculateDataSize data.length, img.fileEnd⟩ r t)
      (extended : data ≠ [] → Extended img data t.image) :
      (∃ it : FileIterator, r = .ok it ∧ it.next = t.image.fileEnd) ∧
      t.image.fileEnd = img.fileEnd + calculateDataSize data.length ∧
      Packing base t.image k₀ t.cache (l ++ [(img.fileEnd, data)]) := by
    obtain ⟨-, rfl, relisted, -⟩ := inserted.resolve_left fun refused => nonempty refused.1
    have grown := (extended nonempty).grown
    refine ⟨⟨_, rfl, grown.symm⟩, grown, {
      linked := relisted.linked
      live := (extended nonempty).live packing.live
      size := relisted.size.trans packing.size
      stamp := relisted.stamp.trans packing.stamp
      cache := by rw [relisted.cache, packing.cache]
      limits := relisted.limits }⟩
  by_cases empty : l = []
  · subst empty
    exact (addDataAtEnd_empty_ends packing.limits (fun _ => bound) packing.linked).mono fun r t
      ends => packed ends.1 ends.2.2.2.1
  · obtain ⟨front, last, value, rfl⟩ := exists_last empty
    exact (appendLast_ends packing.limits (fun _ => bound) (fun _ => .unchecked) (fun _ _ =>
      .unchecked) packing.linked).mono
      fun r t ends => packed ends.1 ends.2.1

theorem appendAll_packs {base : Image} {k₀ : Cache} {copy : List Bytes} {pos : Nat}
    (packing : Packing base img k₀ k l) (nonempty : ∀ data ∈ copy, data ≠ [])
    (bound : img.fileEnd + dataTotal copy < offBound) :
    Reaches Unchecked (appendAll copy img.fileEnd) e ⟨k, img⟩ pos fun r t => r = .ok () ∧
      ∃ more : Listing, more.values = copy ∧ Packing base t.image k₀ t.cache (l ++ more) := by
  induction copy generalizing img k l pos with
  | nil => exact .of_ends (.pure _) ⟨rfl, [], rfl, by rwa [append_nil]⟩
  | cons data rest ih =>
    have whole : dataTotal (data :: rest) = calculateDataSize data.length + dataTotal rest := by
      simp [dataTotal]
    refine .bind_reaches (addDataAtEnd_packs packing (nonempty data mem_cons_self) (by omega)) ?_
    rintro r t stop ⟨⟨it, rfl, next⟩, grown, packed⟩
    refine ⟨it, rfl, ?_⟩
    rw [next]
    refine (ih packed (fun data member => nonempty data (mem_cons_of_mem _ member)) (by omega)).mono ?_
    rintro r t ⟨done, more, same, packed⟩
    refine ⟨done, (img.fileEnd, data) :: more, by simp [values, ← same], ?_⟩
    rwa [append_assoc] at packed

/-! The whole call. -/

/-- A closed container file without erased records, and its list. -/
def Compacted (file : Bytes) (l : Listing) : Prop :=
  ∃ img : Image, file = encode img ∧ img.Fits ∧ img.status = .closed ∧ img.Holds l ∧
    ∀ r ∈ img.records, r.erased = false

theorem Image.packing_empty (k : Cache) (stamp : TimeStamp) (status : FileStatus) :
    Packing (empty stamp status) (empty stamp status) (k.emptied stamp) (k.emptied stamp) [] where
  linked := (holds_empty stamp status).toLinked
  live := nofun
  size := rfl
  stamp := rfl
  cache := rfl
  limits := rfl

theorem sealPacked_ends {base : Image} {k₀ : Cache} {pos : Nat} (packing : Packing base img k₀ k l)
    (fits : img.Fits) :
    Ends Unchecked (do createEmptyBackup .empty; writeAndSetSize l.length; writeFileStatus .closed : Method Unit) e
      ⟨k, img⟩ pos (.ok ()) ⟨{ k with size := l.length }, img.commitStep .empty l.length 4⟩ pos :=
  .bind (createEmptyBackup_ends .unchecked .unchecked) (.bind
    (writeAndSetSize_ends packing.linked.clean (packing.linked.length_lt fits) .unchecked)
    (writeFileStatus_ends .unchecked))

theorem compactData_ends {pos : Nat} (closed : img.status = .closed) (coherent : Coherent k img)
    (holds : img.Holds l)
    (filled : ∀ x ∈ l, x.2 ≠ []) (enough : l.length < e.fuel) (blocks : ∀ x ∈ l, x.2.length < e.fuel) :
    Reaches Unchecked compactData e ⟨k, img⟩ pos fun r t => r = .ok () ∧ t.image.status = .closed ∧
      Coherent t.cache t.image ∧ (∀ r ∈ t.image.records, r.erased = false) ∧
      ∃ l' : Listing, l'.values = l.values ∧ t.image.Holds l' := by
  obtain ⟨k', mid, init, initialized, coherent⟩ := ensureInit_ends (e := e) pos holds.clean closed coherent
  obtain ⟨mid, copied⟩ := fillVector_ends mid closed initialized coherent holds.toLinked enough blocks
  refine .of_fits fun fits => ?_
  have bound : headerSize + dataTotal l.values < offBound :=
    Nat.lt_of_le_of_lt holds.toLinked.total_le (holds.toLinked.end_lt fits)
  refine .bind init (.bind copied (.bind backupFile_ends (.bind (.bind (writeIteratorBackup_ends 0
    ⟨offBound_pos, offBound_pos, offBound_pos⟩ .unchecked .unchecked) truncateFile_zero_ends) ?_)))
  refine .bind (writeFileStatus_ends .unchecked) (.bind getEnd_ends ?_)
  have nonempty (data : Bytes) (member : data ∈ l.values) : data ≠ [] := by
    obtain ⟨x, inside, rfl⟩ := mem_map.mp member
    exact filled x inside
  refine .bind_reaches (appendAll_packs (packing_empty (k'.prepared img true) _ .opened) nonempty bound) ?_
  rintro r t stop ⟨rfl, l', same, packed⟩
  refine ⟨(), rfl, .of_fits fun fits => ?_⟩
  have length : l.values.length = l'.length := by rw [← same, values, length_map]
  rw [length]
  refine .of_ends (sealPacked_ends packed fits) ⟨rfl, rfl, fun _ _ => ⟨packed.limits, rfl⟩,
    packed.live, l', same, ?_⟩
  exact { packed.linked with blank := fun _ => rfl, size := rfl }

/-- `compact_data` returns, keeps the sequence of the data, leaves only live records and a
closed, well-linked container whose size field counts them. -/
theorem compactData_keeps_list {c : Container} (ready : Ready c l) (nonempty : ∀ x ∈ l, x.2 ≠ [])
    (enough : l.length < e.fuel) (blocks : ∀ x ∈ l, x.2.length < e.fuel) :
    ∃ c' l', compactData e c = .ok () c' ∧ Ready c' l' ∧ Compacted c'.stream.file l' ∧
      l'.values = l.values := by
  obtain ⟨k, img, pos, writes, rfl, fits, closed, holds, coherent⟩ := ready
  have reaches : Reaches Unchecked compactData e ⟨k, img⟩ pos _ :=
    compactData_ends closed coherent holds nonempty enough blocks
  obtain ⟨r, t, stop, made, run, fitsEnd, -, -, rfl, shut, coherentEnd, live, l', same, holdsEnd⟩ :=
    reaches.run fits writes
  exact ⟨_, l', run, ⟨_, _, _, _, rfl, fitsEnd, shut, holdsEnd, coherentEnd⟩,
    ⟨_, rfl, fitsEnd, shut, holdsEnd, live⟩, same⟩

theorem compactData_keeps_list_one :
    ∃ c' l', compactData ⟨fun _ => ⟨0, offBound_pos⟩, 2⟩
      (Container.openFile (encode (single ['a'])) ⟨0, 0⟩) =
      .ok () c' ∧ Ready c' l' ∧ Compacted c'.stream.file l' ∧ l'.values = [['a']] :=
  compactData_keeps_list (ready_openFile ⟨0, 0⟩ ⟨_, rfl, fits_single (by decide), rfl, holds_single ['a']⟩)
    (by simp) (by simp) (by simp)

end Wms.FileContainer
