import Mathlib.Data.List.Perm.Subperm
import Wms.FileContainer.Image
import Wms.Lib.Links

/-! The list that a container holds.

The live records of an image are the nodes of a doubly linked list from 0 to the end of the
file. An element is the offset of its record and its data.
-/

set_option autoImplicit false

namespace Wms.FileContainer

open Lib Lib.Links Function Record List

export Lib.Links (keys keys_append keys_cons)

abbrev Listing := List (Nat × Bytes)

/-- The new element goes before the one at an offset; at any other offset it goes to the end. -/
def Listing.insertAt (offset : Nat) (new : Nat × Bytes) : Listing → Listing
  | [] => [new]
  | x :: rest => if x.1 = offset then new :: x :: rest else x :: insertAt offset new rest

def Listing.removeAt (offset : Nat) (l : Listing) : Listing := l.filter fun x => x.1 ≠ offset

def Record.node? (r : Record) : Option (Node Nat Bytes) :=
  if r.erased then none else some ⟨r.list.prev, r.list.next, r.data⟩

def Image.live (img : Image) (offset : Nat) : Option (Node Nat Bytes) := (img.at? offset).bind node?

/-- The links and the limits of an image make up a list. An empty container has no records
and blank backups, as the methods that empty it leave them. -/
structure Image.Linked (img : Image) (l : Listing) : Prop where
  clean : img.scar = []
  finished : img.tail = []
  segment : Segment img.live 0 l img.fileEnd
  nodup : (keys l).Nodup
  first : img.limits.prev = headKey l img.fileEnd
  last : img.limits.next = lastKey l img.fileEnd
  bare : l = [] → img.records = []
  blank : l = [] → img.backup 0 = ⟨0, 0, 0⟩

structure Image.Holds (img : Image) (l : Listing) : Prop extends img.Linked l where
  size : img.size = l.length

def WellFormed (file : Bytes) (l : Listing) : Prop :=
  ∃ img : Image, file = encode img ∧ img.Fits ∧ img.status = .closed ∧ img.Holds l

variable {img : Image} {offset : Nat} {r : Record} {l a b : Listing} {node : Node Nat Bytes}

theorem Listing.insertAt_of_mem {new : Nat × Bytes} {value : Bytes} (outside : offset ∉ keys a) :
    insertAt offset new (a ++ (offset, value) :: b) = a ++ new :: (offset, value) :: b := by
  induction a with
  | nil => simp [insertAt]
  | cons first rest ih =>
    rw [keys_cons, mem_cons, not_or] at outside
    rw [cons_append, insertAt, if_neg (Ne.symm outside.1), ih outside.2]
    rfl

theorem Listing.insertAt_of_not_mem {new : Nat × Bytes} (outside : offset ∉ keys l) :
    insertAt offset new l = l ++ [new] := by
  induction l with
  | nil => rfl
  | cons first rest ih =>
    rw [keys_cons, mem_cons, not_or] at outside
    rw [insertAt, if_neg (Ne.symm outside.1), ih outside.2]
    rfl

theorem Listing.removeAt_of_nodup {value : Bytes} (nodup : (keys (a ++ (offset, value) :: b)).Nodup) :
    removeAt offset (a ++ (offset, value) :: b) = a ++ b := by
  have outside (part : Listing) (fresh : offset ∉ keys part) :
      part.filter (fun x => x.1 ≠ offset) = part := by
    refine filter_eq_self.mpr fun x member => ?_
    exact decide_eq_true fun same => fresh (same ▸ mem_map_of_mem member)
  rw [keys_append] at nodup
  obtain ⟨fresh, -⟩ := nodup_cons.mp (nodup_middle.mp nodup)
  rw [mem_append, not_or] at fresh
  rw [removeAt, filter_append, outside a fresh.1, filter_cons_of_neg (by simp), outside b fresh.2]

theorem Listing.eq_single (member : offset ∈ keys l) (short : ¬ 2 ≤ l.length) :
    ∃ value, l = [(offset, value)] := by
  obtain ⟨a, value, b, rfl⟩ := exists_split member
  simp only [length_append, length_cons] at short
  obtain rfl : a = [] := eq_nil_of_length_eq_zero (by omega)
  obtain rfl : b = [] := eq_nil_of_length_eq_zero (by omega)
  exact ⟨value, rfl⟩

theorem Listing.removeAt_single (value : Bytes) : removeAt offset [(offset, value)] = [] := by
  simp [removeAt]

theorem Image.found_of_live (lives : img.live offset = some node) :
    ∃ r, img.at? offset = some r ∧ r.erased = false ∧ r.list = ⟨node.prev, node.next⟩ ∧
      r.data = node.value := by
  obtain ⟨r, found, same⟩ := Option.bind_eq_some_iff.mp lives
  cases erased : r.erased with
  | true => simp [node?, erased] at same
  | false =>
    simp only [node?, erased, Bool.false_eq_true, if_false, Option.some.injEq] at same
    subst same
    exact ⟨r, found, erased, rfl, rfl⟩

theorem Image.live_congr {other : Image} (same : img.records = other.records) : img.live = other.live := by
  funext offset
  simp only [live, at?, same]

theorem Image.live_setList {list : Pointers} (lives : img.live offset = some node) :
    (img.setList offset list).live = update img.live offset (some ⟨list.prev, list.next, node.value⟩) := by
  obtain ⟨r, found, erased, -, data⟩ := found_of_live lives
  funext other
  by_cases same : other = offset
  · subst same
    rw [update_self, live, at?_setList, if_pos rfl, found]
    simp [node?, erased, data]
  · rw [update_of_ne same, live, at?_setList, if_neg same, live]

theorem Image.live_setErased : (img.setErased offset true).live = update img.live offset none := by
  funext other
  by_cases same : other = offset
  · subst same
    rw [update_self, live, at?_setErased, if_pos rfl]
    cases img.at? other <;> simp [node?]
  · rw [update_of_ne same, live, at?_setErased, if_neg same, live]

theorem Image.live_addRecord (erased : r.erased = false) : (img.addRecord r).live =
      update img.live img.recordsEnd (some ⟨r.list.prev, r.list.next, r.data⟩) := by
  funext other
  by_cases same : other = img.recordsEnd
  · subst same
    rw [update_self, live, at?_addRecord, if_pos rfl]
    simp [node?, erased]
  · rw [update_of_ne same, live, at?_addRecord, if_neg same, live]

theorem Image.segment_setList_last {key stop : Nat} {value : Bytes}
    (segment : Segment img.live 0 (a ++ [(key, value)]) stop)
      (nodup : (keys (a ++ [(key, value)])).Nodup) :
    Segment (img.setList key ⟨lastKey a 0, img.fileEnd⟩).live 0 (a ++ [(key, value)])
      (img.setList key ⟨lastKey a 0, img.fileEnd⟩).fileEnd := by
  rw [keys_append, nodup_append] at nodup
  rw [fileEnd_setList, live_setList segment.node]
  exact segment.set_next fun inside => nodup.2.2 key inside key mem_cons_self rfl

namespace Image.Linked

theorem of_segment {other : Image} {stop : Nat} (clean : img.scar = []) (finished : img.tail = [])
    (segment : Segment other.live 0 l stop) (records : img.records = other.records)
      (ends : other.recordsEnd = stop)
    (nodup : (keys l).Nodup) (nonempty : l ≠ [])
    (first : img.limits.prev = headKey l 0) (last : img.limits.next = lastKey l 0) : img.Linked l where
  clean := clean
  finished := finished
  segment := by
    have same : img.fileEnd = stop := by
      rw [← recordsEnd_eq finished, recordsEnd, records, ← ends, recordsEnd]
    rwa [same, live_congr records]
  nodup := nodup
  first := first.trans (headKey_of_ne_nil nonempty _)
  last := last.trans (lastKey_of_ne_nil nonempty _)
  bare empty := absurd empty nonempty
  blank empty := absurd empty nonempty

theorem fileEnd_eq (linked : img.Linked l) : img.fileEnd = img.recordsEnd :=
  (recordsEnd_eq linked.finished).symm

theorem record {key : Nat} {value : Bytes} (linked : img.Linked (a ++ (key, value) :: b)) :
    ∃ r, img.at? key = some r ∧ r.erased = false ∧ r.list = ⟨lastKey a 0, headKey b img.fileEnd⟩ ∧
      r.data = value :=
  found_of_live linked.segment.node

theorem key_bound {key : Nat} (linked : img.Linked l) (member : key ∈ keys l) :
    headerSize ≤ key ∧ key < img.fileEnd := by
  obtain ⟨node, lives⟩ := linked.segment.look_of_mem member
  obtain ⟨r, found, -⟩ := found_of_live lives
  exact ⟨headerSize_le found, lt_fileEnd found⟩

theorem key_ne {key : Nat} (linked : img.Linked l) (member : key ∈ keys l) : key ≠ 0 ∧
    key ≠ img.fileEnd := by
  have bounds := linked.key_bound member
  have positive : 0 < headerSize := by decide
  omega

theorem end_not_mem (linked : img.Linked l) : img.fileEnd ∉ keys l :=
  fun member => Nat.lt_irrefl _ (linked.key_bound member).2

theorem fileEnd_of_nil (linked : img.Linked []) : img.fileEnd = headerSize := by
  simp [fileEnd, recordsEnd, linked.bare rfl, linked.finished]

theorem end_lt (fits : img.Fits) (linked : img.Linked l) : img.fileEnd < offBound := by
  by_cases empty : l = []
  · subst empty
    rw [linked.fileEnd_of_nil]
    decide
  · obtain ⟨a, key, value, rfl⟩ := exists_last empty
    obtain ⟨r, found, -, list, -⟩ := linked.record
    have small := (fits.records r (mem_records found)).list.2
    rwa [list] at small

theorem key_lt {key : Nat} (fits : img.Fits) (linked : img.Linked l) (member : key ∈ keys l) :
    key < offBound :=
  Nat.lt_trans (linked.key_bound member).2 (linked.end_lt fits)

theorem transport {other : Image} (linked : img.Linked l) (nonempty : l ≠ []) (clean : other.scar = [])
    (records : other.records = img.records) (finished : other.tail = [])
      (limits : other.limits = img.limits) :
    other.Linked l := by
  have lives : other.live = img.live := live_congr records
  have ends : other.fileEnd = img.fileEnd := by
    simp only [fileEnd, recordsEnd, records, finished, linked.finished]
  exact {
    clean, finished
    segment := by rw [lives, ends]; exact linked.segment
    nodup := linked.nodup
    first := by rw [limits, ends]; exact linked.first
    last := by rw [limits, ends]; exact linked.last
    bare := fun empty => absurd empty nonempty
    blank := fun empty => absurd empty nonempty }

/-- The offsets are different numbers below the bound of the offset type. -/
theorem length_lt (fits : img.Fits) (linked : img.Linked l) : l.length < sizeBound := by
  have inside : keys l ⊆ List.range offBound := fun key member => mem_range.mpr (linked.key_lt fits member)
  have short := (subperm_of_subset linked.nodup inside).length_le
  rw [length_range, keys, length_map] at short
  exact Nat.lt_of_le_of_lt short (by decide)

end Image.Linked

/-! What an operation may have done to a container before it blanks its backups.

`Drifted` compares the image with the one before the operation: the records are the same
but for the links at some offsets and the marks at some others, and new records may follow.
`Covered` says, by the status of the file, that what has changed is what the backups hold.
-/

open Image Layout

def Alike (touched marked : List Nat) (offset : Nat) (r s : Record) : Prop :=
  s.data = r.data ∧ s.file = r.file ∧ (s.list = r.list ∨ offset ∈ touched) ∧
    (s.erased = r.erased ∨ offset ∈ marked)

def Drifted (base img : Image) (touched marked : List Nat) : Prop :=
  ∃ kept more, img.records = kept ++ more ∧
    Pointwise Record.size (Alike touched marked) headerSize base.records kept

variable {base : Image} {touched marked : List Nat} {list : Pointers}

namespace Drifted

theorem refl (same : img.records = base.records) : Drifted base img [] [] :=
  ⟨base.records, [], by rw [same, append_nil],
    .refl fun _ _ => ⟨rfl, rfl, .inl rfl, .inl rfl⟩⟩

theorem mono {more others : List Nat} (drift : Drifted base img touched marked) (links : touched ⊆ more)
    (marks : marked ⊆ others) : Drifted base img more others := by
  obtain ⟨kept, extra, shape, related⟩ := drift
  refine ⟨kept, extra, shape, related.mono fun offset r s _ alike => ?_⟩
  exact ⟨alike.1, alike.2.1, alike.2.2.1.imp_right (links ·), alike.2.2.2.imp_right (marks ·)⟩

theorem of_same (same : img.records = base.records) : Drifted base img touched marked :=
  (refl same).mono (nil_subset _) (nil_subset _)

theorem at? (drift : Drifted base img touched marked) (found : base.at? offset = some r) :
    ∃ s, img.at? offset = some s ∧ Alike touched marked offset r s := by
  obtain ⟨kept, extra, shape, related⟩ := drift
  obtain ⟨s, foundKept, alike⟩ := related.locate found
  refine ⟨s, ?_, alike⟩
  rw [Image.at?, shape]
  exact locate_append_left foundKept

theorem modify {change : Record → Record} {links marks : List Nat} (keeps : ∀ r, (change r).size = r.size)
    (drift : Drifted base img touched marked) (found : base.at? offset = some r)
    (here : ∀ s, Alike touched marked offset r s → Alike links marks offset r (change s))
    (elsewhere : ∀ position r s, position ≠ offset → Alike touched marked position r s →
      Alike links marks position r s) : Drifted base (img.modify offset change) links marks := by
  obtain ⟨kept, extra, shape, related⟩ := drift
  obtain ⟨s, foundKept, -⟩ := related.locate found
  refine ⟨modifyAt size change headerSize kept offset, extra, ?_, ?_⟩
  · simp only [Image.modify, shape]
    exact modifyAt_append_left foundKept
  · refine related.modifyAt size_pos keeps (fun r' s' found' alike => ?_) elsewhere
    have same : r' = r := by rw [Image.at?, found'] at found; exact Option.some.inj found
    subst same
    exact here s' alike

theorem setList (drift : Drifted base img touched marked) (found : base.at? offset = some r) :
    Drifted base (img.setList offset list) (offset :: touched) marked := by
  refine drift.modify (fun _ => rfl) found (fun s alike => ?_) fun position r s _ alike => ?_
  · exact ⟨alike.1, alike.2.1, .inr mem_cons_self, alike.2.2.2⟩
  · exact ⟨alike.1, alike.2.1, alike.2.2.1.imp_right (mem_cons_of_mem _ ·), alike.2.2.2⟩

theorem restoreList (drift : Drifted base img (offset :: touched) marked)
    (found : base.at? offset = some r)
    (same : r.list = list) : Drifted base (img.setList offset list) touched marked := by
  refine drift.modify (fun _ => rfl) found (fun s alike => ?_) fun position r s other alike => ?_
  · exact ⟨alike.1, alike.2.1, .inl same.symm, alike.2.2.2⟩
  · refine ⟨alike.1, alike.2.1, alike.2.2.1.imp_right fun member => ?_, alike.2.2.2⟩
    exact (mem_cons.mp member).resolve_left other

theorem setErased {erased : Bool} (drift : Drifted base img touched marked)
    (found : base.at? offset = some r) :
    Drifted base (img.setErased offset erased) touched (offset :: marked) := by
  refine drift.modify (fun _ => rfl) found (fun s alike => ?_) fun position r s _ alike => ?_
  · exact ⟨alike.1, alike.2.1, alike.2.2.1, .inr mem_cons_self⟩
  · exact ⟨alike.1, alike.2.1, alike.2.2.1, alike.2.2.2.imp_right (mem_cons_of_mem _ ·)⟩

theorem restoreErased {erased : Bool} (drift : Drifted base img touched (offset :: marked))
    (found : base.at? offset = some r) (same : r.erased = erased) :
    Drifted base (img.setErased offset erased) touched marked := by
  refine drift.modify (fun _ => rfl) found (fun s alike => ?_) fun position r s other alike => ?_
  · exact ⟨alike.1, alike.2.1, alike.2.2.1, .inl same.symm⟩
  · refine ⟨alike.1, alike.2.1, alike.2.2.1, alike.2.2.2.imp_right fun member => ?_⟩
    exact (mem_cons.mp member).resolve_left other

theorem bodies (drift : Drifted base img touched marked) : ∃ more, img.bodies = base.bodies ++ more := by
  obtain ⟨kept, extra, shape, related⟩ := drift
  refine ⟨extra.map fun r => (r.data, r.file), ?_⟩
  rw [Image.bodies, Image.bodies, shape, map_append]
  congr 1
  exact related.map_eq fun offset r s alike => by rw [alike.1, alike.2.1]

theorem append {new : Record} (drift : Drifted base img touched marked) :
    Drifted base (img.addRecord new) touched marked := by
  obtain ⟨kept, extra, shape, related⟩ := drift
  exact ⟨kept, extra ++ [new], by simp [addRecord, shape], related⟩

theorem cut (drift : Drifted base img touched marked) : ∃ kept more, img.records = kept ++ more ∧
    base.recordsEnd = headerSize + total Record.size kept ∧
    Drifted base { img with records := kept } touched marked := by
  obtain ⟨kept, extra, shape, related⟩ := drift
  exact ⟨kept, extra, shape, by rw [recordsEnd, related.total], kept, [], by simp, related⟩

theorem eq (drift : Drifted base img [] []) (finished : base.tail = [])
    (unmoved : img.fileEnd = base.fileEnd) :
    img.records = base.records ∧ img.tail = [] := by
  obtain ⟨kept, extra, shape, related⟩ := drift
  have same : kept = base.records := related.eq fun offset r s alike => by
    obtain ⟨data, file, links, marks⟩ := alike
    cases r
    cases s
    simp_all
  have totals : total Record.size extra + img.tail.length = 0 := by
    simp only [fileEnd, recordsEnd, finished, length_nil, shape, total_append, same] at unmoved
    omega
  have empty : extra = [] := by
    cases extra with
    | nil => rfl
    | cons first rest =>
      have := first.size_pos
      simp only [total_cons] at totals
      omega
  refine ⟨by rw [shape, same, empty, append_nil], eq_nil_of_length_eq_zero (by omega)⟩

end Drifted

def Saved (base img : Image) (what : Fin 4) : Prop :=
  ∃ r, base.at? (img.backup what).current = some r ∧ r.list = (img.backup what).pointers ∧ r.erased = false

def Kept (base img : Image) : Prop := img.scar = [] ∧ img.size = base.size

/-- The states of the file before the backups are blanked, by what has been written. -/
inductive Covered (base img : Image) : Prop
  | untouched (kept : Kept base img) (status : img.status ∈ [FileStatus.closed, .opened])
      (drift : Drifted base img [] []) (unmoved : img.fileEnd = base.fileEnd)
        (limits : img.limits = base.limits)
  | oneLink (kept : Kept base img)
      (status : img.status ∈ [FileStatus.aeIterator, .abIterator, .amIterator1, .rdIterator2])
      (saved : Saved base img 0) (drift : Drifted base img [(img.backup 0).current] [])
      (unmoved : img.fileEnd = base.fileEnd) (limits : img.limits = base.limits)
  | oneLinkAndLimits (kept : Kept base img)
      (status : img.status ∈ [FileStatus.aeLimits, .abLimits, .rdIterator])
      (saved : Saved base img 0) (drift : Drifted base img [(img.backup 0).current] [])
      (unmoved : img.fileEnd = base.fileEnd) (limits : img.limitsBackup = base.limits)
  | onlyLimits (kept : Kept base img) (status : img.status = .rdLimits) (drift : Drifted base img [] [])
      (unmoved : img.fileEnd = base.fileEnd) (limits : img.limitsBackup = base.limits)
  | writingAtEnd (kept : Kept base img) (status : img.status ∈ [FileStatus.aeWriting, .aeWritten])
      (saved : Saved base img 0) (drift : Drifted base img [(img.backup 0).current] [])
      (limits : img.limitsBackup = base.limits) (here : img.limits.next = base.fileEnd)
  | writingAtBegin (kept : Kept base img) (status : img.status ∈ [FileStatus.abWriting, .abWritten])
      (saved : Saved base img 0) (drift : Drifted base img [(img.backup 0).current] [])
      (limits : img.limitsBackup = base.limits) (here : img.limits.prev = base.fileEnd)
  | lastAtBegin (kept : Kept base img) (status : img.status = .abLast)
      (saved : Saved base img 0) (last : Saved base img 2 ∨
        (img.backup 2).current = (img.backup 0).current)
      (drift : Drifted base img [(img.backup 2).current, (img.backup 0).current] [])
      (limits : img.limitsBackup = base.limits) (here : img.limits.prev = base.fileEnd)
  | twoLinks (kept : Kept base img) (status : img.status ∈ [FileStatus.amIterator2, .rdIterator3])
      (next : Saved base img 0) (prev : Saved base img 1)
      (drift : Drifted base img [(img.backup 1).current, (img.backup 0).current] [])
      (unmoved : img.fileEnd = base.fileEnd) (limits : img.limits = base.limits)
  | writingInMiddle (kept : Kept base img) (status : img.status ∈ [FileStatus.amWriting, .amWritten])
      (next : Saved base img 0) (prev : Saved base img 1)
      (drift : Drifted base img [(img.backup 1).current, (img.backup 0).current] [])
      (limits : img.limits = base.limits)
      (here : ∀ r, img.at? (img.backup 0).current = some r → r.list.prev = base.fileEnd)
  | lastInMiddle (kept : Kept base img) (status : img.status = .amLast)
      (next : Saved base img 0) (prev : Saved base img 1)
      (last : (Saved base img 2 ∧ (img.backup 2).current ≠ (img.backup 0).current) ∨
        ((img.backup 2).current = (img.backup 0).current ∧ (img.backup 2).prev = base.fileEnd))
      (drift : Drifted base img [(img.backup 2).current, (img.backup 1).current,
        (img.backup 0).current] [])
      (limits : img.limits = base.limits)
      (here : ∀ r, img.at? (img.backup 0).current = some r → r.list.prev = base.fileEnd)
  | markedAtEnds (kept : Kept base img) (status : img.status = .rdMark1)
      (saved : Saved base img 0) (erased : Saved base img 2)
      (drift : Drifted base img [(img.backup 2).current, (img.backup 0).current] [(img.backup 2).current])
      (unmoved : img.fileEnd = base.fileEnd) (limits : img.limitsBackup = base.limits)
  | markedInMiddle (kept : Kept base img) (status : img.status = .rdMark2)
      (next : Saved base img 0) (prev : Saved base img 1) (erased : Saved base img 2)
      (drift : Drifted base img [(img.backup 2).current, (img.backup 1).current, (img.backup 0).current]
        [(img.backup 2).current])
      (unmoved : img.fileEnd = base.fileEnd) (limits : img.limits = base.limits)

end Wms.FileContainer
