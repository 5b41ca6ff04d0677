import Wms.FileContainer.RecordsSpec
import Wms.FileContainer.Operations
import Wms.FileContainer.Listing

/-! What the consistency check and the recovery do to an image. -/

set_option autoImplicit false

namespace Wms.FileContainer

open Lib Lib.FileProg Lib.Links Image Layout List

variable {e : Env} {k : Cache} {img base : Image} {pos : Nat} {l a b : Listing}

/-! The consistency check. -/

def elementEnd (x : Nat × Bytes) : Nat := x.1 + calculateDataSize x.2.length

structure Reach (l : Listing) (reached : Nat) : Prop where
  bound : ∀ x ∈ l, elementEnd x ≤ reached
  tight : l ≠ [] → ∃ x ∈ l, reached = elementEnd x

variable {value : Bytes} {allowable : Int} {touched marked : List Nat} {m : Unit → Method Unit}
  {crash : Bytes → Prop}

theorem Reach.snoc {reached key : Nat} (reach : Reach a reached) (zero : a = [] → reached = 0) :
    Reach (a ++ [(key, value)]) (if elementEnd (key, value) > reached then elementEnd (key, value)
      else reached) := by
  constructor
  · intro x member
    rcases mem_append.mp member with old | new
    · have := reach.bound x old
      split <;> omega
    · rw [mem_singleton.mp new]
      split <;> omega
  · intro _
    split
    · exact ⟨(key, value), by simp, rfl⟩
    · rename_i small
      by_cases empty : a = []
      · have positive : 0 < elementEnd (key, value) := by
          simp only [elementEnd, calculateDataSize, iteratorWidth]
          omega
        rw [zero empty] at small
        omega
      · obtain ⟨x, member, same⟩ := reach.tight empty
        exact ⟨x, mem_append_left _ member, same⟩

theorem Image.Linked.found {x : Nat × Bytes} (linked : img.Linked l) (member : x ∈ l) :
    ∃ r, img.at? x.1 = some r ∧ x.1 + r.size = elementEnd x := by
  obtain ⟨before, after, rfl⟩ := append_of_mem member
  obtain ⟨r, found, -, -, data⟩ := linked.record
  exact ⟨r, found, by rw [elementEnd, Record.size, data]⟩

theorem Image.Linked.cut {reached key : Nat} (linked : img.Linked (a ++ [(key, value)]))
    (reach : Reach (a ++ [(key, value)]) reached) :
    ∃ kept more r, img.records = kept ++ more ∧ reached = headerSize + total Record.size kept ∧
      at? { img with records := kept, tail := [] } key = some r ∧
      Linked ({ img with records := kept, tail := [] }.setList key ⟨lastKey a 0, reached⟩)
        (a ++ [(key, value)]) := by
  obtain ⟨top, member, same⟩ := reach.tight (by simp)
  obtain ⟨highest, found, whole⟩ := linked.found member
  obtain ⟨front, more, shape, here⟩ := locate_split found
  have cutEnd : reached = headerSize + total Record.size (front ++ [highest]) := by
    simp only [total_append, total_cons, total_nil]
    omega
  have shape : img.records = (front ++ [highest]) ++ more := by rw [shape, append_assoc]; rfl
  -- every record of the list lies before the cut
  have kept (x : Nat × Bytes) (inside : x ∈ a ++ [(key, value)]) :
      at? { img with records := front ++ [highest], tail := [] } x.1 = img.at? x.1 := by
    obtain ⟨r, foundX, wholeX⟩ := linked.found inside
    have bound := reach.bound x inside
    have located : locate Record.size headerSize (front ++ [highest] ++ more) x.1 = some r := by
      rw [← shape]
      exact foundX
    have before : x.1 + r.size ≤ headerSize + total Record.size (front ++ [highest]) := by omega
    rw [foundX]
    exact locate_of_append Record.size_pos located before
  have segment : Segment (live { img with records := front ++ [highest], tail := [] }) 0
      (a ++ [(key, value)]) img.fileEnd := by
    refine linked.segment.congr fun other inside => ?_
    obtain ⟨x, element, rfl⟩ := mem_map.mp inside
    rw [live, kept x element]
    rfl
  have outside : key ∉ keys a := by
    have nodup := linked.nodup
    rw [keys_append, nodup_append] at nodup
    exact fun inside => nodup.2.2 key inside key mem_cons_self rfl
  obtain ⟨r, foundLast, -⟩ := found_of_live segment.node
  refine ⟨_, more, r, shape, cutEnd, foundLast, ?_⟩
  have newEnd : (setList { img with records := front ++ [highest], tail := [] } key
      ⟨lastKey a 0, reached⟩).recordsEnd = reached := recordsEnd_setList.trans cutEnd.symm
  refine .of_segment linked.clean rfl ?_ rfl newEnd linked.nodup (by simp)
    (linked.first.trans (headKey_of_ne_nil (by simp) _))
      (linked.last.trans (lastKey_of_ne_nil (by simp) _))
  rw [live_setList segment.node]
  exact segment.set_next outside

/-- The size field is right, or off by what the check may correct. -/
def Countable (allowable : Int) (size length : Nat) : Prop :=
  size = length ∨ allowedOffset allowable (toInt ((length : Int) - size)) = true

theorem correctSize_ends {length : Nat} (clean : img.scar = []) (small : length < sizeBound)
    (known : k.size = img.size) (countable : Countable allowable img.size length) :
    Ends Unchecked (correctSize allowable length) e ⟨k, img⟩ pos (.ok ())
      ⟨{ k with size := length }, { img with size := length }⟩ pos := by
  refine .bind .cache ?_
  by_cases same : length = k.size
  · have cacheSame : { k with size := length } = k := by rw [same]
    have imageSame : { img with size := length } = img := by rw [same, known]
    rw [cacheSame, imageSame]
    exact .on_false (fun wrong => wrong same) (.pure _)
  · refine .on_true same (.on_true ?_ (writeAndSetSize_ends clean small .unchecked))
    rcases countable with equal | allowed
    · exact absurd (equal.symm.trans known.symm) same
    · rw [known]
      exact allowed

theorem toOff_of_lt {n : Nat} (small : n < offBound) : toOff n = n := by
  simp only [offBound] at small
  exact Int.bmod_eq_of_le (by omega) (by omega)

structure Trimmed (img : Image) (l : Listing) (new : Image) : Prop where
  linked : new.Linked l
  size : new.size = img.size
  stamp : new.stamp = img.stamp
  limits : new.limits = img.limits
  reach : Reach l new.fileEnd

theorem cutUnreached_ends {reached current key : Nat} (k : Cache) (pos : Nat)
    (linked : img.Linked (a ++ [(key, value)])) (reach : Reach (a ++ [(key, value)]) reached)
    (inside : current ≤ reached) : ∃ new stop,
      Ends Unchecked (cutUnreached img.fileEnd reached current ⟨lastKey a 0, img.fileEnd, key⟩) e
        ⟨k, img⟩ pos
        (.ok ()) ⟨k, new⟩ stop ∧ Trimmed img (a ++ [(key, value)]) new := by
  by_cases short : reached < img.fileEnd
  · obtain ⟨kept, more, r, shape, here, found, relinked⟩ := linked.cut reach
    obtain ⟨old, foundOld, -, list, -⟩ := linked.record
    have newEnd : fileEnd { img with records := kept, tail := [], status := .ftEnd } = reached := here.symm
    refine ⟨setList { img with records := kept, tail := [], status := .ftEnd } key ⟨lastKey a 0, reached⟩,
      key + 34, .of_fits fun fits => .on_true ⟨Int.ofNat_le.mpr inside, Int.ofNat_lt.mpr short⟩ ?_,
      { linked := { relinked with }, size := rfl, stamp := rfl, limits := rfl
        reach := (fileEnd_setList.trans newEnd).symm ▸ reach }⟩
    have small : Pointers.Fits ⟨lastKey a 0, reached⟩ := by
      have old := (fits.records old (mem_records foundOld)).list
      rw [list] at old
      exact ⟨old.1, Nat.lt_trans short (linked.end_lt fits)⟩
    rw [Int.toNat_natCast, here]
    refine .bind (truncateFile_ends shape .unchecked .unchecked) (.bind getEnd_ends ?_)
    rw [← here, newEnd]
    exact .on_true (Nat.ne_of_gt short) (writeIterator_ends ⟨lastKey a 0, reached,
      key⟩ found small .unchecked)
  · have ended : reached = img.fileEnd := by
      obtain ⟨x, member, same⟩ := reach.tight (by simp)
      obtain ⟨r, found, whole⟩ := linked.found member
      have within := record_end_le found
      rw [whole, ← same, ← linked.fileEnd_eq] at within
      exact Nat.le_antisymm within (Nat.not_lt.mp short)
    refine ⟨img, pos, ?_, { linked, size := rfl, stamp := rfl, limits := rfl, reach := ended ▸ reach }⟩
    exact .on_false (fun both => short (Int.ofNat_lt.mp both.2)) (.pure _)

theorem Image.Linked.toOff_end {x : Nat × Bytes} (fits : img.Fits) (linked : img.Linked l)
    (member : x ∈ l) :
    toOff (x.1 + calculateDataSize x.2.length) = elementEnd x := by
  obtain ⟨r, found, whole⟩ := linked.found member
  have inside := record_end_le found
  rw [whole, ← linked.fileEnd_eq] at inside
  exact toOff_of_lt (Nat.lt_of_le_of_lt inside (linked.end_lt fits))

theorem reached_cast (current reached : Nat) :
    (if (current : Int) > reached then (current : Int) else reached) =
      ((if current > reached then current else reached : Nat) : Int) := by
  split <;> split <;> omega

/-- The loop from one element of the list on: the elements before it have been met. -/
theorem checkRecords_ends {fuel : Nat} (reached : Nat) {key : Nat} (linked : img.Linked l)
    (shape : l = a ++ (key, value) :: b) (known : k.size = img.size)
      (last : k.limits.next = img.limits.next)
    (small : l.length < sizeBound) (countable : Countable allowable img.size l.length)
    (reach : Reach a reached) (zero : a = [] → reached = 0) (enough : b.length < fuel) :
    ∃ new stop, Ends Unchecked
      (checkRecords allowable img.fileEnd fuel ⟨lastKey a 0, headKey b img.fileEnd, key⟩ reached a.length)
      e ⟨k, img⟩ (key + 34) (.ok ()) ⟨{ k with size := l.length }, new⟩ stop ∧
        Trimmed { img with size := l.length } l new := by
  induction b generalizing a key value fuel reached with
  | nil =>
    obtain ⟨fuel, rfl⟩ := Nat.exists_eq_add_one.mpr enough
    obtain ⟨r, found, -, -, data⟩ := (shape ▸ linked).record
    subst shape
    have here : key = k.limits.next := by rw [last, linked.last, lastKey_append]; rfl
    have within : elementEnd (key, value) ≤
        if elementEnd (key, value) > reached then elementEnd (key, value) else reached := by
      split <;> omega
    have length : (a ++ [(key, value)]).length = a.length + 1 := by simp
    have counted : Linked { img with size := (a ++ [(key, value)]).length } (a ++ [(key, value)]) :=
      { linked with }
    obtain ⟨new, stop, run, trimmed⟩ := cutUnreached_ends { k with size := (a ++ [(key, value)]).length }
      (key + 60) counted (reach.snoc zero) within
    refine ⟨new, stop, .of_fits fun fits => ?_, trimmed⟩
    have ends := linked.toOff_end fits (x := (key, value)) (by simp)
    unfold checkRecords
    refine .bind .isGood (.bind (.attempt (readSize_of_record_ends found)) (.bind .cache ?_))
    refine .on_true here ?_
    simp only [data, ends, reached_cast]
    refine .bind (a := ()) ?_ run
    rw [length] at small countable ⊢
    exact correctSize_ends linked.clean small known countable
  | cons second rest ih =>
    obtain ⟨next, data2⟩ := second
    obtain ⟨fuel, rfl⟩ := Nat.exists_eq_add_one.mpr (Nat.zero_lt_of_lt enough)
    obtain ⟨r, found, -, -, data⟩ := (shape ▸ linked).record
    have shape' : l = (a ++ [(key, value)]) ++ (next, data2) :: rest := by rw [shape]; simp
    obtain ⟨r2, found2, -, list2, -⟩ := (shape' ▸ linked).record
    have member : next ∈ keys l := by rw [shape']; simp
    have bound := linked.key_bound member
    have notLast : ¬ key = k.limits.next := by
      have nodup := linked.nodup
      rw [shape, keys_append, nodup_append, keys_cons, nodup_cons] at nodup
      rw [last, linked.last, shape, lastKey_append]
      exact fun same => nodup.2.1.1 (same ▸ lastKey_mem key (by simp))
    obtain ⟨new, stop, run, after⟩ := ih _ shape' (reach.snoc zero) (by simp)
      (Nat.lt_of_succ_lt_succ enough)
    refine ⟨new, stop, .of_fits fun fits => ?_, after⟩
    have ends := linked.toOff_end fits (x := (key, value)) (by rw [shape]; simp)
    unfold checkRecords
    refine .bind .isGood (.bind (.attempt (readSize_of_record_ends found)) (.bind .cache ?_))
    refine .on_false notLast (.on_false ?_ (.bind (readIterator_ends found2) ?_))
    · intro outside
      simp only [headKey] at outside
      omega
    · simp only [data, ends, reached_cast, list2]
      rw [length_append] at run
      exact run

theorem checkConsistency_ends (pos : Nat) (linked : img.Linked l) (nonempty : l ≠ [])
    (limits : k.limits.pointers = img.limits) (small : l.length < sizeBound)
    (countable : Countable allowable img.size l.length) (enough : l.length ≤ e.fuel) :
    ∃ new stop, Ends Unchecked (checkConsistency allowable) e ⟨k, img⟩ pos (.ok ())
      ⟨{ k with size := l.length }, new⟩ stop ∧ Trimmed { img with size := l.length } l new := by
  obtain ⟨⟨key, value⟩, rest, rfl⟩ := exists_cons_of_ne_nil nonempty
  obtain ⟨r, found, -, list, -⟩ := linked.record (a := [])
  have start : k.limits.prev = key := (congrArg Pointers.prev limits).trans linked.first
  have last : k.limits.next = img.limits.next := congrArg Pointers.next limits
  obtain ⟨new, stop, run, after⟩ := checkRecords_ends (e := e) (k := { k with size := img.size }) (a := [])
    0 linked rfl rfl last small countable ⟨nofun, nofun⟩ (fun _ => rfl) enough
  refine ⟨new, stop, ?_, after⟩
  refine .bind getEnd_ends (.bind (readSize_ends linked.clean) (.bind .cache ?_))
  rw [start]
  refine .bind (readIterator_ends found) (.bind .ask ?_)
  rw [list]
  exact run

/-! The steps of the recovery. -/

theorem restoreIterator_ends {what : Fin 4} {r : Record}
    (found : img.at? (img.backup what).current = some r) :
    Ends Unchecked (restoreIterator what) e ⟨k, img⟩ pos (.ok ())
      ⟨k, img.setList (img.backup what).current (img.backup what).pointers⟩
        ((img.backup what).current + 34) := by
  refine .of_fits fun fits => ?_
  obtain ⟨prev, next, -⟩ := fits.backup what
  exact .bind (readIteratorBackup_ends what) (writeIterator_ends _ found ⟨prev, next⟩ .unchecked)

theorem restoreLimits_ends : Ends Unchecked restoreLimits e ⟨k, img⟩ pos (.ok ())
    ⟨{ k with limits := img.limitsBackup.at k.limits.current },
      { img with limits := img.limitsBackup }⟩ 357 := by
  refine .of_fits fun fits => ?_
  refine .bind readLimitsBackup_ends (.bind .cache ?_)
  exact writeLimits_ends (img.limitsBackup.at _) fits.limitsBackup .unchecked

theorem restoreErased_ends {r : Record} (found : img.at? (img.backup 2).current = some r) :
    Ends Unchecked restoreErased e ⟨k, img⟩ pos (.ok ())
      ⟨k, (img.setList (img.backup 2).current (img.backup 2).pointers).setErased
        (img.backup 2).current false⟩
      ((img.backup 2).current + 60) := by
  refine .of_fits fun fits => ?_
  exact .bind (readIteratorBackup_ends 2)
    (markDataAsUnerased_ends found (fits.backup 2) .unchecked .unchecked)

def Recovers (m : Method Unit) (e : Env) (k : Cache) (img : Image) (l : Listing) : Prop :=
  ∀ pos, ∃ k' new stop, Ends Unchecked m e ⟨k, img⟩ pos (.ok ()) ⟨k', new⟩ stop ∧
    new.Linked l ∧ new.size = l.length

structure Settled (k : Cache) (img : Image) (l : Listing) (k' : Cache) (new : Image) : Prop where
  linked : new.Linked l
  size : new.size = l.length
  stamp : new.stamp = img.stamp
  own : k'.stamp = k.stamp
  initialized : k'.initialized = k.initialized
  limits : k'.limits.pointers = new.limits
  counted : k'.size = new.size

structure Resumed (k : Cache) (img : Image) (l : Listing) (k' : Cache) (new : Image) : Prop
    extends Settled k img l k' new where
  reach : Reach l new.fileEnd

def Resumes (m : Method Unit) (e : Env) (k : Cache) (img : Image) (l : Listing) : Prop :=
  ∀ pos, ∃ k' new stop, Ends Unchecked m e ⟨k, img⟩ pos (.ok ()) ⟨k', new⟩ stop ∧ Resumed k img l k' new

theorem Resumes.recovers {m : Method Unit} (resumes : Resumes m e k img l) : Recovers m e k img l := by
  intro pos
  obtain ⟨k', new, stop, run, resumed⟩ := resumes pos
  exact ⟨k', new, stop, run, resumed.linked, resumed.size⟩

theorem Resumes.after {α : Type} {m : Method α} {f : α → Method Unit} {x : α} {k₁ : Cache} {img₁ : Image}
    (first : ∀ pos, ∃ stop, Ends Unchecked m e ⟨k, img⟩ pos (.ok x) ⟨k₁, img₁⟩ stop)
    (stamp : img₁.stamp = img.stamp) (own : k₁.stamp = k.stamp)
      (initialized : k₁.initialized = k.initialized)
    (second : Resumes (f x) e k₁ img₁ l) : Resumes (m >>= f) e k img l := by
  intro pos
  obtain ⟨mid, run⟩ := first pos
  obtain ⟨k', new, stop, more, resumed⟩ := second mid
  exact ⟨k', new, stop, run.bind more, { resumed with
    stamp := resumed.stamp.trans stamp
    own := resumed.own.trans own
    initialized := resumed.initialized.trans initialized }⟩

/-- A list that the backups lead back to, and fuel for the walk over it. -/
structure Restorable (e : Env) (base : Image) (l : Listing) : Prop where
  holds : base.Holds l
  nonempty : l ≠ []
  enough : l.length ≤ e.fuel
  small : l.length < sizeBound

theorem resumes_check (list : Restorable e base l) (kept : Kept base img) (drift : Drifted base img [] [])
    (unmoved : img.fileEnd = base.fileEnd) (limits : img.limits = base.limits)
    (known : k.limits.pointers = base.limits) : Resumes (checkConsistency allowable) e k img l := by
  obtain ⟨holds, nonempty, enough, small⟩ := list
  obtain ⟨records, tail⟩ := drift.eq holds.finished unmoved
  have linked : img.Linked l := holds.transport nonempty kept.1 records tail limits
  intro pos
  obtain ⟨new, stop, run, trimmed⟩ := checkConsistency_ends pos linked nonempty
    (known.trans limits.symm) small (.inl (kept.2.trans holds.size)) enough
  exact ⟨_, new, stop, run, { trimmed with
    own := rfl
    initialized := rfl
    limits := known.trans (limits.symm.trans trimmed.limits.symm)
    counted := trimmed.size.symm }⟩

theorem Saved.found {what : Fin 4} (saved : Saved base img what)
    (drift : Drifted base img touched marked) :
    ∃ r, img.at? (img.backup what).current = some r := by
  obtain ⟨r, found, -⟩ := saved
  obtain ⟨s, here, -⟩ := drift.at? found
  exact ⟨s, here⟩

theorem resumes_restore (what : Fin 4) (saved : Saved base img what)
    (drift : Drifted base img ((img.backup what).current :: touched) marked)
    (rest : Drifted base (img.setList (img.backup what).current (img.backup what).pointers)
      touched marked →
      Resumes (m ()) e k (img.setList (img.backup what).current (img.backup what).pointers) l) :
    Resumes (restoreIterator what >>= m) e k img l := by
  obtain ⟨r, found⟩ := saved.found drift
  obtain ⟨old, foundOld, same, -⟩ := saved
  exact .after (fun _ => ⟨_, restoreIterator_ends found⟩) rfl rfl rfl
    (rest (drift.restoreList foundOld same))

theorem resumes_unerase (saved : Saved base img 2)
    (drift : Drifted base img ((img.backup 2).current :: touched) ((img.backup 2).current :: marked))
    (rest : Drifted base ((img.setList (img.backup 2).current (img.backup 2).pointers).setErased
      (img.backup 2).current false) touched marked →
      Resumes (m ()) e k ((img.setList (img.backup 2).current (img.backup 2).pointers).setErased
      (img.backup 2).current false) l) : Resumes (restoreErased >>= m) e k img l := by
  obtain ⟨r, found⟩ := saved.found drift
  obtain ⟨old, foundOld, same, live⟩ := saved
  exact .after (fun _ => ⟨_, restoreErased_ends found⟩) rfl rfl rfl
    (rest ((drift.restoreList foundOld same).restoreErased foundOld live))

theorem resumes_limits (saved : img.limitsBackup = base.limits)
    (rest : ∀ k', k'.limits.pointers = base.limits →
      Resumes (m ()) e k' { img with limits := img.limitsBackup } l) :
    Resumes (restoreLimits >>= m) e k img l :=
  .after (fun _ => ⟨_, restoreLimits_ends⟩) rfl rfl rfl (rest _ saved)

theorem resumes_truncate {n : Nat} (drift : Drifted base img touched marked) (finished : base.tail = [])
    (here : n = base.fileEnd)
    (rest : ∀ kept, Drifted base { img with records := kept, tail := [], status :=
      .ftEnd } touched marked →
      fileEnd { img with records := kept, tail := [], status := .ftEnd } = base.fileEnd →
      Resumes (m ()) e k { img with records := kept, tail := [], status := .ftEnd } l) :
    Resumes (truncateFile n >>= m) e k img l := by
  obtain ⟨kept, more, shape, ends, after⟩ := drift.cut
  have same : base.fileEnd = headerSize + total Record.size kept := by
    simpa [fileEnd, finished] using ends
  rw [here, same]
  exact .after (fun _ => ⟨0, truncateFile_ends shape .unchecked .unchecked⟩) rfl rfl rfl
    (rest kept after same.symm)

section Chains

variable {allowable : Int} (list : Restorable e base l) (kept : Kept base img)
include list kept

theorem resumes_oneLink (saved : Saved base img 0) (drift : Drifted base img [(img.backup 0).current] [])
    (unmoved : img.fileEnd = base.fileEnd) (limits : img.limits = base.limits)
    (known : k.limits.pointers = base.limits) :
    Resumes (restoreIterator 0 >>= fun _ => checkConsistency allowable) e k img l :=
  resumes_restore 0 saved drift fun drift =>
    resumes_check list kept drift (fileEnd_setList.trans unmoved) limits known

theorem resumes_twoLinks (next : Saved base img 0) (prev : Saved base img 1)
    (drift : Drifted base img [(img.backup 1).current, (img.backup 0).current] [])
    (unmoved : img.fileEnd = base.fileEnd) (limits : img.limits = base.limits)
    (known : k.limits.pointers = base.limits) :
    Resumes (restoreIterator 1 >>= fun _ => restoreIterator 0 >>= fun _ =>
      checkConsistency allowable) e k img l :=
  resumes_restore 1 prev drift fun drift =>
    resumes_oneLink list kept next drift (fileEnd_setList.trans unmoved) limits known

section

variable (saved : Saved base img 0) (drift : Drifted base img [(img.backup 0).current] [])
include saved drift

theorem resumes_oneLinkAndLimits (unmoved : img.fileEnd = base.fileEnd)
    (limits : img.limitsBackup = base.limits) :
    Resumes (restoreLimits >>= fun _ => restoreIterator 0 >>= fun _ =>
      checkConsistency allowable) e k img l :=
  resumes_limits limits fun _ known =>
    resumes_oneLink list kept saved drift unmoved limits known

theorem resumes_linkThenLimits (unmoved : img.fileEnd = base.fileEnd)
    (limits : img.limitsBackup = base.limits) :
    Resumes (restoreIterator 0 >>= fun _ => restoreLimits >>= fun _ =>
      checkConsistency allowable) e k img l :=
  resumes_restore 0 saved drift fun drift => resumes_limits limits fun _ known =>
    resumes_check list kept drift (fileEnd_setList.trans unmoved) limits known

theorem resumes_atEnd (limits : img.limitsBackup = base.limits) (here : img.limits.next = base.fileEnd) :
    Resumes recoverAeWriting e k img l :=
  .after (fun _ => ⟨_, readInitialPosition_ends _⟩) rfl rfl rfl <|
    resumes_truncate drift list.holds.finished here fun _ drift unmoved =>
      resumes_oneLinkAndLimits list kept saved drift unmoved limits

theorem resumes_atBegin (limits : img.limitsBackup = base.limits) (here : img.limits.prev = base.fileEnd) :
    Resumes recoverAbWriting e k img l :=
  .after (fun _ => ⟨_, readInitialPosition_ends _⟩) rfl rfl rfl <|
    resumes_truncate drift list.holds.finished here fun _ drift unmoved =>
      resumes_oneLinkAndLimits list kept saved drift unmoved limits

end

theorem resumes_inMiddle (next : Saved base img 0) (prev : Saved base img 1)
    (drift : Drifted base img [(img.backup 1).current, (img.backup 0).current] [])
    (limits : img.limits = base.limits) (known : k.limits.pointers = base.limits)
    (here : ∀ r, img.at? (img.backup 0).current = .some r → r.list.prev = base.fileEnd) :
    Resumes recoverAmWriting e k img l := by
  obtain ⟨r, found⟩ := next.found drift
  refine .after (fun _ => ⟨_, readIteratorBackup_ends 0⟩) rfl rfl rfl
    (.after (fun _ => ⟨_, readIterator_ends found⟩) rfl rfl rfl ?_)
  exact resumes_truncate drift list.holds.finished (here r found) fun _ drift unmoved =>
    resumes_twoLinks list kept next prev drift unmoved limits known

end Chains

/-- The backup of the last element is not needed when its links are in another backup. -/
theorem resumes_overwrite (what : Fin 4) {r : Record} (found : base.at? (img.backup what).current = some r)
    (again : (img.backup what).current ∈ touched)
    (drift : Drifted base img ((img.backup what).current :: touched) marked)
    (rest : Drifted base (img.setList (img.backup what).current (img.backup what).pointers)
      touched marked →
      Resumes (m ()) e k (img.setList (img.backup what).current (img.backup what).pointers) l) :
    Resumes (restoreIterator what >>= m) e k img l := by
  obtain ⟨s, here, -⟩ := drift.at? found
  refine .after (fun _ => ⟨_, restoreIterator_ends here⟩) rfl rfl rfl (rest ?_)
  refine (drift.setList found).mono (fun offset member => ?_) (List.Subset.refl _)
  rcases mem_cons.mp member with rfl | member
  · exact again
  · rcases mem_cons.mp member with rfl | member
    · exact again
    · exact member

/-- Whatever an operation had done to the records before it blanked its backups, the recovery
undoes it. -/
theorem resumes_covered (list : Restorable e base l) (covered : Covered base img)
    (changed : img.status ∉ [FileStatus.closed, .opened])
    (known : k.limits.pointers = img.limits) : Resumes (recoverCase img.status) e k img l := by
  cases covered with
  | untouched kept status drift unmoved limits => exact absurd status changed
  | oneLink kept status saved drift unmoved limits =>
    have chain (allowable : Int) : Resumes
        (restoreIterator 0 >>= fun _ => checkConsistency allowable) e k img l :=
      resumes_oneLink list kept saved drift unmoved limits (known.trans limits)
    simp only [mem_cons, not_mem_nil, or_false] at status
    rcases status with same | same | same | same <;> rw [same]
    · exact chain 1
    · exact chain 1
    · exact chain 1
    · exact chain (-1)
  | oneLinkAndLimits kept status saved drift unmoved limits =>
    simp only [mem_cons, not_mem_nil, or_false] at status
    rcases status with same | same | same <;> rw [same]
    · exact resumes_oneLinkAndLimits list kept saved drift unmoved limits
    · exact resumes_oneLinkAndLimits list kept saved drift unmoved limits
    · exact resumes_linkThenLimits list kept saved drift unmoved limits
  | onlyLimits kept status drift unmoved limits =>
    rw [status]
    exact resumes_limits limits fun _ known =>
      resumes_check list kept drift unmoved limits known
  | writingAtEnd kept status saved drift limits here =>
    have chain := resumes_atEnd (k := k) list kept saved drift limits here
    simp only [mem_cons, not_mem_nil, or_false] at status
    rcases status with same | same <;> rw [same] <;> exact chain
  | writingAtBegin kept status saved drift limits here =>
    have chain := resumes_atBegin (k := k) list kept saved drift limits here
    simp only [mem_cons, not_mem_nil, or_false] at status
    rcases status with same | same <;> rw [same] <;> exact chain
  | lastAtBegin kept status saved last drift limits here =>
    rw [status]
    rcases last with last | again
    · exact resumes_restore 2 last drift fun drift =>
        resumes_atBegin list kept saved drift limits here
    · obtain ⟨r, found, -⟩ := id saved
      exact resumes_overwrite 2 (again ▸ found) (again ▸ mem_cons_self) drift fun drift =>
        resumes_atBegin list kept saved drift limits here
  | twoLinks kept status next prev drift unmoved limits =>
    have chain (allowable : Int) : Resumes
        (restoreIterator 1 >>= fun _ => restoreIterator 0 >>= fun _ =>
          checkConsistency allowable) e k img l :=
      resumes_twoLinks list kept next prev drift unmoved limits (known.trans limits)
    simp only [mem_cons, not_mem_nil, or_false] at status
    rcases status with same | same <;> rw [same]
    · exact chain 1
    · exact chain (-1)
  | writingInMiddle kept status next prev drift limits here =>
    have chain := resumes_inMiddle (k := k) list kept next prev drift limits
      (known.trans limits) here
    simp only [mem_cons, not_mem_nil, or_false] at status
    rcases status with same | same <;> rw [same] <;> exact chain
  | lastInMiddle kept status next prev last drift limits here =>
    rw [status]
    rcases last with ⟨last, apart⟩ | ⟨again, first⟩
    · refine resumes_restore 2 last drift fun drift =>
        resumes_inMiddle list kept next prev drift limits (known.trans limits) fun r found => ?_
      change at? _ (img.backup 0).current = Option.some r at found
      rw [at?_setList, if_neg (Ne.symm apart)] at found
      exact here r found
    · obtain ⟨r, found, -⟩ := id next
      refine resumes_overwrite 2 (again ▸ found) (by simp [again]) drift fun drift =>
        resumes_inMiddle list kept next prev drift limits (known.trans limits) fun r found => ?_
      change at? _ (img.backup 0).current = Option.some r at found
      rw [at?_setList, if_pos again.symm] at found
      obtain ⟨old, -, rfl⟩ := Option.map_eq_some_iff.mp found
      exact first
  | markedAtEnds kept status saved erased drift unmoved limits =>
    rw [status]
    exact resumes_unerase erased drift fun drift => resumes_linkThenLimits list kept saved drift
      (fileEnd_setErased.trans (fileEnd_setList.trans unmoved)) limits
  | markedInMiddle kept status next prev erased drift unmoved limits =>
    rw [status]
    exact resumes_unerase erased drift fun drift => resumes_twoLinks list kept next prev drift
      (fileEnd_setErased.trans (fileEnd_setList.trans unmoved)) limits (known.trans limits)

theorem recovers_covered (list : Restorable e base l) (covered : Covered base img)
    (unclosed : img.status ≠ .closed)
    (known : k.limits.pointers = img.limits) : Recovers (recoverCase img.status) e k img l := by
  by_cases opened : img.status = .opened
  · cases covered with
    | untouched kept status drift unmoved limits =>
      obtain ⟨records, tail⟩ := drift.eq list.holds.finished unmoved
      have linked : img.Linked l := list.holds.transport list.nonempty kept.1 records tail limits
      rw [opened]
      intro pos
      exact ⟨k, _, _, writeFileStatus_ends .unchecked, { linked with }, kept.2.trans list.holds.size⟩
    | _ => simp_all
  · exact (resumes_covered list covered (by simp [unclosed, opened]) known).recovers

/-! Initialisation. -/

theorem backupFile_ends : Ends crash backupFile e ⟨k, img⟩ pos (.ok ()) ⟨k, img⟩ 0 :=
  .of_quiet rfl fun _ _ => rfl

theorem statusOr_ends {status : FileStatus} (same : img.status = status) :
    Ends crash (statusOr status) e ⟨k, img⟩ pos (.ok status) ⟨k, img⟩ pos := by
  by_cases closed : status = .closed
  · exact .on_true closed (same ▸ readFileStatus_ends)
  · exact .on_false closed (.pure _)

theorem recoverDataUnchecked_ends (pos : Nat) (opened : img.status ≠ .closed)
    (recovers : Recovers (recoverCase img.status) e k img l) :
    ∃ k' new stop, Ends Unchecked (recoverDataUnchecked img.status) e ⟨k, img⟩ pos
      (.ok ()) ⟨k', new⟩ stop ∧
      new.Holds l ∧ new.status = .closed := by
  obtain ⟨k', new, stop, run, linked, size⟩ := recovers 0
  refine ⟨k', { new with status := .closed }, stop, ?_, { linked with size }, rfl⟩
  refine .bind backupFile_ends (.bind (statusOr_ends rfl) (.bind run ?_))
  exact .on_true opened (writeFileStatus_ends .unchecked)

def Cache.readAll (k : Cache) (img : Image) : Cache := { k.readFrom img with stamp := img.stamp }

theorem initContainer_closed_ends (clean : img.scar = []) (closed : img.status = .closed) :
    Ends crash initContainer e ⟨k, img⟩ pos
      (.ok ()) ⟨{ k.readAll img with initialized := true }, img⟩ 390 := by
  refine .bind (readStamp_ends clean) (.bind readLimits_ends
    (.bind readRemoved_ends (.bind (readSize_ends clean) ?_)))
  refine .bind readFileStatus_ends ?_
  exact .on_false (fun wrong => wrong closed) (.update _)

theorem initContainer_open_ends (clean : img.scar = []) (opened : img.status ≠ .closed)
    (recovers : ∀ k', k'.limits.pointers = img.limits → Recovers (recoverCase img.status) e k' img l) :
    ∃ k' new stop, Ends Unchecked initContainer e ⟨k, img⟩ pos (.ok ()) ⟨k', new⟩ stop ∧
      new.Holds l ∧ new.status = .closed := by
  obtain ⟨k', new, stop, run, holds, closed⟩ :=
    recoverDataUnchecked_ends 390 opened (recovers (k.readAll img) rfl)
  refine ⟨{ k' with initialized := true }, new, stop, ?_, holds, closed⟩
  refine .bind (readStamp_ends clean) (.bind readLimits_ends
    (.bind readRemoved_ends (.bind (readSize_ends clean) ?_)))
  refine .bind readFileStatus_ends (.on_true opened ?_)
  exact .bind run (.update _)

theorem Covered.kept (covered : Covered base img) : Kept base img := by
  cases covered <;> assumption

/-- A process that opens a file in the middle of an operation restores the list before it. -/
theorem initContainer_covered (list : Restorable e base l) (covered : Covered base img) :
    ∃ k' new stop, Ends Unchecked initContainer e ⟨k, img⟩ pos (.ok ()) ⟨k', new⟩ stop ∧
      new.Holds l ∧ new.status = .closed := by
  by_cases closed : img.status = .closed
  · cases covered with
    | untouched kept _ drift unmoved limits =>
      obtain ⟨records, tail⟩ := drift.eq list.holds.finished unmoved
      have linked : img.Linked l := list.holds.transport list.nonempty kept.1 records tail limits
      exact ⟨_, img, _, initContainer_closed_ends kept.1 closed,
        { linked with size := kept.2.trans list.holds.size }, closed⟩
    | _ => simp_all
  · exact initContainer_open_ends covered.kept.1 closed fun k' known =>
      recovers_covered list covered closed known

end Wms.FileContainer
