import Wms.FileContainer.Failure
import Wms.Lib.Transition

/-! The iterators in the order of the file.

The pointers behind the data of a record are written once, when the record is appended: the next
one leads behind the record, the previous one to the element that is the last of the list then.
-/

set_option autoImplicit false

namespace Wms.FileContainer

open Lib Lib.FileProg Lib.Links Image Prog Layout Record Listing List

def fileorderFrom : Nat → FileIterator → Method (List Nat)
  | 0, _ => diverge
  | fuel + 1, it => do
    let fileEnd ← readEnd
    if it.current = fileEnd then pure []
    else do
      let next ← incrementFileorderIterator it
      let rest ← fileorderFrom fuel next
      pure (it.current :: rest)

def fileorderWalk : Method (List Nat) := do
  let it ← getFileorderIterator headerSize
  let env ← ask
  fileorderFrom env.fuel it

def stepAndBack (offset : Nat) : Method (FileIterator × FileIterator) := do
  let it ← getFileorderIterator offset
  let next ← incrementFileorderIterator it
  let back ← decrementFileorderIterator next
  return (it, back)

/-- An object, the list it holds, and the offsets of the records that have been appended since the
file was emptied. -/
structure Moment where
  object : Container
  list : Listing
  appended : List Nat

instance (file : Bytes) (l : Listing) : (call : Call) → Decidable (call.Valid file l)
  | .add .. => inferInstanceAs (Decidable (_ ∧ _))
  | .remove _ => inferInstanceAs (Decidable (_ ∈ _))

namespace Moment

def file (m : Moment) : Bytes := m.object.stream.file

/-- An insertion or a removal at an offset that the interface documents. -/
def Allowed (m : Moment) (a : Env × Call) : Prop := a.2.Valid m.file m.list

instance (m : Moment) (a : Env × Call) : Decidable (m.Allowed a) :=
  inferInstanceAs (Decidable (a.2.Valid m.file m.list))

def recorded (m : Moment) : Call → List Nat
  | .add .. => m.appended ++ [m.file.length]
  | .remove offset => if removeAt offset m.list = [] then [] else m.appended

def step (m : Moment) (a : Env × Call) : Option Moment :=
  match a.2.run a.1 m.object with
  | .ok _ object => some ⟨object, a.2.listing m.file m.list, m.recorded a.2⟩
  | _ => none

/-- The walk meets every record once, in the order of the offsets. -/
def VisitsAll (m : Moment) : Prop :=
  m.appended.Pairwise (· < ·) ∧
    ∀ e : Env, m.appended.length < e.fuel → ∃ c, fileorderWalk e m.object = .ok m.appended c

/-- The decrement undoes the increment. -/
def StepsBack (m : Moment) : Prop :=
  ∀ offset ∈ m.appended, ∀ e, ∃ it c, stepAndBack offset e m.object = .ok (it, it) c

/-- The call adds behind the last element, or it leaves the last element, or the list empty. -/
def Tame (m : Moment) (a : Env × Call) : Prop :=
  match a.2 with
  | .add _ offset => offset ∉ keys m.list
  | .remove offset => m.list.length = 1 ∨ offset ≠ lastKey m.list 0

end Moment

variable {e : Env} {k : Cache} {img new : Image} {pos : Nat} {writes : List Write} {l : Listing}
  {crash : Bytes → Prop} {offset : Nat} {r : Record}

/-! The file order pointers of an image. -/

def room (body : Bytes × Pointers) : Nat := calculateDataSize body.1.length

def behind (bodies : List (Bytes × Pointers)) : Nat := headerSize + total room bodies

def places : Nat → List (Bytes × Pointers) → List Nat
  | _, [] => []
  | base, body :: rest => base :: places (base + room body) rest

theorem behind_append (a b : List (Bytes × Pointers)) : behind (a ++ b) = behind a + total room b := by
  rw [behind, total_append, behind, Nat.add_assoc]

theorem places_append (base : Nat) (a b : List (Bytes × Pointers)) :
    places base (a ++ b) = places base a ++ places (base + total room a) b := by
  induction a generalizing base with
  | nil => rfl
  | cons body rest ih => simp [places, ih, Nat.add_assoc]

theorem mem_places {base : Nat} {bodies : List (Bytes × Pointers)} (member : offset ∈ places base bodies) :
    ∃ a body b, bodies = a ++ body :: b ∧ offset = base + total room a := by
  induction bodies generalizing base with
  | nil => cases member
  | cons first rest ih =>
    rcases mem_cons.mp member with rfl | member
    · exact ⟨[], first, rest, rfl, rfl⟩
    · obtain ⟨a, body, b, rfl, rfl⟩ := ih member
      exact ⟨first :: a, body, b, rfl, by rw [total_cons, Nat.add_assoc]⟩

theorem room_pos (body : Bytes × Pointers) : 0 < room body := size_pos ⟨⟨0, 0⟩, false, body.1, body.2⟩

theorem places_sorted (base : Nat) (bodies : List (Bytes × Pointers)) :
    (places base bodies).Pairwise (· < ·) := by
  induction bodies generalizing base with
  | nil => exact .nil
  | cons body rest ih =>
    refine pairwise_cons.mpr ⟨fun other member => ?_, ih _⟩
    obtain ⟨a, x, b, -, rfl⟩ := mem_places member
    have positive := room_pos body
    omega

theorem Image.total_bodies (records : List Record) :
    total room (records.map fun r => (r.data, r.file)) = total Record.size records := by
  induction records with
  | nil => rfl
  | cons r rest ih => rw [map_cons, total_cons, total_cons, ih]; rfl

theorem Image.fileEnd_eq_behind (finished : img.tail = []) : img.fileEnd = behind img.bodies := by
  rw [← recordsEnd_eq finished, behind, bodies, total_bodies]
  rfl

theorem Image.at?_of_bodies {a b : List (Bytes × Pointers)} {body : Bytes × Pointers}
    (shape : img.bodies = a ++ body :: b) : ∃ r, img.at? (behind a) = some r ∧ r.file = body.2 := by
  obtain ⟨front, rest, split, rfl, others⟩ := map_eq_append_iff.mp shape
  obtain ⟨r, back, rfl, rfl, rfl⟩ := map_eq_cons_iff.mp others
  refine ⟨r, ?_, rfl⟩
  have here : locate Record.size headerSize (front ++ [r])
      (behind (front.map fun r => (r.data, r.file))) = some r := by
    rw [locate_append_one Record.size_pos, behind, total_bodies, if_pos rfl]
  have found := locate_append_left (b := back) here
  rw [append_assoc] at found
  rw [at?, split]
  exact found

def Image.Chained (img : Image) : Prop :=
  ∀ a body b, img.bodies = a ++ body :: b → body.2.next = behind a + room body

/-- Every previous pointer leads to the record before, and the last element is the last record. -/
structure Image.Straight (img : Image) : Prop where
  back : ∀ a x y b, img.bodies = a ++ x :: y :: b → y.2.prev = behind a
  last : ∀ a x, img.bodies = a ++ [x] → img.limits.next = behind a

theorem Image.Chained.of_nil (empty : img.bodies = []) : img.Chained := by
  intro a body b shape
  rw [empty] at shape
  simp at shape

theorem Image.Straight.of_nil (empty : img.bodies = []) : img.Straight where
  back a x y b shape := by
    rw [empty] at shape
    simp at shape
  last a x shape := by
    rw [empty] at shape
    simp at shape

/-! The methods. -/

theorem readIterator_fileorder_ends (found : img.at? offset = some r) : ∃ stop,
    Ends crash (readIterator offset true) e ⟨k, img⟩ pos (.ok (r.file.at offset)) ⟨k, img⟩ stop := by
  refine ⟨offset + 60 + r.data.length + 1 + 34, .of_fits fun fits => ?_⟩
  have small := fits.records r (mem_records found)
  obtain ⟨tail, text⟩ := record_at fits found
  rw [bytes_eq, append_assoc] at text
  have file : (encode img).drop (offset + 60 + r.data.length + 1) = r.file.line ++ tail := by
    refine drop_next (r.list.line ++ (r.sizeText ++ (r.data ++ ['\n']))) (text.trans (by simp)) ?_
    have size : r.sizeText.length = 26 := length_sizeLine _ small.data
    simp only [length_append, Pointers.length_line small.list, size, length_cons, length_nil]
    omega
  refine .bind getEnd_ends ?_
  rw [if_pos ⟨headerSize_le found, lt_fileEnd found⟩]
  refine .bind (.seek offset) (.bind (readIteratorHere_ends _ small.list text)
    (.bind (readSize_of_record_ends found) ?_))
  exact .bind .tell (.bind (.seek _) (.bind (readIteratorHere_ends _ small.file file) (.pure _)))

def Image.placed (img : Image) (a : List (Bytes × Pointers)) : List (Bytes × Pointers) → FileIterator
  | [] => ⟨0, 0, img.fileEnd⟩
  | body :: _ => body.2.at (behind a)

theorem behind_ne_zero (a : List (Bytes × Pointers)) : behind a ≠ 0 := by
  have positive : 0 < headerSize := by decide
  rw [behind]
  omega

section

variable {a b : List (Bytes × Pointers)} {x y : Bytes × Pointers}

theorem Image.behind_lt_fileEnd (finished : img.tail = []) (shape : img.bodies = a ++ x :: b) :
    behind a < img.fileEnd := by
  rw [fileEnd_eq_behind finished, shape, behind_append, total_cons]
  have positive := room_pos x
  omega

theorem readIterator_placed_ends (finished : img.tail = []) (shape : img.bodies = a ++ b) : ∃ stop,
    Ends crash (readIterator (behind a) true) e ⟨k, img⟩ pos (.ok (img.placed a b)) ⟨k, img⟩ stop := by
  cases b with
  | nil =>
    rw [append_nil] at shape
    rw [← shape, ← fileEnd_eq_behind finished]
    exact ⟨_, readIterator_end_ends⟩
  | cons body b =>
    obtain ⟨r, found, same⟩ := at?_of_bodies shape
    obtain ⟨stop, run⟩ := readIterator_fileorder_ends found
    rw [same] at run
    exact ⟨stop, run⟩

namespace Serving

theorem getFileorderIterator_ends (e : Env) (pos : Nat) (serving : Serving k img l)
    (shape : img.bodies = a ++ b) :
    ∃ stop, Ends Unchecked (getFileorderIterator (behind a)) e ⟨k, img⟩ pos (.ok (img.placed a b))
      ⟨k.prepared img true, img⟩ stop := by
  obtain ⟨modified, mid, prepared⟩ := (serving.opens e true).run pos
  obtain ⟨stop, read⟩ := readIterator_placed_ends serving.holds.finished shape
  exact ⟨stop, .bind prepared read⟩

theorem increment_placed_ends (e : Env) (pos : Nat) (serving : Serving k img l) (chained : img.Chained)
    (shape : img.bodies = a ++ x :: b) :
    ∃ stop, Ends Unchecked (incrementFileorderIterator (img.placed a (x :: b))) e
      ⟨k, img⟩ pos (.ok (img.placed (a ++ [x]) b)) ⟨k.prepared img true, img⟩ stop := by
  have shape' : img.bodies = a ++ [x] ++ b := by rw [shape, append_assoc]; rfl
  have next : x.2.next = behind (a ++ [x]) := by
    rw [chained a x b shape, behind_append]
    rfl
  refine serving.incrementWith_ends true e _ _ pos (behind_ne_zero a) fun mid => ?_
  cases b with
  | nil =>
    rw [append_nil] at shape'
    rw [← shape', ← fileEnd_eq_behind serving.holds.finished] at next
    exact ⟨mid, .on_true next (.pure _)⟩
  | cons y b =>
    have inside : x.2.next ≠ img.fileEnd := by
      rw [next]
      exact Nat.ne_of_lt (behind_lt_fileEnd serving.holds.finished shape')
    obtain ⟨mid, here⟩ := readIterator_placed_ends serving.holds.finished shape
    obtain ⟨stop, there⟩ := readIterator_placed_ends serving.holds.finished shape'
    rw [← next] at there
    exact ⟨stop, .on_false inside (.bind here there)⟩

/-- From behind the last record, the decrement leads to the last element of the list. -/
theorem decrement_end_ends (e : Env) (pos : Nat) (serving : Serving k img l)
    (found : img.at? img.limits.next = some r) :
    ∃ stop, Ends Unchecked (decrementFileorderIterator ⟨0, 0, img.fileEnd⟩) e ⟨k, img⟩ pos
      (.ok (r.file.at img.limits.next)) ⟨k.prepared img true, img⟩ stop := by
  obtain ⟨modified, mid, prepared⟩ := (serving.opens e true).run pos
  obtain ⟨stop, read⟩ := readIterator_fileorder_ends found
  have next : (k.prepared img true).limits.next = img.limits.next :=
    congrArg Pointers.next (serving.coherent.prepared true).2.1
  rw [← next] at read
  rw [← next]
  exact ⟨stop, .bind prepared (.bind .cache (.bind getEnd_ends (.on_true rfl read)))⟩

theorem decrement_placed_ends (e : Env) (pos : Nat) (serving : Serving k img l)
    (shape : img.bodies = a ++ x :: y :: b) (prev : y.2.prev = behind a) : ∃ stop, Ends Unchecked
      (decrementFileorderIterator (img.placed (a ++ [x]) (y :: b))) e
      ⟨k, img⟩ pos (.ok (img.placed a (x :: y :: b))) ⟨k.prepared img true, img⟩ stop := by
  have shape' : img.bodies = a ++ [x] ++ y :: b := by rw [shape, append_assoc]; rfl
  have inside : behind (a ++ [x]) ≠ img.fileEnd :=
    Nat.ne_of_lt (behind_lt_fileEnd serving.holds.finished shape')
  have other : y.2.prev ≠ 0 := prev ▸ behind_ne_zero a
  obtain ⟨modified, mid, prepared⟩ := (serving.opens e true).run pos
  obtain ⟨mid', here⟩ := readIterator_placed_ends serving.holds.finished shape'
  obtain ⟨stop, there⟩ := readIterator_placed_ends serving.holds.finished shape
  rw [← prev] at there
  exact ⟨stop, .bind prepared (.bind .cache
    (.bind getEnd_ends (.on_false inside (.on_false other (.bind here there)))))⟩

theorem stepAndBack_run {it : FileIterator} (e : Env) (pos : Nat) (writes : List Write)
    (serving : Serving k img l) (chained : img.Chained) (shape : img.bodies = a ++ x :: b)
    (back : ∀ k pos, Serving k img l → ∃ stop,
      Ends Unchecked (decrementFileorderIterator (img.placed (a ++ [x]) b)) e
      ⟨k, img⟩ pos (.ok it) ⟨k.prepared img true, img⟩ stop) :
    ∃ c, stepAndBack (behind a) e (Snapshot.at ⟨k, img⟩ pos writes) = .ok
      (img.placed a (x :: b), it) c := by
  obtain ⟨stop₁, made₁, got⟩ := serving.reads writes (serving.getFileorderIterator_ends e pos shape)
  obtain ⟨stop₂, made₂, stepped⟩ := serving.prepared.reads (writes ++ made₁)
    (serving.prepared.increment_placed_ends e stop₁ chained shape)
  obtain ⟨stop₃, made₃, came⟩ := serving.prepared.prepared.reads (writes ++ made₁ ++ made₂)
    (back _ stop₂ serving.prepared.prepared)
  refine ⟨Snapshot.at ⟨((k.prepared img true).prepared img true).prepared img true, img⟩ stop₃
    (writes ++ made₁ ++ made₂ ++ made₃), ?_⟩
  rw [stepAndBack, bind_ok got, bind_ok stepped, bind_ok came]
  rfl

theorem fileorderFrom_run (fuel pos : Nat) (writes : List Write) (serving : Serving k img l)
    (chained : img.Chained) (shape : img.bodies = a ++ b) (enough : b.length < fuel) : ∃ c,
      fileorderFrom fuel (img.placed a b) e (Snapshot.at ⟨k, img⟩ pos writes) = .ok
        (places (behind a) b) c := by
  obtain ⟨fuel, rfl⟩ := Nat.exists_eq_add_one.mpr (Nat.zero_lt_of_lt enough)
  -- The induction is on the records that are left; each round asks for the end of the file anew.
  obtain ⟨stop₁, made₁, ended⟩ := serving.reads writes (serving.readEnd_ends e pos)
  induction b generalizing a k fuel pos writes stop₁ made₁ with
  | nil =>
    refine ⟨Snapshot.at ⟨k.prepared img true, img⟩ stop₁ (writes ++ made₁), ?_⟩
    rw [fileorderFrom, bind_ok ended]
    exact congrFun (congrFun (if_pos rfl) _) _
  | cons x b ih =>
    have shape' : img.bodies = a ++ [x] ++ b := by rw [shape, append_assoc]; rfl
    have inside : behind a ≠ img.fileEnd := Nat.ne_of_lt (behind_lt_fileEnd serving.holds.finished shape)
    obtain ⟨stop₂, made₂, stepped⟩ := serving.prepared.reads (writes ++ made₁)
      (serving.prepared.increment_placed_ends e stop₁ chained shape)
    have more : b.length < fuel := Nat.lt_of_succ_lt_succ enough
    obtain ⟨fuel, rfl⟩ := Nat.exists_eq_add_one.mpr (Nat.zero_lt_of_lt more)
    obtain ⟨stop₃, made₃, again⟩ := serving.prepared.prepared.reads (writes ++ made₁ ++ made₂)
      (serving.prepared.prepared.readEnd_ends e stop₂)
    obtain ⟨c, rest⟩ := ih stop₂ _ serving.prepared.prepared shape' fuel more stop₃ made₃ again
    refine ⟨c, ?_⟩
    rw [fileorderFrom, bind_ok ended]
    refine (congrFun (congrFun (if_neg inside) _) _).trans ?_
    rw [bind_ok stepped, bind_ok rest, behind_append]
    rfl

end Serving

end

/-! What a call does to the records. -/

section

variable {a b : List (Bytes × Pointers)} {body : Bytes × Pointers} {data value : Bytes} {key : Nat}

theorem length_places (base : Nat) (bodies : List (Bytes × Pointers)) :
    (places base bodies).length = bodies.length := by
  induction bodies generalizing base with
  | nil => rfl
  | cons body rest ih => rw [places, length_cons, length_cons, ih]

theorem eq_nil_of_behind (same : behind (a ++ b) = behind a) : b = [] := by
  rw [behind_append] at same
  cases b with
  | nil => rfl
  | cons body b =>
    have positive := room_pos body
    rw [total_cons] at same
    omega

theorem Appended.bodies_eq (appended : Appended img data new) (finished : img.tail = [])
    (finished' : new.tail = []) :
    new.bodies = img.bodies ++ [(data, ⟨img.limits.next,
      behind img.bodies + calculateDataSize data.length⟩)] := by
  obtain ⟨grown, more, bodies⟩ := appended
  rw [fileEnd_eq_behind finished, fileEnd_eq_behind finished', bodies, behind_append] at grown
  -- The file has grown by the room of one record, so nothing else was appended.
  have empty : more = [] := eq_nil_of_behind (a := img.bodies) (Nat.add_right_cancel grown)
  rw [bodies, empty, append_nil, fileEnd_eq_behind finished]

theorem Retired.bodies_eq (retired : Retired img offset new) (finished : img.tail = [])
    (finished' : new.tail = []) :
    new.bodies = img.bodies := by
  obtain ⟨more, bodies⟩ := retired.bodies
  have unmoved := retired.unmoved
  rw [fileEnd_eq_behind finished, fileEnd_eq_behind finished', bodies] at unmoved
  rw [bodies, eq_nil_of_behind unmoved, append_nil]

theorem Image.Chained.append (chained : img.Chained) (shape : new.bodies = img.bodies ++ [body])
    (next : body.2.next = behind img.bodies + room body) : new.Chained := by
  intro a x b split
  rw [shape] at split
  rcases eq_nil_or_concat b with rfl | ⟨b, last, rfl⟩
  · obtain ⟨rfl, same⟩ := append_inj' split rfl
    cases same
    exact next
  · rw [concat_eq_append, ← cons_append, ← append_assoc] at split
    exact chained a x b (append_inj' split rfl).1

theorem lastKey_insertAt (nodup : (keys l).Nodup) (fresh : key ∉ keys l) :
    lastKey (insertAt offset (key, value) l) 0 = key ↔ offset ∉ keys l := by
  by_cases member : offset ∈ keys l
  · obtain ⟨a, w, b, rfl⟩ := exists_split member
    have outside : offset ∉ keys a := by
      rw [keys_append, nodup_append] at nodup
      exact fun inside => nodup.2.2 _ inside _ (by simp) rfl
    rw [insertAt_of_mem outside, lastKey_append]
    refine iff_of_false (fun same => fresh ?_) (not_not_intro member)
    rw [← same, keys_append]
    exact mem_append_right _ (lastKey_mem key (l := (offset, w) :: b) (by simp))
  · rw [insertAt_of_not_mem member, lastKey_append]
    exact iff_of_true rfl member

theorem lastKey_removeAt (nodup : (keys l).Nodup) (member : offset ∈ keys l)
    (more : removeAt offset l ≠ []) :
    lastKey (removeAt offset l) 0 = lastKey l 0 ↔ offset ≠ lastKey l 0 := by
  obtain ⟨a, w, b, rfl⟩ := exists_split member
  rw [removeAt_of_nodup nodup] at more ⊢
  rw [keys_append, keys_cons, nodup_append, nodup_cons] at nodup
  by_cases last : b = []
  · subst last
    rw [append_nil] at more ⊢
    rw [lastKey_append]
    refine iff_of_false (fun same => ?_) (not_not_intro rfl)
    exact nodup.2.2 _ (lastKey_mem 0 more) offset (by simp) same
  · rw [lastKey_append, lastKey_append]
    have inside : lastKey b offset ∈ keys b := lastKey_mem offset last
    exact iff_of_true (lastKey_of_ne_nil last _) fun same => nodup.2.1.1
      (same.symm ▸ inside : offset ∈ keys b)

end

namespace Moment

variable {m t : Moment} {a : Env × Call}

structure Traced (m : Moment) (img : Image) : Prop where
  object : ∃ k pos writes, m.object = Snapshot.at ⟨k, img⟩ pos writes ∧ Serving k img m.list
  appended : m.appended = places headerSize img.bodies
  chained : img.Chained

def Sound (m : Moment) : Prop := ∃ img, m.Traced img

theorem Traced.visitsAll (traced : m.Traced img) : m.VisitsAll := by
  obtain ⟨⟨k, pos, writes, object, serving⟩, appended, chained⟩ := traced
  refine ⟨appended ▸ places_sorted _ _, fun e enough => ?_⟩
  rw [appended, length_places] at enough
  obtain ⟨stop, made, got⟩ := serving.reads writes (serving.getFileorderIterator_ends (a := []) e pos rfl)
  obtain ⟨c, run⟩ := serving.prepared.fileorderFrom_run (a := []) (e := e) e.fuel stop
    (writes ++ made) chained rfl enough
  refine ⟨c, ?_⟩
  have start : behind [] = headerSize := rfl
  rw [start] at got run
  rw [appended, object, fileorderWalk, bind_ok got, bind_ok (show ask e _ = .ok e _ from rfl)]
  exact run

theorem Traced.stepsBack (traced : m.Traced img) (straight : img.Straight) : m.StepsBack := by
  obtain ⟨⟨k, pos, writes, object, serving⟩, appended, chained⟩ := traced
  intro offset member e
  rw [appended] at member
  obtain ⟨a, x, b, shape, rfl⟩ := mem_places member
  rw [object]
  refine ⟨img.placed a (x :: b), serving.stepAndBack_run e pos writes chained shape fun k pos
    serving => ?_⟩
  cases b with
  | nil =>
    obtain ⟨r, found, same⟩ := at?_of_bodies shape
    have last := straight.last a x shape
    rw [← last] at found
    have back := serving.decrement_end_ends e pos found
    rw [same, last] at back
    exact back
  | cons y b => exact serving.decrement_placed_ends e pos shape (straight.back a x y b shape)

/-- Where the last element is not the last record, the step back from behind the file goes astray.
-/
theorem Traced.not_stepsBack {front : List (Bytes × Pointers)} {x : Bytes × Pointers}
    (traced : m.Traced img)
    (shape : img.bodies = front ++ [x]) (other : img.limits.next ≠ behind front) : ¬ m.StepsBack := by
  obtain ⟨⟨k, pos, writes, object, serving⟩, appended, chained⟩ := traced
  intro all
  -- The list is not empty, for a file without a list has no records.
  have nonempty : m.list ≠ [] := fun lacking => by
    rw [bodies, serving.holds.bare lacking] at shape
    simp at shape
  obtain ⟨before, key, value, split⟩ := exists_last nonempty
  have next : img.limits.next = key := by
    rw [serving.holds.last, split, lastKey_append]
    rfl
  have linked := serving.holds.toLinked
  rw [split] at linked
  obtain ⟨r, found, -⟩ := linked.record
  rw [← next] at found
  have member : behind front ∈ m.appended := by
    rw [appended, shape, places_append]
    exact mem_append_right _ (mem_singleton.mpr rfl)
  obtain ⟨c, run⟩ := serving.stepAndBack_run (.still 0) pos writes chained shape
    fun k pos serving => serving.decrement_end_ends (.still 0) pos found
  obtain ⟨it, c', same⟩ := all _ member (.still 0)
  rw [object, run] at same
  have both := (Outcome.ok.inj same).1
  have place := congrArg FileIterator.current
      ((congrArg Prod.snd both).trans (congrArg Prod.fst both).symm)
  exact other place

/-- What a call leaves of the records, and whether the last element is then the last record. -/
inductive Change (m : Moment) (img : Image) (a : Env × Call) (new : Image) : Prop where
  | emptied (bodies : new.bodies = []) (tame : m.Tame a)
  | kept (nonempty : img.bodies ≠ []) (bodies : new.bodies = img.bodies)
      (last : new.limits.next = img.limits.next ↔ m.Tame a)
  | grown (data : Bytes) (next : Nat) (bodies : new.bodies = img.bodies ++
      [(data, ⟨img.limits.next, next⟩)])
      (last : new.limits.next = behind img.bodies ↔ m.Tame a)

theorem step_of_run {c : Container} (run : a.2.run a.1 m.object = .ok () c) :
    m.step a = some ⟨c, a.2.listing m.file m.list, m.recorded a.2⟩ := by
  rw [step, run]

theorem list_of_step (taken : m.step a = some t) : t.list = a.2.listing m.file m.list := by
  rw [step] at taken
  split at taken
  · cases taken
    rfl
  · cases taken

theorem Traced.length_file (traced : m.Traced img) : m.file.length = img.fileEnd := by
  obtain ⟨k, pos, writes, object, serving⟩ := traced.object
  rw [file, object]
  exact ready_length serving.fits

theorem Traced.add_step {data : Bytes} (traced : m.Traced img) (allowed : m.Allowed (e, .add data offset))
    (filled : data ≠ []) : ∃ t new, m.step (e, .add data offset) = Option.some t ∧ t.Traced new ∧
      Change m img (e, .add data offset) new ∧
        new.fileEnd = img.fileEnd + calculateDataSize data.length := by
  have length := traced.length_file
  obtain ⟨⟨k, pos, writes, object, serving⟩, appended, chained⟩ := traced
  obtain ⟨place, bound⟩ := allowed
  rw [length] at place bound
  obtain ⟨it, k', new, stop, made, run, here, served, appends⟩ := addData_appends pos writes
    serving.fits (serving.opens e false) filled place bound
  have bodies := appends.bodies_eq serving.holds.finished served.holds.finished
  have fileEnd := fileEnd_eq_behind serving.holds.finished
  rw [here] at served
  have added : (Call.add data offset).run e m.object = .ok () (Snapshot.at ⟨k', new⟩ stop made) := by
    rw [object]
    exact bind_ok run
  refine ⟨_, new, step_of_run added, ⟨⟨k', stop, made, rfl, ?_⟩, ?_,
    chained.append bodies rfl⟩, .grown data _ bodies ?_, appends.1⟩
  · exact (length.symm ▸ served : Serving k' new (insertAt offset (m.file.length, data) m.list))
  · rw [bodies, places_append, ← appended]
    exact congrArg (fun n => m.appended ++ [n]) (length.trans fileEnd)
  · have nonempty : insertAt offset (img.fileEnd, data) m.list ≠ [] :=
      ne_nil_of_length_pos (by rw [length_insertAt]; omega)
    rw [served.holds.last, lastKey_of_ne_nil nonempty 0, ← fileEnd]
    exact lastKey_insertAt serving.holds.nodup serving.holds.end_not_mem

theorem Traced.remove_step (traced : m.Traced img) (allowed : m.Allowed (e, .remove offset)) : ∃ t new,
    m.step (e, .remove offset) = some t ∧ t.Traced new ∧ Change m img (e, .remove offset) new := by
  obtain ⟨⟨k, pos, writes, object, serving⟩, appended, chained⟩ := traced
  have member : offset ∈ keys m.list := allowed
  have length := length_removeAt serving.holds.nodup member
  have opens : Opens Unchecked e false ⟨k, img⟩ ⟨k.prepared img false, img⟩ m.list :=
    serving.opens e false
  by_cases more : removeAt offset m.list = []
  -- The only element: the file is cut.
  · have only : m.list.length = 1 := by rw [← length, more]; rfl
    obtain ⟨⟨key, value⟩, single⟩ := length_eq_one_iff.mp only
    rw [single] at opens member
    obtain rfl : offset = key := by simpa using member
    obtain ⟨k', new, stop, made, run, served⟩ := removeData_only pos writes serving.fits opens
    have bodies : new.bodies = [] := by rw [bodies, served.holds.bare rfl]; rfl
    rw [← object] at run
    refine ⟨_, new, step_of_run (a := (e, .remove offset)) run, ⟨⟨k', stop, made, rfl, ?_⟩, ?_,
      .of_nil bodies⟩, .emptied bodies (.inl only)⟩
    · exact (more.symm ▸ served : Serving k' new (removeAt offset m.list))
    · rw [bodies]
      exact if_pos more
  · have several : 2 ≤ m.list.length := by
      have positive := length_pos_iff.mpr more
      omega
    obtain ⟨k', new, stop, made, run, served, retired⟩ :=
      removeData_retires pos writes serving.fits opens several member
    have bodies := retired.bodies_eq serving.holds.finished served.holds.finished
    have filled : img.bodies ≠ [] := by
      obtain ⟨r, s, found, -⟩ := retired.found
      exact fun empty => ne_nil_of_mem (mem_records found) (map_eq_nil_iff.mp empty)
    rw [← object] at run
    refine ⟨_, new, step_of_run (a := (e, .remove offset)) run, ⟨⟨k', stop, made, rfl, served⟩, ?_, ?_⟩,
      .kept filled bodies ?_⟩
    · rw [bodies, ← appended]
      exact if_neg more
    · intro a x b split
      exact chained a x b (bodies ▸ split)
    · have nonempty : m.list ≠ [] := ne_nil_of_length_pos (by omega)
      rw [served.holds.last, serving.holds.last, lastKey_of_ne_nil more 0, lastKey_of_ne_nil nonempty 0,
        lastKey_removeAt serving.holds.nodup member more]
      exact ⟨.inr, fun tame => tame.resolve_left (by omega)⟩

theorem Traced.add_nothing_step (traced : m.Traced img) (allowed : m.Allowed (e, .add [] offset)) :
    m.step (e, .add [] offset) = none := by
  have length := traced.length_file
  obtain ⟨⟨k, pos, writes, object, serving⟩, -, -⟩ := traced
  obtain ⟨place, -⟩ := allowed
  rw [length] at place
  obtain ⟨code, c, failed⟩ : ∃ code c, (Call.add [] offset).run e m.object = .error code c := by
    rw [object]
    by_cases empty : m.list = []
    · rw [empty] at serving place
      obtain rfl : offset = img.fileEnd := place.resolve_right (by simp)
      obtain ⟨code, c, failed, -⟩ := add_nothing_to_nothing_fails serving
      exact ⟨code, c, failed⟩
    · obtain ⟨code, c, failed, -⟩ := add_nothing_fails serving empty place
      exact ⟨code, c, failed⟩
  rw [step, failed]

theorem Traced.step_change (traced : m.Traced img) (allowed : m.Allowed a) (taken : m.step a = some t) :
    ∃ new, t.Traced new ∧ Change m img a new := by
  obtain ⟨e, ⟨data, offset⟩ | offset⟩ := a
  · by_cases empty : data = []
    · subst empty
      rw [traced.add_nothing_step allowed] at taken
      cases taken
    · obtain ⟨u, new, same, traced, change, -⟩ := traced.add_step allowed empty
      cases same.symm.trans taken
      exact ⟨new, traced, change⟩
  · obtain ⟨u, new, same, result⟩ := traced.remove_step allowed
    cases same.symm.trans taken
    exact ⟨new, result⟩

/-- A step keeps the two orders together exactly if it is tame. -/
theorem Change.decides (change : Change m img a new) (traced : t.Traced new) (straight : img.Straight) :
    new.Straight ∧ m.Tame a ∨ ¬ t.StepsBack ∧ ¬ m.Tame a := by
  cases change with
  | emptied bodies tame => exact .inl ⟨.of_nil bodies, tame⟩
  | kept nonempty bodies last =>
    by_cases tame : m.Tame a
    · refine .inl ⟨⟨fun a x y b split => straight.back a x y b (bodies ▸ split),
        fun a x split => ?_⟩, tame⟩
      rw [last.mpr tame]
      exact straight.last a x (bodies ▸ split)
    · obtain ⟨front, x, split⟩ := eq_nil_or_concat _ |>.resolve_left nonempty
      rw [concat_eq_append] at split
      refine .inr ⟨traced.not_stepsBack (bodies.trans split) fun same => tame (last.mp ?_), tame⟩
      rw [same, straight.last front x split]
  | grown data next bodies last =>
    by_cases tame : m.Tame a
    · refine .inl ⟨⟨fun a x y b split => ?_, fun a x split => ?_⟩, tame⟩
      -- The new record points back to the last element, which was the last record until now.
      · rw [bodies] at split
        rcases eq_nil_or_concat b with rfl | ⟨b, z, rfl⟩
        · have joined : img.bodies ++ [(data, ⟨img.limits.next, next⟩)] = (a ++ [x]) ++ [y] := by
            simp [split]
          obtain ⟨front, same⟩ := append_inj' joined rfl
          cases same
          exact straight.last a x front
        · have joined : img.bodies ++ [(data, ⟨img.limits.next, next⟩)] = (a ++ x :: y :: b) ++
              [z] := by simp [split]
          exact straight.back a x y b (append_inj' joined rfl).1
      · rw [bodies] at split
        rw [last.mpr tame, (append_inj' split rfl).1]
    · exact .inr ⟨traced.not_stepsBack bodies fun same => tame (last.mp same), tame⟩

end Moment

/-! Whole runs. -/

section

variable {c : Container} {calls : List (Env × Call)} {t : Moment}

theorem traced_start (ready : Ready c []) : ∃ img, Moment.Traced ⟨c, [], []⟩ img ∧ img.Straight := by
  obtain ⟨k, img, pos, writes, rfl, serving⟩ := ready.serving
  have bodies : img.bodies = [] := by rw [bodies, serving.holds.bare rfl]; rfl
  exact ⟨img, ⟨⟨k, pos, writes, rfl, serving⟩, by rw [bodies]; rfl, .of_nil bodies⟩, .of_nil bodies⟩

/-- The walk in file order meets every record, whatever the calls were. -/
theorem fileorder_visits (ready : Ready c [])
    (done : execute Moment.step Moment.Allowed ⟨c, [], []⟩ calls = some t) : t.VisitsAll := by
  have run : Runs Moment.step ⟨c, [], []⟩ Moment.Allowed t := Runs.start.execute done
  have initial : Moment.Sound ⟨c, [], []⟩ := by
    obtain ⟨img, traced, -⟩ := traced_start ready
    exact ⟨img, traced⟩
  obtain ⟨img, traced⟩ : t.Sound := by
    refine run.invariant initial fun m a u sound allowed taken => ?_
    obtain ⟨img, traced⟩ := sound
    obtain ⟨new, traced, -⟩ := traced.step_change allowed taken
    exact ⟨new, traced⟩
  exact traced.visitsAll

/-- The two orders agree about the last record as long as every call is tame. -/
theorem fileorder_inverse_iff (ready : Ready c [])
    (done : execute Moment.step Moment.Allowed ⟨c, [], []⟩ calls = some t) :
    (∀ before u, before <+: calls → execute Moment.step Moment.Allowed ⟨c, [], []⟩ before = some u →
      u.VisitsAll ∧ u.StepsBack) ↔ ∀ before a after u, calls = before ++ a :: after →
      execute Moment.step Moment.Allowed ⟨c, [], []⟩ before = some u → u.Tame a := by
  have implied (m : Moment) (sound : ∃ img, m.Traced img ∧ img.Straight) : m.StepsBack := by
    obtain ⟨img, traced, straight⟩ := sound
    exact traced.stepsBack straight
  have decided (m : Moment) (a : Env × Call) (u : Moment) (sound : ∃ img, m.Traced img ∧ img.Straight)
      (allowed : m.Allowed a) (taken : m.step a = some u) :
      (∃ img, u.Traced img ∧ img.Straight) ∧ m.Tame a ∨ ¬ u.StepsBack ∧ ¬ m.Tame a := by
    obtain ⟨img, traced, straight⟩ := sound
    obtain ⟨new, traced', change⟩ := traced.step_change allowed taken
    exact (change.decides traced' straight).imp_left fun both => ⟨⟨new, traced', both.1⟩, both.2⟩
  rw [← execute_holds_iff implied decided (traced_start ready) done]
  constructor
  · intro all before u part reached
    exact (all before u part reached).2
  · intro all before u part reached
    exact ⟨fileorder_visits ready reached, all before u part reached⟩

end

def addFirst (value : Char) : Env × Call := (.still 2, .add [value] headerSize)

theorem empty_ready : Ready Container.empty [] :=
  ready_openFile ⟨0, 0⟩ ⟨_, rfl, empty_serving.fits, rfl, empty_serving.holds⟩

theorem length_empty : Container.empty.stream.file.length = headerSize :=
  (length_encode empty_serving.fits).trans empty_serving.holds.fileEnd_of_nil

theorem addFirst_allowed : Moment.Allowed ⟨Container.empty, [], []⟩ (addFirst 'a') := by
  refine ⟨.inl length_empty.symm, ?_⟩
  rw [Moment.file, length_empty]
  decide

/-- A record that is added behind the others. -/
theorem fileorder_inverse_one : ∃ t, execute Moment.step Moment.Allowed ⟨Container.empty, [], []⟩
    [addFirst 'a'] = some t ∧
    ∀ before u, before <+: [addFirst 'a'] →
      execute Moment.step Moment.Allowed ⟨Container.empty, [], []⟩ before = some u → u.VisitsAll ∧
        u.StepsBack := by
  obtain ⟨img, traced, -⟩ := traced_start empty_ready
  obtain ⟨t, new, taken, -⟩ := traced.add_step addFirst_allowed (by simp)
  have done : execute Moment.step Moment.Allowed ⟨Container.empty, [], []⟩ [addFirst 'a'] = some t :=
    execute_cons addFirst_allowed taken []
  refine ⟨t, done, (fileorder_inverse_iff empty_ready done).mpr fun before a after u split reached => ?_⟩
  cases before with
  | nil =>
    cases split
    cases reached
    exact not_mem_nil
  | cons first rest =>
    have longer := congrArg List.length split
    simp at longer

/-- The second record is put before the first: the decrement from the end of the file leads to the
first record, which is now the last element. -/
theorem fileorder_astray : ∃ t, execute Moment.step Moment.Allowed ⟨Container.empty, [], []⟩
    [addFirst 'a', addFirst 'b'] = some t ∧ ¬ t.StepsBack := by
  obtain ⟨img, traced, straight⟩ := traced_start empty_ready
  obtain ⟨m, mid, taken, traced', change, grown⟩ := traced.add_step addFirst_allowed (by simp)
  obtain ⟨straight', -⟩ := (change.decides traced' straight).resolve_right fun wild => wild.2 not_mem_nil
  have list : m.list = [(headerSize, ['a'])] := by
    rw [Moment.list_of_step taken]
    exact congrArg (fun n => [(n, ['a'])]) length_empty
  have member : headerSize ∈ keys m.list := by rw [list]; simp
  have allowed : m.Allowed (addFirst 'b') := by
    refine ⟨.inr member, ?_⟩
    rw [traced'.length_file, grown, ← traced.length_file, Moment.file, length_empty]
    decide
  obtain ⟨t, new, taken', traced'', change', -⟩ := traced'.add_step allowed (by simp)
  refine ⟨t, ?_, ((change'.decides traced'' straight').resolve_left fun tame => tame.2 member).1⟩
  exact (execute_cons addFirst_allowed taken _).trans (execute_cons allowed taken' [])

/-! The iterators in the order of the list. -/

section

variable {a b : Listing} {x : Nat × Bytes}

/-- The iterator between two parts of a list. -/
def cursor (fileEnd : Nat) (a : Listing) : Listing → FileIterator
  | [] => ⟨0, 0, fileEnd⟩
  | x :: b => ⟨lastKey a 0, headKey b fileEnd, x.1⟩

theorem readIterator_cursor_ends (linked : img.Linked (a ++ x :: b)) :
    Ends crash (readIterator x.1 false) e ⟨k, img⟩ pos
      (.ok (cursor img.fileEnd a (x :: b))) ⟨k, img⟩ (x.1 + 34) := by
  obtain ⟨r, found, -, list, -⟩ := linked.record
  have read : Ends crash (readIterator x.1 false) e ⟨k, img⟩ pos _ _ _ := readIterator_ends found
  rwa [list] at read

theorem step_cursor_ends (e : Env) (pos : Nat) (serving : Serving k img (a ++ x :: b)) :
    (∃ stop, Ends Unchecked (incrementIterator (cursor img.fileEnd a (x :: b))) e ⟨k, img⟩ pos
      (.ok (cursor img.fileEnd (a ++ [x]) b)) ⟨k.prepared img true, img⟩ stop) ∧
    ∃ stop, Ends Unchecked (decrementIterator (cursor img.fileEnd (a ++ [x]) b)) e ⟨k, img⟩ pos
      (.ok (cursor img.fileEnd a (x :: b))) ⟨k.prepared img true, img⟩ stop := by
  have linked := serving.holds.toLinked
  have inside : x.1 ≠ 0 := (linked.key_ne (by simp [keys])).1
  obtain ⟨modified, mid, prepared⟩ := (serving.opens e true).run pos
  cases b with
  | nil =>
    have last : (k.prepared img true).limits.next = x.1 := by
      have limits := congrArg Pointers.next (serving.coherent.prepared true).2.1
      exact limits.trans (linked.last.trans lastKey_append)
    refine ⟨serving.incrementWith_ends false e _ _ pos inside fun mid => ⟨mid, .on_true rfl (.pure _)⟩,
      x.1 + 34, .bind prepared (.bind .cache (.bind getEnd_ends (.on_true rfl ?_)))⟩
    rw [last]
    exact readIterator_cursor_ends linked
  | cons y b =>
    have linked' : img.Linked (a ++ [x] ++ y :: b) := by rwa [append_assoc]
    have apart : y.1 ≠ img.fileEnd := (linked.key_ne (by simp [keys])).2
    have prev : lastKey (a ++ [x]) 0 = x.1 := lastKey_append
    have other : lastKey (a ++ [x]) 0 ≠ 0 := prev ▸ inside
    have here (pos : Nat) : Ends Unchecked
        (readIterator x.1 false) e ⟨k.prepared img true, img⟩ pos _ _ _ :=
      readIterator_cursor_ends linked
    refine ⟨serving.incrementWith_ends false e _ _ pos inside fun mid => ⟨y.1 + 34,
      .on_false apart (.bind (here _) (readIterator_cursor_ends linked'))⟩, x.1 + 34,
      .bind prepared (.bind .cache (.bind getEnd_ends (.on_false apart (.on_false other
        (.bind (readIterator_cursor_ends linked') ?_)))))⟩
    exact prev.symm ▸ here _

/-- A step of the iterator leads over the element, and a step back leads back. -/
def StepsOver (c : Container) (a : Listing) (x : Nat × Bytes) (b : Listing) : Prop :=
  ∀ e, Answers (incrementIterator (cursor c.stream.file.length a (x :: b))) e c
      (cursor c.stream.file.length (a ++ [x]) b) ∧
    Answers (decrementIterator (cursor c.stream.file.length (a ++ [x]) b)) e c
      (cursor c.stream.file.length a (x :: b))

/-- In the order of the list the two steps undo each other at every element,
whatever the calls before were. -/
theorem iterators_step_over {c : Container} (ready : Ready c (a ++ x :: b)) : StepsOver c a x b := by
  intro e
  obtain ⟨k, img, pos, writes, rfl, serving⟩ := ready.serving
  obtain ⟨⟨_, forward⟩, _, back⟩ := step_cursor_ends e pos serving
  rw [ready_length serving.fits]
  exact ⟨.of_ends serving.fits forward, .of_ends serving.fits back⟩

end

theorem single_stepped_over : StepsOver (Container.single ['a']) [] (headerSize, ['a']) [] :=
  iterators_step_over single_ready

end Wms.FileContainer
