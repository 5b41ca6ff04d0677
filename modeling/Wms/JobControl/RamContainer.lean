import Wms.JobControl.IdIndexes

/-! The correspondence between job identifiers and clusters kept in memory (`ram_container.cpp`).

Two sorted vectors of iterators give access to a list of pairs. An iterator to a pair that has
been erased is no longer valid: what is read through it is a parameter, and erasing it again has
no defined result.
-/

set_option autoImplicit false

namespace Wms.JobControl

open Lib SortedVector List

structure Pair where
  condorId : String
  edgId : String
  deriving DecidableEq, Repr

structure RamContainer where
  inserted : Int
  pointers : Arena Pair
  edgs : List (String × Nat)
  condors : List (String × Nat)

namespace RamContainer

/-- One turn of the loop of `internalCopy`: the same pointer is reset for every record. -/
def copyRecord (s : Pair × RamContainer) (r : Record) : Pair × RamContainer :=
  let current : Pair := ⟨r.condorId.getD s.1.condorId, r.edgId.getD s.1.edgId⟩
  (current, { s.2 with
    pointers := s.2.pointers.pushBack current
    condors := s.2.condors ++ [(current.condorId, s.2.pointers.next)]
    edgs := s.2.edgs ++ [(current.edgId, s.2.pointers.next)] })

def internalCopy (c : RamContainer) (records : List Record) : RamContainer :=
  let filled := (records.foldl copyRecord (⟨"", ""⟩, c)).2
  { filled with condors := sort filled.condors, edgs := sort filled.edgs }

/-- `RamContainer( ic )`; without records it is `RamContainer()`. -/
def construct (records : List Record) : RamContainer := internalCopy ⟨0, .empty, [], []⟩ records

section Lookup

variable (stale : Nat → Pair) (c : RamContainer)

/-- What an iterator shows; `stale` is left where a pair was. -/
def read (ref : Nat) : Pair := (c.pointers.get? ref).getD (stale ref)

/-- `condor_id`, where nothing is the empty string of an identifier that is not there. -/
def condorId (edgId : String) : Option String :=
  (find edgId c.edgs).map fun ref => (c.read stale ref).condorId

def edgId (condorId : String) : Option String :=
  (find condorId c.condors).map fun ref => (c.read stale ref).edgId

end Lookup

/-- Erasing through an iterator that is not valid is not defined. -/
def erasePointer (c : RamContainer) (ref : Nat) : Option RamContainer :=
  if (c.pointers.get? ref).isSome then some { c with pointers := c.pointers.erase ref } else none

/-- The loop of `insert`: it ends with both identifiers found, or with neither. Each other turn
erases one entry. -/
def insertLoop : Nat → RamContainer → String → String → Option (RamContainer × Bool)
  | 0, _, _, _ => none
  | turns + 1, c, edgId, condorId =>
    match find edgId c.edgs, find condorId c.condors with
    | some _, some _ => some (c, true)
    | some ref, none =>
      (c.erasePointer ref).bind fun d =>
        insertLoop turns { d with edgs := erase edgId d.edgs } edgId condorId
    | none, some ref =>
      (c.erasePointer ref).bind fun d =>
        insertLoop turns { d with condors := erase condorId d.condors } edgId condorId
    | none, none => some (c, false)

def added (c : RamContainer) (edgId condorId : String) : RamContainer where
  pointers := c.pointers.pushBack ⟨condorId, edgId⟩
  condors := insert condorId c.pointers.next c.condors
  edgs := insert edgId c.pointers.next c.edgs
  inserted := c.inserted + 1

def insert (c : RamContainer) (edgId condorId : String) : Option RamContainer :=
  (insertLoop (c.edgs.length + c.condors.length + 1) c edgId condorId).map fun (d, both) =>
    if both then d else d.added edgId condorId

def removeByCondorId (stale : Nat → Pair) (c : RamContainer) (condorId : String) :
    Option (RamContainer × Bool) :=
  match find condorId c.condors with
  | none => some (c, true)
  | some entry =>
    let edgId := (c.read stale entry).edgId
    match find edgId c.edgs with
    | none => some (c, true)
    | some ref =>
      (c.erasePointer ref).map fun d =>
        ({ d with
            edgs := erase edgId d.edgs
            condors := erase condorId d.condors
            inserted := d.inserted - 1 }, false)

/-! ### The loop ends -/

theorem length_erase {k : String} {ref : Nat} {l : List (String × Nat)} (found : find k l = some ref) :
    (erase k l).length + 1 = l.length := by
  rw [(perm_erase found).length_eq, length_cons]

/-! ### Consistent containers -/

structure Consistent (c : RamContainer) : Prop where
  edgs : Indexes Pair.edgId c.edgs c.pointers
  condors : Indexes Pair.condorId c.condors c.pointers

section Consistent

variable {stale : Nat → Pair} {c d : RamContainer} {e i : String} {ref : Nat} {p : Pair}

theorem Consistent.condorId_iff (consistent : c.Consistent) :
    c.condorId stale e = some i ↔ ∃ ref, c.pointers.get? ref = some ⟨i, e⟩ := by
  unfold RamContainer.condorId
  rw [Option.map_eq_some_iff]
  constructor
  · rintro ⟨ref, found, rfl⟩
    obtain ⟨p, got, rfl⟩ := consistent.edgs.find_iff.mp found
    exact ⟨ref, by simp [read, got]⟩
  · rintro ⟨ref, got⟩
    exact ⟨ref, consistent.edgs.find_iff.mpr ⟨_, got, rfl⟩, by simp [read, got]⟩

theorem Consistent.edgId_iff (consistent : c.Consistent) :
    c.edgId stale i = some e ↔ ∃ ref, c.pointers.get? ref = some ⟨i, e⟩ := by
  unfold RamContainer.edgId
  rw [Option.map_eq_some_iff]
  constructor
  · rintro ⟨ref, found, rfl⟩
    obtain ⟨p, got, rfl⟩ := consistent.condors.find_iff.mp found
    exact ⟨ref, by simp [read, got]⟩
  · rintro ⟨ref, got⟩
    exact ⟨ref, consistent.condors.find_iff.mpr ⟨_, got, rfl⟩, by simp [read, got]⟩

theorem Consistent.added (consistent : c.Consistent) (edg : find e c.edgs = none)
    (condor : find i c.condors = none) : (c.added e i).Consistent :=
  ⟨consistent.edgs.insert ⟨i, e⟩ edg, consistent.condors.insert ⟨i, e⟩ condor⟩

theorem get?_added : (c.added e i).pointers.get? c.pointers.next = some ⟨i, e⟩ :=
  Arena.get?_pushBack_iff.mpr (.inr ⟨rfl, rfl⟩)

theorem erasePointer_eq (got : c.pointers.get? ref = some p) :
    c.erasePointer ref = some { c with pointers := c.pointers.erase ref } := by
  simp [erasePointer, got]

theorem Consistent.removeByCondorId (consistent : c.Consistent) (stale : Nat → Pair) (i : String) :
    ∃ d error, c.removeByCondorId stale i = some (d, error) ∧ d.Consistent := by
  unfold RamContainer.removeByCondorId
  cases found : find i c.condors with
  | none => exact ⟨c, true, rfl, consistent⟩
  | some ref =>
    obtain ⟨p, got, rfl⟩ := consistent.condors.find_iff.mp found
    have shown : c.read stale ref = p := by simp [read, got]
    simp only [shown, consistent.edgs.find got, erasePointer_eq got, Option.map_some]
    exact ⟨_, false, rfl, consistent.edgs.erase got, consistent.condors.erase got⟩

/-! ### Inserting -/

theorem insert_fresh (edg : find e c.edgs = none) (condor : find i c.condors = none) :
    c.insert e i = some (c.added e i) := by
  simp [insert, insertLoop, edg, condor]

theorem insert_both {ref' : Nat} (edg : find e c.edgs = some ref)
    (condor : find i c.condors = some ref') : c.insert e i = some c := by
  simp [insert, insertLoop, edg, condor]

def withoutEdg (c : RamContainer) (e : String) (ref : Nat) : RamContainer :=
  { c with pointers := c.pointers.erase ref, edgs := erase e c.edgs }

def withoutCondor (c : RamContainer) (i : String) (ref : Nat) : RamContainer :=
  { c with pointers := c.pointers.erase ref, condors := erase i c.condors }

theorem two_turns {n m : Nat} (positive : 1 ≤ n) : n + m + 1 = (n + m - 1) + 1 + 1 := by omega

theorem Consistent.insert_edg (consistent : c.Consistent) (got : c.pointers.get? ref = some p)
    (condor : find i c.condors = none) : c.insert p.edgId i = some
      ((c.withoutEdg p.edgId ref).added p.edgId i) := by
  have edg := consistent.edgs.find got
  have turns := length_erase edg
  have gone := consistent.edgs.find_erased got
  unfold RamContainer.insert
  rw [two_turns (by omega), insertLoop]
  simp only [edg, condor, erasePointer_eq got, Option.bind_some]
  rw [insertLoop]
  simp only [gone, condor, Option.map_some]
  rfl

theorem Consistent.insert_condor (consistent : c.Consistent) (got : c.pointers.get? ref = some p)
    (edg : find e c.edgs = none) :
    c.insert e p.condorId = some ((c.withoutCondor p.condorId ref).added e p.condorId) := by
  have condor := consistent.condors.find got
  have turns := length_erase condor
  have gone := consistent.condors.find_erased got
  unfold RamContainer.insert
  rw [Nat.add_comm c.edgs.length, two_turns (by omega), insertLoop]
  simp only [edg, condor, erasePointer_eq got, Option.bind_some]
  rw [insertLoop]
  simp only [edg, gone, Option.map_some]
  rfl

end Consistent

/-! ### What goes wrong -/

/-- The two lookups describe one relation. -/
def Bijective (stale : Nat → Pair) (c : RamContainer) : Prop :=
  ∀ e i, c.condorId stale e = some i ↔ c.edgId stale i = some e

section Bijective

variable {stale : Nat → Pair} {c : RamContainer} {e i : String} {ref : Nat} {p : Pair}

theorem Consistent.bijective (consistent : c.Consistent) : c.Bijective stale :=
  fun _ _ => consistent.condorId_iff.trans consistent.edgId_iff.symm

theorem Consistent.not_bijective_edg (consistent : c.Consistent) (got : c.pointers.get? ref = some p)
    (condor : find i c.condors = none) :
    ¬((c.withoutEdg p.edgId ref).added p.edgId i).Bijective stale := by
  let q : Pair := ⟨i, p.edgId⟩
  have fresh : find q.condorId c.condors = none := condor
  obtain ⟨entry, gone, absent⟩ := consistent.condors.dangling got fresh
  intro bijective
  have shown : ((c.withoutEdg p.edgId ref).added p.edgId i).edgId stale p.condorId = some
      (stale ref).edgId :=
    Option.map_eq_some_iff.mpr ⟨ref, entry,
      congrArg Pair.edgId (congrArg (Option.getD · (stale ref)) gone)⟩
  obtain ⟨other, found, same⟩ := Option.map_eq_some_iff.mp ((bijective _ _).mpr shown)
  have erased := consistent.edgs.find_erased got
  have edgs : Indexes Pair.edgId ((c.withoutEdg p.edgId ref).added p.edgId i).edgs
      ((c.withoutEdg p.edgId ref).added p.edgId i).pointers :=
    (consistent.edgs.erase got).insert q erased
  obtain ⟨more, there, _⟩ := edgs.find_iff.mp found
  rw [read, there] at same
  exact absent other more there same

theorem Consistent.not_bijective_condor (consistent : c.Consistent) (got : c.pointers.get? ref = some p)
    (edg : find e c.edgs = none) : ¬((c.withoutCondor p.condorId ref).added e p.condorId).Bijective
      stale := by
  let q : Pair := ⟨p.condorId, e⟩
  have fresh : find q.edgId c.edgs = none := edg
  obtain ⟨entry, gone, absent⟩ := consistent.edgs.dangling got fresh
  intro bijective
  have shown : ((c.withoutCondor p.condorId ref).added e p.condorId).condorId stale p.edgId =
      some (stale ref).condorId :=
    Option.map_eq_some_iff.mpr ⟨ref, entry,
      congrArg Pair.condorId (congrArg (Option.getD · (stale ref)) gone)⟩
  obtain ⟨other, found, same⟩ := Option.map_eq_some_iff.mp ((bijective _ _).mp shown)
  have erased := consistent.condors.find_erased got
  have condors : Indexes Pair.condorId ((c.withoutCondor p.condorId ref).added e p.condorId).condors
      ((c.withoutCondor p.condorId ref).added e p.condorId).pointers :=
    (consistent.condors.erase got).insert q erased
  obtain ⟨more, there, _⟩ := condors.find_iff.mp found
  rw [read, there] at same
  exact absent other more there same

end Bijective

/-! ### Runs -/

inductive Action where
  | insert (edgId condorId : String)
  | removeByCondorId (condorId : String)
  deriving DecidableEq

/-- Nothing where the operation has no defined result. -/
def step (stale : Nat → Pair) (c : RamContainer) : Action → Option RamContainer
  | .insert edgId condorId => c.insert edgId condorId
  | .removeByCondorId condorId => (c.removeByCondorId stale condorId).map Prod.fst

/-- Neither identifier is in use, or both already belong together. -/
def Unmixed (c : RamContainer) : Action → Prop
  | .insert edgId condorId =>
    (∀ p ∈ c.pointers.values, p.edgId ≠ edgId ∧ p.condorId ≠ condorId) ∨
      ⟨condorId, edgId⟩ ∈ c.pointers.values
  | .removeByCondorId _ => True

instance (c : RamContainer) (a : Action) : Decidable (c.Unmixed a) := by
  cases a <;> unfold Unmixed <;> infer_instance

/-- The lookups are inverse, and a pair that has been inserted is found both ways. -/
def Correct (stale : Nat → Pair) (c : RamContainer) (a : Action) : Prop :=
  c.Bijective stale ∧
    match a with
    | .insert edgId condorId => c.condorId stale edgId = some condorId ∧
        c.edgId stale condorId = some edgId
    | .removeByCondorId _ => True

section Runs

variable {stale : Nat → Pair} {c : RamContainer} {e i : String}

theorem mem_values_iff {p : Pair} : p ∈ c.pointers.values ↔ ∃ ref, c.pointers.get? ref = some p := by
  simp [Arena.values, Arena.get?_eq_some_iff]

theorem Consistent.correct_insert (consistent : c.Consistent)
    (held : ∃ ref, c.pointers.get? ref = some ⟨i, e⟩) :
    c.Correct stale (.insert e i) :=
  ⟨consistent.bijective, consistent.condorId_iff.mpr held, consistent.edgId_iff.mpr held⟩

/-- Each of the overlaps of the source: an insertion comes out right exactly if
it does not mix pairs. -/
theorem Consistent.insert_iff (consistent : c.Consistent) (e i : String) :
    (∃ d, c.insert e i = some d ∧ d.Correct stale (.insert e i)) ↔ c.Unmixed (.insert e i) := by
  cases edg : find e c.edgs with
  | none =>
    have noEdg := consistent.edgs.find_eq_none_iff.mp edg
    cases condor : find i c.condors with
    | none =>
      have noCondor := consistent.condors.find_eq_none_iff.mp condor
      refine iff_of_true ⟨_, insert_fresh edg condor, ?_⟩ (.inl ?_)
      · exact (consistent.added edg condor).correct_insert ⟨_, get?_added⟩
      · intro p member
        obtain ⟨ref, got⟩ := mem_values_iff.mp member
        exact ⟨noEdg ref p got, noCondor ref p got⟩
    | some ref =>
      obtain ⟨p, got, rfl⟩ := consistent.condors.find_iff.mp condor
      refine iff_of_false ?_ ?_
      · rintro ⟨d, done, correct⟩
        cases (consistent.insert_condor got edg).symm.trans done
        exact consistent.not_bijective_condor got edg correct.1
      · rintro (fresh | held)
        · exact (fresh p (mem_values_iff.mpr ⟨ref, got⟩)).2 rfl
        · obtain ⟨other, there⟩ := mem_values_iff.mp held
          exact noEdg other _ there rfl
  | some ref =>
    obtain ⟨p, got, rfl⟩ := consistent.edgs.find_iff.mp edg
    cases condor : find i c.condors with
    | none =>
      have noCondor := consistent.condors.find_eq_none_iff.mp condor
      refine iff_of_false ?_ ?_
      · rintro ⟨d, done, correct⟩
        cases (consistent.insert_edg got condor).symm.trans done
        exact consistent.not_bijective_edg got condor correct.1
      · rintro (fresh | held)
        · exact (fresh p (mem_values_iff.mpr ⟨ref, got⟩)).1 rfl
        · obtain ⟨other, there⟩ := mem_values_iff.mp held
          exact noCondor other _ there rfl
    | some ref' =>
      -- nothing is inserted: right only if this pair was there
      have unchanged := insert_both edg condor
      constructor
      · rintro ⟨d, done, _, found, _⟩
        cases unchanged.symm.trans done
        exact .inr (mem_values_iff.mpr (consistent.condorId_iff.mp found))
      · rintro (fresh | held)
        · exact absurd rfl (fresh p (mem_values_iff.mpr ⟨ref, got⟩)).1
        · exact ⟨c, unchanged, consistent.correct_insert (mem_values_iff.mp held)⟩

theorem Consistent.step_iff (consistent : c.Consistent) (a : Action) :
    (∃ d, step stale c a = some d ∧ d.Correct stale a) ↔ c.Unmixed a := by
  cases a with
  | insert e i => exact consistent.insert_iff e i
  | removeByCondorId i =>
    obtain ⟨d, error, done, kept⟩ := consistent.removeByCondorId stale i
    exact iff_of_true ⟨d, by simp [step, done], kept.bijective, trivial⟩ trivial

theorem Consistent.step {d : RamContainer} (consistent : c.Consistent) {a : Action} (unmixed : c.Unmixed a)
    (done : step stale c a = some d) : d.Consistent := by
  cases a with
  | insert e i =>
    rcases unmixed with fresh | held
    · have noEdg : find e c.edgs = none :=
        consistent.edgs.find_eq_none_iff.mpr fun ref p got => (fresh p (mem_values_iff.mpr ⟨ref, got⟩)).1
      have noCondor : find i c.condors = none :=
        consistent.condors.find_eq_none_iff.mpr fun ref p got =>
          (fresh p (mem_values_iff.mpr ⟨ref, got⟩)).2
      cases (insert_fresh noEdg noCondor).symm.trans done
      exact consistent.added noEdg noCondor
    · obtain ⟨ref, got⟩ := mem_values_iff.mp held
      cases (insert_both (consistent.edgs.find got) (consistent.condors.find got)).symm.trans done
      exact consistent
  | removeByCondorId i =>
    obtain ⟨d', error, removed, kept⟩ := consistent.removeByCondorId stale i
    simp only [RamContainer.step, removed, Option.map_some, Option.some.injEq] at done
    exact done ▸ kept

/-- Where every record names a job and a cluster nothing is left over from the record before. -/
theorem copyRecords_values (l : List Record) (s : Pair × RamContainer)
    (ids : ∀ r ∈ l, ∃ e i, r.edgId = some e ∧ r.condorId = some i) :
    (l.foldl copyRecord s).2.pointers.values.map (some ∘ Pair.edgId) =
        s.2.pointers.values.map (some ∘ Pair.edgId) ++ l.map Record.edgId ∧
      (l.foldl copyRecord s).2.pointers.values.map (some ∘ Pair.condorId) =
        s.2.pointers.values.map (some ∘ Pair.condorId) ++ l.map Record.condorId := by
  induction l generalizing s with
  | nil => simp
  | cons r l ih =>
    obtain ⟨e, i, named, numbered⟩ := ids r (mem_cons_self ..)
    obtain ⟨edgs, condors⟩ := ih (copyRecord s r) fun r member => ids r (mem_cons_of_mem _ member)
    rw [foldl_cons, edgs, condors]
    simp [copyRecord, Arena.values, named, numbered]

theorem Consistent.construct {records : List Record} (wellFormed : IdContainer.WellFormed records) :
    (construct records).Consistent := by
  let empty : RamContainer := ⟨0, .empty, [], []⟩
  obtain ⟨edgs, condors⟩ := List.foldlRecOn (motive := fun s : Pair × RamContainer =>
      s.2.edgs = s.2.pointers.entries.map (fun e => (e.2.edgId, e.1)) ∧
        s.2.condors = s.2.pointers.entries.map fun e => (e.2.condorId, e.1))
    records copyRecord (b := (⟨"", ""⟩, empty)) ⟨rfl, rfl⟩
    fun s kept r _ => ⟨by simp [copyRecord, kept.1], by simp [copyRecord, kept.2]⟩
  obtain ⟨edgKeys, condorKeys⟩ := copyRecords_values records (⟨"", ""⟩, empty) wellFormed.ids
  refine ⟨.sort edgs (List.Nodup.of_map some ?_), .sort condors (List.Nodup.of_map some ?_)⟩
  · rw [map_map]
    exact edgKeys ▸ wellFormed.edgs
  · rw [map_map]
    exact condorKeys ▸ wellFormed.condors

theorem mem_copyRecords {p : Pair} (l : List Record) (s : Pair × RamContainer)
    (ids : ∀ r ∈ l, ∃ e i, r.edgId = some e ∧ r.condorId = some i) :
    p ∈ (l.foldl copyRecord s).2.pointers.values ↔
      p ∈ s.2.pointers.values ∨ ∃ r ∈ l, r.edgId = some p.edgId ∧ r.condorId = some p.condorId := by
  induction l generalizing s with
  | nil => simp
  | cons r l ih =>
    obtain ⟨e, i, named, numbered⟩ := ids r (mem_cons_self ..)
    have here : p = ⟨i, e⟩ ↔ e = p.edgId ∧ i = p.condorId := by
      cases p
      simp [eq_comm, and_comm]
    rw [foldl_cons, ih _ fun r member => ids r (mem_cons_of_mem _ member)]
    simp [copyRecord, Arena.values, named, numbered, here, or_assoc]

/-- The container in memory answers every lookup as the one on file does. -/
def Mirrors (r : RamContainer) (c : IdContainer) : Prop :=
  ∀ stale e i, (r.condorId stale e = some i ↔ ∃ p, c.byEdgId e = some p ∧ p.condorId = i) ∧
    (r.edgId stale i = some e ↔ ∃ p, c.byCondorId i = some p ∧ p.edgId = e)

/-- What is copied from the records of a container, after any run of it, mirrors the container. -/
theorem copy_mirrors {file : Arena Record} (wellFormed : IdContainer.WellFormed file.values)
    {c : IdContainer}
    (run : Runs IdContainer.step (.construct file) Free c) : (construct c.container.values).Mirrors c := by
  intro stale e i
  have consistent := IdContainer.Consistent.run wellFormed run
  have copied := Consistent.construct consistent.wellFormed
  have same : (∃ ref, (construct c.container.values).pointers.get? ref = some ⟨i, e⟩) ↔
      ∃ ref p, c.pointers.get? ref = some p ∧ p.edgId = e ∧ p.condorId = i := by
    rw [← mem_values_iff]
    refine (mem_copyRecords _ _ consistent.wellFormed.ids).trans ⟨?_, ?_⟩
    · rintro (nothing | ⟨r, member, edg, condor⟩)
      · cases nothing
      · obtain ⟨⟨position, r⟩, present, rfl⟩ := mem_map.mp member
        obtain ⟨⟨ref, p⟩, there, key⟩ :=
          mem_map.mp (consistent.records_perm.mem_iff.mp (mem_map_of_mem present))
        simp only [recordKey, pointerKey, Prod.mk.injEq] at key
        exact ⟨ref, p, Arena.get?_eq_some_iff.mpr there, Option.some.inj (key.2.1.trans edg),
          Option.some.inj (key.2.2.trans condor)⟩
    · rintro ⟨ref, p, got, rfl, rfl⟩
      obtain ⟨r, held, edg, condor⟩ := consistent.record got
      exact .inr ⟨r, mem_map_of_mem (Arena.get?_eq_some_iff.mp held), edg, condor⟩
  rw [copied.condorId_iff, copied.edgId_iff, same]
  simp only [IdContainer.byEdgId, IdContainer.byCondorId, IdContainer.positionByEdgId,
    IdContainer.positionByCondorId,
    consistent.edgs.find_bind_iff, consistent.condors.find_bind_iff]
  grind

theorem one_job_mirrored :
    (construct (IdContainer.construct IdContainer.oneJob).container.values).Mirrors
      (.construct IdContainer.oneJob) := by
  refine copy_mirrors ?_ .start
  constructor <;> simp [IdContainer.oneJob, Arena.values, Arena.empty, IdContainer.newRecord]

/-- From a copy of a file whose records name each job and each cluster once, and along operations
that do not mix pairs, the two lookups describe one bijection; and an operation taken there keeps
it and finds the inserted pair exactly if it does not mix pairs either. -/
theorem lookups_bijective_iff (stale : Nat → Pair) {records : List Record}
    (wellFormed : IdContainer.WellFormed records) {c : RamContainer}
    (run : Runs (step stale) (construct records) Unmixed c) :
    c.Bijective stale ∧ ∀ a, (∃ d, step stale c a = some d ∧ d.Correct stale a) ↔ c.Unmixed a := by
  have consistent : c.Consistent :=
    run.invariant (Consistent.construct wellFormed) fun _ _ _ consistent unmixed done =>
      consistent.step unmixed done
  exact ⟨consistent.bijective, consistent.step_iff⟩

/-- Two pairs, one of them inserted twice, and one removed. -/
theorem lookups_bijective_after_all : ∃ c, execute (step (fun _ => ⟨"", ""⟩)) Unmixed (construct [])
        [.insert "https://lb/b" "10", .insert "https://lb/a" "20", .insert "https://lb/b" "10",
          .removeByCondorId "20"] = some c ∧ c.Bijective (fun _ => ⟨"", ""⟩) := by
  have wellFormed : IdContainer.WellFormed [] := ⟨by simp, nodup_nil, nodup_nil⟩
  have done : (execute (step (fun _ => ⟨"", ""⟩)) Unmixed (construct [])
        [.insert "https://lb/b" "10", .insert "https://lb/a" "20", .insert "https://lb/b" "10",
          .removeByCondorId "20"]).isSome := by
    decide +kernel
  obtain ⟨c, ran⟩ := Option.isSome_iff_exists.mp done
  exact ⟨c, ran, (lookups_bijective_iff (fun _ => ⟨"", ""⟩) wellFormed (Runs.execute .start ran)).1⟩

/-- The first job is given another cluster: its old cluster still leads to what the erased pair
has left. And a job is given the cluster of another: nothing is inserted. -/
theorem lookups_not_bijective :
    (execute (step (fun _ => ⟨"", ""⟩)) Free (construct []) [.insert "https://lb/a" "10",
      .insert "https://lb/a" "20"]).map
        (fun c => (c.condorId (fun _ => ⟨"", ""⟩) "https://lb/a", c.edgId (fun _ => ⟨"", ""⟩) "10")) =
      some (some "20", some "") ∧ (execute (step (fun _ => ⟨"", ""⟩)) Free (construct [])
        [.insert "https://lb/a" "10", .insert "https://lb/b" "20", .insert "https://lb/a" "20"]).map
        (fun c => (c.condorId (fun _ => ⟨"", ""⟩) "https://lb/a", c.edgId (fun _ => ⟨"", ""⟩) "20")) =
      some (some "10", some "https://lb/b") := by
  decide +kernel

end Runs

end RamContainer

end Wms.JobControl
