import Wms.JobControl.IdContainer

/-! The two indexes of an identifier container stay in step with its pointers and its file.

What each operation does is said once, up to the order of the lists: the pointers, the records
and both vectors gain or lose the entries of one job. The order of the vectors is kept by the
searches for the lower bound.
-/

set_option autoImplicit false

namespace Wms.JobControl

open Lib Arena PointerId List

abbrev recordKey (e : Nat × Record) : Nat × Option String × Option String := (e.1, e.2.edgId, e.2.condorId)

abbrev pointerKey (e : Nat × PointerId) : Nat × Option String × Option String :=
  (e.2.position, some e.2.edgId, some e.2.condorId)

namespace IdContainer

/-- Each index is sorted without duplicates and has one entry for each pointer, and there is one
record for each pointer. -/
structure Consistent (c : IdContainer) : Prop where
  edgs : Indexes PointerId.edgId c.edgs c.pointers
  condors : Indexes PointerId.condorId c.condors c.pointers
  records_perm : (c.container.entries.map recordKey).Perm (c.pointers.entries.map pointerKey)

namespace Consistent

variable {c : IdContainer} {position : Nat} {p : PointerId} {e i : String}

theorem record (consistent : c.Consistent) (got : c.pointers.get? position = some p) :
    ∃ r, c.container.get? p.position = some r ∧ r.edgId = some p.edgId ∧ r.condorId = some p.condorId := by
  have member : pointerKey (position, p) ∈ c.container.entries.map recordKey :=
    consistent.records_perm.mem_iff.mpr (mem_map_of_mem (get?_eq_some_iff.mp got))
  obtain ⟨⟨ref, r⟩, present, same⟩ := mem_map.mp member
  simp only [recordKey, pointerKey, Prod.mk.injEq] at same
  obtain ⟨rfl, edg, condor⟩ := same
  exact ⟨r, get?_eq_some_iff.mpr present, edg, condor⟩

end Consistent

/-! ### Each operation -/

section Operations

variable {c d : IdContainer}

theorem Consistent.insert (consistent : c.Consistent) {e i seqcode : String} {status : Int}
    (done : c.insert e i seqcode status = some d) : d.Consistent := by
  unfold IdContainer.insert at done
  split_ifs at done with clash
  cases done
  simp only [Bool.or_eq_true, not_or, Bool.not_eq_true, Option.isSome_eq_false_iff,
    Option.isNone_iff_eq_none]
    at clash
  obtain ⟨freshEdg, freshCondor⟩ := clash
  let p := ofIds c.container.next i e seqcode
  have pushed := c.pointers.perm_pushBack p
  refine ⟨consistent.edgs.insert p freshEdg, consistent.condors.insert p freshCondor, ?_⟩
  exact ((c.container.perm_pushBack _).map recordKey).trans ((consistent.records_perm.cons _).trans
    (pushed.map pointerKey).symm)

def KeepsIds (change : PointerId → Record → Record) : Prop :=
  ∀ p r, (change p r).edgId = r.edgId ∧ (change p r).condorId = r.condorId

theorem keepsIds_updatedRecord (seqcode : String) (status laststatus : Int) :
    KeepsIds fun _ => updatedRecord seqcode status laststatus := fun _ _ => ⟨rfl, rfl⟩

theorem keepsIds_retryCount : KeepsIds fun p r => { r with retryCount := some (p.retryCount + 1) } :=
  fun _ _ => ⟨rfl, rfl⟩

theorem Consistent.replace (consistent : c.Consistent) {position : Nat}
    {change : PointerId → Record → Record}
    (keeps : KeepsIds change) (done : c.replace position change = some d) : d.Consistent := by
  unfold IdContainer.replace at done
  cases got : c.pointers.get? position with
  | none => simp [got] at done
  | some p =>
    obtain ⟨r, present, edg, condor⟩ := consistent.record got
    simp only [got, present, Option.some.injEq] at done
    subst done
    obtain ⟨keptEdg, keptCondor⟩ := keeps p r
    have others := perm_erase got
    have changed := perm_set got (p.reset (c.container.erase p.position).next (change p r))
    have sameEdg : (p.reset (c.container.erase p.position).next (change p r)).edgId = p.edgId := by
      simp [reset, evaluate, keptEdg, edg]
    have sameCondor : (p.reset (c.container.erase p.position).next (change p r)).condorId =
        p.condorId := by
      simp [reset, evaluate, keptCondor, condor]
    refine ⟨consistent.edgs.set got sameEdg, consistent.condors.set got sameCondor, ?_⟩
    -- the old record and the old pointer leave together
    have records := (perm_erase present).map recordKey
    have rest : ((c.container.erase p.position).entries.map recordKey).Perm
        ((c.pointers.erase position).entries.map pointerKey) := by
      have both := records.symm.trans (consistent.records_perm.trans (others.map pointerKey))
      simp only [map_cons, recordKey, pointerKey, edg, condor] at both
      exact both.cons_inv
    refine (((c.container.erase p.position).perm_pushBack (change p r)).map recordKey).trans
      (List.Perm.trans ?_ (changed.map pointerKey).symm)
    simp only [map_cons, recordKey, pointerKey, sameEdg, sameCondor, keptEdg, keptCondor, edg, condor]
    exact rest.cons _

theorem Consistent.removePointers (consistent : c.Consistent) {position : Nat} {p : PointerId}
    (got : c.pointers.get? position = some p) :
    (c.removePointers p.edgId p.condorId position p).Consistent := by
  obtain ⟨r, present, edg, condor⟩ := consistent.record got
  have others := perm_erase got
  refine ⟨consistent.edgs.erase got, consistent.condors.erase got, ?_⟩
  have both := ((perm_erase present).map recordKey).symm.trans
    (consistent.records_perm.trans (others.map pointerKey))
  simp only [map_cons, recordKey, pointerKey, edg, condor] at both
  exact both.cons_inv

theorem Consistent.removeByEdgId (consistent : c.Consistent) {e : String}
    (done : c.removeByEdgId e = some d) :
    d.Consistent := by
  unfold IdContainer.removeByEdgId at done
  cases found : c.positionByEdgId e with
  | none => simp [found] at done
  | some position =>
    obtain ⟨p, got, rfl⟩ := consistent.edgs.find_iff.mp found
    have other : (c.positionByCondorId p.condorId).isSome = true :=
      Option.isSome_iff_exists.mpr ⟨position, consistent.condors.find got⟩
    simp only [found, got, other, if_true, Option.some.injEq] at done
    subst done
    exact consistent.removePointers got

theorem Consistent.removeByCondorId (consistent : c.Consistent) {i : String}
    (done : c.removeByCondorId i = some d) :
    d.Consistent := by
  unfold IdContainer.removeByCondorId at done
  cases found : (c.positionByCondorId i).bind c.pointers.get? with
  | none => simp [found] at done
  | some p =>
    obtain ⟨position, got, rfl⟩ := consistent.condors.find_bind_iff.mp found
    have other : c.positionByEdgId p.edgId = some position := consistent.edgs.find got
    simp only [found, got, other, Option.some.injEq] at done
    subst done
    exact consistent.removePointers got

end Operations

/-! ### Building from the file -/

/-- Every record names a job and a cluster, and no two name the same. -/
structure WellFormed (records : List Record) : Prop where
  ids : ∀ r ∈ records, ∃ e i, r.edgId = some e ∧ r.condorId = some i
  edgs : (records.map Record.edgId).Nodup
  condors : (records.map Record.condorId).Nodup

section Build

variable {c : IdContainer}

variable (l : List (Nat × Record))

theorem takeRecords_values (c : IdContainer) :
    (l.foldl takeRecord c).pointers.values = c.pointers.values ++ l.map fun e => ofRecord e.1 e.2 := by
  induction l generalizing c with
  | nil => simp
  | cons e l ih =>
    rw [foldl_cons, ih]
    simp [takeRecord, values]

theorem takeRecords_container (c : IdContainer) : (l.foldl takeRecord c).container = c.container := by
  induction l generalizing c with
  | nil => rfl
  | cons e l ih => rw [foldl_cons, ih, takeRecord]

theorem ofRecord_ids {r : Record} {e i : String} (edg : r.edgId = some e) (condor : r.condorId = some i)
    (position : Nat) : (ofRecord position r).edgId = e ∧ (ofRecord position r).condorId = i := by
  simp [ofRecord, evaluate, edg, condor]

theorem onConstruct_values (empty : c.pointers.values = []) :
    c.onConstruct.pointers.values = c.container.entries.map fun e => ofRecord e.1 e.2 := by
  have filled := takeRecords_values c.container.entries c
  rw [empty, nil_append] at filled
  exact filled

theorem Consistent.onConstruct (wellFormed : WellFormed c.container.values)
    (empty : c.pointers.entries = [])
    (edgs : c.edgs = []) (condors : c.condors = []) : c.onConstruct.Consistent := by
  obtain ⟨edgEntries, condorEntries⟩ := List.foldlRecOn (motive := fun c : IdContainer =>
      c.edgs = c.pointers.entries.map (fun e => (e.2.edgId, e.1)) ∧
        c.condors = c.pointers.entries.map fun e => (e.2.condorId, e.1))
    c.container.entries takeRecord (b := c) ⟨by simp [edgs, empty], by simp [condors, empty]⟩
    fun c kept e _ => ⟨by simp [takeRecord, kept.1], by simp [takeRecord, kept.2]⟩
  have values := onConstruct_values (c := c) (by simp [Arena.values, empty])
  have ids (e : Nat × Record) (member : e ∈ c.container.entries) :
      some (ofRecord e.1 e.2).edgId = e.2.edgId ∧
        some (ofRecord e.1 e.2).condorId = e.2.condorId := by
    obtain ⟨edg, condor, named, numbered⟩ := wellFormed.ids e.2 (mem_map_of_mem member)
    obtain ⟨sameEdg, sameCondor⟩ := ofRecord_ids named numbered e.1
    rw [named, numbered, sameEdg, sameCondor]
    exact ⟨rfl, rfl⟩
  -- a key that occurs twice would occur twice among the records
  have nodup {key : PointerId → String} {named : Record → Option String}
      (distinct : (c.container.values.map named).Nodup)
      (same : ∀ e ∈ c.container.entries, some (key (ofRecord e.1 e.2)) = named e.2) :
      (c.onConstruct.pointers.values.map key).Nodup := by
    apply List.Nodup.of_map some
    rw [Arena.values, map_map] at distinct
    rw [values, map_map, map_map]
    exact (map_congr_left same : _ = _) ▸ distinct
  refine ⟨.sort edgEntries (nodup wellFormed.edgs fun e member => (ids e member).1),
    .sort condorEntries (nodup wellFormed.condors fun e member => (ids e member).2), ?_⟩
  have container : c.onConstruct.container = c.container := takeRecords_container _ c
  have keys : c.onConstruct.pointers.entries.map pointerKey = c.container.entries.map recordKey := by
    have split : c.onConstruct.pointers.entries.map pointerKey =
        c.onConstruct.pointers.values.map fun p => (p.position, some p.edgId, some p.condorId) := by
      simp [Arena.values, map_map]
    rw [split, values, map_map]
    refine map_congr_left fun e member => ?_
    obtain ⟨edg, condor⟩ := ids e member
    simp only [Function.comp_apply, edg, condor]
    rfl
  rw [container, keys]

theorem Consistent.construct {file : Arena Record} (wellFormed : WellFormed file.values) :
    (construct file).Consistent := by
  unfold IdContainer.construct
  dsimp only
  split_ifs with empty
  · have bare : file.entries = [] := List.isEmpty_iff.mp empty
    exact ⟨.nil rfl, .nil rfl, by simp [Arena.empty, bare]⟩
  · exact Consistent.onConstruct wellFormed rfl rfl rfl

theorem Consistent.rebuild {file : Arena Record} (wellFormed : WellFormed file.values) :
    (c.rebuild file).Consistent :=
  Consistent.onConstruct wellFormed rfl rfl rfl

theorem Consistent.wellFormed (consistent : c.Consistent) : WellFormed c.container.values := by
  have edgs : (c.container.values.map Record.edgId).Perm
      (c.pointers.values.map fun p => some p.edgId) := by
    simpa [values, map_map, Function.comp_def] using consistent.records_perm.map fun key => key.2.1
  have condors : (c.container.values.map Record.condorId).Perm
      (c.pointers.values.map fun p => some p.condorId) := by
    simpa [values, map_map, Function.comp_def] using consistent.records_perm.map fun key => key.2.2
  refine ⟨?_, ?_, ?_⟩
  · intro r member
    have edg := edgs.mem_iff.mp (mem_map_of_mem member)
    have condor := condors.mem_iff.mp (mem_map_of_mem member)
    obtain ⟨p, _, named⟩ := mem_map.mp edg
    obtain ⟨q, _, numbered⟩ := mem_map.mp condor
    exact ⟨p.edgId, q.condorId, named.symm, numbered.symm⟩
  · rw [edgs.nodup_iff]
    have nodup := consistent.edgs.nodup_keys.map (Option.some_injective String)
    rwa [map_map] at nodup
  · rw [condors.nodup_iff]
    have nodup := consistent.condors.nodup_keys.map (Option.some_injective String)
    rwa [map_map] at nodup

theorem Consistent.compact (consistent : c.Consistent) : c.compact.Consistent := by
  have rebuilt : (c.rebuild c.container.renumber).Consistent :=
    Consistent.rebuild (c.container.values_renumber ▸ consistent.wellFormed)
  exact ⟨rebuilt.edgs, rebuilt.condors, rebuilt.records_perm⟩

theorem Consistent.refresh (consistent : c.Consistent) (modified : Bool) :
    (c.refresh modified).Consistent := by
  cases modified with
  | true => exact Consistent.rebuild consistent.wellFormed
  | false => exact consistent

end Build

/-! ### Runs -/

inductive Action where
  | insert (edgId condorId seqcode : String) (status : Int)
  | updatePointer (position : Nat) (seqcode : String) (status laststatus : Int)
  | incrementPointerRetryCount (position : Nat)
  | removeByEdgId (edgId : String)
  | removeByCondorId (condorId : String)
  | refresh (modified : Bool)
  | compact
  deriving DecidableEq

def step (c : IdContainer) : Action → Option IdContainer
  | .insert edgId condorId seqcode status => c.insert edgId condorId seqcode status
  | .updatePointer position seqcode status laststatus => c.updatePointer position seqcode status laststatus
  | .incrementPointerRetryCount position => c.incrementPointerRetryCount position
  | .removeByEdgId edgId => c.removeByEdgId edgId
  | .removeByCondorId condorId => c.removeByCondorId condorId
  | .refresh modified => some (c.refresh modified)
  | .compact => some c.compact

variable {c : IdContainer}

theorem Consistent.step {d : IdContainer} (consistent : c.Consistent) {a : Action}
    (done : c.step a = some d) :
    d.Consistent := by
  cases a with
  | insert edgId condorId seqcode status => exact consistent.insert done
  | updatePointer position seqcode status laststatus =>
    exact consistent.replace (keepsIds_updatedRecord seqcode status laststatus) done
  | incrementPointerRetryCount position => exact consistent.replace keepsIds_retryCount done
  | removeByEdgId edgId => exact consistent.removeByEdgId done
  | removeByCondorId condorId => exact consistent.removeByCondorId done
  | refresh modified => exact Option.some.inj done ▸ consistent.refresh modified
  | compact => exact Option.some.inj done ▸ consistent.compact

theorem Consistent.run {file : Arena Record} (wellFormed : WellFormed file.values)
    (run : Runs IdContainer.step (IdContainer.construct file) Free c) : c.Consistent :=
  run.invariant (Consistent.construct wellFormed) fun _ _ _ consistent _ done => consistent.step done

/-- Looking up by one identifier and then by the other leads back. -/
structure Inverse (c : IdContainer) : Prop where
  edgs : ∀ e ∈ c.edgs.map Prod.fst, c.edgId (c.condorId e) = e ∧ c.condorId e ∈ c.condors.map Prod.fst
  condors : ∀ i ∈ c.condors.map Prod.fst, c.condorId (c.edgId i) = i ∧ c.edgId i ∈ c.edgs.map Prod.fst

theorem Consistent.lookup (consistent : c.Consistent) {position : Nat} {p : PointerId}
    (got : c.pointers.get? position = some p) : c.condorId p.edgId = p.condorId ∧
      c.edgId p.condorId = p.edgId := by
  have edg : c.byEdgId p.edgId = some p := consistent.edgs.find_bind_iff.mpr ⟨position, got, rfl⟩
  have condor : c.byCondorId p.condorId = some p :=
    consistent.condors.find_bind_iff.mpr ⟨position, got, rfl⟩
  exact ⟨by simp [condorId, edg], by simp [edgId, condor]⟩

theorem Consistent.inverse (consistent : c.Consistent) : c.Inverse := by
  constructor
  · intro e member
    obtain ⟨position, p, got, rfl⟩ := consistent.edgs.mem_keys_iff.mp member
    obtain ⟨condor, edg⟩ := consistent.lookup got
    rw [condor]
    exact ⟨edg, consistent.condors.mem_keys_iff.mpr ⟨position, p, got, rfl⟩⟩
  · intro i member
    obtain ⟨position, p, got, rfl⟩ := consistent.condors.mem_keys_iff.mp member
    obtain ⟨condor, edg⟩ := consistent.lookup got
    rw [edg]
    exact ⟨condor, consistent.edgs.mem_keys_iff.mpr ⟨position, p, got, rfl⟩⟩

/-- Along every run of operations that succeed, the indexes stay sorted, without duplicates and
in step with the pointers and the file, and the two ways to look up are inverse. -/
theorem indexes_consistent {file : Arena Record} (wellFormed : WellFormed file.values) {c : IdContainer}
    (run : Runs step (construct file) Free c) : c.Consistent ∧ c.Inverse :=
  ⟨Consistent.run wellFormed run, (Consistent.run wellFormed run).inverse⟩

def oneJob : Arena Record := empty.pushBack (newRecord "https://lb/b" "20" "UI=1" 4)

/-- Every operation once, from a file that is not empty. -/
theorem indexes_consistent_after_all : ∃ c, execute step Free (construct oneJob)
        [.insert "https://lb/a" "30" "UI=2" 1, .updatePointer 0 "LM=1" 2 undefinedStatus,
          .insert "https://lb/c" "10" "UI=3" 1, .incrementPointerRetryCount 2,
            .removeByEdgId "https://lb/b",
          .refresh true, .removeByCondorId "10", .compact] = some c ∧
      c.condorId "https://lb/a" = "30" ∧ c.Consistent ∧ c.Inverse := by
  have wellFormed : WellFormed oneJob.values := by
    constructor <;> simp [oneJob, values, empty, newRecord]
  have done : ((execute step Free (construct oneJob)
        [.insert "https://lb/a" "30" "UI=2" 1, .updatePointer 0 "LM=1" 2 undefinedStatus,
          .insert "https://lb/c" "10" "UI=3" 1, .incrementPointerRetryCount 2,
            .removeByEdgId "https://lb/b",
          .refresh true, .removeByCondorId "10", .compact]).map (·.condorId "https://lb/a")) =
            some "30" := by
    decide +kernel
  obtain ⟨c, ran, found⟩ := Option.map_eq_some_iff.mp done
  exact ⟨c, ran, found, indexes_consistent wellFormed (Runs.execute .start ran)⟩

end IdContainer

end Wms.JobControl
