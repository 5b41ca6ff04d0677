import Wms.JobControl.IdIndexes

/-! What an identifier container finds in its file after it has been closed, or after the process
has stopped in the middle of an update.
-/

set_option autoImplicit false

namespace Wms.JobControl

open Lib Arena PointerId List

structure JobData where
  condorId : String
  sequenceCode : String
  lastStatus : Int
  condorStatus : Int
  retryCount : Int
  proxyFile : String
  deriving DecidableEq, Repr

/-- `proxyOf` gives the proxy named in the class-ad file of a job. -/
def PointerId.data (proxyOf : String → String) (p : PointerId) : JobData :=
  ⟨p.condorId, p.sequenceCode, p.lastStatus, p.condorStatus, p.retryCount, proxyOf p.edgId⟩

theorem PointerId.eq_of_data {proxyOf : String → String} {p q : PointerId}
    (same : p.data proxyOf = q.data proxyOf)
    (position : p.position = q.position) (edg : p.edgId = q.edgId) : p = q := by
  obtain ⟨position, condorId, edgId, sequenceCode, condorStatus, lastStatus, retryCount⟩ := p
  cases q
  simp_all [data]

namespace IdContainer

section Reopening

variable {file : Arena Record} {c : IdContainer} {position : Nat} {r : Record} {e : String}

theorem WellFormed.unique (wellFormed : WellFormed file.values) {position' : Nat} {r' : Record}
    (got : file.get? position = some r) (got' : file.get? position' = some r')
      (same : r.edgId = r'.edgId) :
    position = position' ∧ r = r' := by
  have nodup := wellFormed.edgs
  rw [values, map_map] at nodup
  have equal := inj_on_of_nodup_map nodup (get?_eq_some_iff.mp got) (get?_eq_some_iff.mp got') same
  exact Prod.mk.inj equal

theorem WellFormed.sublist {l l' : List Record} (sub : l'.Sublist l) (wellFormed : WellFormed l) :
    WellFormed l' :=
  ⟨fun r member => wellFormed.ids r (sub.mem member), wellFormed.edgs.sublist (sub.map _),
    wellFormed.condors.sublist (sub.map _)⟩

theorem construct_values : (construct file).pointers.values = file.entries.map fun e =>
    .ofRecord e.1 e.2 := by
  unfold construct
  dsimp only
  split_ifs with empty
  · rw [List.isEmpty_iff.mp empty]
    rfl
  · exact onConstruct_values rfl

theorem construct_byEdgId (wellFormed : WellFormed file.values) {q : PointerId} :
    (construct file).byEdgId e = some q ↔
      ∃ position r, file.get? position = some r ∧ r.edgId = some e ∧ q = .ofRecord position r := by
  have listed : (∃ ref, (construct file).pointers.get? ref = some q) ↔
      ∃ position r, file.get? position = some r ∧ ofRecord position r = q := by
    have values : q ∈ (construct file).pointers.values ↔ q ∈ file.entries.map fun e =>
        .ofRecord e.1 e.2 := by
      rw [construct_values]
    simpa [Arena.values, Arena.get?_eq_some_iff] using values
  refine (Consistent.construct wellFormed).edgs.find_bind_iff.trans ?_
  constructor
  · rintro ⟨ref, got, rfl⟩
    obtain ⟨position, r, present, rfl⟩ := listed.mp ⟨ref, got⟩
    obtain ⟨edg, condor, named, numbered⟩ :=
      wellFormed.ids r (mem_map_of_mem (get?_eq_some_iff.mp present))
    exact ⟨position, r, present, named.trans
      (congrArg some (ofRecord_ids named numbered position).1.symm), rfl⟩
  · rintro ⟨position, r, present, named, rfl⟩
    obtain ⟨ref, got⟩ := listed.mpr ⟨position, r, present, rfl⟩
    obtain ⟨_, condor, _, numbered⟩ :=
      wellFormed.ids r (mem_map_of_mem (get?_eq_some_iff.mp present))
    exact ⟨ref, got, (ofRecord_ids named numbered position).1⟩

theorem Consistent.pointer (consistent : c.Consistent) (present : c.container.get? position = some r) :
    ∃ ref p, c.pointers.get? ref = some p ∧ p.position = position ∧ r.edgId = some p.edgId := by
  have member : recordKey (position, r) ∈ c.pointers.entries.map pointerKey :=
    consistent.records_perm.mem_iff.mp (mem_map_of_mem (get?_eq_some_iff.mp present))
  obtain ⟨⟨ref, p⟩, got, same⟩ := mem_map.mp member
  simp only [recordKey, pointerKey, Prod.mk.injEq] at same
  exact ⟨ref, p, get?_eq_some_iff.mpr got, same.1, same.2.1.symm⟩

end Reopening

/-! ### Closing and opening again -/

/-- A container made from the same file knows the same of every job. -/
def InSync (proxyOf : String → String) (c : IdContainer) : Prop :=
  ∀ e, ((construct c.container).byEdgId e).map (·.data proxyOf) = (c.byEdgId e).map (·.data proxyOf)

def Current (c : IdContainer) : Prop :=
  ∀ ref p r, c.pointers.get? ref = some p → c.container.get? p.position = some r →
    p = .ofRecord p.position r

section Closing

variable {proxyOf : String → String} {c d : IdContainer}

theorem Consistent.inSync_iff (consistent : c.Consistent) : c.InSync proxyOf ↔ c.Current := by
  constructor
  · intro inSync ref p r got present
    obtain ⟨r', there, edg, condor⟩ := consistent.record got
    cases present.symm.trans there
    have reopened := (construct_byEdgId consistent.wellFormed).mpr ⟨p.position, r, present, edg, rfl⟩
    have known : c.byEdgId p.edgId = some p := consistent.edgs.find_bind_iff.mpr ⟨ref, got, rfl⟩
    have same := inSync p.edgId
    rw [reopened, known] at same
    exact (eq_of_data (Option.some.inj same) rfl (ofRecord_ids edg condor p.position).1).symm
  · intro current e
    cases known : c.byEdgId e with
    | some p =>
      obtain ⟨ref, got, rfl⟩ := consistent.edgs.find_bind_iff.mp known
      obtain ⟨r, present, edg, _⟩ := consistent.record got
      rw [(construct_byEdgId consistent.wellFormed).mpr ⟨p.position, r, present, edg,
        current ref p r got present⟩]
    | none =>
      cases reopened : (IdContainer.construct c.container).byEdgId e with
      | none => rfl
      | some q =>
        -- a record of the job would have a pointer
        obtain ⟨position, r, present, named, _⟩ := (construct_byEdgId consistent.wellFormed).mp reopened
        obtain ⟨ref, p, got, _, edg⟩ := consistent.pointer present
        have found := consistent.edgs.find_bind_iff.mpr ⟨ref, got, Option.some.inj (edg.symm.trans named)⟩
        cases known.symm.trans found

theorem current_onConstruct (empty : c.pointers.values = []) : c.onConstruct.Current := by
  intro ref p r got present
  have member : p ∈ c.onConstruct.pointers.values := mem_map_of_mem (get?_eq_some_iff.mp got)
  rw [onConstruct_values empty] at member
  obtain ⟨⟨position, r'⟩, there, rfl⟩ := mem_map.mp member
  have container : c.onConstruct.container = c.container := takeRecords_container _ c
  rw [container] at present
  cases present.symm.trans (get?_eq_some_iff.mpr there)
  rfl

theorem current_construct (file : Arena Record) : (construct file).Current := by
  unfold construct
  dsimp only
  split_ifs with empty
  · intro ref p r got
    cases got
  · exact current_onConstruct rfl

variable {e i seqcode : String}

/-- The record of a new job is read back with its status, the pointer to it without. -/
theorem newPointer_eq_iff {n : Nat} {status : Int} :
    ofIds n i e seqcode = .ofRecord n (newRecord e i seqcode status) ↔ status = 0 := by
  simp [ofIds, ofRecord, evaluate, newRecord, eq_comm]

theorem insert_eq {status : Int} (done : c.insert e i seqcode status = some d) :
    d.container = c.container.pushBack (newRecord e i seqcode status) ∧
      d.pointers = c.pointers.pushBack (.ofIds c.container.next i e seqcode) := by
  unfold IdContainer.insert at done
  split_ifs at done
  cases done
  exact ⟨rfl, rfl⟩

theorem Current.insert (current : c.Current) (consistent : c.Consistent)
    (done : c.insert e i seqcode 0 = some d) : d.Current := by
  obtain ⟨container, pointers⟩ := insert_eq done
  intro ref p r got present
  rw [pointers, get?_pushBack_iff] at got
  rw [container, get?_pushBack_iff] at present
  rcases got with old | ⟨_, rfl⟩
  · obtain ⟨r', there, _⟩ := consistent.record old
    rcases present with same | ⟨fresh, _⟩
    · exact current ref p r old same
    · exact absurd fresh (Nat.ne_of_lt (lt_next there))
  · rcases present with old | ⟨_, rfl⟩
    · exact absurd (lt_next old) (Nat.lt_irrefl _)
    · exact newPointer_eq_iff.mpr rfl

theorem not_current_insert {status : Int} (nonzero : status ≠ 0)
    (done : c.insert e i seqcode status = some d) :
    ¬d.Current := by
  obtain ⟨container, pointers⟩ := insert_eq done
  intro current
  have equal := current c.pointers.next (.ofIds c.container.next i e seqcode)
      (newRecord e i seqcode status)
    (by rw [pointers]; exact get?_pushBack_iff.mpr (.inr ⟨rfl, rfl⟩))
    (by rw [container]; exact get?_pushBack_iff.mpr (.inr ⟨rfl, rfl⟩))
  exact nonzero (newPointer_eq_iff.mp equal)

theorem getD_getD {α : Type} (x : Option α) (y : α) : x.getD (x.getD y) = x.getD y := by
  cases x <;> rfl

def Rereads (change : PointerId → Record → Record) : Prop :=
  ∀ n m r, (ofRecord n r).reset m (change (.ofRecord n r) r) = .ofRecord m (change (.ofRecord n r) r)

theorem rereads_updatedRecord (seqcode : String) (status laststatus : Int) :
    Rereads fun _ => updatedRecord seqcode status laststatus := by
  intro n m r
  simp only [reset, ofRecord, evaluate, ofIds, updatedRecord]
  split_ifs <;> simp [getD_getD]

theorem rereads_retryCount : Rereads fun p r => { r with retryCount := some (p.retryCount + 1) } := by
  intro n m r
  simp [reset, ofRecord, evaluate, ofIds, getD_getD]

theorem replace_eq {position : Nat} {change : PointerId → Record → Record}
    (done : c.replace position change = some d) :
    ∃ p r, c.pointers.get? position = some p ∧ c.container.get? p.position = some r ∧
      d.container = (c.container.erase p.position).pushBack (change p r) ∧
      d.pointers = c.pointers.set position (p.reset c.container.next (change p r)) := by
  unfold IdContainer.replace at done
  cases got : c.pointers.get? position with
  | none => simp [got] at done
  | some p =>
    cases present : c.container.get? p.position with
    | none => simp [got, present] at done
    | some r =>
      simp only [got, present, Option.some.injEq] at done
      subst done
      exact ⟨p, r, rfl, present, rfl, rfl⟩

theorem Current.replace (current : c.Current) (consistent : c.Consistent) {position : Nat}
    {change : PointerId → Record → Record} (rereads : Rereads change)
    (done : c.replace position change = some d) : d.Current := by
  obtain ⟨p, r, got, present, container, pointers⟩ := replace_eq done
  have next : (c.container.erase p.position).next = c.container.next := rfl
  intro ref q s reached stored
  rw [pointers, get?_set_iff got] at reached
  rw [container, get?_pushBack_iff, get?_erase_iff, next] at stored
  rcases reached with ⟨_, rfl⟩ | ⟨old, _⟩
  · rcases stored with ⟨kept, _⟩ | ⟨_, rfl⟩
    · exact absurd (lt_next kept) (Nat.lt_irrefl _)
    · have held := current position p r got present
      have reread := rereads p.position c.container.next r
      rw [← held] at reread
      exact reread
  · obtain ⟨r', there, _⟩ := consistent.record old
    rcases stored with ⟨kept, _⟩ | ⟨fresh, _⟩
    · exact current ref q s old kept
    · exact absurd fresh (Nat.ne_of_lt (lt_next there))

theorem Current.of_subset (current : c.Current)
    (pointers : ∀ ref p, d.pointers.get? ref = some p → c.pointers.get? ref = some p)
    (records : ∀ n r, d.container.get? n = some r → c.container.get? n = some r) : d.Current :=
  fun ref p r got present => current ref p r (pointers ref p got) (records _ r present)

theorem Current.removePointers (current : c.Current) (e i : String) (position : Nat) (p : PointerId) :
    (c.removePointers e i position p).Current :=
  current.of_subset (fun _ _ got => (get?_erase_iff.mp got).1) fun _ _ got => (get?_erase_iff.mp got).1

theorem Current.removeByEdgId (current : c.Current) (done : c.removeByEdgId e = some d) : d.Current := by
  unfold IdContainer.removeByEdgId at done
  split at done
  · cases done
  · split at done
    · cases done
    · split_ifs at done
      cases done
      exact Current.removePointers current _ _ _ _

theorem Current.removeByCondorId (current : c.Current) (done : c.removeByCondorId i = some d) :
    d.Current := by
  unfold IdContainer.removeByCondorId at done
  split at done
  · cases done
  · split at done
    · cases done
    · split at done
      · cases done
      · cases done
        exact Current.removePointers current _ _ _ _

/-- A new job comes with the status a pointer starts with. -/
def Action.NoStatus : Action → Prop
  | .insert _ _ _ status => status = 0
  | _ => True

instance (a : Action) : Decidable a.NoStatus := by
  cases a <;> unfold Action.NoStatus <;> infer_instance

theorem Current.step (current : c.Current) (consistent : c.Consistent) {a : Action} (noStatus : a.NoStatus)
    (done : c.step a = some d) : d.Current := by
  cases a with
  | insert edgId condorId seqcode status =>
    cases noStatus
    exact current.insert consistent done
  | updatePointer position seqcode status laststatus =>
    exact current.replace consistent (rereads_updatedRecord seqcode status laststatus) done
  | incrementPointerRetryCount position => exact current.replace consistent rereads_retryCount done
  | removeByEdgId edgId => exact current.removeByEdgId done
  | removeByCondorId condorId => exact current.removeByCondorId done
  | refresh modified =>
    cases modified with
    | true => exact Option.some.inj done ▸ current_onConstruct rfl
    | false => exact Option.some.inj done ▸ current
  | compact =>
    have rebuilt : (c.rebuild c.container.renumber).Current := current_onConstruct rfl
    exact Option.some.inj done ▸ rebuilt

/-- The action that loses the status is an insertion. -/
theorem not_current_step {a : Action} (status : ¬a.NoStatus) (done : c.step a = some d) : ¬d.Current := by
  cases a with
  | insert edgId condorId seqcode status => exact not_current_insert status done
  | _ => exact absurd trivial status

end Closing

section Runs

variable {file : Arena Record} {actions : List Action} {final : IdContainer}

/-- Closing and opening loses nothing at any moment of a sequence of operations exactly if every
new job comes with the status 0. -/
theorem reopening_keeps_data_iff (proxyOf : String → String) (wellFormed : WellFormed file.values)
    (done : execute step Free (construct file) actions = some final) :
    (∀ before c, before <+: actions → execute step Free (construct file) before = some c →
      c.InSync proxyOf) ↔
      ∀ a ∈ actions, a.NoStatus := by
  constructor
  · intro inSync a member
    by_contra status
    obtain ⟨before, after, rfl⟩ := append_of_mem member
    obtain ⟨c, d, reached, taken, all⟩ := execute_split done
    have consistent := Consistent.run wellFormed (Runs.execute .start all)
    have current := consistent.inSync_iff.mp (inSync _ d ⟨after, by simp⟩ all)
    exact not_current_step status taken current
  · intro noStatus before c part reached
    have kept : c.Consistent ∧ c.Current := by
      refine execute_invariant (fun c => c.Consistent ∧ c.Current)
        ⟨Consistent.construct wellFormed, current_construct file⟩ ?_ reached
      rintro s a t member ⟨consistent, current⟩ taken
      exact ⟨consistent.step taken, current.step consistent (noStatus a (part.subset member)) taken⟩
    exact kept.1.inSync_iff.mpr kept.2

def unsubmitted : List Action :=
  [.insert "https://lb/a" "10" "UI=1" 0, .updatePointer 0 "LM=1" 2 1, .insert "https://lb/b" "20" "UI=2" 0]

theorem reopening_keeps_data_unsubmitted : ∃ final, execute step Free
    (construct .empty) unsubmitted = some final ∧
      ∀ before c, before <+: unsubmitted → execute step Free (construct .empty) before = some c →
        c.InSync fun _ => "/tmp/x509" := by
  have wellFormed : WellFormed (empty : Arena Record).values :=
    ⟨by simp [values, empty], nodup_nil, nodup_nil⟩
  have done : (execute step Free (construct .empty) unsubmitted).isSome := by decide +kernel
  obtain ⟨final, ran⟩ := Option.isSome_iff_exists.mp done
  exact ⟨final, ran, (reopening_keeps_data_iff _ wellFormed ran).mpr (by decide)⟩

/-- A job inserted with the status 1 has the status 0 in memory and 1 after reopening. -/
theorem reopening_changes_status :
    (execute step Free (construct .empty) [.insert "https://lb/a" "10" "UI=1" 1]).map (fun c =>
        ((c.byEdgId "https://lb/a").map (·.condorStatus),
          ((construct c.container).byEdgId "https://lb/a").map (·.condorStatus))) =
      some (some 0, some 1) := by
  decide +kernel

end Runs

/-! ### Stopping in the middle of an update -/

/-- A change of the file list, which happens as a whole or not at all. -/
inductive FileChange where
  | pushBack (r : Record)
  | erase (position : Nat)

def FileChange.write (file : Arena Record) : FileChange → Arena Record
  | .pushBack r => file.pushBack r
  | .erase position => file.erase position

def written (file : Arena Record) (changes : List FileChange) : Arena Record :=
  changes.foldl FileChange.write file

/-- The changes of the file in `update_pointer` and `increment_pointer_retry_count`. -/
def replaceChanges (p : PointerId) (changed : Record) : List FileChange :=
  [.erase p.position, .pushBack changed]

inductive Update where
  | pointer (seqcode : String) (status laststatus : Int)
  | retryCount

def Update.change : Update → PointerId → Record → Record
  | .pointer seqcode status laststatus => fun _ => updatedRecord seqcode status laststatus
  | .retryCount => fun p r => { r with retryCount := some (p.retryCount + 1) }

/-- After `k` of the changes the file still leads from the job to its cluster, with the old data
or with the new. -/
def Survives (proxyOf : String → String) (file : Arena Record) (p : PointerId) (r : Record)
    (u : Update) (k : Nat) :
    Prop :=
  ∃ q, (construct (written file ((replaceChanges p (u.change p r)).take k))).byEdgId p.edgId = some q ∧
    q.condorId = p.condorId ∧
      (q.data proxyOf = (ofRecord p.position r).data proxyOf ∨
        q.data proxyOf = (ofRecord p.position (u.change p r)).data proxyOf)

section Interrupted

variable {proxyOf : String → String} {c d : IdContainer} {position k : Nat} {p : PointerId}
  {r : Record} {u : Update}

theorem Update.keepsIds (u : Update) : KeepsIds u.change := by
  cases u with
  | pointer seqcode status laststatus => exact keepsIds_updatedRecord seqcode status laststatus
  | retryCount => exact keepsIds_retryCount

section

variable (consistent : c.Consistent) (got : c.pointers.get? position = some p)
  (present : c.container.get? p.position = some r)
include consistent got present

theorem survives_zero : Survives proxyOf c.container p r u 0 := by
  obtain ⟨r', there, edg, condor⟩ := consistent.record got
  cases present.symm.trans there
  exact ⟨_, (construct_byEdgId consistent.wellFormed).mpr ⟨p.position, r, present, edg, rfl⟩,
    (ofRecord_ids edg condor p.position).2, .inl rfl⟩

/-- Between the two changes the file has no record of the job. -/
theorem not_survives_one : ¬Survives proxyOf c.container p r u 1 := by
  obtain ⟨r', there, edg, _⟩ := consistent.record got
  cases present.symm.trans there
  rintro ⟨q, found, _⟩
  have erased : WellFormed (c.container.erase p.position).values :=
    consistent.wellFormed.sublist (filter_sublist.map Prod.snd)
  obtain ⟨n, s, more, named, _⟩ := (construct_byEdgId erased).mp found
  obtain ⟨kept, other⟩ := get?_erase_iff.mp more
  exact other (consistent.wellFormed.unique kept present (named.trans edg.symm)).1

theorem survives_both (done : c.replace position u.change = some d) (more : 2 ≤ k) :
    Survives proxyOf c.container p r u k := by
  obtain ⟨r', there, edg, condor⟩ := consistent.record got
  cases present.symm.trans there
  obtain ⟨keptEdg, keptCondor⟩ := u.keepsIds p r
  have whole : (replaceChanges p (u.change p r)).take k = replaceChanges p (u.change p r) :=
    take_of_length_le more
  have file : written c.container (replaceChanges p (u.change p r)) = d.container := by
    obtain ⟨p', r', got', present', container, _⟩ := replace_eq done
    cases got.symm.trans got'
    cases present.symm.trans present'
    exact container.symm
  have wellFormed := (consistent.replace u.keepsIds done).wellFormed
  have added : d.container.get? c.container.next = some (u.change p r) := by
    rw [← file]
    exact get?_pushBack_iff.mpr (.inr ⟨rfl, rfl⟩)
  refine ⟨.ofRecord c.container.next (u.change p r), ?_, ?_, .inr rfl⟩
  · rw [whole, file]
    exact (construct_byEdgId wellFormed).mpr ⟨c.container.next, _, added, keptEdg.trans edg, rfl⟩
  · exact (ofRecord_ids (keptEdg.trans edg) (keptCondor.trans condor) _).2

end

end Interrupted

/-- An update that stops after `k` changes of the file leaves the job with its old or its new data
exactly if it does not stop between the two changes. -/
theorem interrupted_update_iff (proxyOf : String → String) {file : Arena Record}
    (wellFormed : WellFormed file.values)
    {c : IdContainer} (run : Runs step (construct file) Free c) {position : Nat} {p : PointerId}
      {r : Record}
    (got : c.pointers.get? position = some p) (present : c.container.get? p.position = some r)
      (u : Update) (k : Nat) :
    Survives proxyOf c.container p r u k ↔ k ≠ 1 := by
  have consistent := Consistent.run wellFormed run
  constructor
  · rintro survives rfl
    exact not_survives_one consistent got present survives
  · intro other
    cases k with
    | zero => exact survives_zero consistent got present
    | succ k =>
      have done : ∃ d, c.replace position u.change = some d := by simp [replace, got, present]
      obtain ⟨d, replaced⟩ := done
      exact survives_both consistent got present replaced (by omega)

theorem interrupted_update_complete :
    Survives (fun _ => "/tmp/x509") oneJob ⟨0, "20", "https://lb/b", "UI=1", 4, undefinedStatus, 0⟩
      (newRecord "https://lb/b" "20" "UI=1" 4) (.pointer "LM=1" 2 1) 2 := by
  have wellFormed : WellFormed oneJob.values := by
    constructor <;> simp [oneJob, values, empty, newRecord]
  have got : (construct oneJob).pointers.get? 0 = some ⟨0, "20", "https://lb/b", "UI=1", 4,
      undefinedStatus, 0⟩ := by
    decide +kernel
  exact (interrupted_update_iff _ wellFormed .start got rfl _ 2).mpr (by decide)

/-- The process stops after the old record has been erased. -/
theorem interrupted_update_loses_job :
    ((construct (written oneJob ((replaceChanges ⟨0, "20", "https://lb/b", "UI=1", 4, undefinedStatus, 0⟩
        (updatedRecord "LM=1" 2 1 (newRecord "https://lb/b" "20" "UI=1" 4))).take 1))).byEdgId
          "https://lb/b") = none := by
  decide +kernel

end IdContainer

end Wms.JobControl
