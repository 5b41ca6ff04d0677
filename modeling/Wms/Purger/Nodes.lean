import Wms.Manager.Submission

/-! The purger, called with one job (`Purger::operator()`).

A dag is removed with its nodes. A node is meant to be left alone unless nodes,
or nodes whose parent is gone, are to be removed; but the test for ordinary jobs
at the end does not ask whether the job is a node.
-/

set_option autoImplicit false

namespace Wms.Purger

open Manager (JobState)

structure Settings where
  haveLbProxy : Bool
  threshold : Int
  skipStatusChecking : Bool
  forceOrphanNodeRemoval : Bool
  forceDagNodeRemoval : Bool

inductive JobType where
  | simple
  | dag
  | collection
  | other
  deriving DecidableEq, Repr

structure JobStat where
  state : JobState
  jobtype : JobType
  parentJob : Option String
  children : List String
  lastUpdateTime : Int

inductive Query where
  | known (status : JobStat)
  /-- `EIDRM` or `ENOENT` -/
  | unknown
  | failed

inductive Context where
  | plain
  | proxy
  deriving DecidableEq, Repr

/-- What L&B, the clock and the file system answer; the directory of a job goes
by the job's identifier. -/
structure World (JobId : Type) where
  createContext : Bool
  createContextProxy : Bool
  query : Query
  /-- The readings of the clock in the test for dags and in the one for ordinary jobs. -/
  dagTime : Int
  jobTime : Int
  jobId : String → Option JobId
  exists? : JobId → Option Bool
  removeAll : JobId → Bool
  logClear : Context → JobId → Bool

structure Purged (JobId : Type) where
  removed : List JobId
  /-- `none` if an exception leaves the call. -/
  result : Option Bool

def isThresholdOvercome (now : Int) (status : JobStat) (threshold : Int) : Bool :=
  now - status.lastUpdateTime > threshold

def isStatusRemovable (status : JobStat) : Bool :=
  match status.state with
  | .cancelled | .cleared | .aborted | .done => true
  | _ => false

def isDag (status : JobStat) : Bool := status.jobtype = .dag || status.jobtype = .collection

/-- The job may be removed by its state and its age. -/
def due (s : Settings) (now : Int) (status : JobStat) : Bool :=
  (s.skipStatusChecking || isStatusRemovable status) &&
    (s.threshold = 0 || isThresholdOvercome now status s.threshold)

variable {JobId : Type}

def removePath (w : World JobId) (ctx : Context) (id : JobId) : Purged JobId :=
  ⟨[id], some (w.removeAll id && w.logClear ctx id)⟩

/-- The children that are reached before one whose identifier is malformed. -/
def reached (w : World JobId) : List String → List JobId
  | [] => []
  | child :: rest => (w.jobId child).elim [] fun id => id :: reached w rest

def removeDag (w : World JobId) (ctx : Context) (id : JobId) (children : List String) : Purged JobId :=
  if children.all fun child => (w.jobId child).isSome then
    let own := removePath w ctx id
    { own with removed := reached w children ++ own.removed }
  else ⟨reached w children, none⟩

/-- Whether the directory of the parent is gone; an exception on the way is caught. -/
def isOrphan (w : World JobId) (parent : String) : Option Bool :=
  (w.jobId parent).bind fun id => (w.exists? id).map (!·)

def removeJob (s : Settings) (w : World JobId) (ctx : Context) (id : JobId) (status : JobStat) :
    Purged JobId :=
  if due s w.jobTime status then removePath w ctx id else ⟨[], some false⟩

def removeKnown (s : Settings) (w : World JobId) (ctx : Context) (id : JobId) (status : JobStat) :
    Purged JobId :=
  if isDag status && due s w.dagTime status then removeDag w ctx id status.children
  else match status.parentJob with
    | none => removeJob s w ctx id status
    | some parent =>
      if s.forceDagNodeRemoval then removePath w ctx id
      else if s.forceOrphanNodeRemoval then
        match isOrphan w parent with
        | none => ⟨[], some false⟩
        | some true => removePath w ctx id
        | some false => removeJob s w ctx id status
      else removeJob s w ctx id status

def purge (s : Settings) (w : World JobId) (id : JobId) : Purged JobId :=
  if w.createContext then
    let proxyCtx := if w.createContextProxy then .proxy else .plain
    let ctx : Context := if s.haveLbProxy then proxyCtx else .plain
    match w.query with
    | .known status => removeKnown s w ctx id status
    | .unknown => removePath w ctx id
    | .failed => ⟨[], some false⟩
  else ⟨[], some false⟩

/-! ### Nodes -/

variable {s : Settings} {w : World JobId} {id : JobId} {status : JobStat} {parent : String} {ctx : Context}

def Allowed (s : Settings) (w : World JobId) (parent : String) : Prop :=
  s.forceDagNodeRemoval = true ∨ s.forceOrphanNodeRemoval = true ∧ isOrphan w parent = some true

theorem mem_removeDag {children : List String} : id ∈ (removeDag w ctx id children).removed ↔
    id ∈ reached w children ∨ ∀ child ∈ children, w.jobId child ≠ none := by
  unfold removeDag
  split
  · rename_i all
    refine iff_of_true (by simp [removePath]) (.inr ?_)
    simpa [Option.isSome_iff_ne_none] using all
  · rename_i malformed
    have malformed : ¬∀ child ∈ children, w.jobId child ≠ none := by
      simpa [Option.isSome_iff_ne_none] using malformed
    exact (or_iff_left malformed).symm

theorem mem_removeJob : id ∈ (removeJob s w ctx id status).removed ↔ due s w.jobTime status = true := by
  unfold removeJob
  split <;> simp_all [removePath]

/-- A node that may not be removed is removed all the same as a dag or as an ordinary job. -/
theorem mem_removeKnown (node : status.parentJob = some parent) (refused : ¬Allowed s w parent) :
    id ∈ (removeKnown s w ctx id status).removed ↔
      if isDag status && due s w.dagTime status then
        id ∈ reached w status.children ∨ ∀ child ∈ status.children, w.jobId child ≠ none
      else due s w.jobTime status = true ∧
        ¬(s.forceOrphanNodeRemoval = true ∧ isOrphan w parent = none) := by
  obtain ⟨unforced, kept⟩ := not_or.mp refused
  unfold removeKnown
  split
  · exact mem_removeDag
  · simp only [node]
    cases wanted : s.forceOrphanNodeRemoval with
    | false => simp [mem_removeJob]
    | true =>
      rcases gone : isOrphan w parent with _ | _ | _
      · simp
      · simp [mem_removeJob]
      · exact absurd ⟨wanted, gone⟩ kept

/-- A node is removed only where that is asked for if and only if no other test lets it through. -/
theorem node_spared_iff (s : Settings) (w : World JobId) (id : JobId) (status : JobStat) (parent : String)
    (known : w.query = .known status) (node : status.parentJob = some parent) :
    (id ∈ (purge s w id).removed → Allowed s w parent) ↔ Allowed s w parent ∨ w.createContext = false ∨
      if isDag status && due s w.dagTime status then
        id ∉ reached w status.children ∧ ∃ child ∈ status.children, w.jobId child = none
      else due s w.jobTime status = false ∨ s.forceOrphanNodeRemoval = true ∧
        isOrphan w parent = none := by
  by_cases allowed : Allowed s w parent
  · exact iff_of_true (fun _ => allowed) (.inl allowed)
  · unfold purge
    cases w.createContext with
    | false => simp
    | true =>
      simp only [known, if_true, allowed, imp_false, false_or, mem_removeKnown node allowed,
        Bool.true_eq_false]
      split
      · simp
      · rw [not_and_or, not_not, Bool.not_eq_true]

def finishedNode : JobStat := ⟨.done, .simple, some "parent", [], 0⟩

def forgetful (status : JobStat) : World String :=
  ⟨true, true, .known status, 100, 100, some, fun _ => some true,
  fun _ => true, fun _ _ => true⟩

theorem running_node_spared : "node" ∉ (purge ⟨false, 0, false, true, false⟩
    (forgetful { finishedNode with state := .running }) "node").removed := by
  intro removed
  rcases (node_spared_iff ⟨false, 0, false, true, false⟩ (forgetful { finishedNode with state :=
    .running }) "node" _ _
    rfl rfl).mpr (.inr (.inr (by decide))) removed with forced | orphan
  · cases forced
  · cases orphan.2

/-- The parent's directory exists and no removal of nodes is asked for. -/
theorem finished_node_removed : "node" ∈
    (purge ⟨false, 0, true, false, false⟩ (forgetful finishedNode) "node").removed ∧
    ¬Allowed ⟨false, 0, true, false, false⟩ (forgetful finishedNode) "parent" := by
  unfold Allowed
  decide

end Wms.Purger
