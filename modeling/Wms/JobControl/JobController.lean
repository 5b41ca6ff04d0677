import Wms.JobControl.RamContainer
import Wms.Lib.Interact

/-! The cancellation of a job by the job controller (`JobControllerReal::cancel`).

The state is the repository in memory. Condor, its log and the repository of the log monitor are
asked; an exception ends the call.
-/

set_option autoImplicit false

namespace Wms.JobControl.JobController

open Lib

inductive GenericEvent where
  | userCancelled
  | cancelled
  deriving DecidableEq

inductive Call where
  | readRepository
  | logGenericEvent (event : GenericEvent) (cluster : Int)
  | remove (parameters : String)

@[reducible] def Reply : Call → Type
  | .readRepository => Except String (List Record)
  | .logGenericEvent _ _ => Unit
  | .remove _ => Int

abbrev Act := Dialog Call Reply RamContainer String

abbrev ask (c : Call) : Act (Reply c) := Dialog.ask c

open Dialog hiding ask

/-- The part of the constraint that names the job; without a process number it is 0. -/
def jobConstraint (condorId : String) : String :=
  match condorId.toList.dropWhile (· ≠ '.') with
  | _ :: process => "ClusterId==" ++ String.ofList (condorId.toList.takeWhile (· ≠ '.')) ++
      " && ProcId==" ++
      String.ofList process
  | [] => "ClusterId==" ++ condorId ++ " && ProcId==0"

def removal (condorId : String) : String :=
  "-constraint '" ++ jobConstraint condorId ++ " && JobStatus!=3'"

def forcedRemoval (condorId : String) : String :=
  "-f -constraint '" ++ jobConstraint condorId ++ " && JobUniverse==9 && JobGridType==\"globus\"'"

def cancelJob (condorId : String) : Act Bool := do
  if (← ask (.remove (removal condorId))) = 0 then pure true
  else pure (decide ((← ask (.remove (forcedRemoval condorId))) = 0))

/-- `lexicalCast` is the conversion to an `int`, nothing where it throws; `stale` is what an
iterator shows that is no longer valid. -/
def cancelKnown (lexicalCast : String → Option Int) (condorId : String) (logfile : Bool) : Act Bool := do
  if logfile then
    match lexicalCast condorId with
    | none => throw "bad lexical cast"
    | some icid => do
      ask (.logGenericEvent .userCancelled icid)
      let good ← cancelJob condorId
      if good then ask (.logGenericEvent .cancelled icid)
      pure good
  else cancelJob condorId

def cancel (lexicalCast : String → Option Int) (stale : Nat → Pair) (id : String) (logfile : Bool) :
    Act Bool := do
  let repository ← get
  let condorId := (repository.condorId stale id).getD ""
  if condorId = "" then do
    let records ← ofExcept (← ask .readRepository)
    -- the identifier is looked up again, and not used
    modify fun _ => RamContainer.construct records
    pure true
  else cancelKnown lexicalCast condorId logfile

variable {env : (c : Call) → Reply c} {c : RamContainer} {lexicalCast : String → Option Int}
  {stale : Nat → Pair}
  {id condorId : String} {logfile : Bool}

/-- A removal was issued for the cluster and succeeded. -/
def Removed (env : (c : Call) → Reply c) (calls : List Call) (condorId : String) : Prop :=
  ∃ parameters, parameters ∈ [removal condorId, forcedRemoval condorId] ∧ .remove parameters ∈ calls ∧
    env (.remove parameters) = (0 : Int)

/-- The job has a cluster in memory, or after the repository is read again. -/
def InMemory (stale : Nat → Pair) (c : RamContainer) (id condorId : String) : Prop :=
  c.condorId stale id = some condorId ∧ condorId ≠ ""

def AfterReading (env : (c : Call) → Reply c) (stale : Nat → Pair) (id condorId : String) : Prop :=
  ∃ records, env .readRepository = .ok records ∧ InMemory stale (.construct records) id condorId

theorem cancelKnown_removed (told : ((cancelKnown lexicalCast condorId logfile).result env c).1 =
    .ok true) :
    Removed env ((cancelKnown lexicalCast condorId logfile).calls env c) condorId := by
  -- the command that has answered 0 is the first one, or else the forced one
  by_cases first : env (.remove (removal condorId)) = (0 : Int)
  · refine ⟨_, List.mem_cons_self, ?_, first⟩
    cases logfile with
    | false => simp [cancelKnown, cancelJob]
    | true => cases cast : lexicalCast condorId <;> simp_all [cancelKnown, cancelJob]
  · by_cases second : env (.remove (forcedRemoval condorId)) = (0 : Int)
    · refine ⟨_, List.mem_cons_of_mem _ List.mem_cons_self, ?_, second⟩
      cases logfile with
      | false => simp [cancelKnown, cancelJob, first]
      | true => cases cast : lexicalCast condorId <;> simp_all [cancelKnown, cancelJob]
    · cases logfile with
      | false => simp [cancelKnown, cancelJob, first, second] at told
      | true => cases cast : lexicalCast condorId <;> simp_all [cancelKnown, cancelJob]

/-- For a job that the repository knows, the answer true means a removal iff the job is in memory.
-/
theorem cancel_true_iff (known : InMemory stale c id condorId ∨
      (c.condorId stale id).getD "" = "" ∧ AfterReading env stale id condorId) :
    (((cancel lexicalCast stale id logfile).result env c).1 = .ok true →
      Removed env ((cancel lexicalCast stale id logfile).calls env c) condorId) ↔
        InMemory stale c id condorId := by
  rcases known with ⟨here, filled⟩ | ⟨absent, records, read, -⟩
  · refine iff_of_true (fun told => ?_) ⟨here, filled⟩
    simp only [cancel, result_get_bind, calls_get_bind, here, Option.getD_some, if_neg filled] at told ⊢
    exact cancelKnown_removed told
  · refine iff_of_false (fun sound => ?_) fun ⟨here, nonempty⟩ => nonempty (by rwa [here] at absent)
    have told : (cancel lexicalCast stale id logfile).result env c = (.ok true, .construct records) := by
      simp [cancel, absent, read, Dialog.ofExcept]
    obtain ⟨parameters, -, issued, -⟩ := sound (by rw [told])
    simp [cancel, absent, read, Dialog.ofExcept] at issued

def records : List Record := [⟨some "7", some "https://lb/a", none, none, none, none⟩]

def willing : (c : Call) → Reply c
  | .readRepository => .ok records
  | .logGenericEvent _ _ => ()
  | .remove _ => (0 : Int)

theorem cancel_true_iff_one : InMemory (fun _ => ⟨"", ""⟩) (.construct records) "https://lb/a" "7" ∧
    Removed willing ((cancel (fun _ => none) (fun _ => ⟨"", ""⟩) "https://lb/a" false).calls willing
      (.construct records)) "7" :=
  have here : InMemory (fun _ => ⟨"", ""⟩) (.construct records) "https://lb/a" "7" :=
    ⟨by decide, by decide⟩
  ⟨here, (cancel_true_iff (.inl here)).mpr here rfl⟩

/-- The job is found only when the repository is read again: the answer is true, and no removal has
been issued. -/
theorem cancel_true_without_removal : AfterReading willing (fun _ => ⟨"", ""⟩) "https://lb/a" "7" ∧
    ((cancel (fun _ => none) (fun _ => ⟨"", ""⟩) "https://lb/a" false).result willing
      (.construct [])).1 = .ok true ∧
    (cancel (fun _ => none) (fun _ => ⟨"", ""⟩) "https://lb/a" false).calls willing
      (.construct []) = [.readRepository] :=
  ⟨⟨records, rfl, by decide, by decide⟩, rfl, rfl⟩

end Wms.JobControl.JobController
