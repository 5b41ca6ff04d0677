import Mathlib.Data.List.Basic

/-! Steps that fork a process to run a command.

What `fork`, `execv` and `waitpid` do is given: the outcome of a step is a tree with a branch for
every process that was forked. A process whose `execv` succeeds is gone; any other one comes back to
the caller, with the value that the step returns there. Where a command line is too long it is run
in two halves, the first one by another process.
-/

set_option autoImplicit false

namespace Wms.Interface.Spawning

inductive Origin where
  | caller
  | forked
  deriving DecidableEq, Repr

structure Returned where
  origin : Origin
  value : Int
  deriving DecidableEq, Repr

/-- What has become of the calling process and of the processes forked in a step, and the commands
that were given to `execv`. -/
structure Spawned where
  returned : List Returned
  commands : List (List String)
  deriving DecidableEq, Repr

def success : Int := 0
def scriptFailure : Int := 1
def execFailure : Int := 2
def forkFailure : Int := -1
def coredumpFailure : Int := -2

/-! ### The status of a child -/

def wExitStatus (status : Nat) : Nat := (status >>> 8) &&& 0xff
def wCoreDump (status : Nat) : Bool := status &&& 0x80 ≠ 0

def parentValue (status : Nat) : Int :=
  if wCoreDump status then coredumpFailure else if status ≠ 0 then wExitStatus status else success

/-! ### `doExecv` -/

inductive ExecvOutcome where
  | forkFails
  /-- The error of `execv`, if it returns in the child, and the status the parent waits for. -/
  | forks (error : Option Nat) (status : Nat)
  deriving DecidableEq, Repr

/-- The child that was not replaced returns as well. -/
def doExecv (command : String) (params : List String) : ExecvOutcome → Spawned
  | .forkFails => ⟨[⟨.caller, forkFailure⟩], []⟩
  | .forks error status =>
    let child := error.toList.map fun errno => ⟨.forked, if errno ≠ 0 then execFailure else scriptFailure⟩
    ⟨child ++ [⟨.caller, parentValue status⟩], [command :: params]⟩

/-! ### `doExecvSplit` -/

inductive SplitOutcome where
  | replaced
  | fails
  | tooBigForkFails
  /-- The first half is run by a child; the second one only matters if its status is zero. -/
  | tooBig (first : SplitOutcome) (status : Nat) (second : SplitOutcome)
  deriving DecidableEq, Repr

def levelValue (value : Int) : Int := if value ≠ 0 then execFailure else success

def Spawned.inChild (spawned : Spawned) : Spawned :=
  { spawned with returned := spawned.returned.map fun r => ⟨.forked, levelValue r.value⟩ }

def Spawned.inParent (spawned : Spawned) : Spawned :=
  { spawned with returned := spawned.returned.map fun r => ⟨r.origin, levelValue r.value⟩ }

def Spawned.both (first second : Spawned) : Spawned :=
  ⟨first.returned ++ second.returned, first.commands ++ second.commands⟩

/-- `startIndex + (endIndex - startIndex) / 2` of unsigned numbers -/
def middle (startIndex endIndex : UInt32) : UInt32 := startIndex + (endIndex - startIndex) / 2

def commandLine (command : String) (params dirs : List String) (startIndex endIndex : UInt32) :
    List String :=
  command :: params ++ (dirs.take (endIndex.toNat + 1)).drop startIndex.toNat

def doExecvSplit (command : String) (params dirs : List String) (startIndex endIndex : UInt32) :
    SplitOutcome → Spawned
  | .replaced => ⟨[], [commandLine command params dirs startIndex endIndex]⟩
  | .fails => ⟨[⟨.caller, success⟩], [commandLine command params dirs startIndex endIndex]⟩
  | .tooBigForkFails => ⟨[⟨.caller, forkFailure⟩], [commandLine command params dirs startIndex endIndex]⟩
  | .tooBig first status second =>
    let tried : Spawned := ⟨[], [commandLine command params dirs startIndex endIndex]⟩
    let child := (doExecvSplit command params dirs startIndex (middle startIndex endIndex) first).inChild
    let parent :=
      if status ≠ 0 then ⟨[⟨.caller, execFailure⟩], []⟩
      else (doExecvSplit command params dirs (middle startIndex endIndex + 1) endIndex second).inParent
    tried.both (child.both parent)

/-! ### `doExecv` for directories -/

inductive ExecvDirsOutcome where
  | forkFails
  | forks (child : SplitOutcome) (status : Nat)
  deriving DecidableEq, Repr

/-- A child that comes back from `doExecvSplit` falls out of the switch. -/
def doExecvDirs (command : String) (params dirs : List String) (startIndex endIndex : UInt32) :
    ExecvDirsOutcome → Spawned
  | .forkFails => ⟨[⟨.caller, forkFailure⟩], []⟩
  | .forks child status =>
    let split := doExecvSplit command params dirs startIndex endIndex child
    ⟨split.returned.map (fun _ => ⟨.forked, success⟩) ++ [⟨.caller, parentValue status⟩], split.commands⟩

/-! ### The renewal of a proxy -/

structure Renewal where
  timeout : String
  myproxyserver : String
  certfile : String

def Renewal.args (r : Renewal) : List String :=
  ["/usr/bin/glite-wms-ice-proxy-renew", "--timeout", r.timeout, "-s", r.myproxyserver, "-p",
    r.certfile, "-o",
    r.certfile ++ ".renewed"]

/-- The part of `renewAllDelegations` that runs the command; what comes back goes on in the loop
over the delegations, whatever the status was. -/
def renewProxy (r : Renewal) : ExecvOutcome → Spawned
  | .forkFails => ⟨[⟨.caller, success⟩], []⟩
  | .forks error _ => ⟨error.toList.map (fun _ => ⟨.forked, success⟩) ++ [⟨.caller, success⟩], [r.args]⟩

/-! ### Who comes back -/

inductive Step where
  | doExecv (command : String) (params : List String) (outcome : ExecvOutcome)
  | doExecvDirs (command : String) (params dirs : List String) (startIndex endIndex : UInt32)
      (outcome : ExecvDirsOutcome)
  | doExecvSplit (command : String) (params dirs : List String) (startIndex endIndex : UInt32)
      (outcome : SplitOutcome)
  | renewProxy (renewal : Renewal) (outcome : ExecvOutcome)

def Step.spawned : Step → Spawned
  | .doExecv command params outcome => Spawning.doExecv command params outcome
  | .doExecvDirs command params dirs startIndex endIndex outcome =>
    Spawning.doExecvDirs command params dirs startIndex endIndex outcome
  | .doExecvSplit command params dirs startIndex endIndex outcome =>
    Spawning.doExecvSplit command params dirs startIndex endIndex outcome
  | .renewProxy renewal outcome => Spawning.renewProxy renewal outcome

/-- Exactly the calling process goes on. -/
def OnlyCaller (spawned : Spawned) : Prop := spawned.returned.map Returned.origin = [.caller]

def ExecvOutcome.Replaced : ExecvOutcome → Prop
  | .forkFails => True
  | .forks error _ => error = none

/-- Every process is replaced in the end: its `execv` succeeds, or the line is too long and both
halves are run by processes that are replaced, the second one since the first has ended well. -/
def SplitOutcome.Vanishes : SplitOutcome → Prop
  | .replaced => True
  | .fails | .tooBigForkFails => False
  | .tooBig first status second => first.Vanishes ∧ status = 0 ∧ second.Vanishes

def SplitOutcome.CallerStays : SplitOutcome → Prop
  | .replaced => False
  | .fails | .tooBigForkFails => True
  | .tooBig first status second => first.Vanishes ∧ (status = 0 → second.CallerStays)

def ExecvDirsOutcome.Replaced : ExecvDirsOutcome → Prop
  | .forkFails => True
  | .forks child _ => child.Vanishes

def Step.Replaced : Step → Prop
  | .doExecv _ _ outcome | .renewProxy _ outcome => outcome.Replaced
  | .doExecvDirs _ _ _ _ _ outcome => outcome.Replaced
  | .doExecvSplit _ _ _ _ _ outcome => outcome.CallerStays

theorem origins_append {child parent : List Returned} (forked : ∀ r ∈ child, r.origin = .forked) :
    (child ++ parent).map Returned.origin = [.caller] ↔ child = [] ∧
      parent.map Returned.origin = [.caller] := by
  cases child with
  | nil => simp
  | cons r rest =>
    have first : r.origin ≠ .caller := by simp [forked r (List.mem_cons_self ..)]
    simp [first]

theorem doExecv_onlyCaller {command : String} {params : List String} {outcome : ExecvOutcome} :
    OnlyCaller (doExecv command params outcome) ↔ outcome.Replaced := by
  cases outcome with
  | forkFails => simp [OnlyCaller, doExecv, ExecvOutcome.Replaced]
  | forks error status =>
    refine (origins_append (by simp)).trans ?_
    cases error <;> simp [ExecvOutcome.Replaced]

theorem renewProxy_onlyCaller {renewal : Renewal} {outcome : ExecvOutcome} :
    OnlyCaller (renewProxy renewal outcome) ↔ outcome.Replaced := by
  cases outcome with
  | forkFails => simp [OnlyCaller, renewProxy, ExecvOutcome.Replaced]
  | forks error status =>
    refine (origins_append (by simp)).trans ?_
    cases error <;> simp [ExecvOutcome.Replaced]

section Split

variable {command : String} {params dirs : List String} {startIndex endIndex : UInt32}

theorem doExecvSplit_returned_eq_nil {outcome : SplitOutcome} :
    (doExecvSplit command params dirs startIndex endIndex outcome).returned = [] ↔ outcome.Vanishes := by
  induction outcome generalizing startIndex endIndex with
  | replaced | fails | tooBigForkFails => simp [doExecvSplit, SplitOutcome.Vanishes]
  | tooBig first status second ihFirst ihSecond =>
    by_cases ended : status = 0 <;>
      simp [doExecvSplit, Spawned.both, Spawned.inChild, Spawned.inParent, SplitOutcome.Vanishes,
        ended, ihFirst, ihSecond]

theorem doExecvSplit_onlyCaller {outcome : SplitOutcome} :
    OnlyCaller (doExecvSplit command params dirs startIndex endIndex outcome) ↔ outcome.CallerStays := by
  induction outcome generalizing startIndex endIndex with
  | replaced | fails | tooBigForkFails => simp [OnlyCaller, doExecvSplit, SplitOutcome.CallerStays]
  | tooBig first status second _ ihSecond =>
    have forked : ∀ r ∈ (doExecvSplit command params dirs startIndex (middle startIndex endIndex)
        first).inChild.returned,
        r.origin = .forked := by simp [Spawned.inChild]
    unfold OnlyCaller doExecvSplit SplitOutcome.CallerStays
    simp only [Spawned.both, List.nil_append]
    rw [origins_append forked]
    refine and_congr ?_ ?_
    · simp [Spawned.inChild, doExecvSplit_returned_eq_nil]
    · -- the parent goes on to the second half only after a child that has ended well
      by_cases ended : status = 0
      · simpa [ended, Spawned.inParent, OnlyCaller, Function.comp_def] using ihSecond
      · simp [ended]

theorem doExecvDirs_onlyCaller {outcome : ExecvDirsOutcome} :
    OnlyCaller (doExecvDirs command params dirs startIndex endIndex outcome) ↔ outcome.Replaced := by
  cases outcome with
  | forkFails => simp [OnlyCaller, doExecvDirs, ExecvDirsOutcome.Replaced]
  | forks child status =>
    refine (origins_append (by simp)).trans ?_
    simp [ExecvDirsOutcome.Replaced, doExecvSplit_returned_eq_nil]

end Split

/-- Exactly the calling process goes on after a step if and only if every process forked in it is
replaced by the command, and for `doExecvSplit` the calling one is not. -/
theorem only_caller_iff (step : Step) : OnlyCaller step.spawned ↔ step.Replaced := by
  cases step with
  | doExecv command params outcome => exact doExecv_onlyCaller
  | doExecvDirs command params dirs startIndex endIndex outcome => exact doExecvDirs_onlyCaller
  | doExecvSplit command params dirs startIndex endIndex outcome => exact doExecvSplit_onlyCaller
  | renewProxy renewal outcome => exact renewProxy_onlyCaller

/-- The command does not exist, and the child ends later with status 0. -/
theorem child_comes_back :
    (doExecv "dirmanager" [] (.forks (some 2) 0)).returned = [⟨.forked, execFailure⟩, ⟨.caller, success⟩] ∧
      (doExecvDirs "dirmanager" [] ["/a"] 0 0 (.forks .fails 0)).returned =
        [⟨.forked, success⟩, ⟨.caller, success⟩] ∧
      (doExecvSplit "dirmanager" [] ["/a", "/b"] 0 1 (.tooBig .fails 0 .replaced)).returned =
        [⟨.forked, success⟩] ∧
      (renewProxy ⟨"60", "myproxy", "/proxy"⟩ (.forks (some 2) 0)).returned =
        [⟨.forked, success⟩, ⟨.caller, success⟩] := by
  decide

end Wms.Interface.Spawning
