import Wms.Interface.Marks
import Wms.Lib.Pool

/-! Server processes that handle requests for one job.

The processes share the events of the job, its lock files, its directory and the
JDL in it. Locks belong to processes: a query does not see the locks of the process
that makes it, and when it finds the file unlocked it closes it, which drops the
lock that process may have. A process that leaves a lock asks for it once more and
closes the file even if it does not get it, so the lock of another one stays.
-/

set_option autoImplicit false

namespace Wms.Interface

open Lib

inductive Deed where
  | aborted
  | purged (locked : Bool)
  | delivered
  deriving DecidableEq, Repr

structure Shared where
  events : List JobEvent
  holder : LockFile → Option Nat
  directory : Bool
  jdlToStart : Bool
  history : List (Nat × Deed)

/-- The status that the logging service computes from the events, and the
sequence code of the next one. -/
structure Lb where
  status : List JobEvent → JobStatus
  seqcode : List JobEvent → String

namespace Shared

variable (s : Shared)

def heldByOther (file : LockFile) (pid : Nat) : Bool := (s.holder file).any (· ≠ pid)

def isLocked : Bool := (s.holder .jobStart).isSome || (s.holder .getOutputFileList).isSome

def isAborted : Bool := s.events.any (·.type = .abort)

end Shared

def possible (lb : Lb) (s : Shared) (pid : Nat) : (call : Call) → Reply call → Bool
  | .operationLock file, none => !s.heldByOther file pid
  | .isOperationLocked file, some locked => locked == s.heldByOther file pid
  | .fileExists .directory, found => s.directory == found
  | .fileExists .jdlToStart, found => s.jdlToStart == found
  | .queryEvents, some events => events == s.events
  | .queryAbort, some found => found == s.isAborted
  | .getStatus, some status => status == lb.status s.events
  | .writeTextFile, true => s.directory
  | .rename, true => s.jdlToStart
  | _, _ => true

def eventOf : (call : Call) → Reply call → Option EventType
  | .log site _, .success => site.event
  | .logAbortEventSync _, true => some .abort
  | _, _ => none

def deedOf (s : Shared) : (call : Call) → Reply call → Option Deed
  | .log site _, .success => if site.event = some .abort then some .aborted else none
  | .logAbortEventSync _, true => some .aborted
  | .doPurge _, _ => some (.purged s.isLocked)
  | .deliver, true => some .delivered
  | _, _ => none

def holderOf (s : Shared) (pid : Nat) : (call : Call) → Reply call → LockFile → Option Nat
  | .operationLock file, none => Function.update s.holder file (some pid)
  | .operationUnlock file, _ => if s.heldByOther file pid then s.holder
      else Function.update s.holder file none
  | .isOperationLocked file, some false => Function.update s.holder file none
  | _, _ => s.holder

def directoryOf (s : Shared) : (call : Call) → Reply call → Bool
  | .doPurge _, some true => false
  | _, _ => s.directory

def jdlToStartOf (s : Shared) : (call : Call) → Reply call → Bool
  | .doPurge _, some true => false
  | .writeTextFile, true => true
  | .rename, true => false
  | _, _ => s.jdlToStart

/-- What a call with its reply does to what the processes share. -/
def after (lb : Lb) (s : Shared) (pid : Nat) (call : Call) (reply : Reply call) : Shared where
  events := s.events ++ (eventOf call reply).toList.map fun type => ⟨type, lb.seqcode s.events⟩
  holder := holderOf s pid call reply
  directory := directoryOf s call reply
  jdlToStart := jdlToStartOf s call reply
  history := s.history ++ (deedOf s call reply).toList.map fun deed => (pid, deed)

def effect (lb : Lb) : Effect Shared Call Reply := fun s pid call reply =>
  if possible lb s pid call reply then some (after lb s pid call reply) else none

theorem effect_eq_some {lb : Lb} {s t : Shared} {pid : Nat} {call : Call} {reply : Reply call} :
    effect lb s pid call reply = some t ↔ possible lb s pid call reply = true ∧
      after lb s pid call reply = t := by
  simp [effect]

section After

variable {lb : Lb} {s : Shared} {pid : Nat} {call : Call} {reply : Reply call}

theorem events_after : (after lb s pid call reply).events =
    s.events ++ (eventOf call reply).toList.map fun type => ⟨type, lb.seqcode s.events⟩ := rfl

theorem isAborted_kept (before : s.isAborted = true) : (after lb s pid call reply).isAborted = true := by
  rw [Shared.isAborted, events_after, List.any_append]
  exact Bool.or_eq_true_iff.mpr (.inl before)

theorem isAborted_logged (logged : eventOf call reply = some .abort) :
    (after lb s pid call reply).isAborted = true := by
  rw [Shared.isAborted, events_after, logged]
  simp

theorem mem_history_after {entry : Nat × Deed} : entry ∈ (after lb s pid call reply).history ↔
    entry ∈ s.history ∨ entry.1 = pid ∧ deedOf s call reply = some entry.2 := by
  obtain ⟨other, deed⟩ := entry
  cases done : deedOf s call reply <;> simp [after, done, eq_comm]

theorem deedOf_cases {deed : Deed} (done : deedOf s call reply = some deed) :
    deed = .aborted ∧ eventOf call reply = some .abort ∨
      deed = .purged s.isLocked ∧ (∃ force, call = .doPurge force) ∨ deed = .delivered ∧
        call = .deliver := by
  unfold deedOf at done
  split at done
  · split at done
    · rename_i abort
      cases done
      exact .inl ⟨rfl, abort⟩
    · cases done
  · cases done
    exact .inl ⟨rfl, rfl⟩
  · cases done
    exact .inr (.inl ⟨rfl, _, rfl⟩)
  · cases done
    exact .inr (.inr ⟨rfl, rfl⟩)
  · cases done

end After

/-! ### Requests -/

inductive Request where
  | jobStart (conf : Conf) (jdl : Jdl)
  | jobCancel
  | getOutputFileList
  | jobPurge

def Request.operation : Request → Operation Unit
  | .jobStart conf jdl => Interface.jobStart conf jdl
  | .jobCancel => Interface.jobCancel
  | .getOutputFileList => Interface.getOutputFileList
  | .jobPurge => Interface.jobPurge

/-- A process handles its requests one after the other, whatever they raise. -/
def serve : List Request → Interact Call Reply Unit
  | [] => .ret ()
  | request :: rest => (request.operation ()).bind fun _ => serve rest

abbrev Processes (γ : Type) := Pool Shared Call Reply γ

theorem shared_after {γ : Type} {lb : Lb} {m : Monitor Call Reply γ} {p q : Processes γ}
    {a : Exchanged Call Reply} (stepped : Pool.Stepped (effect lb) m p a q) :
    possible lb p.shared a.pid a.call a.reply = true ∧
      q.shared = after lb p.shared a.pid a.call a.reply := by
  obtain ⟨given, same⟩ := effect_eq_some.mp stepped.effect
  exact ⟨given, same.symm⟩

def opening {γ : Type} (s : Shared) (requests : Nat → List Request) (phase : γ) : Processes γ where
  shared := s
  program pid := serve (requests pid)
  phase _ := phase

theorem opening_obeys {γ : Type} {m : Monitor Call Reply γ} {phase : γ}
    {requests : Nat → List Request} {s : Shared}
    (between : γ → Prop) (first : between phase) (each : ∀ pid, ∀ request ∈ requests pid, ∀ g, between g →
      request.operation.Obeys m g () fun g' _ _ => between g') : (opening s requests phase).Obeys m := by
  intro pid
  have all (list : List Request) (included : ∀ request ∈ list, request ∈ requests pid) :
      ∀ g, between g → (serve list).Obeys m g fun _ _ => True := by
    induction list with
    | nil => exact fun _ _ => trivial
    | cons request rest ih =>
      intro g held
      have here := each pid request (included _ (List.mem_cons_self ..)) g held
      refine Interact.obeys_bind.mpr (Interact.Obeys.mono here fun g' _ => ?_)
      exact ih (fun other member => included other (List.mem_cons_of_mem _ member)) g'
  exact all (requests pid) (fun _ member => member) phase first

theorem opening_obeys_single {γ : Type} {m : Monitor Call Reply γ} {phase : γ}
    {requests : Nat → Option Request}
    {s : Shared} (each : ∀ pid request, requests pid = some request →
      request.operation.Obeys m phase () fun _ _ _ => True) :
    (opening s (fun pid => (requests pid).toList) phase).Obeys m := by
  intro pid
  change (serve (requests pid).toList).Obeys m phase _
  cases found : requests pid with
  | none => trivial
  | some request => exact Interact.obeys_bind.mpr (each pid request found)

/-! ### A registered job -/

def registered : Shared where
  events := [⟨.regJob "", "seqcode"⟩]
  holder _ := none
  directory := true
  jdlToStart := true
  history := []

def plainLb : Lb where
  status events :=
    if events.any fun event => event.type = .accepted then { submittedStatus with status :=
      .waiting } else submittedStatus
  seqcode _ := "seqcode"

def exchanges (x : Operation Unit) (answer : (call : Call) → Reply call) (pid : Nat) :
    List (Exchanged Call Reply) :=
  (x.calls answer ()).map fun call => ⟨pid, call, answer call⟩

end Wms.Interface
