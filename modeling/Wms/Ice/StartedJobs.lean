import Mathlib.Data.List.Nodup
import Wms.Ice.Database
import Wms.Lib.Transition

/-! The table of started jobs.

A thread that has registered a job reads the clock and records the job. The table has a unique index
on the time, and the statement that a thread executes again after an error is still the same one.
-/

set_option autoImplicit false

namespace Wms.Ice.StartedJobs

open Lib List

structure Row where
  timestamp : Nat
  ceurl : String
  gridJobId : String
  creamJobId : String
  deriving DecidableEq, Repr

inductive Thread where
  | idle
  | inserting (row : Row) (retry : Nat)
  deriving DecidableEq, Repr

structure State where
  table : List Row
  thread : Nat → Thread
  executed : List Row
  violated : Bool
  exited : Bool

inductive Action where
  | registered (thread : Nat) (now : Nat) (ceurl gridJobId creamJobId : String)
  | insert (thread : Nat)
  | locked (thread : Nat)
  deriving DecidableEq, Repr

/-- `CREATE UNIQUE INDEX timestamp_startedjobs_index ON started_jobs (timestamp)` -/
def refused (table : List Row) (row : Row) : Bool := table.any fun other => other.timestamp = row.timestamp

def proceed (s : State) (thread : Nat) (row : Row) (retry : Nat) (code : Code) : State :=
  match judge retry code with
  | .returns => { s with thread := Function.update s.thread thread .idle }
  | .again retry => { s with thread := Function.update s.thread thread (.inserting row retry) }
  | .exits => { s with exited := true }

def step (s : State) (action : Action) : Option State :=
  if s.exited then none
  else match action with
    | .registered thread now ceurl gridJobId creamJobId =>
      match s.thread thread with
      | .idle =>
        some { s with thread := Function.update s.thread thread (.inserting ⟨now, ceurl, gridJobId,
          creamJobId⟩ 0) }
      | _ => none
    | .insert thread =>
      match s.thread thread with
      | .inserting row retry =>
        let s := { s with executed := s.executed ++ [row] }
        if refused s.table row then some (proceed { s with violated := true } thread row retry .error)
        else some (proceed { s with table := s.table ++ [row] } thread row retry .ok)
      | _ => none
    | .locked thread =>
      match s.thread thread with
      | .inserting row retry => some (proceed s thread row retry .locked)
      | _ => none

def start (table : List Row) : State where
  table := table
  thread _ := .idle
  executed := []
  violated := false
  exited := false

/-! ### What a step does -/

section Steps

variable {s t : State} {action : Action}

structure Quiet (s t : State) : Prop where
  table : t.table = s.table
  executed : t.executed = s.executed
  violated : t.violated = s.violated
  exited : t.exited = s.exited

theorem proceed_kept (s : State) (thread : Nat) (row : Row) (retry : Nat) (code : Code) :
    (proceed s thread row retry code).table = s.table ∧
      (proceed s thread row retry code).executed = s.executed ∧
      (proceed s thread row retry code).violated = s.violated := by
  unfold proceed
  split <;> exact ⟨rfl, rfl, rfl⟩

theorem proceed_exited {thread : Nat} {row : Row} {retry : Nat} {code : Code} (fine : code ≠ .error) :
    (proceed s thread row retry code).exited = s.exited := by
  cases code with
  | error => exact absurd rfl fine
  | ok | busy | locked => rfl

theorem step_cases (taken : step s action = some t) :
    s.exited = false ∧ (Quiet s t ∨ ∃ row, t.executed = s.executed ++ [row] ∧
      (refused s.table row = true ∧ t.table = s.table ∧ t.violated = true ∨
        refused s.table row = false ∧ t.table = s.table ++ [row] ∧ t.violated = s.violated ∧
          t.exited = s.exited)) := by
  unfold step at taken
  split at taken
  · cases taken
  · rename_i running
    refine ⟨by simpa using running, ?_⟩
    split at taken
    · split at taken
      · cases taken
        exact .inl ⟨rfl, rfl, rfl, rfl⟩
      · cases taken
    · split at taken
      · rename_i thread _ row retry _
        simp only at taken
        refine .inr ⟨row, ?_⟩
        split at taken
        · rename_i duplicate
          cases taken
          obtain ⟨table, executed, violated⟩ := proceed_kept
            { s with executed := s.executed ++ [row], violated := true } thread row retry .error
          exact ⟨executed, .inl ⟨duplicate, table, violated⟩⟩
        · rename_i single
          cases taken
          obtain ⟨table, executed, violated⟩ := proceed_kept
            { s with executed := s.executed ++ [row], table := s.table ++ [row] } thread row retry .ok
          exact ⟨executed, .inr ⟨by simpa using single, table, violated, proceed_exited nofun⟩⟩
      · cases taken
    · split at taken
      · rename_i thread _ row retry _
        cases taken
        obtain ⟨table, executed, violated⟩ := proceed_kept s thread row retry .locked
        exact .inl ⟨table, executed, violated, proceed_exited nofun⟩
      · cases taken

end Steps

/-! ### One statement a second -/

variable {table : List Row} {s t : State} {actions : List Action}

/-- Either nothing was refused, and the table holds what was executed, or two
statements came with one time. -/
structure Recorded (table : List Row) (s : State) : Prop where
  clean : s.violated = false → s.exited = false ∧ s.table = table ++ s.executed ∧
    (s.table.map Row.timestamp).Nodup
  twice : s.violated = true → ¬((table ++ s.executed).map Row.timestamp).Nodup

theorem refused_iff {table : List Row} {row : Row} :
    refused table row = true ↔ row.timestamp ∈ table.map Row.timestamp := by
  simp [refused]

theorem Recorded.step (recorded : Recorded table s) {action : Action} (taken : step s action = some t) :
    Recorded table t := by
  obtain ⟨_, quiet | ⟨row, executed, ⟨duplicate, _, violated⟩ | ⟨single, inserted, violated,
    exited⟩⟩⟩ := step_cases taken
  · exact ⟨by rw [quiet.violated, quiet.exited, quiet.table, quiet.executed]; exact recorded.clean,
      by rw [quiet.violated, quiet.executed]; exact recorded.twice⟩
  · refine ⟨fun clean => absurd violated (by simp [clean]), fun _ distinct => ?_⟩
    rw [executed, ← append_assoc, map_append] at distinct
    cases before : s.violated with
    | true => exact recorded.twice before distinct.of_append_left
    | false =>
      obtain ⟨_, same, _⟩ := recorded.clean before
      rw [← same] at distinct
      exact disjoint_of_nodup_append distinct (refused_iff.mp duplicate) (by simp)
  · refine ⟨fun clean => ?_, fun broken => ?_⟩
    · obtain ⟨running, same, distinct⟩ := recorded.clean (violated ▸ clean)
      refine ⟨exited.trans running, by rw [inserted, executed, same, append_assoc], ?_⟩
      rw [inserted, map_append]
      refine distinct.append (nodup_singleton _) ?_
      intro time member same
      rw [map_singleton, mem_singleton] at same
      subst same
      rw [← refused_iff, single] at member
      cases member
    · intro distinct
      rw [executed, ← append_assoc, map_append] at distinct
      exact recorded.twice (violated ▸ broken) distinct.of_append_left

theorem recorded_execute (distinct : (table.map Row.timestamp).Nodup)
    (reached : Lib.execute step Free (start table) actions = some s) : Recorded table s := by
  have initial : Recorded table (start table) :=
    ⟨fun _ => ⟨rfl, (append_nil _).symm, distinct⟩, fun broken => by cases broken⟩
  exact (Runs.start.execute reached).invariant initial fun _ _ _ recorded _ taken => recorded.step taken

/-- The index is respected, and the process goes on, exactly if no two statements that were
executed, and no row that was there before, have the same time. -/
theorem uniqueness_kept_iff (table : List Row) (distinct : (table.map Row.timestamp).Nodup)
    (actions : List Action) (reached : Lib.execute step Free (start table) actions = some s) :
    (s.violated = false ∧ s.exited = false) ↔ ((table ++ s.executed).map Row.timestamp).Nodup := by
  have recorded := recorded_execute distinct reached
  constructor
  · rintro ⟨clean, _⟩
    obtain ⟨_, same, distinct⟩ := recorded.clean clean
    rwa [← same]
  · intro distinct
    cases violated : s.violated with
    | true => exact absurd distinct (recorded.twice violated)
    | false => exact ⟨rfl, (recorded.clean violated).1⟩

def twoSubmissions (first second : Nat) : List Action :=
  [.registered 0 first "https://ce" "https://lb/1" "CREAM1", .insert 0,
    .registered 1 second "https://ce" "https://lb/2" "CREAM2", .insert 1]

theorem uniqueness_kept_two_seconds :
    ∃ s, Lib.execute step Free (start []) (twoSubmissions 1 2) = some s ∧ s.violated = false ∧
      s.exited = false :=
  ⟨_, rfl, (uniqueness_kept_iff [] nodup_nil (twoSubmissions 1 2) rfl).mpr (by decide)⟩

/-- Two jobs are registered in one second; the second statement is executed five
times and ends the process. -/
theorem exits_same_second :
    ∃ s, Lib.execute step Free (start []) (twoSubmissions 1 1 ++ List.replicate 4 (.insert 1)) = some s ∧
      s.violated = true ∧ s.exited = true :=
  ⟨_, rfl, rfl, rfl⟩

end Wms.Ice.StartedJobs
