import Mathlib.Data.Finset.Basic
import Wms.Lib.Transition

/-! The thread pool of ICE.

Commands wait in a queue. In its locked section a worker takes the first command
whose job is not pending, or waits; it executes the command without the lock and
then removes its job from the pending ones. A command is asked for its job again
each time, and for some of them the answer depends on the clock.
-/

set_option autoImplicit false

namespace Wms.Ice.ThreadPool

open Lib Function List

/-- A command in the queue, with the number of commands that were added before it. -/
structure Request (κ : Type) where
  number : Nat
  command : κ

inductive Worker (κ ι : Type) where
  | ready
  | waiting
  | executing (request : Request κ) (job : ι)
  | ended

structure State (κ ι : Type) where
  queue : List (Request κ)
  added : Nat
  pending : Finset ι
  numRunning : Int
  worker : Nat → Worker κ ι
  stopped : Nat → Bool
  /-- Which worker has taken which request, in order. -/
  started : List (Nat × Request κ)
  terminated : Bool

/-- The readings of the clock in a locked section: one for each command that `get_first_request`
looks at, for each of its two calls, and the one for the insertion. -/
structure Readings (τ : Type) where
  first : Nat → τ
  second : Nat → τ
  inserted : τ

inductive Ending where
  | returned
  | fatal
  | transient
  | soapRuntime
  | other
  deriving DecidableEq, Repr

inductive Action (κ τ : Type) where
  | addRequest (command : κ)
  | stop (worker : Nat)
  | enter (worker : Nat) (readings : Readings τ)
  | finish (worker : Nat) (now : τ) (ending : Ending)
  | leave (worker : Nat)

section Step

variable {κ τ ι : Type} [DecidableEq ι] (gridJobId : κ → τ → ι)

/-- The position of the first request whose job is not pending. -/
def getFirstRequest (pending : Finset ι) : (Nat → τ) → List (Request κ) → Nat
  | _, [] => 0
  | now, request :: rest =>
    if gridJobId request.command (now 0) ∈ pending then
      getFirstRequest pending (fun n => now (n + 1)) rest + 1 else 0

def takeRequest (s : State κ ι) (worker : Nat) (readings : Readings τ) : State κ ι :=
  if getFirstRequest gridJobId s.pending readings.first s.queue = s.queue.length then
    { s with numRunning := s.numRunning - 1, worker := update s.worker worker .waiting }
  else
    let position := getFirstRequest gridJobId s.pending readings.second s.queue
    match s.queue[position]? with
    -- the assertion fails
    | none => { s with terminated := true }
    | some request =>
      let job := gridJobId request.command readings.inserted
      { s with
        queue := s.queue.eraseIdx position
        pending := insert job s.pending
        worker := update s.worker worker (.executing request job)
        started := s.started ++ [(worker, request)] }

def step (size : Nat) (s : State κ ι) (action : Action κ τ) : Option (State κ ι) :=
  if s.terminated then none
  else match action with
    | .addRequest command => some { s with queue := s.queue ++ [⟨s.added, command⟩], added := s.added + 1 }
    | .stop worker => some { s with stopped := update s.stopped worker true }
    | .enter worker readings =>
      if worker < max size 1 then
        match s.worker worker with
        | .ready => some (takeRequest gridJobId s worker readings)
        | .waiting =>
          if s.stopped worker then some { s with worker := update s.worker worker .ended }
          else some (takeRequest gridJobId { s with numRunning := s.numRunning + 1 } worker readings)
        | _ => none
      else none
    | .finish worker now ending =>
      match s.worker worker with
      | .executing request _ =>
        if ending = .soapRuntime then some { s with terminated := true }
        else some { s with
          pending := s.pending.erase (gridJobId request.command now)
          worker := update s.worker worker .ready }
      | _ => none
    | .leave worker =>
      match s.worker worker with
      | .ready => if s.stopped worker then some { s with worker := update s.worker worker .ended }
          else none
      | _ => none

def start (size : Nat) : State κ ι where
  queue := []
  added := 0
  pending := ∅
  numRunning := (max size 1 : Nat)
  worker _ := .ready
  stopped _ := false
  started := []
  terminated := false

end Step

/-! ### What a step does -/

section Cases

variable {κ τ ι : Type} [DecidableEq ι] {gridJobId : κ → τ → ι} {size : Nat} {s t : State κ ι}

structure Quiet (s t : State κ ι) : Prop where
  queue : t.queue = s.queue
  added : t.added = s.added
  pending : t.pending = s.pending
  started : t.started = s.started
  executing : ∀ w request job, t.worker w = .executing request job ↔ s.worker w = .executing request job

structure Took (gridJobId : κ → τ → ι) (s t : State κ ι) (w : Nat) (readings : Readings τ)
    (request : Request κ) :
    Prop where
  idle : ∀ request job, s.worker w ≠ .executing request job
  found : s.queue[getFirstRequest gridJobId s.pending readings.second s.queue]? = some request
  queue : t.queue = s.queue.eraseIdx (getFirstRequest gridJobId s.pending readings.second s.queue)
  added : t.added = s.added
  pending : t.pending = insert (gridJobId request.command readings.inserted) s.pending
  worker : t.worker = update s.worker w (.executing request (gridJobId request.command readings.inserted))
  started : t.started = s.started ++ [(w, request)]

omit [DecidableEq ι] in
theorem update_executing_iff {worker w : Nat} {now : Worker κ ι} {request : Request κ} {job : ι} :
    update s.worker worker now w = .executing request job ↔
      w = worker ∧ now = .executing request job ∨ w ≠ worker ∧ s.worker w = .executing request job := by
  by_cases same : w = worker
  · subst same
    simp
  · simp [same]

omit [DecidableEq ι] in
theorem quiet_update {worker : Nat} {now : Worker κ ι}
    (idle : ∀ request job, s.worker worker ≠ .executing request job)
    (idle' : ∀ request job, now ≠ .executing request job) (n : Int) :
    Quiet s { s with numRunning := n, worker := update s.worker worker now } := by
  refine ⟨rfl, rfl, rfl, rfl, fun w request job => ?_⟩
  simp only [update_executing_iff, idle', and_false, false_or]
  exact and_iff_right_of_imp fun there same => idle request job (same ▸ there)

def Moved (gridJobId : κ → τ → ι) (s t : State κ ι) : Prop :=
  (∃ command, t = { s with queue := s.queue ++ [⟨s.added, command⟩], added := s.added + 1 }) ∨ Quiet s t ∨
    ∃ w readings request, Took gridJobId s t w readings request

theorem takeRequest_moved (gridJobId : κ → τ → ι) {worker : Nat} (readings : Readings τ) (n : Int)
    (idle : ∀ request job, s.worker worker ≠ .executing request job) :
    Moved gridJobId s (takeRequest gridJobId { s with numRunning := n } worker readings) := by
  unfold takeRequest
  split
  · exact .inr (.inl (quiet_update idle (by simp) _))
  · simp only
    split
    · exact .inr (.inl ⟨rfl, rfl, rfl, rfl, fun _ _ _ => Iff.rfl⟩)
    · rename_i request found
      exact .inr (.inr ⟨worker, readings, request, idle, found, rfl, rfl, rfl, rfl, rfl⟩)

def Ends (action : Action κ τ) : Prop := ∃ w now ending, action = .finish w now ending ∧
    ending ≠ .soapRuntime

theorem step_cases {action : Action κ τ} (taken : step gridJobId size s action = some t) :
    Moved gridJobId s t ∧ ¬Ends action ∨
      ∃ worker now ending request job, action = .finish worker now ending ∧ ending ≠ .soapRuntime ∧
        s.worker worker = .executing request job ∧
        t = { s with
          pending := s.pending.erase (gridJobId request.command now)
          worker := update s.worker worker .ready } := by
  unfold step at taken
  split at taken
  · cases taken
  cases action with
  | addRequest command =>
    cases taken
    exact .inl ⟨.inl ⟨command, rfl⟩, by simp [Ends]⟩
  | stop worker =>
    cases taken
    exact .inl ⟨.inr (.inl ⟨rfl, rfl, rfl, rfl, fun _ _ _ => Iff.rfl⟩), by simp [Ends]⟩
  | enter worker readings =>
    refine .inl ⟨?_, by simp [Ends]⟩
    simp only at taken
    split at taken
    · split at taken
      · rename_i ready
        cases taken
        exact takeRequest_moved gridJobId readings s.numRunning (by simp [ready])
      · rename_i waiting
        split at taken <;> cases taken
        · exact .inr (.inl (quiet_update (by simp [waiting]) (by simp) _))
        · exact takeRequest_moved gridJobId readings _ (by simp [waiting])
      · cases taken
    · cases taken
  | finish worker now ending =>
    simp only at taken
    split at taken
    · rename_i request job executing
      split at taken
      · rename_i soap
        cases taken
        exact .inl ⟨.inr (.inl ⟨rfl, rfl, rfl, rfl, fun _ _ _ => Iff.rfl⟩), by simp [Ends, soap]⟩
      · rename_i ends
        exact .inr ⟨worker, now, ending, request, job, rfl, ends, executing, (Option.some.inj taken).symm⟩
    · cases taken
  | leave worker =>
    simp only at taken
    split at taken
    · rename_i ready
      split at taken <;> cases taken
      exact .inl ⟨.inr (.inl (quiet_update (by simp [ready]) (by simp) _)), by simp [Ends]⟩
    · cases taken

end Cases

/-! ### Commands whose job does not change -/

section Stable

variable {κ τ ι : Type} [DecidableEq ι] {gid : κ → ι} {size : Nat} {s t : State κ ι}

variable {request : Request κ}

theorem getFirstRequest_split {pending : Finset ι} {now : Nat → τ} {queue : List (Request κ)}
    (found : queue[getFirstRequest (fun c _ => gid c) pending now queue]? = some request) :
    ∃ before after, queue = before ++ request :: after ∧
      queue.eraseIdx (getFirstRequest (fun c _ => gid c) pending now queue) = before ++ after ∧
      (∀ other ∈ before, gid other.command ∈ pending) ∧ gid request.command ∉ pending := by
  induction queue generalizing now with
  | nil => simp at found
  | cons first rest ih =>
    unfold getFirstRequest at found ⊢
    split
    · rename_i skipped
      rw [if_pos skipped, getElem?_cons_succ] at found
      obtain ⟨before, after, split, erased, skips, free⟩ := ih found
      refine ⟨first :: before, after, by rw [split]; rfl, by
        rw [eraseIdx_cons_succ, erased]; rfl, ?_, free⟩
      simpa using ⟨skipped, skips⟩
    · rename_i free
      rw [if_neg free] at found
      cases found
      exact ⟨[], rest, rfl, rfl, by simp, free⟩

structure Ordered (gid : κ → ι) (s : State κ ι) : Prop where
  queued : ∀ r ∈ s.queue, r.number < s.added
  taken : ∀ e ∈ s.started, e.2.number < s.added
  sorted : s.queue.Pairwise fun a b => a.number < b.number
  apart : ∀ e ∈ s.started, ∀ r ∈ s.queue, e.2.number ≠ r.number
  behind : ∀ e ∈ s.started, ∀ r ∈ s.queue, gid e.2.command = gid r.command → e.2.number < r.number
  once : (s.started.map fun e => e.2.number).Nodup
  order : s.started.Pairwise fun a b => gid a.2.command = gid b.2.command → a.2.number < b.2.number
  pending : ∀ w request job, s.worker w = .executing request job → job = gid request.command ∧
    job ∈ s.pending
  single : ∀ w w' request request' job, s.worker w = .executing request job →
    s.worker w' = .executing request' job → w = w'

omit [DecidableEq ι] in
theorem Ordered.quiet (held : Ordered gid s) (quiet : Quiet s t) : Ordered gid t := by
  obtain ⟨queue, added, pending, started, executing⟩ := quiet
  constructor <;> simp only [queue, added, pending, started, executing]
  · exact held.queued
  · exact held.taken
  · exact held.sorted
  · exact held.apart
  · exact held.behind
  · exact held.once
  · exact held.order
  · exact held.pending
  · exact held.single

omit [DecidableEq ι] in
theorem Ordered.add (held : Ordered gid s) (command : κ) :
    Ordered gid { s with queue := s.queue ++ [⟨s.added, command⟩], added := s.added + 1 } := by
  have last (e : Nat × Request κ) (member : e ∈ s.started) : e.2.number < s.added := held.taken e member
  refine ⟨?_, ?_, ?_, ?_, ?_, held.once, held.order, held.pending, held.single⟩
  · simp only [mem_append, mem_singleton]
    rintro r (member | rfl)
    · exact Nat.lt_succ_of_lt (held.queued r member)
    · exact Nat.lt_succ_self _
  · exact fun e member => Nat.lt_succ_of_lt (last e member)
  · refine pairwise_append.mpr ⟨held.sorted, pairwise_singleton .., ?_⟩
    simpa using held.queued
  · simp only [mem_append, mem_singleton]
    rintro e member r (queued | rfl)
    · exact held.apart e member r queued
    · exact (last e member).ne
  · simp only [mem_append, mem_singleton]
    rintro e member r (queued | rfl) same
    · exact held.behind e member r queued same
    · exact last e member

theorem Ordered.finish (held : Ordered gid s) {w : Nat} {job : ι}
    (executing : s.worker w = .executing request job) :
    Ordered gid { s with
      pending := s.pending.erase (gid request.command)
      worker := update s.worker w .ready } := by
  obtain ⟨same, _⟩ := held.pending w request job executing
  have others (v : Nat) (r : Request κ) (j : ι) (now : update s.worker w .ready v = .executing r j) :
      v ≠ w ∧ s.worker v = .executing r j := by
    simpa [update_executing_iff] using now
  refine ⟨held.queued, held.taken, held.sorted, held.apart, held.behind, held.once, held.order, ?_, ?_⟩
  · intro v r j now
    obtain ⟨other, before⟩ := others v r j now
    obtain ⟨named, member⟩ := held.pending v r j before
    refine ⟨named, Finset.mem_erase.mpr ⟨fun clash => other ?_, member⟩⟩
    -- only one worker executes a command of this job
    rw [← same] at clash
    exact held.single v w r request job (clash ▸ before) executing
  · intro v v' r r' j now now'
    exact held.single v v' r r' j (others v r j now).2 (others v' r' j now').2

theorem Ordered.take (held : Ordered gid s) {w : Nat} {readings : Readings τ}
    (took : Took (fun c _ => gid c) s t w readings request) : Ordered gid t := by
  obtain ⟨before, after, split, erased, skipped, free⟩ := getFirstRequest_split took.found
  have queue : t.queue = before ++ after := took.queue.trans erased
  have member : request ∈ s.queue := by simp [split]
  have fewer (r : Request κ) (kept : r ∈ t.queue) : r ∈ s.queue := by
    rw [queue] at kept
    rw [split]
    rcases mem_append.mp kept with first | last
    · exact mem_append_left _ first
    · exact mem_append_right _ (mem_cons_of_mem _ last)
  have sorted := held.sorted
  rw [split] at sorted
  obtain ⟨sortedBefore, sortedRest, across⟩ := pairwise_append.mp sorted
  obtain ⟨above, sortedAfter⟩ := pairwise_cons.mp sortedRest
  have entries (e : Nat × Request κ) (new : e ∈ t.started) : e ∈ s.started ∨ e = (w, request) := by
    simpa [took.started] using new
  have workers (v : Nat) (r : Request κ) (j : ι) (now : t.worker v = .executing r j) :
      v = w ∧ r = request ∧ j = gid request.command ∨ v ≠ w ∧ s.worker v = .executing r j := by
    rw [took.worker, update_executing_iff, Worker.executing.injEq] at now
    exact now.imp_left fun own => ⟨own.1, own.2.1.symm, own.2.2.symm⟩
  refine ⟨?_, ?_, ?_, ?_, ?_, ?_, ?_, ?_, ?_⟩
  · intro r kept
    rw [took.added]
    exact held.queued r (fewer r kept)
  · intro e new
    rw [took.added]
    rcases entries e new with old | rfl
    · exact held.taken e old
    · exact held.queued request member
  · rw [queue]
    exact pairwise_append.mpr ⟨sortedBefore, sortedAfter, fun a first b last =>
      across a first b (mem_cons_of_mem _ last)⟩
  · intro e new r kept
    rcases entries e new with old | rfl
    · exact held.apart e old r (fewer r kept)
    · rw [queue] at kept
      rcases mem_append.mp kept with first | last
      · exact (across r first request (mem_cons_self ..)).ne'
      · exact (above r last).ne
  · intro e new r kept same
    rcases entries e new with old | rfl
    · exact held.behind e old r (fewer r kept) same
    · rw [queue] at kept
      rcases mem_append.mp kept with first | last
      -- a request of the same job before this one would have been pending
      · exact absurd (same ▸ skipped r first) free
      · exact above r last
  · rw [took.started, map_append, nodup_append]
    refine ⟨held.once, by simp, ?_⟩
    simp only [map_cons, map_nil, mem_singleton, forall_eq]
    intro number old
    obtain ⟨e, earlier, rfl⟩ := mem_map.mp old
    exact held.apart e earlier request member
  · rw [took.started]
    refine pairwise_append.mpr ⟨held.order, pairwise_singleton .., ?_⟩
    simpa using fun v r old => held.behind (v, r) old request member
  · intro v r j now
    rw [took.pending]
    rcases workers v r j now with ⟨_, rfl, rfl⟩ | ⟨_, before⟩
    · exact ⟨rfl, Finset.mem_insert_self ..⟩
    · obtain ⟨named, pending⟩ := held.pending v r j before
      exact ⟨named, Finset.mem_insert_of_mem pending⟩
  · intro v v' r r' j now now'
    rcases workers v r j now with ⟨rfl, rfl, rfl⟩ | ⟨_, first⟩ <;>
      rcases workers v' r' _ now' with ⟨rfl, rfl, same⟩ | ⟨_, second⟩
    · rfl
    · exact absurd (held.pending v' r' _ second).2 free
    · exact absurd (same ▸ (held.pending v r _ first).2) free
    · exact held.single v v' r r' j first second

/-- In every run, of any number of workers, at most one command of a job is executed at a time,
commands of one job start in the order in which they were added, and no command is taken twice. -/
theorem one_at_a_time_in_order (gid : κ → ι) (size : Nat)
    (run : Runs (step (fun c (_ : τ) => gid c) size) (start size) Free s) :
    (∀ w w' request request' job job', s.worker w = .executing request job →
      s.worker w' = .executing request' job' →
      gid request.command = gid request'.command → w = w') ∧
    (s.started.Pairwise fun a b => gid a.2.command = gid b.2.command → a.2.number < b.2.number) ∧
    (s.started.map fun e => e.2.number).Nodup := by
  have initial : Ordered gid (start size : State κ ι) := by
    constructor <;> simp [start]
  have held : Ordered gid s := by
    refine Runs.invariant initial (fun s action t held _ taken => ?_) run
    rcases step_cases taken with ⟨⟨command, rfl⟩ | quiet | ⟨w, readings, request, took⟩, _⟩ |
      ⟨w, now, ending, request, job, _, _, executing, rfl⟩
    · exact held.add command
    · exact held.quiet quiet
    · exact held.take took
    · exact held.finish executing
  refine ⟨fun w w' request request' job job' executing executing' same => ?_, held.order, held.once⟩
  obtain ⟨rfl, _⟩ := held.pending w request job executing
  obtain ⟨rfl, _⟩ := held.pending w' request' job' executing'
  exact held.single w w' request request' _ executing (same ▸ executing')

end Stable

def threeCommands : List (Action Nat Unit) :=
  [.addRequest 7, .addRequest 7, .addRequest 8, .enter 0 ⟨fun _ => (), fun _ => (), ()⟩,
    .enter 1 ⟨fun _ => (), fun _ => (), ()⟩, .finish 0 () .fatal, .enter 0 ⟨fun _ => (), fun _ => (), ()⟩]

/-- The second command of a job is taken when the first one has ended, and the
one behind it before that. -/
theorem three_commands_in_order : ∃ s : State Nat Nat,
    Runs (step (fun c (_ : Unit) => c) 2) (start 2) Free s ∧
      s.started.map (fun e => e.2.number) = [0, 2, 1] ∧
      s.started.Pairwise fun a b => a.2.command = b.2.command → a.2.number < b.2.number := by
  have done : (Lib.execute (step (fun c (_ : Unit) => c) 2) Free (start 2 : State Nat Nat)
      threeCommands).map
      (fun s => s.started.map fun e => e.2.number) = some [0, 2, 1] := by
    decide
  obtain ⟨s, reached, started⟩ := Option.map_eq_some_iff.mp done
  have run := Runs.start.execute reached
  exact ⟨s, run, started, (one_at_a_time_in_order (fun c => c) 2 run).2.1⟩

/-! ### Commands of every class -/

structure Time where
  sec : Nat
  usec : Nat
  deriving DecidableEq, Repr

inductive Command where
  | submit (gridJobId : String)
  | cancel (gridJobId : String)
  | eventQuery
  | lbLogging
  | delegationRenewal
  deriving DecidableEq, Repr

def Command.getGridJobId : Command → Time → String
  | .submit gridJobId, _ | .cancel gridJobId, _ => gridJobId
  | .eventQuery, now | .lbLogging, now | .delegationRenewal, now =>
    toString now.sec ++ "." ++ toString now.usec

section Pending

variable {κ τ ι : Type} [DecidableEq ι]

/-- The pending jobs are those under which the commands that are being executed were taken. -/
def PendingExact (s : State κ ι) : Prop := ∀ job, job ∈ s.pending ↔ ∃ w request,
    s.worker w = .executing request job

def Shared (s : State κ ι) (w : Nat) (job : ι) : Prop :=
  ∃ v request, v ≠ w ∧ s.worker v = .executing request job

/-- A command that ends is asked for the job it was taken with and no other one was taken with that;
or another one was, and the answer is no job of a command that is being executed. -/
def AskedRightly (gridJobId : κ → τ → ι) (s : State κ ι) : Action κ τ → Prop
  | .finish w now ending => ending ≠ .soapRuntime → ∀ request job, s.worker w = .executing request job →
      ¬Shared s w job ∧ gridJobId request.command now = job ∨
        Shared s w job ∧ ∀ v request', s.worker v ≠ .executing request' (gridJobId request.command now)
  | _ => True

variable {gridJobId : κ → τ → ι} {s t : State κ ι}

variable {request : Request κ}

theorem PendingExact.take (held : PendingExact s) {w : Nat} {readings : Readings τ}
    (took : Took gridJobId s t w readings request) : PendingExact t := by
  intro job
  simp only [took.pending, took.worker, Finset.mem_insert, held job, update_executing_iff]
  constructor
  · rintro (rfl | ⟨v, r, executing⟩)
    · exact ⟨w, request, .inl ⟨rfl, rfl⟩⟩
    · exact ⟨v, r, .inr ⟨fun same => took.idle r job (same ▸ executing), executing⟩⟩
  · rintro ⟨v, r, ⟨_, own⟩ | ⟨_, executing⟩⟩
    · exact .inl (Worker.executing.inj own).2.symm
    · exact .inr ⟨v, r, executing⟩

omit [DecidableEq ι] in
theorem executing_after {w : Nat} (job : ι) :
    (∃ v request, update s.worker w .ready v = .executing request job) ↔ Shared s w job := by
  simp [update_executing_iff, Shared]

omit [DecidableEq ι] in
theorem executing_before {w : Nat} {job : ι} (executing : s.worker w = .executing request job)
    (other : ι) : (∃ v request, s.worker v = .executing request other) ↔ other = job ∨ Shared s w other := by
  constructor
  · rintro ⟨v, request', now⟩
    by_cases self : v = w
    · subst self
      rw [executing, Worker.executing.injEq] at now
      exact .inl now.2.symm
    · exact .inr ⟨v, request', self, now⟩
  · rintro (rfl | ⟨v, request', _, now⟩)
    · exact ⟨w, request, executing⟩
    · exact ⟨v, request', now⟩

/-- The pending jobs stay exact at the end of a command exactly if it is asked rightly. -/
theorem PendingExact.finish_iff (held : PendingExact s) {w : Nat} {job answer : ι}
    (executing : s.worker w = .executing request job) :
    PendingExact { s with pending := s.pending.erase answer, worker := update s.worker w .ready } ↔
      ¬Shared s w job ∧ answer = job ∨ Shared s w job ∧ ∀ v request',
        s.worker v ≠ .executing request' answer := by
  have absent : (∀ v request', s.worker v ≠ .executing request' answer) ↔
      ¬(answer = job ∨ Shared s w answer) := by
    rw [← executing_before executing]
    simp
  rw [absent]
  simp only [PendingExact, executing_after, Finset.mem_erase, held _, executing_before executing]
  by_cases shared : Shared s w job
  · constructor
    · intro whole
      refine .inr ⟨shared, fun among => ?_⟩
      have gone : ¬Shared s w answer := fun there => ((whole answer).mpr there).1 rfl
      rcases among with rfl | there
      · exact gone shared
      · exact gone there
    · rintro (⟨alone, _⟩ | ⟨_, foreign⟩) other
      · exact absurd shared alone
      · constructor
        · rintro ⟨_, rfl | there⟩
          · exact shared
          · exact there
        · exact fun there => ⟨fun same => foreign (.inr (same ▸ there)), .inr there⟩
  · constructor
    · intro whole
      refine .inl ⟨shared, ?_⟩
      by_contra differs
      exact shared ((whole job).mp ⟨fun same => differs same.symm, .inl rfl⟩)
    · rintro (⟨_, rfl⟩ | ⟨there, _⟩) other
      · constructor
        · rintro ⟨differs, same | there⟩
          · exact absurd same differs
          · exact there
        · exact fun there => ⟨fun same => shared (same ▸ there), .inr there⟩
      · exact absurd there shared

theorem PendingExact.moved (held : PendingExact s) (moved : Moved gridJobId s t) : PendingExact t := by
  rcases moved with ⟨command, rfl⟩ | quiet | ⟨w, readings, request, took⟩
  · exact held
  · intro job
    simp only [quiet.pending, quiet.executing]
    exact held job
  · exact held.take took

theorem pending_decided {size : Nat} {action : Action κ τ} (held : PendingExact s)
    (taken : step gridJobId size s action = some t) :
    PendingExact t ∧ AskedRightly gridJobId s action ∨ ¬PendingExact t ∧
      ¬AskedRightly gridJobId s action := by
  rcases step_cases taken with ⟨moved, unended⟩ | ⟨w, now, ending, request, job, rfl, ends, executing, rfl⟩
  · refine .inl ⟨held.moved moved, ?_⟩
    cases action with
    | finish w now ending => exact fun ends => absurd ⟨w, now, ending, rfl, ends⟩ unended
    | addRequest | stop | enter | leave => trivial
  · have rightly : AskedRightly gridJobId s (.finish w now ending) ↔
        ¬Shared s w job ∧ gridJobId request.command now = job ∨
          Shared s w job ∧ ∀ v request', s.worker v ≠ .executing request'
            (gridJobId request.command now) := by
      simp [AskedRightly, ends, executing]
    rw [rightly, ← held.finish_iff executing]
    exact (Classical.em _).imp (fun yes => ⟨yes, yes⟩) fun no => ⟨no, no⟩

/-- Each command that was added is still in the queue or has been taken, once. -/
def Accounted (s : State κ ι) : Prop :=
  ((s.queue ++ s.started.map Prod.snd).map Request.number).Perm (range s.added)

/-- Whatever the clock shows, no command is lost and none is taken twice. -/
theorem commands_accounted (gridJobId : κ → τ → ι) (size : Nat)
    (run : Runs (step gridJobId size) (start size) Free s) : Accounted s := by
  have initial : Accounted (start size : State κ ι) := .refl _
  refine run.invariant initial fun s action t held _ taken => ?_
  rcases step_cases taken with ⟨⟨command, rfl⟩ | quiet | ⟨w, readings, request, took⟩, _⟩ |
    ⟨w, now, ending, request, job, _, _, _, rfl⟩
  · rw [Accounted, range_succ, append_assoc]
    exact ((perm_append_comm.append_left _).map _).trans (by simpa using held.append_right [s.added])
  · rwa [Accounted, quiet.queue, quiet.started, quiet.added]
  · obtain ⟨inside, is⟩ := List.getElem?_eq_some_iff.mp took.found
    have queue := is ▸ getElem_cons_eraseIdx_perm inside
    rw [Accounted, took.queue, took.started, took.added, map_append (f := Prod.snd), ← append_assoc]
    exact ((perm_append_singleton ..).trans (queue.append_right _)).map _ |>.trans held
  · exact held

end Pending

/-- In a run of commands of every class the pending jobs are at every moment exactly those of the
commands that are being executed if and only if every command that ends is asked rightly. -/
theorem pending_exact_iff (size : Nat) (actions : List (Action Command Time)) (t : State Command String)
    (done : Lib.execute (step Command.getGridJobId size) Free (start size) actions = some t) :
    (∀ before s, before <+: actions → Lib.execute (step Command.getGridJobId size) Free (start size)
      before = some s →
      PendingExact s) ↔ ∀ before action after s, actions = before ++ action :: after →
        Lib.execute (step Command.getGridJobId size) Free (start size) before = some s →
          AskedRightly Command.getGridJobId s action := by
  have initial : PendingExact (start size : State Command String) := by simp [PendingExact, start]
  exact execute_holds_iff (fun _ => id) (fun _ _ _ held _ taken => pending_decided held taken) initial done

def oneCommand (command : Command) (taken ended : Time) : List (Action Command Time) :=
  [.addRequest command, .enter 0 ⟨fun _ => taken, fun _ => taken, taken⟩, .finish 0 ended .returned]

def executingOne (command : Command) (taken : Time) : State Command String where
  queue := []
  added := 1
  pending := {command.getGridJobId taken}
  numRunning := 1
  worker := update (fun _ => .ready) 0 (.executing ⟨0, command⟩ (command.getGridJobId taken))
  stopped _ := false
  started := [(0, ⟨0, command⟩)]
  terminated := false

theorem pending_exact_submission :
    ∃ t, Lib.execute (step Command.getGridJobId 1) Free (start 1)
      (oneCommand (.submit "https://lb/1") ⟨1, 0⟩ ⟨2, 0⟩) =
        some t ∧ ∀ before s, before <+: oneCommand (.submit "https://lb/1") ⟨1, 0⟩ ⟨2, 0⟩ →
        Lib.execute (step Command.getGridJobId 1) Free (start 1) before = some s → PendingExact s := by
  refine ⟨_, rfl, (pending_exact_iff 1 (oneCommand (.submit "https://lb/1") ⟨1, 0⟩ ⟨2, 0⟩) _ rfl).mpr ?_⟩
  intro before action after s split reached
  match before with
  | [] | [_] =>
    cases split
    trivial
  | [_, _] =>
    cases split
    obtain rfl : executingOne (.submit "https://lb/1") ⟨1, 0⟩ = s := Option.some.inj reached
    intro _ request job executing
    have same : Worker.executing ⟨0, .submit "https://lb/1"⟩ "https://lb/1" =
        .executing request job := executing
    obtain ⟨rfl, rfl⟩ := Worker.executing.inj same
    refine .inl ⟨?_, rfl⟩
    rintro ⟨v, other, differs, there⟩
    simp [executingOne, update_of_ne differs] at there
  | _ :: _ :: _ :: _ => simp [oneCommand] at split

/-- An event query is taken at one time and asked again at another. -/
theorem pending_job_left :
    ∃ s : State Command String, Runs (step Command.getGridJobId 1) (start 1) Free s ∧ s.pending = {"1.0"} ∧
      (∀ w request job, s.worker w ≠ .executing request job) ∧ ¬PendingExact s := by
  have done : Lib.execute (step Command.getGridJobId 1) Free (start 1)
      (oneCommand .eventQuery ⟨1, 0⟩ ⟨2, 0⟩) =
      some { executingOne .eventQuery ⟨1, 0⟩ with
        pending := {"1.0"}
        worker := update (executingOne .eventQuery ⟨1, 0⟩).worker 0 .ready } := by
    rfl
  have idle (w : Nat) (request : Request Command) (job : String) :
      update (executingOne .eventQuery ⟨1, 0⟩).worker 0 .ready w ≠ .executing request job := by
    simp [executingOne]
  refine ⟨_, Runs.start.execute done, rfl, idle, fun whole => ?_⟩
  obtain ⟨w, request, executing⟩ := (whole "1.0").mp (by simp)
  exact idle w request _ executing

theorem event_query_accounted :
    Runs (step Command.getGridJobId 1) (start 1) Free (executingOne .eventQuery ⟨1, 0⟩) ∧
      Accounted (executingOne .eventQuery ⟨1, 0⟩) := by
  have done : Lib.execute (step Command.getGridJobId 1) Free (start 1)
      ((oneCommand .eventQuery ⟨1, 0⟩ ⟨2, 0⟩).take 2) = some (executingOne .eventQuery ⟨1, 0⟩) := rfl
  have run := Runs.start.execute done
  exact ⟨run, commands_accounted _ 1 run⟩

end Wms.Ice.ThreadPool
