import Wms.Lib.Transition
import Wms.Manager.DagPass

/-! Successive passes over a graph of jobs, interleaved with the requests they queue.

A pass asks one thing at a time, and between two of its calls requests of nodes may end and
the L&B server may learn anything. Only what the server tells keeps a pass from queueing a
node again whose request has not ended.
-/

set_option autoImplicit false

namespace Wms.Manager.DagRun

open Lib Dialog List

variable {N : Type}

structure World (N : Type) where
  request : SubmitState N
  pass : Option (Interact (Call N) Reply (Except Exit Unit × SubmitState N))
  /-- The submit requests of nodes that are queued or being processed. -/
  outstanding : List N

inductive Action (N : Type) where
  | startPass
  | call (answer : Answers N)
  | endPass
  /-- A submit request of a node has been processed and has not scheduled itself again. -/
  | requestEnded (n : N)

def queued (outstanding : List N) : Call N → List N
  | .scheduleNode n => n :: outstanding
  | _ => outstanding

def step [DecidableEq N] (config : Config) (graph : Dag N) (w : World N) : Action N → Option (World N)
  | .startPass =>
    match w.pass with
    | none => some { w with pass := some (submitDag config graph w.request) }
    | some _ => none
  | .call answer =>
    match w.pass with
    | some (.call c next) => some { w with
        pass := some (next (answer c))
        outstanding := queued w.outstanding c }
    | _ => none
  | .endPass =>
    match w.pass with
    | some (.ret outcome) => some { w with request := outcome.2, pass := none }
    | _ => none
  | .requestEnded n => some { w with outstanding := w.outstanding.erase n }

def World.start (request : SubmitState N) : World N := ⟨request, none, []⟩

/-! ### Nodes a pass may queue -/

def whiteNodes : Monitor (Call N) Reply (Set N) where
  allows clear
    | .scheduleNode n => n ∈ clear
    | _ => True
  trusts _ _ _ := True
  after clear
    | .nodeStatus n, reply => if reply = some .submitted then insert n clear else clear
    | .nodeRecoveryEvents n, reply =>
      if doQueryEvents reply false = .error .temporarilyFailed then insert n clear else clear
    | .scheduleNode n, _ => clear \ {n}
    | _, _ => clear

variable {config : Config} {graph : Dag N}

variable {clear : Set N} {s : SubmitState N} {colours : N → Colour}

theorem log_obeys {entry : Log} :
    (Act.log entry).Obeys whiteNodes clear s fun clear' _ t => clear' = clear ∧ t = s := by
  refine .asks trivial fun reply _ => ?_
  cases reply <;> exact ⟨rfl, rfl⟩

theorem logDagStart_obeys : (logDagStart).Obeys whiteNodes clear s fun clear' _ t =>
    clear' = clear ∧ t = s := by
  have followed {entry : Log} {rest : Act N Unit}
      (obeys : rest.Obeys whiteNodes clear s fun clear' _ t => clear' = clear ∧ t = s) :
      (Act.log entry >>= fun _ => rest).Obeys whiteNodes clear s
        fun clear' _ t => clear' = clear ∧ t = s := by
    refine log_obeys.bind ?_ fun _ _ _ same => same
    rintro _ _ _ ⟨rfl, rfl⟩
    exact obeys
  unfold logDagStart
  repeat apply followed
  exact log_obeys

theorem queueNewSubmitRequest_obeys {n : N} (white : n ∈ clear) :
    (queueNewSubmitRequest n).Obeys whiteNodes clear s fun clear' _ _ => clear \ {n} ⊆ clear' := by
  refine .asks trivial fun context _ => ?_
  cases context with
  | some code => exact Set.sdiff_subset
  | none => exact .asks white fun _ _ => subset_rfl

theorem abortNode_obeys {n : N} : (abortNode n).Obeys whiteNodes clear s fun clear' _ _ =>
    clear' = clear := by
  refine .asks trivial fun context _ => ?_
  cases context with
  | some code => exact rfl
  | none =>
    refine .asks trivial fun reply _ => ?_
    cases reply <;> simp [whiteNodes]

theorem planNode_obeys {n : N} (white : n ∈ clear) :
    (planNode graph colours n).Obeys whiteNodes clear s fun clear' _ _ => clear \ {n} ⊆ clear' := by
  rcases planNode_cases graph colours n with ⟨_, next, _, same⟩ | ⟨_, same⟩ | ⟨_, same⟩ <;> rw [same]
  · refine (queueNewSubmitRequest_obeys white).bind (fun _ queued _ kept => ?_) fun _ _ _ kept => kept
    cases queued <;> exact kept
  · refine abortNode_obeys.bind ?_ ?_ <;> rintro _ _ _ rfl <;> exact Set.sdiff_subset
  · exact Set.sdiff_subset

variable [DecidableEq N]

theorem assess_obeys (graph : Dag N) {nodes : List N}
    (found : ∀ n ∈ graph.nodes, colours n = .white → n ∈ clear ∨ n ∈ nodes) :
    (assess config nodes colours).Obeys whiteNodes clear s fun clear outcome _ =>
      ∀ colours, outcome = .ok colours → ∀ n ∈ graph.nodes, colours n = .white → n ∈ clear := by
  induction nodes generalizing colours clear with
  | nil =>
    rintro _ ⟨rfl⟩ n member white
    simpa using found n member white
  | cons m rest ih =>
    -- the node gets another colour, or is found white
    have recoloured {colour : Colour} {clear' : Set N} (more : clear ⊆ clear')
        (white : colour = .white → m ∈ clear') : ∀ n ∈ graph.nodes,
        Function.update colours m colour n = .white → n ∈ clear' ∨ n ∈ rest := by
      intro n member isWhite
      by_cases same : n = m
      · subst same
        rw [Function.update_self] at isWhite
        exact .inl (white isWhite)
      · rw [Function.update_of_ne same] at isWhite
        rcases found n member isWhite with inside | later
        · exact .inl (more inside)
        · exact .inr ((mem_cons.mp later).resolve_left same)
    refine .asks trivial fun status _ => ?_
    have asked : clear ⊆ whiteNodes.after clear (.nodeStatus m) status := by
      simp only [whiteNodes]
      split_ifs
      · exact Set.subset_insert m clear
      · exact subset_rfl
    cases status with
    | none => simp
    | some state =>
      dsimp only
      split_ifs with red done submitted
      · exact ih (recoloured asked (by simp))
      · refine .asks trivial fun events _ => ?_
        cases answer : doQueryEvents events false with
        | ok events =>
          refine ih (recoloured (by simpa [whiteNodes, answer] using asked) ?_)
          split_ifs <;> simp
        | error e =>
          cases e with
          | failed => simp
          | temporarilyFailed =>
            refine .asks trivial fun _ _ => ih fun n member white => ?_
            -- the only node that keeps its colour is one of those that may be queued
            rcases found n member white with inside | later
            · exact .inl (by simp [whiteNodes, answer, done, inside])
            · rcases mem_cons.mp later with rfl | later
              · exact .inl (by simp [whiteNodes, answer])
              · exact .inr later
      · exact ih (recoloured asked fun _ => by simp [whiteNodes, submitted])
      · exact ih (recoloured asked (by simp))

theorem plan_obeys {nodes : List N} {completed : Bool} (nodup : nodes.Nodup)
    (found : ∀ n ∈ nodes, colours n = .white → n ∈ clear) :
    (plan graph nodes colours completed).Obeys whiteNodes clear s fun _ _ _ => True := by
  induction nodes generalizing colours completed clear s with
  | nil => trivial
  | cons m rest ih =>
    obtain ⟨fresh, nodup⟩ := nodup_cons.mp nodup
    have later (n : N) (member : n ∈ rest) : colours n = .white → n ∈ clear :=
      found n (by simp [member])
    rw [plan]
    cases colour : colours m with
    | white =>
      refine (planNode_obeys (found m (by simp) colour)).bind
        (fun _ next t kept => ?_) fun _ _ _ _ => trivial
      apply ih nodup
      intro n member white
      have other : n ≠ m := ne_of_mem_of_not_mem member fresh
      rw [Function.update_of_ne other] at white
      exact kept ⟨later n member white, other⟩
    | _ => exact ih nodup later

theorem considerNodes_obeys : (considerNodes config graph).Obeys whiteNodes ∅ s fun _ _ _ => True := by
  refine (assess_obeys graph fun n member _ => .inr member).bind
    (fun _ colours t found => ?_) fun _ _ _ _ => trivial
  refine (plan_obeys graph.nodup (found colours rfl)).bind (fun _ planned t _ => ?_) fun _ _ _ _ => trivial
  dsimp only
  split_ifs
  · exact log_obeys.mono fun _ _ _ _ => trivial
  · exact log_obeys.mono fun _ _ _ _ => trivial
  · exact .asks trivial fun _ _ => trivial

/-- A pass queues only nodes it has found white, each of them once. -/
theorem submitDag_obeys : (submitDag config graph).Obeys whiteNodes ∅ s fun _ _ _ => True := by
  unfold submitDag
  refine .gets ?_
  split_ifs
  · refine logDagStart_obeys.bind ?_ fun _ _ _ _ => trivial
    rintro _ _ _ ⟨rfl, rfl⟩
    exact considerNodes_obeys
  · exact considerNodes_obeys

/-! ### Runs -/

/-- What the server tells about a node whose request has not ended: neither that the node is
SUBMITTED nor that it is DONE while its events cannot be obtained for the moment. -/
def TellsStarted (w : World N) : Action N → Prop
  | .call answer =>
    match w.pass with
    | some (.call (.nodeStatus n) _) => n ∈ w.outstanding → answer (.nodeStatus n) ≠ some .submitted
    | some (.call (.nodeRecoveryEvents n) _) => n ∈ w.outstanding →
      doQueryEvents (answer (.nodeRecoveryEvents n)) false ≠ .error .temporarilyFailed
    | _ => True
  | _ => True

instance (w : World N) (a : Action N) : Decidable (TellsStarted w a) := by
  unfold TellsStarted
  split
  · split <;> infer_instance
  · infer_instance

structure World.Sound (w : World N) (clear : Set N) : Prop where
  nodup : w.outstanding.Nodup
  free : ∀ n ∈ clear, n ∉ w.outstanding
  careful : ∀ rest, w.pass = some rest → rest.Obeys whiteNodes clear fun _ _ => True

omit [DecidableEq N] in
theorem World.Sound.call {w : World N} {c : Call N}
    {next : Reply c → Interact (Call N) Reply (Except Exit Unit × SubmitState N)} {answer : Answers N}
    (sound : w.Sound clear) (underWay : w.pass = some (.call c next))
      (told : TellsStarted w (.call answer)) :
    World.Sound { w with
      pass := some (next (answer c))
      outstanding := queued w.outstanding c } (whiteNodes.after clear c (answer c)) := by
  obtain ⟨allowed, goesOn⟩ := sound.careful _ underWay
  have careful := goesOn (answer c) trivial
  have joined {n : N} (fresh : n ∉ w.outstanding) (m : N) (member : m ∈ insert n clear) :
      m ∉ w.outstanding := by
    rcases member with rfl | inside
    · exact fresh
    · exact sound.free m inside
  simp only [TellsStarted, underWay] at told
  cases c with
  | scheduleNode n =>
    refine ⟨nodup_cons.mpr ⟨sound.free n allowed, sound.nodup⟩, ?_, ?_⟩
    · rintro m ⟨inside, other⟩ queued
      exact sound.free m inside ((mem_cons.mp queued).resolve_left other)
    · rintro _ ⟨rfl⟩
      exact careful
  | nodeStatus n =>
    refine ⟨sound.nodup, ?_, ?_⟩
    · simp only [whiteNodes]
      split_ifs with submitted
      · exact joined fun queued => told queued submitted
      · exact sound.free
    · rintro _ ⟨rfl⟩
      exact careful
  | nodeRecoveryEvents n =>
    refine ⟨sound.nodup, ?_, ?_⟩
    · simp only [whiteNodes]
      split_ifs with unknown
      · exact joined fun queued => told queued unknown
      · exact sound.free
    · rintro _ ⟨rfl⟩
      exact careful
  | _ =>
    refine ⟨sound.nodup, sound.free, ?_⟩
    rintro _ ⟨rfl⟩
    exact careful

def World.Settled (w : World N) : Prop := ∃ clear, w.Sound clear

theorem World.Settled.step {w v : World N} {a : Action N} (settled : w.Settled)
    (told : TellsStarted w a) (taken : step config graph w a = some v) : v.Settled := by
  obtain ⟨clear, sound⟩ := settled
  cases a with
  | startPass =>
    simp only [DagRun.step] at taken
    split at taken
    · cases taken
      refine ⟨∅, sound.nodup, by simp, ?_⟩
      rintro _ ⟨rfl⟩
      exact submitDag_obeys
    · cases taken
  | call answer =>
    simp only [DagRun.step] at taken
    split at taken
    · rename_i c next underWay
      cases taken
      exact ⟨_, sound.call underWay told⟩
    · cases taken
  | endPass =>
    simp only [DagRun.step] at taken
    split at taken
    · cases taken
      exact ⟨clear, sound.nodup, sound.free, by simp⟩
    · cases taken
  | requestEnded n =>
    cases taken
    exact ⟨clear, sound.nodup.erase n, fun m inside queued => sound.free m inside
      (mem_of_mem_erase queued), sound.careful⟩

/-- Along every run in which the server tells of each request that has not ended that its
node has been started, no node has two requests. -/
theorem one_request_per_node (config : Config) (graph : Dag N) (request : SubmitState N) (w : World N)
    (run : Runs (step config graph) (.start request) TellsStarted w) : w.outstanding.Nodup := by
  have initial : (World.start request).Settled := ⟨∅, nodup_nil, by simp, by simp [World.start]⟩
  have settled : w.Settled := run.invariant initial fun _ _ _ settled told taken => settled.step told taken
  obtain ⟨clear, sound⟩ := settled
  exact sound.nodup

def allIn (state : JobState) : Answers Unit
  | .nodeStatus _ => some state
  | c => Answers.quiet c

def queueingPass : List (Action Unit) :=
  .startPass :: List.replicate 4 (.call (allIn .submitted)) ++ [.endPass]

theorem one_request_per_node_waiting : ∃ w,
    Runs (step .sample (lonely ())) (.start (dagRequest (lonely ()))) TellsStarted w ∧
    w.outstanding = [()] ∧ w.outstanding.Nodup := by
  -- the second pass hears that the node is WAITING
  obtain ⟨w, done⟩ : ∃ w, execute (step .sample (lonely ())) TellsStarted
      (.start (dagRequest (lonely ())))
      (queueingPass ++ .startPass :: List.replicate 2 (.call (allIn .waiting)) ++ [.endPass]) = some w :=
    ⟨_, rfl⟩
  have run := Runs.start.execute done
  have outstanding : w.outstanding = [()] := by
    cases done
    rfl
  exact ⟨w, run, outstanding, one_request_per_node _ _ _ w run⟩

/-- The node is queued by each of two passes that hear that it is SUBMITTED. -/
theorem node_queued_twice : ∃ w, Runs (step .sample (lonely ())) (.start (dagRequest (lonely ()))) Free w ∧
    ¬ w.outstanding.Nodup := by
  obtain ⟨w, done⟩ : ∃ w, execute (step .sample (lonely ())) Free
      (.start (dagRequest (lonely ()))) (queueingPass ++ queueingPass) = some w := ⟨_, rfl⟩
  have run := Runs.start.execute done
  have outstanding : w.outstanding = [(), ()] := by
    cases done
    rfl
  exact ⟨w, run, by simp [outstanding]⟩

end Wms.Manager.DagRun
