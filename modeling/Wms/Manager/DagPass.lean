import Mathlib.Data.Fintype.List
import Mathlib.Order.Preorder.Finite
import Wms.Manager.Blocks

/-! One pass over a graph of jobs (`SubmitProcessor::operator()`, jobs with dependencies).

The first phase gives each node a colour by its L&B state, the second submits the white
nodes whose parents are green and aborts those that have a red parent. A node whose events
cannot be obtained for the moment keeps the colour of a node that has not been started.
-/

set_option autoImplicit false

namespace Wms.Manager

open Lib Dialog Function List

variable {N : Type} {config : Config} {env : Answers N}

/-! ### One node -/

def assessment (env : Answers N) (n : N) : Colour :=
  match env (.nodeStatus n) with
  | some .aborted | some .cancelled => .red
  | some .done =>
    match doQueryEvents (env (.nodeRecoveryEvents n)) false with
    | .ok events => if isLastDone events .ok then .green else .gray
    | .error _ => .white
  | some .submitted => .white
  | some _ => .gray
  | none => .white

/-- The pass ends at this node: its status is missing, or its events cannot be obtained. -/
def Stops (env : Answers N) (n : N) : Prop :=
  env (.nodeStatus n) = none ∨ env (.nodeStatus n) = some .done ∧
    doQueryEvents (env (.nodeRecoveryEvents n)) false = .error .failed

/-- The status is DONE and the events cannot be obtained for the moment. -/
def TemporarilyUnknown (env : Answers N) (n : N) : Prop :=
  env (.nodeStatus n) = some .done ∧
    doQueryEvents (env (.nodeRecoveryEvents n)) false = .error .temporarilyFailed

def DoneOk (env : Answers N) (n : N) : Prop :=
  env (.nodeStatus n) = some .done ∧ ∃ events,
    doQueryEvents (env (.nodeRecoveryEvents n)) false = .ok events ∧ isLastDone events .ok = true

variable {n : N} {colours : N → Colour} {s : SubmitState N} {nodes : List N} {graph : Dag N}

theorem assessment_green_iff : assessment env n = .green ↔ DoneOk env n := by
  unfold assessment DoneOk
  cases state : env (.nodeStatus n) with
  | none => simp
  | some st =>
    cases st <;> try simp
    cases answer : doQueryEvents (env (.nodeRecoveryEvents n)) false <;> simp

theorem assessment_white_iff (passes : ¬ Stops env n) : assessment env n = .white ↔
    env (.nodeStatus n) = some .submitted ∨ TemporarilyUnknown env n := by
  unfold Stops at passes
  unfold assessment TemporarilyUnknown
  cases state : env (.nodeStatus n) with
  | none => simp [state] at passes
  | some st =>
    cases st <;> try simp
    cases answer : doQueryEvents (env (.nodeRecoveryEvents n)) false with
    | ok events =>
      simp only [reduceCtorEq, iff_false]
      split <;> simp
    | error e =>
      cases e with
      | failed => simp [state, answer] at passes
      | temporarilyFailed => simp

theorem queueNewSubmitRequest_spec (n : N) (s : SubmitState N) :
    (queueNewSubmitRequest n).calls env s = .createContext n ::
      (if env (.createContext n) = none then [.scheduleNode n] else []) ∧
    (queueNewSubmitRequest n).result env s = (.ok (decide (env (.createContext n) = none)), s) := by
  unfold queueNewSubmitRequest
  cases context : env (.createContext n) <;> simp [context]

theorem abortNode_calls {c : Call N} (made : c ∈ (abortNode n).calls env s) :
    c = .createContext n ∨ c = .logNodeAbort n "parents have aborted" ∨ c = .unlinkNodeCancelToken n := by
  unfold abortNode at made
  cases context : env (.createContext n) with
  | some code => simp_all
  | none =>
    cases reply : env (.logNodeAbort n "parents have aborted") <;> simp [context, reply] at made <;> tauto

structure ContextsCreated (env : Answers N) : Prop where
  node : ∀ n, env (.createContext n) = none
  log : ∀ entry code, env (.log entry) ≠ .noContext code
  nodeAbort : ∀ n reason code, env (.logNodeAbort n reason) ≠ .noContext code

theorem ContextsCreated.abortNode (created : ContextsCreated env) :
    .logNodeAbort n "parents have aborted" ∈ (abortNode n).calls env s ∧
    (abortNode n).result env s = (.ok (), s) := by
  unfold Manager.abortNode
  have reply := created.nodeAbort n "parents have aborted"
  cases answer : env (.logNodeAbort n "parents have aborted") with
  | noContext code => exact absurd answer (reply code)
  | _ => simp [created.node n, answer]

theorem planNode_schedules {m : N} (made : .scheduleNode m ∈ (planNode graph colours n).calls env s) :
    m = n ∧ ∀ p ∈ graph.parents n, colours p = .green := by
  obtain ⟨calls, result⟩ := @queueNewSubmitRequest_spec _ env n s
  rcases planNode_cases graph colours n with ⟨ready, next, _, same⟩ | ⟨_, same⟩ | ⟨_, same⟩ <;>
    rw [same] at made
  · rw [calls_bind_ok result, calls] at made
    refine ⟨?_, ready⟩
    split_ifs at made <;> simp_all
  · rcases mem_calls_bind.mp made with aborted | ⟨_, _, _, nothing⟩
    · simpa using abortNode_calls aborted
    · cases nothing
  · simp at made

theorem planNode_result {t : SubmitState N} {colour : Colour}
    (done : (planNode graph colours n).result env s = (.ok colour, t)) : colour ≠ .green := by
  obtain ⟨calls, result⟩ := @queueNewSubmitRequest_spec _ env n s
  rcases planNode_cases graph colours n with ⟨_, next, other, same⟩ | ⟨_, same⟩ | ⟨_, same⟩ <;>
    rw [same] at done
  · rw [result_bind_ok result] at done
    split_ifs at done <;> simp_all
    simp [← done.1]
  · obtain ⟨_, _, _, done⟩ := result_bind_eq_ok.mp done
    simp at done
    simp [← done.1]
  · simp at done
    simp [← done.1]

theorem planNode_created (graph : Dag N) (colours : N → Colour) (n : N) (s : SubmitState N)
    (created : ContextsCreated env) : (∃ colour, (planNode graph colours n).result env s =
      (.ok colour, s)) ∧
    ((∀ p ∈ graph.parents n, colours p = .green ∨ colours p = .red) →
      .scheduleNode n ∈ (planNode graph colours n).calls env s ∨
        (∃ p ∈ graph.parents n, colours p = .red) ∧
        .logNodeAbort n "parents have aborted" ∈ (planNode graph colours n).calls env s) := by
  obtain ⟨calls, result⟩ := @queueNewSubmitRequest_spec _ env n s
  rcases planNode_cases graph colours n with ⟨_, next, _, same⟩ | ⟨failed, same⟩ | ⟨waits, same⟩ <;>
    rw [same]
  · rw [calls_bind_ok result, calls, result_bind_ok result]
    simp [created.node n]
  · rw [calls_bind_ok created.abortNode.2, result_bind_ok created.abortNode.2]
    exact ⟨⟨_, rfl⟩, fun _ => .inr ⟨failed, mem_append_left _ created.abortNode.1⟩⟩
  · exact ⟨⟨_, rfl⟩, fun ended => absurd ended waits⟩

theorem ContextsCreated.logged {entry : Log} (created : ContextsCreated env) :
    (Act.log entry).result env s = (.ok (), s) := by
  unfold Act.log
  cases answer : env (.log entry) with
  | noContext code => exact absurd answer (created.log entry code)
  | _ => simp [answer]

@[simp] theorem calls_log {entry : Log} : (Act.log entry).calls env s = [.log entry] := by
  unfold Act.log
  cases answer : env (.log entry) <;> simp [answer]

theorem ContextsCreated.logDagStart (created : ContextsCreated env) :
    (logDagStart).calls env s = dagStartCalls ∧ (logDagStart).result env s = (.ok (), s) := by
  unfold Manager.logDagStart
  constructor
  · repeat rw [calls_bind_ok created.logged]
    simp [dagStartCalls]
  · repeat rw [result_bind_ok created.logged]
    exact created.logged

def undisturbed (env : Answers N) : Answers N
  | .createContext _ => none
  | .log _ => .logged
  | .logNodeAbort _ _ => .logged
  | c => env c

theorem undisturbed_created : ContextsCreated (undisturbed env) :=
  ⟨fun _ => rfl, fun _ _ => LogReply.noConfusion, fun _ _ _ => LogReply.noConfusion⟩

def QueriesSucceed (env : Answers N) (graph : Dag N) : Prop :=
  ∀ n ∈ graph.nodes, (∃ state, env (.nodeStatus n) = some state) ∧
    ∃ events, doQueryEvents (env (.nodeRecoveryEvents n)) false = .ok events

theorem QueriesSucceed.passes (succeed : QueriesSucceed env graph) : ∀ n ∈ graph.nodes, ¬ Stops env n := by
  intro n member stops
  obtain ⟨⟨state, status⟩, events, answer⟩ := succeed n member
  rcases stops with missing | ⟨_, failed⟩
  · simp [status] at missing
  · simp [answer] at failed

def assessCalls (config : Config) (env : Answers N) (n : N) : List (Call N) :=
  .nodeStatus n :: match env (.nodeStatus n) with
    | some .done => .nodeRecoveryEvents n ::
      match doQueryEvents (env (.nodeRecoveryEvents n)) false with
      | .error .temporarilyFailed => [.scheduleSelf config.matchRetryPeriod]
      | _ => []
    | _ => []

/-- The calls that end a graph or have it considered again. -/
def decides : Call N → Bool
  | .log (.doneOk _) | .log (.abort _) | .scheduleSelf _ => true
  | _ => false

theorem assessCalls_decides (succeed : QueriesSucceed env graph) (member : n ∈ graph.nodes) :
    (assessCalls config env n).filter decides = [] := by
  obtain ⟨⟨state, status⟩, events, answer⟩ := succeed n member
  unfold assessCalls
  rw [status]
  cases state <;> simp [decides, answer]

/-! ### The first phase -/

variable [DecidableEq N]

theorem assess_cons {rest : List N} (passes : ¬ Stops env n) (blank : colours n = .white) :
    (assess config (n :: rest) colours).calls env s = assessCalls config env n ++
      (assess config rest (update colours n (assessment env n))).calls env s ∧
    (assess config (n :: rest) colours).result env s =
      (assess config rest (update colours n (assessment env n))).result env s := by
  have kept : update colours n .white = colours := by rw [← blank, update_eq_self]
  unfold Stops at passes
  rw [assess, calls_ask_bind, result_ask_bind]
  unfold assessCalls assessment
  cases state : env (.nodeStatus n) with
  | none => simp [state] at passes
  | some st =>
    cases st <;> try simp
    cases answer : doQueryEvents (env (.nodeRecoveryEvents n)) false with
    | ok events => simp
    | error e =>
      cases e with
      | failed => simp [state, answer] at passes
      | temporarilyFailed => simp [kept]

theorem assess_stop {rest : List N} (stops : Stops env n) :
    ∃ e, (assess config (n :: rest) colours).result env s = (.error e, s) := by
  rw [assess, result_ask_bind]
  rcases stops with missing | ⟨done, failed⟩
  · exact ⟨_, by rw [missing]; rfl⟩
  · exact ⟨_, by simp [done, failed]; rfl⟩

theorem assess_ok (passes : ∀ n ∈ nodes, ¬ Stops env n) (nodup : nodes.Nodup)
    (blank : ∀ n ∈ nodes, colours n = .white) :
    (assess config nodes colours).calls env s = nodes.flatMap (assessCalls config env) ∧
    (assess config nodes colours).result env s =
      (.ok fun m => if m ∈ nodes then assessment env m else colours m, s) := by
  induction nodes generalizing colours with
  | nil => simp [assess]
  | cons n rest ih =>
    obtain ⟨fresh, nodup⟩ := nodup_cons.mp nodup
    have later (m : N) (member : m ∈ rest) :
        update colours n (assessment env n) m = .white := by
      rw [update_of_ne (ne_of_mem_of_not_mem member fresh), blank m (by simp [member])]
    have turn := @assess_cons _ config _ _ _ s _ rest (passes n (by simp)) (blank n (by simp))
    obtain ⟨restCalls, restResult⟩ := ih (fun m member => passes m (by simp [member])) nodup later
    rw [turn.1, turn.2, restCalls, restResult]
    refine ⟨by simp, ?_⟩
    congr 2
    funext m
    by_cases same : m = n
    · subst same
      simp [fresh]
    · simp [same]

theorem assess_error (config : Config) (s : SubmitState N) (stops : ∃ n ∈ nodes, Stops env n)
    (nodup : nodes.Nodup) (blank : ∀ n ∈ nodes, colours n = .white) :
    ∃ e, (assess config nodes colours).result env s = (.error e, s) := by
  induction nodes generalizing colours with
  | nil => simp at stops
  | cons n rest ih =>
    obtain ⟨fresh, nodup⟩ := nodup_cons.mp nodup
    by_cases here : Stops env n
    · exact assess_stop here
    · rw [(assess_cons here (blank n (by simp))).2]
      apply ih _ nodup
      · intro m member
        rw [update_of_ne (ne_of_mem_of_not_mem member fresh), blank m (by simp [member])]
      · obtain ⟨m, member, stops⟩ := stops
        rcases mem_cons.mp member with rfl | later
        · exact absurd stops here
        · exact ⟨m, later, stops⟩

/-! ### The second phase -/

/-- The second phase queues a node only if it was white with green parents at the start of
the phase: no node turns green on the way. -/
theorem plan_schedules {completed : Bool} {m : N}
    (made : .scheduleNode m ∈ (plan graph nodes colours completed).calls env s) :
    m ∈ nodes ∧ colours m = .white ∧ ∀ p ∈ graph.parents m, colours p = .green := by
  induction nodes generalizing colours completed s with
  | nil => simp [plan] at made
  | cons n rest ih =>
    rw [plan] at made
    cases colour : colours n with
    | white =>
      rw [colour] at made
      rcases mem_calls_bind.mp made with now | ⟨next, t, turn, later⟩
      · obtain ⟨rfl, ready⟩ := planNode_schedules now
        exact ⟨by simp, colour, ready⟩
      · obtain ⟨member, white, ready⟩ := ih later
        refine ⟨by simp [member], ?_, fun p parent => ?_⟩
        · by_cases same : m = n
          · rw [same, colour]
          · rwa [update_of_ne same] at white
        · have green := ready p parent
          by_cases same : p = n
          · rw [same, update_self] at green
            exact absurd green (planNode_result turn)
          · rwa [update_of_ne same] at green
    | _ =>
      rw [colour] at made
      obtain ⟨member, found⟩ := ih made
      exact ⟨by simp [member], found⟩

theorem plan_created (graph : Dag N) (nodes : List N) (colours : N → Colour) (completed : Bool)
    (s : SubmitState N) (created : ContextsCreated env) :
    ∃ outcome, (plan graph nodes colours completed).result env s = (.ok outcome, s) := by
  induction nodes generalizing colours completed with
  | nil => exact ⟨_, rfl⟩
  | cons n rest ih =>
    rw [plan]
    cases colour : colours n with
    | white =>
      obtain ⟨next, turn⟩ := (planNode_created graph colours n s created).1
      simp only []
      rw [result_bind_ok turn]
      exact ih _ _
    | _ => exact ih _ _

theorem plan_reaches (completed : Bool) (s : SubmitState N) (created : ContextsCreated env)
    (nodup : nodes.Nodup) (member : n ∈ nodes) (white : colours n = .white)
    (ended : ∀ p ∈ graph.parents n, colours p = .green ∨ colours p = .red) :
    ∃ later : N → Colour, (∀ p ∈ graph.parents n, later p = colours p) ∧
      ∀ c ∈ (planNode graph later n).calls env s,
        c ∈ (plan graph nodes colours completed).calls env s := by
  induction nodes generalizing colours completed with
  | nil => cases member
  | cons m rest ih =>
    obtain ⟨fresh, nodup⟩ := nodup_cons.mp nodup
    rw [plan]
    by_cases same : n = m
    · subst same
      obtain ⟨next, turn⟩ := (planNode_created graph colours n s created).1
      refine ⟨colours, fun _ _ => rfl, fun c made => ?_⟩
      rw [white]
      simp only []
      rw [calls_bind_ok turn]
      exact mem_append_left _ made
    · have member : n ∈ rest := (mem_cons.mp member).resolve_left same
      cases colour : colours m with
      | white =>
        obtain ⟨next, turn⟩ := (planNode_created graph colours m s created).1
        -- the turn of another white node recolours none of the parents
        have kept (p : N) (parent : p ∈ graph.parents n) :
            update colours m next p = colours p := by
          apply update_of_ne
          rintro rfl
          simpa [colour] using ended p parent
        have white : update colours m next n = .white := by
          rwa [update_of_ne same]
        obtain ⟨later, parents, calls⟩ := ih false nodup member white fun p parent => by
          rw [kept p parent]
          exact ended p parent
        refine ⟨later, fun p parent => (parents p parent).trans (kept p parent), fun c made => ?_⟩
        simp only []
        rw [calls_bind_ok turn]
        exact mem_append_right _ (calls c made)
      | _ => exact ih _ nodup member white ended

theorem plan_settled {completed : Bool} (settled : ∀ n ∈ nodes, colours n = .green ∨ colours n = .red) :
    (plan graph nodes colours completed).calls env s = [] ∧
    (plan graph nodes colours completed).result env s = (.ok (colours, completed), s) := by
  induction nodes with
  | nil => exact ⟨rfl, rfl⟩
  | cons n rest ih =>
    have rest := ih fun m member => settled m (by simp [member])
    rw [plan]
    rcases settled n (by simp) with colour | colour <;> rw [colour] <;> exact rest

/-! ### The pass -/

def QueuesNone (c : Call N) : Prop := ∀ n, c ≠ .scheduleNode n

theorem assess_queuesNone (nodes : List N) (colours : N → Colour) :
    (assess config nodes colours).Only QueuesNone :=
  assess_only (by simp [QueuesNone]) (by simp [QueuesNone]) (by simp [QueuesNone]) nodes colours

def assessed (env : Answers N) (graph : Dag N) (n : N) : Colour :=
  if n ∈ graph.nodes then assessment env n else .white

theorem assess_nodes (config : Config) (s : SubmitState N) (passes : ∀ n ∈ graph.nodes, ¬ Stops env n) :
    (assess config graph.nodes fun _ => .white).result env s = (.ok (assessed env graph), s) :=
  (assess_ok passes graph.nodup fun _ _ => rfl).2

theorem considerNodes_schedules {m : N} (made : .scheduleNode m ∈
    (considerNodes config graph).calls env s) :
    (∀ n ∈ graph.nodes, ¬ Stops env n) ∧ m ∈ graph.nodes ∧ assessment env m = .white ∧
      ∀ p ∈ graph.parents m, DoneOk env p := by
  unfold considerNodes at made
  by_cases stops : ∃ n ∈ graph.nodes, Stops env n
  · obtain ⟨e, failed⟩ := assess_error config s stops graph.nodup fun _ _ => rfl
    rw [calls_bind_error failed] at made
    exact absurd rfl ((assess_queuesNone _ _).of_mem made m)
  · have passes : ∀ n ∈ graph.nodes, ¬ Stops env n := by simpa using stops
    rw [calls_bind_ok (assess_nodes _ _ passes)] at made
    have queued : .scheduleNode m ∈
        (plan graph graph.nodes (assessed env graph) true).calls env s := by
      rcases mem_append.mp made with early | made
      · exact absurd rfl ((assess_queuesNone _ _).of_mem early m)
      · rcases mem_calls_bind.mp made with queued | ⟨⟨colours, completed⟩, _, _, late⟩
        · exact queued
        · dsimp only at late
          split_ifs at late <;> simp at late
    obtain ⟨member, white, green⟩ := plan_schedules queued
    refine ⟨passes, member, by simpa [assessed, member] using white, fun p parent => ?_⟩
    have inside := graph.closed m member p parent
    exact assessment_green_iff.mp (by simpa [assessed, inside] using green p parent)

theorem submitDag_eq : (submitDag config graph).calls env s = if s.lastCheckpointing = .start then
    (do logDagStart; considerNodes config graph).calls env s
      else (considerNodes config graph).calls env s := by
  unfold submitDag
  rw [calls_get_bind, apply_ite fun x : Act N Unit => x.calls env s]

theorem submitDag_schedules {m : N} (made : .scheduleNode m ∈ (submitDag config graph).calls env s) :
    (∀ n ∈ graph.nodes, ¬ Stops env n) ∧ m ∈ graph.nodes ∧ assessment env m = .white ∧
      ∀ p ∈ graph.parents m, DoneOk env p := by
  rw [submitDag_eq] at made
  split_ifs at made
  · rcases mem_calls_bind.mp made with early | ⟨_, t, _, queued⟩
    · simpa [dagStartCalls] using logDagStart_only.of_mem early
    · exact considerNodes_schedules queued
  · exact considerNodes_schedules made

theorem ContextsCreated.submitDag_calls (created : ContextsCreated env) :
    (submitDag config graph).calls env s =
    (if s.lastCheckpointing = .start then dagStartCalls else []) ++
      (considerNodes config graph).calls env s := by
  rw [submitDag_eq, calls_bind_ok created.logDagStart.2, created.logDagStart.1]
  split_ifs <;> rfl

theorem ContextsCreated.submitDag {c : Call N} (created : ContextsCreated env)
    (passes : ∀ n ∈ graph.nodes, ¬ Stops env n)
    (made : c ∈ (plan graph graph.nodes (assessed env graph) true).calls env s) :
    c ∈ (submitDag config graph).calls env s := by
  have reached : c ∈ (considerNodes config graph).calls env s := by
    obtain ⟨planned, phase⟩ := plan_created graph graph.nodes (assessed env graph) true s created
    unfold considerNodes
    rw [calls_bind_ok (assess_nodes _ _ passes), calls_bind_ok phase]
    simp [made]
  rw [created.submitDag_calls]
  exact mem_append_right _ reached

/-! ### Which nodes are queued -/

/-- The L&B server tells the same about the nodes; everything else may differ. -/
def SameHistory (env other : Answers N) : Prop :=
  ∀ n, other (.nodeStatus n) = env (.nodeStatus n) ∧
    other (.nodeRecoveryEvents n) = env (.nodeRecoveryEvents n)

/-- A pass queues only nodes that are SUBMITTED and whose parents have ended well. -/
def QueuesReadyNodes (config : Config) (graph : Dag N) (env : Answers N) (s : SubmitState N) : Prop :=
  ∀ m, .scheduleNode m ∈ (submitDag config graph).calls env s →
    env (.nodeStatus m) = some .submitted ∧ ∀ p ∈ graph.parents m, DoneOk env p

/-- Given what the L&B server tells about the nodes, a pass is bound to queue ready nodes only
if it ends early or each node that is temporarily unknown has a parent that has not ended
well. -/
theorem queues_ready_nodes_iff (config : Config) (graph : Dag N) (env : Answers N) (s : SubmitState N) :
    (∀ other, SameHistory env other → QueuesReadyNodes config graph other s) ↔
      (∃ n ∈ graph.nodes, Stops env n) ∨
      ∀ n ∈ graph.nodes, TemporarilyUnknown env n → ∃ p ∈ graph.parents n, ¬ DoneOk env p := by
  constructor
  · intro ready
    by_contra! bad
    obtain ⟨passes, n, member, unknown, parents⟩ := bad
    have queues := ready (undisturbed env) fun _ => ⟨rfl, rfl⟩
    have created : ContextsCreated (undisturbed env) := undisturbed_created
    have green (p : N) (parent : p ∈ graph.parents n) : assessed env graph p = .green := by
      simpa [assessed, graph.closed n member p parent] using assessment_green_iff.mpr (parents p parent)
    have white : assessed env graph n = .white := by
      simpa [assessed, member] using (assessment_white_iff (passes n member)).mpr (.inr unknown)
    obtain ⟨later, same, calls⟩ := plan_reaches true s created graph.nodup member white
      fun p parent => .inl (green p parent)
    rcases (planNode_created _ _ n s created).2
        (fun p parent => .inl ((same p parent).trans (green p parent))) with queued | ⟨failed, _⟩
    · have status := (queues n (created.submitDag passes (calls _ queued))).1
      exact absurd (unknown.1.symm.trans status) (by simp)
    · obtain ⟨p, parent, red⟩ := failed
      simp [same p parent, green p parent] at red
  · rintro holds other same m made
    have told (n : N) : (Stops other n ↔ Stops env n) ∧
        (TemporarilyUnknown other n ↔ TemporarilyUnknown env n) ∧ (DoneOk other n ↔ DoneOk env n) := by
      simp only [Stops, TemporarilyUnknown, DoneOk, (same n).1, (same n).2, and_self]
    obtain ⟨passes, member, white, parents⟩ := submitDag_schedules made
    refine ⟨?_, parents⟩
    rcases holds with ⟨n, inside, stops⟩ | known
    · exact absurd ((told n).1.mpr stops) (passes n inside)
    · rcases (assessment_white_iff (passes m member)).mp white with submitted | unknown
      · exact submitted
      · obtain ⟨p, parent, failed⟩ := known m member ((told m).2.1.mp unknown)
        exact absurd ((told p).2.2.mp (parents p parent)) failed

def lonely (n : N) : Dag N where
  nodes := [n]
  parents _ := []
  nodup := nodup_singleton n
  closed := by simp

def doneButSilent : Answers Unit
  | .nodeStatus _ => some .done
  | .nodeRecoveryEvents _ => .error .timedOut
  | c => Answers.quiet c

def dagRequest (graph : Dag N) : SubmitState N :=
  ⟨.jobsubmit, "dag", .dag graph, .empty, .pending, [], 0⟩

/-- A node that has ended is submitted again. -/
theorem done_node_queued : ¬ QueuesReadyNodes .sample (lonely ()) doneButSilent
    (dagRequest (lonely ())) := by
  intro ready
  have calls : (submitDag .sample (lonely ())).calls doneButSilent (dagRequest (lonely ())) =
      [.nodeStatus (), .nodeRecoveryEvents (), .scheduleSelf 600, .createContext (), .scheduleNode (),
        .scheduleSelf 600] := rfl
  have status := (ready () (by simp [calls])).1
  simp [doneButSilent] at status

/-! ### Progress -/

def Dag.Acyclic (graph : Dag N) : Prop :=
  ∀ n, ¬ Relation.TransGen (fun p n => n ∈ graph.nodes ∧ p ∈ graph.parents n) n n

theorem Dag.Acyclic.exists_first (acyclic : graph.Acyclic) {P : N → Prop}
    (found : ∃ n ∈ graph.nodes, P n) :
    ∃ n ∈ graph.nodes, P n ∧ ∀ p ∈ graph.parents n, ¬ P p := by
  -- on the finitely many nodes an acyclic relation is well founded
  let below (p n : { n // n ∈ graph.nodes }) : Prop :=
    Relation.TransGen (fun p n => n ∈ graph.nodes ∧ p ∈ graph.parents n) p.1 n.1
  have : IsTrans _ below := ⟨fun _ _ _ => Relation.TransGen.trans⟩
  have : Std.Irrefl below := ⟨fun n => acyclic n.1⟩
  have wellFounded : WellFounded below := Finite.wellFounded_of_trans_of_irrefl below
  obtain ⟨n, member, holds⟩ := found
  obtain ⟨first, white, least⟩ := wellFounded.has_min { n | P n.1 } ⟨⟨n, member⟩, holds⟩
  refine ⟨first.1, first.2, white, fun p parent earlier => ?_⟩
  exact least ⟨p, graph.closed _ first.2 p parent⟩ earlier (.single ⟨first.2, parent⟩)

theorem submitDag_settled (created : ContextsCreated env) (succeed : QueriesSucceed env graph)
    (settled : ∀ n ∈ graph.nodes, assessed env graph n = .green ∨ assessed env graph n = .red) :
    ((submitDag config graph).calls env s).filter decides =
      [if graph.nodes.all fun n => assessed env graph n = .green then
        .log (.doneOk "DAG successfully completed")
      else .log (.abort "DAG completed with failed jobs")] := by
  have first := @assess_ok _ config env (fun _ => .white) s _ _ succeed.passes graph.nodup fun _ _ => rfl
  obtain ⟨quiet, phase⟩ := @plan_settled _ env (assessed env graph) s _ graph _ true settled
  have before : (graph.nodes.flatMap (assessCalls config env)).filter decides = [] := by
    rw [filter_flatMap, flatMap_eq_nil_iff]
    exact fun n member => assessCalls_decides succeed member
  have started : (if s.lastCheckpointing = .start then (dagStartCalls : List (Call N))
      else []).filter decides = [] := by
    split_ifs <;> rfl
  rw [created.submitDag_calls, considerNodes, calls_bind_ok (assess_nodes _ _ succeed.passes),
    calls_bind_ok phase,
    quiet, first.1, filter_append, started, filter_append, before]
  simp only [if_true]
  split_ifs <;> simp [decides]

/-- With an acyclic graph, queries that succeed and contexts that are created, a pass that
finds white nodes and no gray ones queues or aborts a node, and a pass that finds neither
ends the graph: done if every node has ended well, aborted otherwise. -/
theorem pass_progresses (config : Config) (graph : Dag N) (env : Answers N) (s : SubmitState N)
    (colours : N → Colour) (acyclic : graph.Acyclic) (succeed : QueriesSucceed env graph)
    (created : ContextsCreated env)
    (assessed : (assess config graph.nodes fun _ => .white).result env s = (.ok colours, s))
    (noGray : ∀ n ∈ graph.nodes, colours n ≠ .gray) :
    ((∃ n ∈ graph.nodes, colours n = .white) → ∃ n ∈ graph.nodes,
      .scheduleNode n ∈ (submitDag config graph).calls env s ∨
      .logNodeAbort n "parents have aborted" ∈ (submitDag config graph).calls env s) ∧
    ((∀ n ∈ graph.nodes, colours n ≠ .white) →
      ((∀ n ∈ graph.nodes, DoneOk env n) → ((submitDag config graph).calls env s).filter decides =
        [.log (.doneOk "DAG successfully completed")]) ∧
      ((∃ n ∈ graph.nodes, ¬ DoneOk env n) → ((submitDag config graph).calls env s).filter decides =
        [.log (.abort "DAG completed with failed jobs")])) := by
  obtain rfl : Manager.assessed env graph = colours := by
    simpa using (assess_nodes _ _ succeed.passes).symm.trans assessed
  have ended (n : N) (member : n ∈ graph.nodes) (coloured : Manager.assessed env graph n ≠ .white) :
      Manager.assessed env graph n = .green ∨ Manager.assessed env graph n = .red := by
    have := noGray n member
    cases colour : Manager.assessed env graph n <;> simp_all
  constructor
  · intro white
    obtain ⟨n, member, white, parents⟩ := acyclic.exists_first white
    refine ⟨n, member, ?_⟩
    have parentsEnded (p : N) (parent : p ∈ graph.parents n) :=
      ended p (graph.closed n member p parent) (parents p parent)
    obtain ⟨later, same, calls⟩ := plan_reaches true s created graph.nodup member white parentsEnded
    have acts := (planNode_created graph later n s created).2 fun p parent => by
      rw [same p parent]
      exact parentsEnded p parent
    rcases acts with queued | ⟨_, aborted⟩
    · exact .inl (created.submitDag succeed.passes (calls _ queued))
    · exact .inr (created.submitDag succeed.passes (calls _ aborted))
  · intro noWhite
    have whole := @submitDag_settled _ config env s graph _ created succeed
      fun n member => ended n member (noWhite n member)
    have green (n : N) (member : n ∈ graph.nodes) :
        Manager.assessed env graph n = .green ↔ DoneOk env n := by
      rw [← assessment_green_iff, Manager.assessed, if_pos member]
    constructor
    · intro allDone
      rw [whole, if_pos]
      simpa using fun n member => (green n member).mpr (allDone n member)
    · rintro ⟨n, member, failed⟩
      rw [whole, if_neg]
      simpa using ⟨n, member, fun done => failed ((green n member).mp done)⟩

def chain : Dag Bool where
  nodes := [false, true]
  parents n := if n then [false] else []
  nodup := by decide
  closed := by decide

theorem chain_acyclic : chain.Acyclic := by
  have climbs {p n : Bool}
      (path : Relation.TransGen (fun p n => n ∈ chain.nodes ∧ p ∈ chain.parents n) p n) : p < n := by
    have edges : ∀ p n : Bool, n ∈ chain.nodes ∧ p ∈ chain.parents n → p < n := by decide
    induction path with
    | single edge => exact edges _ _ edge
    | tail _ edge ih => exact ih.trans (edges _ _ edge)
  exact fun n cycle => lt_irrefl n (climbs cycle)

def firstDone : Answers Bool
  | .nodeStatus n => some (if n then .submitted else .done)
  | .nodeRecoveryEvents _ => .ok [⟨.logMonitor, .done .ok⟩]
  | c => Answers.quiet c

theorem pass_progresses_chain : ∃ n ∈ chain.nodes,
      .scheduleNode n ∈ (submitDag .sample chain).calls firstDone (dagRequest chain) ∨
      .logNodeAbort n "parents have aborted" ∈ (submitDag .sample chain).calls firstDone
        (dagRequest chain) := by
  have succeed : QueriesSucceed firstDone chain := fun n _ => ⟨⟨_, rfl⟩, _, rfl⟩
  have created : ContextsCreated firstDone :=
    ⟨fun _ => rfl, fun _ _ => LogReply.noConfusion, fun _ _ _ => LogReply.noConfusion⟩
  have colours := assess_nodes .sample (dagRequest chain) succeed.passes
  exact (pass_progresses .sample chain firstDone (dagRequest chain) _ chain_acyclic succeed created
    colours (by decide)).1 (by decide)

end Wms.Manager
