import Wms.Lib.Pool
import Wms.Manager.SubmitRequest

/-! The calls each block of the submit processor may make, whatever it is answered. -/

set_option autoImplicit false

namespace Wms.Manager

open Lib Dialog List

variable {N : Type} {config : Config}

inductive Kind where
  | guard
  | abandon
  | postpone
  | limbo
  | info
  | cancel
  | search
  | token
  | resubmission
  | submission
  | collection
  | graph
  deriving DecidableEq

def kind : Call N → Kind
  | .isProxyExpired | .time => .guard
  | .children | .logChildAbort _ _ | .log (.abort _) | .unlinkCancelToken => .abandon
  | .log (.pending _) | .scheduleSelf _ => .postpone
  | .ownStatus | .ownRecoveryEvents => .limbo
  | .interestingEvents | .originalJdl => .info
  | .cancelTokenExists | .log .cancelled | .log .doneCancelled | .purge => .cancel
  | .scan => .search
  | .rename _ _ | .fileExists _ | .create _ => .token
  | .log (.resubmissionShallow _) | .log (.resubmissionDeep _) => .resubmission
  | .unlinkMaradona | .submit _ => .submission
  | .submitCollection => .collection
  | _ => .graph

def Within (kinds : List Kind) (c : Call N) : Prop := kinds.contains (kind c) = true

theorem Within.weaken {c : Call N} {kinds more : List Kind} (within : Within kinds c)
    (subset : kinds ⊆ more) : Within more c :=
  contains_iff_mem.mpr (subset (contains_iff_mem.mp within))

theorem Within.mono {α : Type} {x : Act N α} {kinds more : List Kind} (only : x.Only (Within kinds))
    (subset : kinds ⊆ more) : x.Only (Within more) :=
  Only.mono only fun _ within => within.weaken subset

/-! ### Blocks that leave the state alone -/

/-- Built of calls, readings of the state and exceptions that are caught later. -/
inductive Plain (allowed : Call N → Prop) : {α : Type} → Act N α → Prop
  | pure {α : Type} (a : α) : Plain allowed (Pure.pure a)
  | throw {α : Type} (e : Thrown) : Plain allowed (Act.thrown e : Act N α)
  | get : Plain allowed Act.get
  | ask {c : Call N} (holds : allowed c) : Plain allowed (Act.ask c)
  | bind {α β : Type} {x : Act N α} {f : α → Act N β} (first : Plain allowed x)
      (second : ∀ a, Plain allowed (f a)) : Plain allowed (x >>= f)

namespace Plain

variable {allowed : Call N → Prop} {α : Type} {x : Act N α}

theorem only (plain : Plain allowed x) : x.Only allowed := by
  induction plain with
  | pure a => exact .pure a
  | throw e => exact .throw _
  | get => exact .get
  | ask holds => exact .ask holds
  | bind _ _ first second => exact first.bind second

theorem ofReply (reply : LogReply) : Plain allowed (Act.ofReply reply) := by
  cases reply with
  | noContext code => exact .throw _
  | _ => exact .pure _

theorem log {entry : Log} (holds : allowed (.log entry)) : Plain allowed (Act.log entry) :=
  (ask holds).bind fun reply => ofReply reply

theorem check (checked : Except Thrown Unit) : Plain allowed (Manager.check checked) := by
  cases checked with
  | ok value => exact .pure _
  | error e => exact .throw _

theorem createToken {file : Bytes} (holds : allowed (.create file)) :
    Plain allowed (Manager.createToken file) := by
  apply (ask holds).bind
  intro created
  cases created with
  | true => exact .pure _
  | false => exact .throw _

end Plain

theorem log_only {allowed : Call N → Prop} {entry : Log} (holds : allowed (.log entry)) :
    (Act.log entry).Only allowed :=
  (Plain.log holds).only

theorem abortChildren_plain (reason : String) (children : List (N × JobState)) :
    Plain (Within [.abandon]) (abortChildren reason children) := by
  induction children with
  | nil => exact .pure _
  | cons child rest ih =>
    obtain ⟨child, state⟩ := child
    unfold abortChildren
    split_ifs
    · exact .pure _
    · exact (Plain.ask (by rfl)).bind fun reply => (Plain.ofReply reply).bind fun _ => ih
    · exact ih

theorem unrecoverable_plain (reason : String) : Plain (Within [.abandon])
    (unrecoverable reason : Act N Unit) := by
  have ends : Plain (Within [.abandon])
      (do Act.log (.abort reason); Act.ask .unlinkCancelToken : Act N Unit) :=
    (Plain.log (by rfl)).bind fun _ => .ask (by rfl)
  apply Plain.get.bind
  intro state
  cases state.type with
  | collection nodes =>
    refine (Plain.bind (.ask (by rfl)) fun answer => ?_).bind fun _ => ends
    rcases answer with _ | _ | children
    · exact .pure _
    · exact .pure _
    · exact abortChildren_plain _ children
  | _ => exact ends

theorem postpone_plain (reason : String) : Plain (Within [.postpone])
    (postpone config reason : Act N Unit) := by
  unfold postpone
  split_ifs
  · exact (Plain.log (by rfl)).bind fun _ => .ask (by rfl)
  · exact .ask (by rfl)

theorem complainAbout_plain (config : Config) (leaves : List Bytes) :
    Plain (Within [.abandon]) (complainAbout config leaves : Act N Unit) := by
  induction leaves with
  | nil => exact .pure _
  | cons leaf rest ih =>
    unfold complainAbout
    split_ifs
    · exact (unrecoverable_plain _).bind fun _ => ih
    · exact ih

section Token

variable (deepCount shallowCount replansCount : Nat)

theorem deepResubmission_plain (kinds : List Kind) (deepCount : Nat) (config : Config)
    (token : Option Bytes) (logs : Within kinds (.log (.resubmissionDeep token) : Call N)) :
    Plain (Within kinds) (deepResubmission config deepCount token : Act N Unit) :=
  Plain.get.bind fun _ => (Plain.check _).bind fun _ => .log logs

theorem resubmissionByToken_plain : Plain (Within [.token, .resubmission])
      (resubmissionByToken config deepCount shallowCount replansCount : Act N Unit) := by
  apply (Plain.ask (by rfl)).bind
  intro present
  cases present with
  | true => exact Plain.get.bind fun _ => (Plain.check _).bind fun _ => .log (by rfl)
  | false => exact (deepResubmission_plain _ _ _ _ (by rfl)).bind fun _ => .createToken (by rfl)

theorem resubmission_plain (config : Config) : Plain (Within [.token, .resubmission])
      (resubmission config deepCount shallowCount replansCount : Act N Unit) := by
  apply Plain.get.bind
  intro state
  split_ifs
  · apply (Plain.ask (by rfl)).bind
    intro renamed
    rcases renamed with _ | _ | code
    · exact resubmissionByToken_plain _ _ _
    · exact resubmissionByToken_plain _ _ _
    · exact .throw _
  · exact deepResubmission_plain _ _ _ _ (by rfl)

theorem ensureTmpToken_plain : Plain (Within [.token])
    (ensureTmpToken config replansCount : Act N Unit) := by
  apply (Plain.ask (by rfl)).bind
  intro present
  cases present with
  | true => exact .pure _
  | false => exact .createToken (by rfl)

theorem placeToken_plain (config : Config) (isReplan : Bool) :
    Plain (Within [.token]) (placeToken config replansCount isReplan : Act N Unit) := by
  apply Plain.get.bind
  intro state
  split_ifs
  · apply (Plain.ask (by rfl)).bind
    intro renamed
    cases renamed with
    | none => exact .pure _
    | some code => exact .throw _
  · exact .pure _

end Token

/-! ### The other blocks -/

theorem leaveLimbo_only : (leaveLimbo config : Act N Unit).Only (Within [.limbo, .postpone]) := by
  refine .gets fun state => .branch (.asks (by rfl) fun status => ?_) (.pure _)
  cases status with
  | error code => exact .throw _
  | ok status =>
    refine .asks (by rfl) fun events => ?_
    rcases doQueryEvents events false with (_ | _) | events
    · exact .throw _
    · exact .throw _
    · exact .branch (Within.mono (postpone_plain _).only (by decide)) (.modify _)

theorem retryCounts_only : (retryCounts : Act N (Nat × Nat)).Only (Within [.info]) := by
  refine .gets fun state => ?_
  cases state.command with
  | jobsubmit => exact .pure _
  | jobresubmit =>
    refine .asks (by rfl) fun events => ?_
    rcases doQueryEvents events true with e | events
    · exact fun _ => trivial
    · refine Only.bind (.pure _) fun events => .asks (by rfl) fun jdl => ?_
      rcases jdl with e | _ | e | ad
      · exact .throw _
      · exact .throw _
      · exact .throw _
      · exact (Only.modify _).bind fun _ => .pure _

theorem stopIfCancelled_only : (stopIfCancelled : Act N Unit).Only (Within [.cancel]) := by
  exact .asks (by rfl) fun _ => .branch
    ((log_only (by rfl)).bind fun _ => (log_only (by rfl)).bind fun _ => .asks (by rfl) fun _ =>
      .throw _) (.pure _)

theorem detectReplan_only (replansCount : Nat) :
    (detectReplan config replansCount : Act N Bool).Only (Within [.token]) := by
  refine .gets fun state => ?_
  dsimp only
  split_ifs
  · exact .pure _
  · exact .throw _
  · exact (ensureTmpToken_plain _).only.bind fun _ => .pure _
  · exact .pure _

theorem prepare_only (counts : Nat × Nat) (replansCount : Nat) :
    (prepare config counts replansCount : Act N Bool).Only (Within [.token, .resubmission]) := by
  refine .gets fun state => ?_
  cases state.command with
  | jobsubmit => exact Within.mono (detectReplan_only _) (by decide)
  | jobresubmit => exact (resubmission_plain _ _ _ _).only.bind fun _ => .pure _

theorem submit_only (isReplan : Bool) : (submit isReplan : Act N Unit).Only (Within [.submission]) := by
  refine .asks (by rfl) fun _ => .asks (by rfl) fun outcome => ?_
  rcases outcome with e | _
  · exact .throw _
  · exact .pure _

theorem replansByToken_only : (replansByToken config : Act N Nat).Only (Within [.search, .abandon]) := by
  have finds : (findToken config : Act N (Option Bytes)).Only (Within [.search, .abandon]) := by
    refine .asks (by rfl) fun listing => ?_
    cases listing with
    | none => exact .throw _
    | some leaves =>
      dsimp only
      cases leaves.dropWhile fun leaf => !isToken config leaf with
      | nil => exact .pure _
      | cons token rest =>
        exact (Within.mono (complainAbout_plain config rest).only (by decide)).bind fun _ => .pure _
  refine finds.bind fun found => ?_
  cases found with
  | none => exact .pure _
  | some token =>
    dsimp only
    cases tokenNumber config token with
    | none => exact .throw _
    | some n => exact (Only.modify _).bind fun _ => .pure _

theorem isRequestExpired_only : (isRequestExpired config : Act N Bool).Only (Within [.guard]) := by
  refine .gets fun state => .asks (by rfl) fun now => ?_
  cases state.ad.expiryTime <;> exact .pure _

def concernsNode : Call N → Bool
  | .nodeStatus _ | .nodeRecoveryEvents _ | .createContext _ | .scheduleNode _ | .logNodeAbort _ _
  | .unlinkNodeCancelToken _ => true
  | _ => false

theorem within_concernsNode {kinds : List Kind} (graph : .graph ∈ kinds) (c : Call N)
    (node : concernsNode c = true) : Within kinds c := by
  cases c <;> first | exact contains_iff_mem.mpr graph | cases node

theorem queueNewSubmitRequest_only (n : N) : (queueNewSubmitRequest n).Only (concernsNode · = true) := by
  refine .asks (by rfl) fun context => ?_
  cases context with
  | some code => exact .pure _
  | none => exact .asks (by rfl) fun _ => .pure _

theorem submitCollection_only :
    (submitCollection config : Act N Unit).Only (Within [.graph, .collection, .postpone]) := by
  have delivers : (deliverCollection : Act N Unit).Only (Within [.graph, .collection, .postpone]) := by
    refine .gets fun state => .branch (.asks (by rfl) fun outcome => ?_) (.pure _)
    cases outcome with
    | error e => exact .throw _
    | ok pending => exact .modify _
  have queues (nodes : List N) : (queuePending nodes).Only (Within [.graph, .collection, .postpone]) := by
    induction nodes with
    | nil => exact .pure _
    | cons n rest ih =>
      exact ((queueNewSubmitRequest_only n).mono (within_concernsNode (by decide))).bind fun _ => ih
  exact delivers.bind fun _ => .gets fun state =>
    .branch ((queues _).bind fun _ => (Only.modify _).bind fun _ => .ask (by rfl)) (.pure _)

section Graph

/-- A turn of a white node queues it, aborts it or leaves it. -/
theorem planNode_cases (graph : Dag N) (colours : N → Colour) (n : N) :
    ((∀ p ∈ graph.parents n, colours p = .green) ∧ ∃ next ≠ .green, planNode graph colours n =
      do if ← queueNewSubmitRequest n then pure next else pure .red) ∨
    ((∃ p ∈ graph.parents n, colours p = .red) ∧ planNode graph colours n = do abortNode n; pure .red) ∨
    (¬ ∀ p ∈ graph.parents n, colours p = .green ∨ colours p = .red) ∧
      planNode graph colours n = pure .white := by
  unfold planNode
  split_ifs with isolated failed ready
  · exact .inl ⟨by simp [isolated], .gray, by simp, rfl⟩
  · exact .inr (.inl ⟨by simpa using failed, rfl⟩)
  · exact .inl ⟨by simpa using ready, .white, by simp, rfl⟩
  · -- with no red parent all of them would be green
    exact .inr (.inr ⟨fun ended => ready (by simp_all), rfl⟩)

theorem planNode_only (graph : Dag N) (colours : N → Colour) (n : N) :
    (planNode graph colours n).Only (concernsNode · = true) := by
  have aborts : (abortNode n).Only (concernsNode · = true) := by
    refine .asks (by rfl) fun context => ?_
    cases context with
    | some code => exact .throw _
    | none => exact .asks (by rfl) fun reply => (Plain.ofReply reply).only.bind fun _ => .ask (by rfl)
  rcases planNode_cases graph colours n with ⟨_, next, _, same⟩ | ⟨_, same⟩ | ⟨_, same⟩ <;> rw [same]
  · exact (queueNewSubmitRequest_only n).bind fun _ => .branch (.pure _) (.pure _)
  · exact aborts.bind fun _ => .pure _
  · exact .pure _

def dagStartCalls : List (Call N) :=
  [.log (.matched "dagman"), .log .enqueuedStart, .log .enqueuedOk, .log .transferStart,
    .log .transferOk, .log (.running "localhost")]

theorem logDagStart_only : (logDagStart : Act N Unit).Only (· ∈ dagStartCalls) := by
  unfold logDagStart
  repeat refine (log_only (by simp [dagStartCalls])).bind fun _ => ?_
  exact log_only (by simp [dagStartCalls])

variable [DecidableEq N]

theorem assess_only {allowed : Call N → Prop} (status : ∀ n, allowed (.nodeStatus n))
    (events : ∀ n, allowed (.nodeRecoveryEvents n))
      (retry : allowed (.scheduleSelf config.matchRetryPeriod))
    (nodes : List N) (colours : N → Colour) : (assess config nodes colours).Only allowed := by
  induction nodes generalizing colours with
  | nil => exact .pure _
  | cons n rest ih =>
    rw [assess]
    refine .asks (status n) fun status => ?_
    cases status with
    | none => exact .throw _
    | some state =>
      dsimp only
      split_ifs
      · exact ih _
      · refine .asks (events n) fun events => ?_
        rcases doQueryEvents events false with (_ | _) | events
        · exact .throw _
        · exact .asks retry fun _ => ih _
        · exact ih _
      · exact ih _
      · exact ih _

theorem plan_only (graph : Dag N) (nodes : List N) (colours : N → Colour) (completed : Bool) :
    (plan graph nodes colours completed).Only (concernsNode · = true) := by
  induction nodes generalizing colours completed with
  | nil => exact .pure _
  | cons n rest ih =>
    rw [plan]
    cases colours n with
    | white => exact (planNode_only graph colours n).bind fun _ => ih _ _
    | _ => exact ih _ _

theorem submitDag_only (graph : Dag N) : (submitDag config graph).Only
    (Within [.graph, .postpone, .abandon]) := by
  have considers : (considerNodes config graph).Only (Within [.graph, .postpone, .abandon]) := by
    refine (assess_only (fun _ => by rfl) (fun _ => by rfl) (by rfl) _ _).bind fun colours =>
      ((plan_only _ _ _ _).mono (within_concernsNode (by decide))).bind fun planned => ?_
    exact .branch (.branch (log_only (by rfl)) (log_only (by rfl))) (.asks (by rfl) fun _ => .modify _)
  refine .gets fun state => .branch ((logDagStart_only.mono fun c start => ?_).bind fun _ =>
    considers) considers
  simp only [dagStartCalls, mem_cons, not_mem_nil, or_false] at start
  rcases start with rfl | rfl | rfl | rfl | rfl | rfl <;> rfl

end Graph

/-- An exception is answered by abandoning or by postponing the request, not by both. -/
theorem handle_only (N : Type) (config : Config) (e : Exit) :
    (handle config e : Act N Unit).Only (Within [.abandon]) ∨
    (handle config e : Act N Unit).Only (Within [.postpone]) := by
  cases e with
  | returned => exact .inl (.pure _)
  | crashed => exact .inl (.throw _)
  | thrown e =>
    unfold handle
    cases e <;> first
      | exact .inl (unrecoverable_plain _).only
      | exact .inr (postpone_plain _).only

end Wms.Manager
