import Wms.Manager.Dispatcher

/-! Recovery at start-up (`recovery.cpp`).

The requests left in the input by a manager that ended are read in two loops: the first keeps
those that are well formed, the second asks the L&B server about each and schedules it again.
An exception that leaves one of the loops ends the recovery.
-/

set_option autoImplicit false

namespace Wms.Manager

open Lib List

/-- The status of a collection with its children, as `edg_wll_JobStat` has it; `none` stands for
a null pointer. -/
structure CollectionStatus where
  childrenNum : Nat
  children : Option (List (Option String))
  childStates : Option (List JobState)

structure NodeInput where
  name : String
  id : Except Raised String
  recoveryEvents : Answer
  /-- Whether a context can be created; `CannotCreateLBContext` is all that is thrown otherwise. -/
  context : Bool

structure RecoveryInput where
  item : ItemInput
  status : Option (JobState × Bool)
  recoveryEvents : Answer
  collection : Except Raised (List NodeInput)
  collectionStatus : Except Raised (Option CollectionStatus)
  cancelSequenceCode : Except Raised String
  cancelContext : Bool

/-! ### What is scheduled -/

inductive Cleanup where
  | removeFromInput
  | removeNode (name : String)
  deriving DecidableEq, Repr

structure RecoveredState where
  command : Command
  id : String
  cleanup : Cleanup
  lastCheckpointing : Checkpoint
  deriving DecidableEq, Repr

/-- The events recovery schedules; a `SubmitProcessor` holds a pointer to its state. -/
inductive RecoveryEvent where
  | submit (state : Option RecoveredState)
  | cancel (id : String)
  deriving DecidableEq, Repr

def RecoveryEvent.ownsItem : RecoveryEvent → Bool
  | .submit (some state) => state.cleanup = .removeFromInput
  | .submit none => false
  | .cancel _ => true

def RecoveryEvent.hasState : RecoveryEvent → Bool
  | .submit state => state.isSome
  | .cancel _ => true

@[simp]
theorem RecoveryEvent.hasState_submit (state : Option RecoveredState) :
    (RecoveryEvent.submit state).hasState = state.isSome := rfl

structure RecoveryTrace where
  removed : Bool
  scheduled : List RecoveryEvent
  deriving DecidableEq, Repr

abbrev Recover := ExceptT Raised (StateM RecoveryTrace)

namespace Recover

def raise {α : Type} : Except Raised α → Recover α
  | .ok a => pure a
  | .error e => throw e

def schedule (event : RecoveryEvent) : Recover Unit :=
  modify fun t => { t with scheduled := t.scheduled ++ [event] }

/-- `Ignore`; nothing catches the exception of a file that cannot be removed. -/
def ignore (r : RecoveryInput) : Recover Unit :=
  if r.item.removable then modify fun t => { t with removed := true } else throw .other

end Recover

/-! ### Collections -/

/-- The map of the states of the children, in the order of insertion; it ends at a null
identifier and at a state that is not known. -/
def childrenStates : List (Option String) → List JobState → List (String × JobState)
  | some id :: ids, state :: states => if state = .undef then []
      else (id, state) :: childrenStates ids states
  | _, _ => []

def CollectionStatus.states (s : CollectionStatus) : List (String × JobState) :=
  match s.children, s.childStates with
  | some ids, some states => childrenStates (ids.take s.childrenNum) states
  | _, _ => []

/-- `select_recoverable_nodes`; whatever is thrown on the way makes the node not recoverable. -/
def isRecoverable (s : CollectionStatus) (n : NodeInput) : Bool :=
  match n.id with
  | .error _ => false
  | .ok id =>
    match s.states.lookup id, doQueryEvents n.recoveryEvents false with
    | some state, .ok events =>
      if isLastDone events .failed then false
      else if state = .waiting then true
      else if events.isEmpty && state = .submitted then true
      else if inLimbo (some state) events then false
      else state = .ready
    | _, _ => false

/-- A null pointer is read where the states have not been sent; nothing comes after that. -/
def isEveryChildrenSubmitted (s : CollectionStatus) : Except Raised Bool :=
  match s.childStates with
  | some states => .ok ((states.take s.childrenNum).all (· = .submitted))
  | none => if s.childrenNum = 0 then .ok true else .error .other

def isWhole (state : JobState) (s : CollectionStatus) : Except Raised Bool :=
  if state = .submitted then .ok true
  else if state = .waiting then isEveryChildrenSubmitted s
  else .ok false

/-! ### One request -/

structure RequestToRecover where
  id : String
  command : RequestCommand
  input : RecoveryInput

namespace Recover

/-- A state with the cleanup of the item; its constructor takes the job out of a `jobsubmit`. -/
def scheduleOwn (r : RequestToRecover) (command : Command) (checkpoint : Checkpoint) : Recover Unit := do
  if command = .jobsubmit then raise r.input.item.jobAd
  schedule (.submit (some ⟨command, r.id, .removeFromInput, checkpoint⟩))

def createSubmitRequest (n : NodeInput) : Option RecoveredState :=
  if n.context then some ⟨.jobsubmit, n.id.toOption.getD "", .removeNode n.name, .start⟩ else none

def scheduleNodes : List NodeInput → Recover Unit
  | [] => pure ()
  | n :: rest => do
    schedule (.submit (createSubmitRequest n))
    scheduleNodes rest

def recoverNodes (r : RequestToRecover) (nodes : List NodeInput) (s : CollectionStatus) :
    Recover Unit := do
  scheduleOwn r .jobsubmit .pending
  scheduleNodes (nodes.filter (isRecoverable s))

def recoverCollection (r : RequestToRecover) (state : JobState) : Recover Unit := do
  let nodes ← raise r.input.collection
  match ← raise r.input.collectionStatus with
  | none => ignore r.input
  | some s =>
    if ← raise (isWhole state s) then scheduleOwn r .jobsubmit .start
    else recoverNodes r nodes s

def checkpointOf (limbo : Bool) : Checkpoint := if limbo then .limbo else .start

def recoverSubmit (r : RequestToRecover) (status : Option JobState) : Recover Unit :=
  match doQueryEvents r.input.recoveryEvents false with
  | .error _ => scheduleOwn r .jobsubmit .limbo
  | .ok events =>
    -- a resubmission is thought to be on its way
    if isLastDone events .failed then pure ()
    else scheduleOwn r .jobsubmit (checkpointOf (!isIn .waiting status && inLimbo status events))

def recoverResubmit (r : RequestToRecover) (status : Option JobState) : Recover Unit :=
  if isIn .waiting status then scheduleOwn r .jobresubmit .start
  else
    match doQueryEvents r.input.recoveryEvents false with
    | .error _ => scheduleOwn r .jobresubmit .limbo
    | .ok events => scheduleOwn r .jobresubmit (checkpointOf (inLimbo status events))

def recoverCancel (r : RequestToRecover) : Recover Unit := do
  let _ ← raise r.input.cancelSequenceCode
  if r.input.cancelContext then schedule (.cancel r.id) else pure ()

def recoverCommand (r : RequestToRecover) : Recover Unit :=
  match r.command with
  | .jobsubmit =>
    match r.input.status with
    | some (state, true) => recoverCollection r state
    | some (state, false) => recoverSubmit r (some state)
    | none => recoverSubmit r none
  | .jobresubmit => recoverResubmit r (r.input.status.map Prod.fst)
  | .jobcancel => recoverCancel r
  | .matching | .ismDump | .wmDebug | .unrecognized _ => ignore r.input

def requestRecovery (r : RequestToRecover) : Recover Unit := do
  let _ ← raise (checkRequest r.input.item)
  if r.command = .matching then ignore r.input
  else
    match r.input.item.context with
    | .ok _ => recoverCommand r
    | .error .cannotCreateLBContext => pure ()
    | .error e => throw e

end Recover

/-! ### The two loops -/

inductive Insertion where
  | kept (request : RequestToRecover)
  | refused
  | raised (e : Raised)

def requestToRecover (r : RecoveryInput) : Except Raised RequestToRecover := do
  let command ← r.item.command
  let _ ← checkRequest r.item
  let id ← r.item.idText
  pure ⟨id, command, r⟩

def insertRequest (r : RecoveryInput) : Insertion :=
  match r.item.value with
  | .error e => .raised e
  | .ok _ =>
    if r.item.parses then
      match requestToRecover r with
      | .ok request => .kept request
      | .error .classAdError => .refused
      | .error e => .raised e
    else .refused

structure ItemRecovery where
  removed : Bool
  scheduled : List RecoveryEvent
  deriving DecidableEq, Repr

def afterInsertion (r : RecoveryInput) : ItemRecovery :=
  match insertRequest r with
  | .kept _ => ⟨false, []⟩
  | .refused | .raised _ => ⟨r.item.removable, []⟩

def insertionEnds : List RecoveryInput → Option (List ItemRecovery)
  | [] => none
  | r :: rest =>
    match insertRequest r with
    | .raised _ => some (afterInsertion r :: rest.map fun _ => ⟨false, []⟩)
    | _ => (insertionEnds rest).map (afterInsertion r :: ·)

def recoverRequest (request : RequestToRecover) : Except Raised Unit × ItemRecovery :=
  let (result, trace) := (Recover.requestRecovery request).run ⟨false, []⟩
  (result, ⟨trace.removed, trace.scheduled⟩)

def recoverAll : List RecoveryInput → List ItemRecovery
  | [] => []
  | r :: rest =>
    match insertRequest r with
    | .kept request =>
      (recoverRequest request).2 ::
        match (recoverRequest request).1 with
        | .ok _ => recoverAll rest
        | .error _ => rest.map afterInsertion
    | _ => afterInsertion r :: recoverAll rest

def recovery (inputs : List RecoveryInput) : List ItemRecovery :=
  (insertionEnds inputs).getD (recoverAll inputs)

/-! ### Which input is recovered -/

/-- The item is removed or owned by an event, and no event is without a state. -/
structure ItemRecovery.Safe (o : ItemRecovery) : Prop where
  owned : o.removed = true ∨ ∃ e ∈ o.scheduled, e.ownsItem = true
  states : ∀ e ∈ o.scheduled, e.hasState = true

structure RecoveryInput.WellFormed (r : RecoveryInput) (command : RequestCommand) : Prop where
  read : ∃ text, r.item.value = .ok text
  parsed : r.item.parses = true
  asked : r.item.command = .ok command
  checked : ∃ request, checkRequest r.item = .ok request
  printed : ∃ id, r.item.idText = .ok id

/-- What the first loop refuses: the first thing that fails is a matter of the class-ad. -/
inductive RecoveryInput.Malformed (r : RecoveryInput) : Prop where
  | parse {text : String} (read : r.item.value = .ok text) (failed : r.item.parses = false)
  | command {text : String} (read : r.item.value = .ok text) (parsed : r.item.parses = true)
      (failed : r.item.command = .error .classAdError)
  | check {text : String} {command : RequestCommand} (read : r.item.value = .ok text)
      (parsed : r.item.parses = true) (asked : r.item.command = .ok command)
      (failed : checkRequest r.item = .error .classAdError)
  | print {text : String} {command : RequestCommand} {request : String × String × String}
      (read : r.item.value = .ok text) (parsed : r.item.parses = true)
        (asked : r.item.command = .ok command)
      (checked : checkRequest r.item = .ok request) (failed : r.item.idText = .error .classAdError)

def RecoveryInput.Raises (r : RecoveryInput) : Prop := ¬ r.Malformed ∧ ∀ command, ¬ r.WellFormed command

/-- A job that is no collection: no resubmission is thought to be on its way. -/
def RecoveryInput.SubmitRecoverable (r : RecoveryInput) : Prop :=
  (∀ events, doQueryEvents r.recoveryEvents false = .ok events → isLastDone events .failed = false) ∧
    r.item.jobAd = .ok ()

/-- A collection: its status can be asked for, and a context can be created for each node that
is recovered by itself. -/
def RecoveryInput.CollectionRecoverable (r : RecoveryInput) (state : JobState) : Prop :=
  ∃ nodes, r.collection = .ok nodes ∧ ∃ status, r.collectionStatus = .ok status ∧
    match status with
    | none => r.item.removable = true
    | some s => ∃ whole, isWhole state s = .ok whole ∧ r.item.jobAd = .ok () ∧
        (whole = true ∨ ∀ n ∈ nodes, isRecoverable s n = true → n.context = true)

def RecoveryInput.Recoverable (r : RecoveryInput) : RequestCommand → Prop
  | .matching => r.item.removable = true
  | .jobsubmit => r.item.context = .ok () ∧
      match r.status with
      | some (state, true) => r.CollectionRecoverable state
      | _ => r.SubmitRecoverable
  | .jobresubmit => r.item.context = .ok ()
  | .jobcancel => r.item.context = .ok () ∧ (∃ code, r.cancelSequenceCode = .ok code) ∧
      r.cancelContext = true
  | .ismDump | .wmDebug | .unrecognized _ => r.item.context = .ok () ∧ r.item.removable = true

/-- An input in which the first loop is left at its last item, with nothing kept before it. -/
def StopsAtLast (inputs : List RecoveryInput) : Prop :=
  ∃ first last, inputs = first ++ [last] ∧ (∀ r ∈ first, r.Malformed ∧ r.item.removable = true) ∧
    last.Raises ∧ last.item.removable = true

/-- Each item is refused and removed, or kept and recovered. -/
def AllRecoverable (inputs : List RecoveryInput) : Prop :=
  ∀ r ∈ inputs, r.Malformed ∧ r.item.removable = true ∨ ∃ command, r.WellFormed command ∧
    r.Recoverable command

/-! #### The first loop -/

/-- What becomes of an item in the first loop. -/
inductive RecoveryInput.Inserted (r : RecoveryInput) : Insertion → Prop where
  | kept {id : String} {command : RequestCommand} (wellFormed : r.WellFormed command)
      (fine : ¬ r.Malformed) :
      r.Inserted (.kept ⟨id, command, r⟩)
  | refused (malformed : r.Malformed) (lost : ∀ command, ¬ r.WellFormed command) : r.Inserted .refused
  | raised {e : Raised} (raises : r.Raises) : r.Inserted (.raised e)

theorem insertRequest_inserted (r : RecoveryInput) : r.Inserted (insertRequest r) := by
  unfold insertRequest
  cases read : r.item.value with
  | error e => exact .raised ⟨by rintro ⟨⟩ <;> simp_all, fun _ wellFormed => by
    simpa [read] using wellFormed.read⟩
  | ok text =>
    cases parsed : r.item.parses with
    | false => exact .refused (.parse read parsed) fun _
        wellFormed => by simpa [parsed] using wellFormed.parsed
    | true =>
      unfold requestToRecover
      cases asked : r.item.command with
      | error e =>
        have lost command (wellFormed : r.WellFormed command) :
            False := by simpa [asked] using wellFormed.asked
        cases e with
        | classAdError => exact .refused (.command read parsed asked) lost
        | cannotCreateLBContext | other => exact .raised ⟨by rintro ⟨⟩ <;> simp_all, lost⟩
      | ok command =>
        cases checked : checkRequest r.item with
        | error e =>
          have lost command (wellFormed : r.WellFormed command) :
              False := by simpa [checked] using wellFormed.checked
          cases e with
          | classAdError => exact .refused (.check read parsed asked checked) lost
          | cannotCreateLBContext | other => exact .raised ⟨by rintro ⟨⟩ <;> simp_all, lost⟩
        | ok request =>
          cases printed : r.item.idText with
          | error e =>
            have lost command (wellFormed : r.WellFormed command) :
                False := by simpa [printed] using wellFormed.printed
            cases e with
            | classAdError => exact .refused (.print read parsed asked checked printed) lost
            | cannotCreateLBContext | other => exact .raised ⟨by rintro ⟨⟩ <;> simp_all, lost⟩
          | ok id =>
            exact .kept ⟨⟨_, read⟩, parsed, asked, ⟨_, checked⟩, ⟨_, printed⟩⟩ (by rintro ⟨⟩ <;> simp_all)

/-! #### The second loop -/

namespace Recover

variable {α : Type} {r : RequestToRecover} {t : RecoveryTrace}

structure Recovers (x : Recover Unit) (condition : Prop) : Prop where
  safe : condition → (x.run ⟨false, []⟩).1 = .ok () ∧
    ItemRecovery.Safe ⟨(x.run ⟨false, []⟩).2.removed, (x.run ⟨false, []⟩).2.scheduled⟩
  lost : ¬ condition → ¬ ItemRecovery.Safe ⟨(x.run ⟨false, []⟩).2.removed, (x.run ⟨false, []⟩).2.scheduled⟩

theorem Recovers.congr {x : Recover Unit} {p q : Prop} (recovers : Recovers x p) (same : p ↔ q) :
    Recovers x q :=
  propext same ▸ recovers

theorem not_safe_nothing : ¬ ItemRecovery.Safe ⟨false, []⟩ := by
  rintro ⟨impossible | ⟨e, member, _⟩, _⟩
  · cases impossible
  · cases member

theorem recovers_pure : Recovers (pure ()) False :=
  ⟨False.elim, fun _ => not_safe_nothing⟩

theorem recovers_throw (e : Raised) : Recovers (throw e) False :=
  ⟨False.elim, fun _ => not_safe_nothing⟩

theorem recovers_raise {α : Type} {result : Except Raised α} {f : α → Recover Unit} {condition : α → Prop}
    (each : ∀ a, result = .ok a → Recovers (f a) (condition a)) :
    Recovers (raise result >>= f) (∃ a, result = .ok a ∧ condition a) := by
  cases result with
  | error e => exact (recovers_throw e).congr (by simp)
  | ok a => exact (each a rfl).congr (by simp)

theorem recovers_ignore (r : RecoveryInput) : Recovers (ignore r) (r.item.removable = true) := by
  unfold ignore
  split_ifs with removable
  · exact ⟨fun _ => ⟨rfl, .inl rfl, by rintro e ⟨⟩⟩, fun not => absurd removable not⟩
  · exact (recovers_throw _).congr (by simp [removable])

theorem recovers_run {x : Recover Unit} {events : List RecoveryEvent}
    (runs : x.run ⟨false, []⟩ = (.ok (), ⟨false, events⟩)) (owner : ∃ e ∈ events, e.ownsItem = true) :
    Recovers x (∀ e ∈ events, e.hasState = true) := by
  constructor <;> rw [runs]
  · exact fun states => ⟨rfl, .inr owner, states⟩
  · exact fun lost safe => lost safe.states

theorem recovers_schedule {event : RecoveryEvent} (owner : event.ownsItem = true)
    (state : event.hasState = true) :
    Recovers (schedule event) True :=
  (recovers_run (rfl : (schedule event).run ⟨false, []⟩ = (.ok (), ⟨false, [event]⟩))
    ⟨event, by simp, owner⟩).congr (by simpa using state)

variable (r : RequestToRecover)

theorem recovers_scheduleOwn (command : Command) (checkpoint : Checkpoint) :
    Recovers (scheduleOwn r command checkpoint) (command = .jobsubmit → r.input.item.jobAd = .ok ()) := by
  unfold scheduleOwn
  cases command with
  | jobsubmit =>
    refine (recovers_raise fun _ _ => recovers_schedule (by simp [RecoveryEvent.ownsItem]) rfl).congr ?_
    exact ⟨fun ⟨_, taken, _⟩ _ => taken, fun taken => ⟨(), taken rfl, trivial⟩⟩
  | jobresubmit => exact (recovers_schedule (by simp [RecoveryEvent.ownsItem]) rfl).congr (by simp)

theorem scheduleNodes_run (nodes : List NodeInput) (t : RecoveryTrace) : (scheduleNodes nodes).run t =
      (.ok (), { t with scheduled := t.scheduled ++ nodes.map fun n => .submit (createSubmitRequest n) }) := by
  induction nodes generalizing t with
  | nil => simp [scheduleNodes]; rfl
  | cons n rest ih =>
    change (scheduleNodes rest).run _ = _
    rw [ih]
    simp

theorem createSubmitRequest_isSome (n : NodeInput) : (createSubmitRequest n).isSome = n.context := by
  unfold createSubmitRequest
  split_ifs with context <;> simp [context]

theorem recovers_recoverNodes (nodes : List NodeInput) (s : CollectionStatus) :
    Recovers (recoverNodes r nodes s)
      (r.input.item.jobAd = .ok () ∧ ∀ n ∈ nodes, isRecoverable s n = true → n.context = true) := by
  unfold recoverNodes scheduleOwn
  cases ad : r.input.item.jobAd with
  | error e => exact (recovers_throw e).congr (by simp)
  | ok _ =>
    let own : RecoveryEvent := .submit (some ⟨.jobsubmit, r.id, .removeFromInput, .pending⟩)
    -- the parent owns the item, and its children follow it
    have runs := scheduleNodes_run (nodes.filter (isRecoverable s)) ⟨false, [own]⟩
    refine (recovers_run runs ⟨own, by simp, by simp [own, RecoveryEvent.ownsItem]⟩).congr ?_
    rw [forall_mem_append, forall_mem_map]
    simp [own, createSubmitRequest_isSome]

theorem recovers_recoverCollection (state : JobState) :
    Recovers (recoverCollection r state) (r.input.CollectionRecoverable state) := by
  have own := recovers_scheduleOwn r .jobsubmit .start
  refine recovers_raise fun nodes _ => recovers_raise fun status _ => ?_
  cases status with
  | none => exact recovers_ignore r.input
  | some s =>
    refine recovers_raise fun whole _ => ?_
    cases whole with
    | true => exact own.congr (by simp)
    | false => exact (recovers_recoverNodes r nodes s).congr (by simp)

theorem recovers_recoverSubmit (status : Option JobState) :
    Recovers (recoverSubmit r status) r.input.SubmitRecoverable := by
  unfold recoverSubmit RecoveryInput.SubmitRecoverable
  cases doQueryEvents r.input.recoveryEvents false with
  | error e => exact (recovers_scheduleOwn r .jobsubmit .limbo).congr (by simp)
  | ok events =>
    dsimp only
    split_ifs with failed
    · exact recovers_pure.congr (by simp [failed])
    · exact (recovers_scheduleOwn r .jobsubmit _).congr (by simp [failed])

theorem recovers_recoverResubmit (status : Option JobState) :
    Recovers (recoverResubmit r status) True := by
  have own checkpoint : Recovers (scheduleOwn r .jobresubmit checkpoint) True :=
    (recovers_scheduleOwn r .jobresubmit checkpoint).congr (by simp)
  unfold recoverResubmit
  split_ifs
  · exact own .start
  · cases doQueryEvents r.input.recoveryEvents false with
    | error e => exact own .limbo
    | ok events => exact own _

theorem recovers_recoverCancel :
    Recovers (recoverCancel r) (∃ code, r.input.cancelSequenceCode = .ok code ∧
      r.input.cancelContext = true) := by
  refine recovers_raise fun code _ => ?_
  split_ifs with context
  · exact (recovers_schedule rfl rfl).congr (by simp [context])
  · exact recovers_pure.congr (by simp [context])

theorem recovers_recoverCommand (created : r.input.item.context = .ok ())
    (matching : r.command ≠ .matching) :
    Recovers (recoverCommand r) (r.input.Recoverable r.command) := by
  unfold recoverCommand RecoveryInput.Recoverable
  cases command : r.command with
  | matching => exact absurd command matching
  | jobsubmit =>
    rcases r.input.status with _ | ⟨state, _ | _⟩
    · exact (recovers_recoverSubmit r none).congr (by simp [created])
    · exact (recovers_recoverSubmit r (some state)).congr (by simp [created])
    · exact (recovers_recoverCollection r state).congr (by simp [created])
  | jobresubmit => exact (recovers_recoverResubmit r _).congr (by simp [created])
  | jobcancel => exact (recovers_recoverCancel r).congr (by simp [created])
  | ismDump | wmDebug | unrecognized text => exact (recovers_ignore r.input).congr (by simp [created])

theorem recovers_requestRecovery (checked : ∃ request, checkRequest r.input.item = .ok request) :
    Recovers (requestRecovery r) (r.input.Recoverable r.command) := by
  refine (recovers_raise fun request _ => ?_).congr (exists_and_right.trans (and_iff_right checked))
  split_ifs with matching
  · exact (recovers_ignore r.input).congr (by simp [matching, RecoveryInput.Recoverable])
  · cases created : r.input.item.context with
    | ok _ => exact recovers_recoverCommand r created matching
    | error e =>
      have lost : r.input.Recoverable r.command ↔ False := by
        cases command : r.command <;> simp [RecoveryInput.Recoverable, created]
        exact (matching command).elim
      cases e with
      | cannotCreateLBContext => exact recovers_pure.congr lost.symm
      | classAdError | other => exact (recovers_throw _).congr lost.symm

end Recover

/-! #### Whole inputs -/

variable {inputs : List RecoveryInput} {r : RecoveryInput}

theorem safe_removed_iff (removed : Bool) : ItemRecovery.Safe ⟨removed, []⟩ ↔ removed = true :=
  ⟨fun safe => by simpa using safe.owned, fun removed => ⟨.inl removed, by rintro e ⟨⟩⟩⟩

theorem stopsAtLast_cons (r : RecoveryInput) (rest : List RecoveryInput) :
    StopsAtLast (r :: rest) ↔ (r.Raises ∧ r.item.removable = true ∧ rest = []) ∨
      (r.Malformed ∧ r.item.removable = true) ∧ StopsAtLast rest := by
  constructor
  · rintro ⟨first, last, split, refused, raises, removable⟩
    cases first with
    | nil =>
      obtain ⟨rfl, rfl⟩ := List.cons.inj split
      exact .inl ⟨raises, removable, rfl⟩
    | cons f first =>
      obtain ⟨rfl, rfl⟩ := List.cons.inj split
      obtain ⟨own, others⟩ := forall_mem_cons.mp refused
      exact .inr ⟨own, first, last, rfl, others, raises, removable⟩
  · rintro (⟨raises, removable, rfl⟩ | ⟨own, first, last, rfl, others, raises, removable⟩)
    · exact ⟨[], r, rfl, by simp, raises, removable⟩
    · exact ⟨r :: first, last, rfl, forall_mem_cons.mpr ⟨own, others⟩, raises, removable⟩

/-- A first loop that is left leaves every item safe only when it is left at the end. -/
theorem insertionEnds_safe_iff {outcomes : List ItemRecovery}
    (ends : insertionEnds inputs = some outcomes) :
    (∀ o ∈ outcomes, o.Safe) ↔ StopsAtLast inputs := by
  induction inputs generalizing outcomes with
  | nil => cases ends
  | cons r rest ih =>
    have inserted := insertRequest_inserted r
    rw [stopsAtLast_cons]
    generalize result : insertRequest r = insertion at inserted
    cases inserted with
    | refused malformed =>
      simp only [insertionEnds, result, Option.map_eq_some_iff] at ends
      obtain ⟨others, later, rfl⟩ := ends
      have raises : ¬ r.Raises := fun raises => raises.1 malformed
      simp [afterInsertion, result, safe_removed_iff, ih later, malformed, raises]
    | kept wellFormed malformed =>
      simp only [insertionEnds, result, Option.map_eq_some_iff] at ends
      obtain ⟨others, later, rfl⟩ := ends
      have raises : ¬ r.Raises := fun raises => raises.2 _ wellFormed
      simp [afterInsertion, result, safe_removed_iff, malformed, raises]
    | raised raises =>
      simp only [insertionEnds, result, Option.some.injEq] at ends
      subst ends
      -- the items after the one that raised are neither removed nor scheduled
      have lost : (∀ o ∈ rest.map fun _ => (⟨false, []⟩ : ItemRecovery), o.Safe) ↔ rest = [] := by
        rw [forall_mem_map, eq_nil_iff_forall_not_mem]
        simp only [safe_removed_iff, Bool.false_eq_true, imp_false]
      rw [forall_mem_cons, lost]
      simp [afterInsertion, result, safe_removed_iff, raises, raises.1]

theorem insertionEnds_none_iff : insertionEnds inputs = none ↔ ∀ r ∈ inputs, ¬ r.Raises := by
  induction inputs with
  | nil => simp [insertionEnds]
  | cons r rest ih =>
    have inserted := insertRequest_inserted r
    rw [forall_mem_cons, ← ih, insertionEnds]
    generalize insertRequest r = insertion at inserted ⊢
    cases inserted with
    | kept wellFormed => simp [show ¬ r.Raises from fun raises => raises.2 _ wellFormed]
    | refused malformed => simp [show ¬ r.Raises from fun raises => raises.1 malformed]
    | raised raises => simp [raises]

theorem StopsAtLast.raises (stops : StopsAtLast inputs) : ∃ r ∈ inputs, r.Raises := by
  obtain ⟨first, last, rfl, _, raises, _⟩ := stops
  exact ⟨last, by simp, raises⟩

theorem AllRecoverable.not_raises (recoverable : AllRecoverable inputs) : ∀ r ∈ inputs, ¬ r.Raises := by
  intro r member raises
  rcases recoverable r member with ⟨malformed, _⟩ | ⟨command, wellFormed, _⟩
  · exact raises.1 malformed
  · exact raises.2 command wellFormed

/-- The second loop leaves every item safe exactly when each can be recovered: one that raises
an exception is not safe itself. -/
theorem recoverAll_safe_iff (inserted : ∀ r ∈ inputs, ¬ r.Raises) :
    (∀ o ∈ recoverAll inputs, o.Safe) ↔ AllRecoverable inputs := by
  induction inputs with
  | nil => simp [recoverAll, AllRecoverable]
  | cons r rest ih =>
    obtain ⟨own, others⟩ := forall_mem_cons.mp inserted
    have all : AllRecoverable (r :: rest) ↔ (r.Malformed ∧ r.item.removable = true ∨
        ∃ command, r.WellFormed command ∧ r.Recoverable command) ∧ AllRecoverable rest :=
      forall_mem_cons
    rw [all, ← ih others]
    have inserted := insertRequest_inserted r
    generalize result : insertRequest r = insertion at inserted
    cases inserted with
    | refused malformed lost => simp [recoverAll, result, afterInsertion, safe_removed_iff,
        malformed, lost]
    | @kept id command wellFormed malformed =>
      have unique other (also : r.WellFormed other) : other = command :=
        Except.ok.inj (also.asked.symm.trans wellFormed.asked)
      have recovers := Recover.recovers_requestRecovery ⟨id, command, r⟩ wellFormed.checked
      by_cases recoverable : r.Recoverable command
      · obtain ⟨ends, safe⟩ := recovers.safe recoverable
        have goesOn : recoverAll (r :: rest) = (recoverRequest ⟨id, command, r⟩).2 :: recoverAll rest := by
          simp only [recoverAll, result]
          rw [show (recoverRequest ⟨id, command, r⟩).1 = .ok () from ends]
        rw [goesOn, forall_mem_cons]
        exact and_congr_left' ⟨fun _ => .inr ⟨command, wellFormed, recoverable⟩, fun _ => safe⟩
      · refine ⟨fun safe => absurd ?_ (recovers.lost recoverable), fun ⟨fine, _⟩ => ?_⟩
        · have member : (recoverRequest ⟨id, command, r⟩).2 ∈ recoverAll (r :: rest) := by
            simp [recoverAll, result]
          exact safe _ member
        · rcases fine with ⟨refused, _⟩ | ⟨other, also, fine⟩
          · exact absurd refused malformed
          · exact absurd (unique other also ▸ fine) recoverable
    | raised raises => exact absurd raises own

/-- Recovery leaves no item behind and schedules no event without a state exactly when each item
of the input is refused and removed or can be recovered, or the only exception of the first loop
is that of its last item and nothing had been kept before. -/
theorem recovery_safe_iff (inputs : List RecoveryInput) :
    (∀ o ∈ recovery inputs, o.Safe) ↔ AllRecoverable inputs ∨ StopsAtLast inputs := by
  unfold recovery
  cases ends : insertionEnds inputs with
  | some outcomes =>
    rw [Option.getD_some, insertionEnds_safe_iff ends]
    refine ⟨.inr, fun fine => fine.resolve_left fun recoverable => ?_⟩
    rw [insertionEnds_none_iff.mpr recoverable.not_raises] at ends
    cases ends
  | none =>
    have inserted := insertionEnds_none_iff.mp ends
    rw [Option.getD_none, recoverAll_safe_iff inserted]
    refine ⟨.inl, fun fine => fine.resolve_right fun stops => ?_⟩
    obtain ⟨r, member, raises⟩ := stops.raises
    exact inserted r member raises

def RecoveryInput.waitingNode (context : Bool) : RecoveryInput where
  item := .wellFormed
  status := some (.waiting, true)
  recoveryEvents := .ok []
  collection := .ok [⟨"node", .ok "child", .ok [], context⟩]
  collectionStatus := .ok (some ⟨1, some [some "child"], some [.waiting]⟩)
  cancelSequenceCode := .ok ""
  cancelContext := true

/-- A node for which no context can be created is scheduled with a null state; a job with no
context, or with a last event that it failed, stays in the input and nobody knows of it; and an
identifier that is none ends the recovery, with the well-formed request before it forgotten. -/
theorem recovery_loses_requests :
    recovery [.waitingNode false] =
        [⟨false, [.submit (some ⟨.jobsubmit, "id", .removeFromInput, .pending⟩), .submit none]⟩] ∧
      recovery [{ RecoveryInput.waitingNode true with
          item := { ItemInput.wellFormed with context := .error .cannotCreateLBContext } }] =
            [⟨false, []⟩] ∧
      recovery [{ RecoveryInput.waitingNode true with
          status := some (.done, false), recoveryEvents := .ok [⟨.logMonitor, .done .failed⟩] }] =
            [⟨false, []⟩] ∧
      recovery [.waitingNode true, { RecoveryInput.waitingNode true with
          item := { ItemInput.wellFormed with id := .error .other } }] = [⟨false, []⟩, ⟨true, []⟩] ∧
      ¬ ItemRecovery.Safe ⟨false, []⟩ ∧
      ¬ ItemRecovery.Safe
          ⟨false, [.submit (some ⟨.jobsubmit, "id", .removeFromInput, .pending⟩), .submit none]⟩ := by
  refine ⟨rfl, rfl, rfl, rfl, Recover.not_safe_nothing, fun safe => ?_⟩
  have state := safe.states (.submit none) (by simp)
  cases state

end Wms.Manager
