import Wms.Lib.Fold
import Wms.Lib.Index
import Wms.LogMonitor.EventRestored

/-! The timer of the log monitor (`Timer.cpp`, `checkAndProcessTimers`).

A timeout is kept in a multimap in memory and as a class-ad in a file list; the entry of the
multimap has the iterator of its record. The iterators of both stay valid while other elements come
and go. A timer is started for two kinds of events only. Both come back from the file as they were,
and neither does anything with the timer when it is processed.
-/

set_option autoImplicit false

namespace Wms.LogMonitor

open Lib Arena List

structure TimeoutEvent where
  epoch : Int
  event : ULogEvent
  pointer : Nat

structure Timer where
  events : Arena TimeoutEvent
  backup : Arena EventAd

namespace Timer

variable (lib : Library)

/-- A round of the constructor; nothing where `to_event` throws. What the local variables of
`to_event` hold may be different for every record. -/
def load (unset : Nat → Unset) (events : Arena TimeoutEvent) (record : Nat × EventAd) :
    Option (Arena TimeoutEvent) :=
  (toEvent lib (unset record.1) record.2).map fun read => events.pushBack ⟨read.1, read.2, record.1⟩

def new (unset : Nat → Unset) (backup : Arena EventAd) : Option Timer :=
  (backup.entries.foldlM (load lib unset) empty).map fun events => ⟨events, backup⟩

def startTimer (t : Timer) (expire : Int) (event : ULogEvent) : Timer :=
  let backup := t.backup.pushBack (toClassAd lib expire event)
  let fIt := (backup.entries.getLast (by simp [backup])).1
  -- `to_classad` has handed the time of the event to `mktime`
  let event := { event with eventTime := lib.localtime (lib.mktime event.eventTime) }
  { events := t.events.pushBack ⟨expire, event, fIt⟩, backup }

def removeIterator (t : Timer) (evIt : Nat) : Timer :=
  match t.events.get? evIt with
  | some timeout => { events := t.events.erase evIt, backup := t.backup.erase timeout.pointer }
  | none => t

def inOrder (t : Timer) : List (Nat × TimeoutEvent) :=
  t.events.entries.mergeSort fun a b => decide (a.2.epoch ≤ b.2.epoch)

def removeTimeout (t : Timer) (condorid eventcode : Int) : Timer :=
  let evList := t.inOrder.filter fun it => it.2.event.cluster = condorid ∧
    it.2.event.body.eventNumber = eventcode
  (evList.map Prod.fst).foldl removeIterator t

def removeAllTimeouts (t : Timer) (condorid : Int) : Timer :=
  let evList := t.inOrder.filter fun it => it.2.event.cluster = condorid
  (evList.map Prod.fst).foldl removeIterator t

/-! ### The callers -/

def downBody : EventBody := .globusSubmitFailed
    (some "LM message: the timeout attached to the globus-down event expired.")

def retryBody : EventBody := .generic ⟨"LM: 2 - Must retry job removal", by decide⟩

/-- An event that a processor makes for the end of a timeout. -/
def madeEvent (body : EventBody) (cluster epoch : Int) : ULogEvent :=
  { eventTime := lib.localtime epoch, cluster, proc := 0, subproc := 0, body }

inductive Call where
  /-- by `EventGlobusResourceDown` -/
  | attachGlobusTimeout (epoch cluster : Int)
  /-- by `EventGeneric`, which has it in two places -/
  | attachRemoveTimeout (epoch cluster : Int)
  | removeTimeout (condorid eventcode : Int)
  | removeAllTimeouts (condorid : Int)

def call (t : Timer) : Call → Timer
  | .attachGlobusTimeout epoch cluster => t.startTimer lib epoch (madeEvent lib downBody cluster epoch)
  | .attachRemoveTimeout epoch cluster => t.startTimer lib epoch (madeEvent lib retryBody cluster epoch)
  | .removeTimeout condorid eventcode => t.removeTimeout condorid eventcode
  | .removeAllTimeouts condorid => t.removeAllTimeouts condorid

/-- What a processor goes by: whether it gets to its call of the timer, the time at which a new
timeout ends, and whether the removal of the job was tried too often. -/
structure Finding where
  reached : Bool
  epoch : Int
  exceeded : Bool

/-- `^JC: ([0-9]+) - (.*)$` and `^LM: ([0-9]+) - (.*)$` -/
def genericCode (info : Bytes) : Option Bytes :=
  if "JC: ".toList.isPrefixOf info || "LM: ".toList.isPrefixOf info then
    let code := (info.drop 4).takeWhile (isDigitOf 10)
    if !code.isEmpty && " - ".toList.isPrefixOf (info.drop (4 + code.length)) then some code else none
  else none

/-- The call of the timer in `process_event`. -/
def processed (x : Finding) (e : ULogEvent) : Option Call :=
  if x.reached then
    match e.body with
    | .jobTerminated _ | .jobAborted _ => some (.removeAllTimeouts e.cluster)
    | .globusResourceDown _ => some (.attachGlobusTimeout x.epoch e.cluster)
    | .globusResourceUp _ => some (.removeTimeout e.cluster 18)
    | .generic info =>
      match (genericCode info.val.toList).map (numeralValue 10) with
      | some 1 => some (.attachRemoveTimeout x.epoch e.cluster)
      | some 3 => some (if x.exceeded then .removeAllTimeouts e.cluster
          else .attachRemoveTimeout x.epoch e.cluster)
      | _ => none
    | _ => none
  else none

def process (x : Finding) (t : Timer) (e : ULogEvent) : Timer := (processed x e).elim t (call lib t)

/-- The expired timeouts are processed one after the other, then they are removed. What a call in
between would do to the iteration is left out, since there is none. -/
def checkAndProcessTimers (t : Timer) (now : Int) (x : Nat → Finding) : Timer :=
  let removedTimers := t.inOrder.takeWhile fun it => it.2.epoch ≤ now
  let processed := removedTimers.foldl (fun t it => process lib (x it.1) t it.2.event) t
  (removedTimers.map Prod.fst).foldl removeIterator processed

inductive Move where
  | event (x : Finding) (e : ULogEvent)
  | call (c : Call)
  | expirations (now : Int) (x : Nat → Finding)

def step (t : Timer) : Move → Timer
  | .event x e => process lib x t e
  | .call c => t.call lib c
  | .expirations now x => t.checkAndProcessTimers lib now x

/-! Memory and file. -/

def timeouts (t : Timer) : List (Int × ULogEvent) := t.events.values.map fun x => (x.epoch, x.event)

/-- The timer holds what its constructor would load, whatever the local variables hold. -/
def Reloads (t : Timer) : Prop :=
  ∀ unset, ∃ t', new lib unset t.backup = some t' ∧ t'.timeouts.Perm t.timeouts

def readings (unset : Nat → Unset) (records : List (Nat × EventAd)) :
    List (Nat × Option (Int × ULogEvent)) :=
  records.map fun record => (record.1, toEvent lib (unset record.1) record.2)

def reading (x : TimeoutEvent) : Nat × Option (Int × ULogEvent) := (x.pointer, some (x.epoch, x.event))

def Held (x : TimeoutEvent) : Prop := x.event.body = downBody ∨ x.event.body = retryBody

structure Tied (t : Timer) : Prop where
  perm : ∀ unset, (t.events.values.map reading).Perm (readings lib unset t.backup.entries)
  held : ∀ x ∈ t.events.values, Held x

variable {lib} {t : Timer} {unset : Nat → Unset}

theorem timeouts_eq (t : Timer) : t.timeouts = (t.events.values.map reading).filterMap Prod.snd := by
  simp [timeouts, filterMap_map, Function.comp_def, reading]

/-! The constructor. -/

theorem foldlM_load {records : List (Nat × EventAd)} {events loaded : Arena TimeoutEvent}
    (done : records.foldlM (load lib unset) events = some loaded) :
    loaded.values.map reading = events.values.map reading ++ readings lib unset records := by
  induction records generalizing events with
  | nil =>
    cases done
    simp [readings]
  | cons record records ih =>
    rw [foldlM_cons] at done
    obtain ⟨next, first, rest⟩ := Option.bind_eq_some_iff.mp done
    obtain ⟨read, found, rfl⟩ := Option.map_eq_some_iff.mp first
    rw [ih rest]
    simp [values, readings, reading, found]

theorem Tied.reloads (tied : t.Tied lib) : t.Reloads lib := by
  intro unset
  have readable : ∀ x ∈ readings lib unset t.backup.entries, x.2.isSome = true := by
    intro x member
    obtain ⟨y, -, rfl⟩ := mem_map.mp ((tied.perm unset).mem_iff.mpr member)
    rfl
  obtain ⟨loaded, done⟩ : ∃ loaded, t.backup.entries.foldlM (load lib unset) .empty = some loaded := by
    refine exists_foldlM (fun record member events => ?_) _
    obtain ⟨read, found⟩ := Option.isSome_iff_exists.mp (readable _ (mem_map_of_mem member))
    exact ⟨_, congrArg (Option.map _) found⟩
  refine ⟨⟨loaded, t.backup⟩, by rw [new, done]; rfl, ?_⟩
  rw [timeouts_eq, timeouts_eq, foldlM_load done]
  exact ((tied.perm unset).filterMap _).symm

/-! The calls. -/

theorem Tied.removeIterator (tied : t.Tied lib) (evIt : Nat) : (t.removeIterator evIt).Tied lib := by
  unfold Timer.removeIterator
  cases found : t.events.get? evIt with
  | none => exact tied
  | some x =>
    have entries : t.events.values.Perm (x :: (t.events.erase evIt).values) :=
      (perm_erase found).map Prod.snd
    refine ⟨fun unset => ?_, fun y member => tied.held y (entries.mem_iff.mpr (mem_cons_of_mem _ member))⟩
    have memory : (t.events.values.map reading).Perm
        (reading x :: (t.events.erase evIt).values.map reading) :=
      entries.map reading
    -- The entry is read from the record at its pointer, which is the one that is erased.
    obtain ⟨⟨ref, ad⟩, member, same⟩ := mem_map.mp
      ((memory.symm.trans (tied.perm unset)).mem_iff.mp mem_cons_self)
    obtain rfl : ref = x.pointer := congrArg Prod.fst same
    have file : (readings lib unset t.backup.entries).Perm
        (reading x :: readings lib unset (t.backup.erase x.pointer).entries) := by
      rw [← same]
      exact (perm_erase (get?_eq_some_iff.mpr member)).map _
    exact (perm_cons _).mp (memory.symm.trans ((tied.perm unset).trans file))

theorem Tied.removeEach (tied : t.Tied lib) (evList : List Nat) :
    (evList.foldl Timer.removeIterator t).Tied lib := by
  induction evList generalizing t with
  | nil => exact tied
  | cons evIt evList ih => exact ih (tied.removeIterator evIt)

theorem restoredBody_held {body : EventBody} (held : body = downBody ∨ body = retryBody) (unset : Unset)
    (time : String) : restoredBody lib unset time body = body := by
  rcases held with rfl | rfl <;> rfl

theorem Tied.startTimer (tied : t.Tied lib) {body : EventBody} (held : body = downBody ∨ body = retryBody)
    (cluster epoch : Int) : (t.startTimer lib epoch (madeEvent lib body cluster epoch)).Tied lib := by
  constructor
  · intro unset
    have back := toEvent_toClassAd lib (unset t.backup.next) epoch (madeEvent lib body cluster epoch)
    have made : (madeEvent lib body cluster epoch).body = downBody ∨ _ = retryBody := held
    rw [restoredBody_held made] at back
    have more := (tied.perm unset).append_right
      [(t.backup.next, toEvent lib (unset t.backup.next)
        (toClassAd lib epoch (madeEvent lib body cluster epoch)))]
    simpa [Timer.startTimer, readings, values, reading, back] using more
  · intro x member
    have either : x ∈ t.events.values ∨ x.event.body = body := by
      simp only [Timer.startTimer, values, Arena.entries_pushBack, map_append, mem_append,
        map_cons, map_nil,
        mem_singleton] at member
      exact member.imp id fun same => by rw [same]; rfl
    exact either.elim (tied.held x) fun same => held.imp same.trans same.trans

theorem Tied.call (tied : t.Tied lib) (c : Call) : (t.call lib c).Tied lib := by
  cases c with
  | attachGlobusTimeout epoch cluster => exact tied.startTimer (.inl rfl) cluster epoch
  | attachRemoveTimeout epoch cluster => exact tied.startTimer (.inr rfl) cluster epoch
  | removeTimeout condorid eventcode =>
    rw [Timer.call, Timer.removeTimeout]
    exact tied.removeEach _
  | removeAllTimeouts condorid =>
    rw [Timer.call, Timer.removeAllTimeouts]
    exact tied.removeEach _

theorem process_held (x : Finding) (t : Timer) {timeout : TimeoutEvent} (held : Held timeout) :
    process lib x t timeout.event = t := by
  have quiet : processed x timeout.event = none := by
    unfold processed
    cases x.reached with
    | false => rfl
    | true => rcases held with same | same <;> rw [same] <;> rfl
  rw [process, quiet]
  rfl

theorem Tied.checkAndProcessTimers (tied : t.Tied lib) (now : Int) (x : Nat → Finding) :
    (t.checkAndProcessTimers lib now x).Tied lib := by
  have unchanged (expired : List (Nat × TimeoutEvent)) (held : ∀ it ∈ expired, Held it.2) :
      expired.foldl (fun t it => process lib (x it.1) t it.2.event) t = t := by
    induction expired with
    | nil => rfl
    | cons it expired ih =>
      rw [foldl_cons, process_held _ t (held it mem_cons_self)]
      exact ih fun other member => held other (mem_cons_of_mem _ member)
  have held : ∀ it ∈ t.inOrder.takeWhile (·.2.epoch ≤ now), Held it.2 := fun it member =>
    tied.held it.2 (mem_map_of_mem (mem_mergeSort.mp ((takeWhile_sublist _).subset member)))
  simp only [Timer.checkAndProcessTimers, unchanged _ held]
  exact tied.removeEach _

theorem Tied.step (tied : t.Tied lib) (move : Move) : (t.step lib move).Tied lib := by
  cases move with
  | event x e =>
    change ((processed x e).elim t (Timer.call lib t)).Tied lib
    cases processed x e with
    | none => exact tied
    | some c => exact tied.call c
  | call c => exact tied.call c
  | expirations now x => exact tied.checkAndProcessTimers now x

theorem tied_empty : (⟨.empty, .empty⟩ : Timer).Tied lib :=
  ⟨fun _ => List.Perm.refl _, fun _ member => absurd member not_mem_nil⟩

/-- Whatever events are processed, calls made and timeouts expired, the timer
holds what would be loaded again. -/
theorem reloads_after_moves (lib : Library) (moves : List Move) :
    (moves.foldl (step lib) ⟨.empty, .empty⟩).Reloads lib := by
  have tied : (moves.foldl (step lib) ⟨.empty, .empty⟩).Tied lib := by
    refine moves.foldlRecOn (step lib) tied_empty fun t tied move _ => tied.step move
  exact tied.reloads

end Timer

end Wms.LogMonitor
