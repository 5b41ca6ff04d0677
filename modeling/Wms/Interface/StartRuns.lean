import Wms.Interface.Requests

/-! Several starts of one job.

`jobStart` looks at the events of the job before it takes the lock, and not again. Its phase follows
one start from the query that lets it pass: until its first event is logged another one may pass as
well; from then on the events refuse every other start, up to the failure it may log itself.
-/

set_option autoImplicit false

namespace Wms.Interface

open Lib Dialog Pool

/-! ### Events that refuse a start -/

def Refused (events : List JobEvent) : Prop := startAllowed events ≠ .ok ()

instance (events : List JobEvent) : Decidable (Refused events) := inferInstanceAs (Decidable (¬_))

theorem scanEvents_append (events : List JobEvent) (last : JobEvent) (parent : String) (flag : Bool) :
    scanEvents (events ++ [last]) parent flag =
      scanEvents events parent flag >>= fun found => scanEvents [last] found.1 found.2 := by
  induction events generalizing parent flag with
  | nil => rfl
  | cons event rest ih =>
    simp only [List.cons_append, scanEvents]
    cases event.type <;> first | exact ih _ _ | rfl

/-- Any event but a failure to enqueue refuses a start that comes after it. -/
theorem refused_append (events : List JobEvent) {last : JobEvent} (started : last.type ≠ .userTag)
    (registered : ∀ parent, last.type ≠ .regJob parent) (failed : last.type ≠ .enqueued .fail) :
    Refused (events ++ [last]) := by
  intro allowed
  simp only [startAllowed, isStartAllowed, scanEvents_append] at allowed
  cases found : scanEvents events "" false with
  | error e => simp [found, bind, Except.bind] at allowed
  | ok gathered =>
    obtain ⟨parent, flag⟩ := gathered
    cases type : last.type with
    | regJob parent => exact registered parent type
    | userTag => exact started type
    | accepted | abort | cancel | other => simp [found, bind, Except.bind, scanEvents, type] at allowed
    | enqueued result =>
      have other : EventType.enqueued result ≠ .enqueued .fail := type ▸ failed
      simp [found, bind, Except.bind, scanEvents, type, other] at allowed

/-! ### The phases of a start -/

inductive StartPhase where
  | idle
  | granted
  | accepted
  | failing
  | failed
  | aborted
  | delivered
  deriving DecidableEq, Repr

namespace StartPhase

def allows (g : StartPhase) : Call → Prop
  | .queryEvents => g = .idle
  | .log .accept _ => g = .granted
  | .log .enqueueStart _ => g = .granted ∨ g = .accepted
  | .log .enqueueFail _ => g = .accepted ∨ g = .failing
  | .log .abort _ => g = .failed
  | .log .enqueueOk _ => g = .delivered
  | .log .deliverFail _ => g = .failing
  | .deliver => g = .accepted
  | _ => True

/-- The replies that keep a start on its way: one of its first two events is logged, the event after
the delivery can be logged, and a start that has failed is not told that there is no abort. -/
def kept (g : StartPhase) : (call : Call) → Reply call → Prop
  | .log .enqueueStart _, code => g = .granted → code ≠ .einval ∧ code ≠ .gss
  | .log .enqueueOk lap, code => lap = logRetryCount → code ≠ .other
  | .queryAbort, some false => g ≠ .failed
  | _, _ => True

def trusts (g : StartPhase) : (call : Call) → Reply call → Prop
  | .queryAbort, some false => g ≠ .failed ∧ g ≠ .aborted
  | call, reply => g.kept call reply

def after (g : StartPhase) : (call : Call) → Reply call → StartPhase
  | .queryEvents, some events => if Refused events then g else .granted
  | .log .accept _, .success => .accepted
  | .log .enqueueStart _, .success => .accepted
  | .log .enqueueFail _, .other => .failing
  | .log .enqueueFail _, _ => .failed
  | .log .deliverFail _, .other => .failing
  | .log .deliverFail _, _ => .failed
  | .log .abort _, .success => .aborted
  | .deliver, true => .delivered
  | .deliver, false => .failing
  | _, _ => g

end StartPhase

def startMonitor : Monitor Call Reply StartPhase where
  allows := StartPhase.allows
  trusts := StartPhase.trusts
  after := StartPhase.after

/-! ### One start -/

def neutral : Call → Prop
  | .queryEvents | .queryAbort | .deliver => False
  | .log (.nodeAbort _) _ | .log .expiredAbort _ | .log .cancel _ => True
  | .log _ _ => False
  | _ => True

theorem neutral_of_processing {call : Call} (processing : Processing call) : neutral call := by
  cases call <;> trivial

theorem neutral_ignored (g : StartPhase) : startMonitor.Ignores g neutral := by
  intro call allowed
  cases call with
  | log site lap => cases site <;> first | exact allowed.elim | exact ⟨trivial, fun _ => rfl⟩
  | queryEvents | queryAbort | deliver => exact allowed.elim
  | _ => exact ⟨trivial, fun _ => rfl⟩

variable {g : StartPhase} (conf : Conf) (issubmit : Bool)

theorem neutral_then {α β : Type} {x : Operation α} {f : α → Operation β} {good : StartPhase → β → Prop}
    (only : x.Only neutral) (next : ∀ a, (f a).Leads startMonitor g () good) :
    (x >>= f).Leads startMonitor g () good :=
  only.leads_bind (neutral_ignored g) fun a _ => next a

theorem handleExpired_neutral (e : Raise) : (handleExpired e).Only neutral := by
  refine .bind (onlyIf_only (.bind (logEvent_only fun _ => trivial) fun _ => ?_) _) fun _ => .throw e
  exact jobpurge_only.mono fun _ => neutral_of_processing

theorem fileExists_neutral (file : JobFile) : (fileExists file).Only neutral := .ask trivial

theorem unlockUnless_neutral : (unlockUnless issubmit).Only neutral := unlockUnless_only trivial _

theorem abortNodes_neutral (index : Nat) (nodes : List NodeAd) : (abortNodes index nodes).Only neutral :=
  abortNodes_only (fun _ => trivial) (fun _ _ => trivial) index nodes

theorem accept_leads : (logEvent .accept).Leads startMonitor .granted () fun g _ => g = .granted ∨
    g = .accepted := by
  refine logEvent_leads (· = .granted) _ (fun _ here _ => here) (fun _ _ here => here) ?_ rfl
  rintro _ lap code rfl _ _
  cases code <;> simp [startMonitor, StartPhase.after]

theorem enqueueStart_leads (before : g = .granted ∨ g = .accepted) :
    (logEvent .enqueueStart).Leads startMonitor g () fun g _ => g = .accepted := by
  refine logEvent_leads (fun g => g = .granted ∨ g = .accepted) _ (fun _ here _ => here)
    (fun _ _ here => here) ?_ before
  rintro g lap code (rfl | rfl) last trusted
  · have kept : code ≠ .einval ∧ code ≠ .gss := trusted rfl
    cases code with
    | success => rfl
    | einval => exact absurd rfl kept.1
    | gss => exact absurd rfl kept.2
    | other => exact absurd rfl last
  · cases code <;> rfl

theorem enqueueFail_leads : (logEvent .enqueueFail).Leads startMonitor .accepted () fun g _ =>
    g = .failed := by
  refine logEvent_leads (fun g => g = .accepted ∨ g = .failing) _ (fun _ here _ => here)
    (fun _ _ _ => .inr rfl) ?_
    (.inl rfl)
  intro g lap code _ last _
  cases code <;> first | rfl | exact absurd rfl last

theorem abort_leads : (logEvent .abort).Leads startMonitor .failed () fun g _ => g = .failed ∨
    g = .aborted := by
  refine logEvent_leads (· = .failed) _ (fun _ here _ => here) (fun _ _ here => here) ?_ rfl
  rintro _ lap code rfl _ _
  cases code <;> simp [startMonitor, StartPhase.after]

theorem deliverFail_leads : (logEvent .deliverFail).Leads startMonitor .failing () fun g _ =>
    g = .failed := by
  refine logEvent_leads (· = .failing) _ (fun _ here _ => here) (fun _ _ _ => rfl) ?_ rfl
  intro g lap code _ last _
  cases code <;> first | rfl | exact absurd rfl last

theorem enqueueOk_settles : (logEvent .enqueueOk).Obeys startMonitor .delivered ()
    fun g outcome _ => outcome = .ok () ∧ g = .delivered := by
  refine logEvent_settles (fun g : StartPhase => g = .delivered) (fun _ here _ => here) ?_
    (fun _ _ trusted => ?_) rfl
  · rintro _ lap code rfl _
    cases code <;> rfl
  · exact (show _ → LbCode.other ≠ .other from trusted) rfl rfl

def Prepared (g : StartPhase) : Prop := g = .accepted ∨ g = .failed ∨ g = .aborted

theorem handleJob_leads (e : Raise) :
    (handleJob conf issubmit e).Leads startMonitor .accepted () fun g _ => Prepared g := by
  have last {g : StartPhase} (here : Prepared g) (goesOn : Bool) (e : Raise) :
      (if conf.asyncJobStart then pure goesOn else throw e : Operation Bool).Leads startMonitor g ()
        fun g _ => Prepared g := by
    split
    · exact .pure here
    · exact .throw e
  cases e with
  | requestAdException =>
    refine .bind enqueueFail_leads fun g _ _ here => ?_
    subst here
    exact .bind abort_leads fun g _ _ here => neutral_then (unlockUnless_neutral _) fun _ => last
      (.inr here) _ _
  | jobOperationException code | other =>
    exact .bind enqueueFail_leads fun g _ _ here =>
      neutral_then (unlockUnless_neutral _) fun _ => last (.inr (.inl here)) _ _

theorem handleDag_leads (dag : DagAd) (issubmit : Bool) (e : Raise) :
    (handleDag dag issubmit e).Leads startMonitor .accepted () fun g _ => Prepared g := by
  cases e with
  | requestAdException =>
    refine .bind enqueueFail_leads fun g _ _ here => ?_
    subst here
    exact .bind abort_leads fun _ _ _ _ => neutral_then (stage_only trivial) fun _ =>
      neutral_then (abortNodes_neutral _ _) fun _ => neutral_then
        (unlockUnless_neutral _) fun _ => .throw _
  | jobOperationException code | other =>
    exact .bind enqueueFail_leads fun _ _ _ _ => neutral_then (unlockUnless_neutral _) fun _ => .throw _

theorem processed_leads {x : Operation Unit} (steps : Steps x) {handler : Raise → Operation Bool}
    (handled : ∀ e, (handler e).Leads startMonitor .accepted () fun g _ => Prepared g) :
    (tryCatch (do x; pure true) handler).Leads startMonitor .accepted () fun g _ => Prepared g := by
  have only : (do x; pure true : Operation Bool).Only neutral :=
    .bind (steps.only.mono fun _ => neutral_of_processing) fun _ => .pure _
  refine obeys_tryCatch.mpr ((only.obeys (neutral_ignored _) ()).mono fun g outcome _ same => ?_)
  subst same
  cases outcome with
  | ok goesOn => exact fun _ _ => .inl rfl
  | error e => exact handled e

theorem prepare_leads (jdl : Jdl) :
    (prepare conf issubmit jdl).Leads startMonitor .accepted () fun g _ => Prepared g := by
  cases jdl with
  | job jad => exact processed_leads (processJob_steps conf jad) (handleJob_leads conf issubmit)
  | dag dag =>
    refine neutral_then (stage_only trivial) fun _ => ?_
    exact processed_leads (processDag_steps conf dag) (handleDag_leads dag issubmit)

theorem wmp2wmSubmit_leads : wmp2wmSubmit.Leads startMonitor .accepted () fun _ _ => True := by
  refine neutral_then (stage_only trivial) fun _ => ?_
  have inner : (do if ← deliver then logEvent .enqueueOk else throw .other : Operation Unit).Obeys
      startMonitor .accepted () fun g outcome _ => outcome = .ok () ∨ g = .failing := by
    refine .asks rfl fun delivered _ => ?_
    cases delivered with
    | true => exact enqueueOk_settles.mono fun _ _ _ settled => Or.inl settled.1
    | false => exact .inr rfl
  refine obeys_tryCatch.mpr (inner.mono fun g outcome _ ended => ?_)
  cases outcome with
  | ok _ => exact fun _ _ => trivial
  | error e =>
    obtain rfl : g = .failing := ended.resolve_left (by simp)
    exact deliverFail_leads.mono fun _ _ _ => trivial

theorem deliverJob_leads (prepared : Prepared g) : (deliverJob issubmit).Leads startMonitor g
    () fun _ _ => True := by
  refine .asks trivial fun reply trusted => expect_leads fun found same => ?_
  subst same
  cases found with
  | true => exact Leads.throw _
  | false =>
    obtain rfl : g = .accepted := prepared.resolve_right fun failed => failed.elim trusted.1 trusted.2
    refine neutral_then (stage_only trivial) fun _ => .bind wmp2wmSubmit_leads fun g _ _ _ => ?_
    refine neutral_then (show writeTextFile.Only neutral from .ask trivial) fun written => ?_
    cases written with
    | true =>
      exact neutral_then (show rename.Only neutral from .ask trivial) fun _ =>
        ((unlockUnless_neutral issubmit).leads (neutral_ignored g) _).mono fun _ _ _ => trivial
    | false => exact .throw _

theorem submit_leads (jdl : Jdl) : (submit conf jdl false).Leads startMonitor .granted
    () fun _ _ => True := by
  have opened : (openSubmit false).Only neutral := .bind (.ask trivial) fun reply => by
    cases reply with
    | none => exact .pure _
    | some e => exact .throw e
  refine neutral_then opened fun _ => ?_
  refine .bind accept_leads fun g _ _ here => .bind (enqueueStart_leads here) fun g _ _ here => ?_
  subst here
  refine neutral_then (stage_only trivial) fun _ => ?_
  refine .bind (prepare_leads conf false jdl) fun g goesOn _ here => ?_
  cases goesOn with
  | false => exact .pure trivial
  | true => exact deliverJob_leads false here

theorem jobStart_leads (jdl : Jdl) : (jobStart conf jdl).Leads startMonitor .idle () fun _ _ => True := by
  refine neutral_then (stage_only trivial) fun _ => ?_
  refine neutral_then (.tryCatch (stage_only trivial) handleExpired_neutral) fun _ => ?_
  refine neutral_then (fileExists_neutral _) fun found => ?_
  cases found with
  | false => exact .throw _
  | true =>
    refine neutral_then (stage_only trivial) fun _ => ?_
    refine neutral_then (stage_only trivial) fun _ => ?_
    refine neutral_then (stage_only trivial) fun _ => ?_
    refine .asks rfl fun reply _ => expect_leads fun events same => ?_
    subst same
    cases allowed : startAllowed events with
    | error e => exact .throw _
    | ok _ =>
      have granted : startMonitor.after .idle .queryEvents (some events) = .granted :=
        if_neg fun refused => refused allowed
      rw [granted]
      refine neutral_then (stage_only trivial) fun _ => ?_
      refine neutral_then (fileExists_neutral _) fun found => ?_
      cases found with
      | false => exact .throw _
      | true =>
        refine neutral_then (stage_only trivial) fun _ => ?_
        exact submit_leads conf jdl

/-! ### Many starts -/

def StartPhase.Past : StartPhase → Prop
  | .accepted | .failing | .delivered => True
  | _ => False

/-- A start that was let pass and is neither over nor has failed. -/
def Owns (p : Processes StartPhase) (pid : Nat) : Prop :=
  p.phase pid = .granted ∧ (p.program pid).Running ∨ (p.phase pid).Past

def deliveries (s : Shared) : List Nat :=
  s.history.filterMap fun entry => if entry.2 = .delivered then some entry.1 else none

structure OneStart (p : Processes StartPhase) : Prop where
  unique : ∀ i j, Owns p i → Owns p j → i = j
  refused : ∀ i, (p.phase i).Past → Refused p.shared.events
  aborted : ∀ i, p.phase i = .aborted → p.shared.isAborted = true
  once : deliveries p.shared = [] ∨ ∃ i, deliveries p.shared = [i] ∧ p.phase i = .delivered

section Step

variable {g : StartPhase} {call : Call} {reply : Reply call}

theorem eventOf_started {type : EventType} (logged : eventOf call reply = some type) :
    type ≠ .userTag ∧ ∀ parent, type ≠ .regJob parent := by
  unfold eventOf at logged
  split at logged
  · rename_i site _
    cases site <;> cases logged <;> simp
  · cases logged
    simp
  · cases logged

/-- Only the start whose events these are logs that it has failed, and with that
they are no longer its own. -/
theorem eventOf_failed (logged : eventOf call reply = some (.enqueued .fail)) (allowed : g.allows call) :
    g.Past ∧ ¬(g.after call reply).Past := by
  unfold eventOf at logged
  split at logged
  · rename_i site _
    cases site <;> simp only [LogSite.event, reduceCtorEq, Option.some.injEq,
      EventType.enqueued.injEq] at logged
    · rcases allowed with rfl | rfl <;> simp [StartPhase.Past, StartPhase.after]
    · obtain rfl : g = .failing := allowed
      simp [StartPhase.Past, StartPhase.after]
  · simp at logged
  · cases logged

theorem past_after (past : (g.after call reply).Past) (allowed : g.allows call) :
    g.Past ∨ g = .granted ∧ ∃ type, eventOf call reply = some type ∧ type ≠ .enqueued .fail := by
  unfold StartPhase.after at past
  split at past
  · split at past
    · exact .inl past
    · exact past.elim
  · exact .inr ⟨allowed, _, rfl, by simp⟩
  · rcases allowed with rfl | rfl
    · exact .inr ⟨rfl, _, rfl, by simp⟩
    · exact .inl trivial
  · rcases allowed with rfl | rfl <;> exact .inl trivial
  · exact past.elim
  · obtain rfl : g = .failing := allowed
    exact .inl trivial
  · exact past.elim
  · exact past.elim
  · obtain rfl : g = .accepted := allowed
    exact .inl trivial
  · obtain rfl : g = .accepted := allowed
    exact .inl trivial
  · exact .inl past

theorem delivered_after (allowed : StartPhase.delivered.allows call) :
    StartPhase.delivered.after call reply = .delivered := by
  unfold StartPhase.after
  split <;> simp_all [StartPhase.allows]

theorem aborted_after (aborted : g.after call reply = .aborted) : g = .aborted ∨
    eventOf call reply = some .abort := by
  unfold StartPhase.after at aborted
  split at aborted <;> try cases aborted
  · split at aborted
    · exact .inl aborted
    · cases aborted
  · exact .inr rfl
  · exact .inl rfl

def Grants : (call : Call) → Reply call → Prop
  | .queryEvents, some events => ¬Refused events
  | _, _ => False

theorem granted_after (granted : g.after call reply = .granted) : g = .granted ∨ Grants call reply := by
  unfold StartPhase.after at granted
  split at granted <;> try cases granted
  · split at granted
    · exact .inl granted
    · rename_i passes
      exact .inr passes
  · exact .inl rfl

theorem Grants.allowed {lb : Lb} {s : Shared} {pid : Nat} (grants : Grants call reply)
    (given : possible lb s pid call reply = true) : ¬Refused s.events := by
  unfold Grants at grants
  split at grants
  · rename_i events
    have same : events = s.events := by simpa [possible] using given
    exact same ▸ grants
  · exact grants.elim

theorem trusts_of_kept {lb : Lb} {s : Shared} {pid : Nat} (kept : g.kept call reply)
    (given : possible lb s pid call reply = true) (told : g = .aborted → s.isAborted = true) :
    g.trusts call reply := by
  unfold StartPhase.trusts
  split
  · refine ⟨kept, fun aborted => ?_⟩
    have nothing : s.isAborted = false := by simpa [possible] using given
    simp [told aborted] at nothing
  · exact kept

end Step

/-- No start is let pass while another one has been and has logged nothing yet. -/
def Serial (p : Processes StartPhase) (a : Exchanged Call Reply) : Prop :=
  (Grants a.call a.reply → ∀ other, other ≠ a.pid →
    ¬(p.phase other = .granted ∧ (p.program other).Running)) ∧
    (p.phase a.pid).kept a.call a.reply

section Invariant

variable {lb : Lb} {p q : Processes StartPhase} {a : Exchanged Call Reply}

variable {s : Shared} {call : Call} {reply : Reply call}

theorem refused_logged {pid : Nat} {type : EventType} (logged : eventOf call reply = some type)
    (other : type ≠ .enqueued .fail) : Refused (after lb s pid call reply).events := by
  rw [events_after, logged]
  exact refused_append _ (eventOf_started logged).1 (eventOf_started logged).2 other

theorem refused_kept {pid : Nat} (refused : Refused s.events)
    (other : eventOf call reply ≠ some (.enqueued .fail)) :
    Refused (after lb s pid call reply).events := by
  cases logged : eventOf call reply with
  | none => simpa [events_after, logged] using refused
  | some type => exact refused_logged logged fun failed => other (failed ▸ logged)

theorem deliveries_after {pid : Nat} : deliveries (after lb s pid call reply) =
      deliveries s ++ if deedOf s call reply = some .delivered then [pid] else [] := by
  rw [deliveries, after, List.filterMap_append]
  cases deedOf s call reply with
  | none => rfl
  | some deed => cases deed <;> rfl

theorem deedOf_delivered {g : StartPhase} (delivered : deedOf s call reply = some .delivered)
    (allowed : g.allows call) : g = .accepted ∧ g.after call reply = .delivered := by
  unfold deedOf at delivered
  split at delivered
  · split at delivered <;> cases delivered
  · cases delivered
  · cases delivered
  · exact ⟨allowed, rfl⟩
  · cases delivered

variable (held : OneStart p) (serial : Serial p a) (allowed : (p.phase a.pid).allows a.call)
  (stepped : Stepped (effect lb) startMonitor p a q)

include allowed stepped in
/-- Who holds the events after a step held them before, or has just been let pass. -/
theorem owns_before {pid : Nat} (owns : Owns q pid) : Owns p pid ∨ pid = a.pid ∧
    Grants a.call a.reply := by
  by_cases other : pid = a.pid
  · subst other
    rcases owns with ⟨granted, _⟩ | past
    · rw [stepped.phase_self] at granted
      rcases granted_after granted with before | grants
      · exact .inl (.inl ⟨before, stepped.running⟩)
      · exact .inr ⟨rfl, grants⟩
    · rw [stepped.phase_self] at past
      rcases past_after past allowed with before | ⟨before, _⟩
      · exact .inl (.inr before)
      · exact .inl (.inl ⟨before, stepped.running⟩)
  · rw [Owns, stepped.phase_other other, stepped.program pid other] at owns
    exact .inl owns

include held serial allowed stepped in
theorem unique_after {i j : Nat} (first : Owns q i) (second : Owns q j) : i = j := by
  obtain ⟨given, _⟩ := shared_after stepped
  -- one that has just been let pass leaves no place for another one
  have alone {k : Nat} (grants : Grants a.call a.reply) (owns : Owns p k) : k = a.pid := by
    by_contra other
    rcases owns with granted | past
    · exact serial.1 grants k other granted
    · exact grants.allowed given (held.refused k past)
  rcases owns_before allowed stepped first with before | ⟨rfl, grants⟩ <;>
    rcases owns_before allowed stepped second with before' | ⟨rfl, grants'⟩
  · exact held.unique i j before before'
  · exact alone grants' before
  · exact (alone grants before').symm
  · rfl

include held allowed stepped in
theorem refused_after {i : Nat} (past : (q.phase i).Past) : Refused q.shared.events := by
  obtain ⟨_, same⟩ := shared_after stepped
  rw [same]
  by_cases other : i = a.pid
  · subst other
    rw [stepped.phase_self] at past
    rcases past_after past allowed with before | ⟨_, type, logged, notFailed⟩
    · exact refused_kept (held.refused _ before) fun failed => (eventOf_failed failed allowed).2 past
    · exact refused_logged logged notFailed
  · rw [stepped.phase_other other] at past
    refine refused_kept (held.refused i past) fun failed => other ?_
    exact held.unique i a.pid (.inr past) (.inr (eventOf_failed failed allowed).1)

include held stepped in
theorem aborted_kept {i : Nat} (aborted : q.phase i = .aborted) : q.shared.isAborted = true := by
  obtain ⟨_, same⟩ := shared_after stepped
  rw [same]
  by_cases other : i = a.pid
  · subst other
    rw [stepped.phase_self] at aborted
    rcases aborted_after aborted with before | logged
    · exact isAborted_kept (held.aborted _ before)
    · exact isAborted_logged logged
  · rw [stepped.phase_other other] at aborted
    exact isAborted_kept (held.aborted i aborted)

include held allowed stepped in
theorem once_after : deliveries q.shared = [] ∨ ∃ i, deliveries q.shared = [i] ∧
    q.phase i = .delivered := by
  obtain ⟨_, same⟩ := shared_after stepped
  rw [same, deliveries_after]
  by_cases delivered : deedOf p.shared a.call a.reply = some .delivered
  · obtain ⟨accepted, now⟩ := deedOf_delivered delivered allowed
    rcases held.once with nothing | ⟨i, _, before⟩
    · exact .inr ⟨a.pid, by simp [nothing, delivered], stepped.phase_self.trans now⟩
    · have same : i = a.pid :=
        held.unique i a.pid (.inr (by rw [before]; trivial)) (.inr (by rw [accepted]; trivial))
      rw [same, accepted] at before
      cases before
  · simp only [delivered, if_false, List.append_nil]
    refine held.once.imp id fun ⟨i, only, before⟩ => ⟨i, only, ?_⟩
    by_cases other : i = a.pid
    · subst other
      rw [stepped.phase_self, before]
      exact delivered_after (before ▸ allowed)
    · rw [stepped.phase_other other, before]

end Invariant

def startRequests (starts : Nat → Option (Conf × Jdl)) (pid : Nat) : List Request :=
  ((starts pid).map fun start => Request.jobStart start.1 start.2).toList

theorem startRequests_obeys (s : Shared) (starts : Nat → Option (Conf × Jdl)) :
    (opening s (startRequests starts) StartPhase.idle).Obeys startMonitor := by
  refine opening_obeys_single fun pid request found => ?_
  obtain ⟨⟨conf, jdl⟩, _, rfl⟩ := Option.map_eq_some_iff.mp found
  exact Obeys.mono (jobStart_leads conf jdl) fun _ _ _ _ => trivial

/-- If no start is let pass while another one has been let pass and has logged
nothing yet, if of its first two events one is logged, if the event after a
delivery is not given up, and if no start that has failed goes on, then the job
is delivered at most once, in every run of any number of starts. -/
theorem delivered_at_most_once (lb : Lb) (s : Shared) (starts : Nat → Option (Conf × Jdl))
    (new : deliveries s = []) (p : Processes StartPhase)
    (run : Runs (step (effect lb) startMonitor) (opening s (startRequests starts) .idle) Serial p) :
    (deliveries p.shared).length ≤ 1 := by
  have initial : OneStart (opening s (startRequests starts) StartPhase.idle) := by
    refine ⟨fun i j owns => ?_, fun i past => past.elim, fun i aborted => ?_, .inl new⟩
    · rcases owns with ⟨granted, _⟩ | past
      · cases granted
      · exact past.elim
    · cases aborted
  have held : OneStart p := by
    refine runs_invariant (startRequests_obeys s starts) initial (fun p a q held serial stepped => ?_)
      (fun p a q held serial allowed stepped => ?_) run
    · exact trusts_of_kept serial.2 (shared_after stepped).1 (held.aborted a.pid)
    · exact ⟨fun i j => unique_after held serial allowed stepped,
        fun i => refused_after held allowed stepped,
        fun i => aborted_kept held stepped, once_after held allowed stepped⟩
  rcases held.once with absent | ⟨i, only, _⟩
  · simp [absent]
  · simp [only]

/-! ### A start of a registered job -/

def plainStarts (number : Nat) : Nat → List Request :=
  startRequests fun pid => if pid < number then some (plainConf false, plainJob) else none

def startExchanges (pid : Nat) : List (Exchanged Call Reply) :=
  exchanges (jobStart (plainConf false) plainJob) calm pid

def logged : (call : Call) → Reply call → Bool
  | .log _ _, .success => true
  | .log _ _, _ => false
  | _, _ => true

def Alone (p : Processes StartPhase) (a : Exchanged Call Reply) : Prop :=
  a.pid = 0 ∧ p.phase 0 ≠ .failed ∧ logged a.call a.reply = true

instance (p : Processes StartPhase) (a : Exchanged Call Reply) : Decidable (Alone p a) := instDecidableAnd

theorem kept_of_logged {call : Call} {reply : Reply call} (notFailed : g ≠ .failed)
    (all : logged call reply = true) : g.kept call reply := by
  unfold StartPhase.kept
  split
  · rename_i code
    cases code <;> first | exact fun _ => ⟨LbCode.noConfusion, LbCode.noConfusion⟩ | cases all
  · rename_i code
    cases code <;> first | exact fun _ => LbCode.noConfusion | cases all
  · exact notFailed
  · trivial

theorem serial_of_alone {lb : Lb} {start p : Processes StartPhase} (idle : ∀ pid, start.phase pid = .idle)
    (run : Runs (step (effect lb) startMonitor) start Alone p) :
    Runs (step (effect lb) startMonitor) start Serial p := by
  refine runs_single 0 (fun _ _ met => met.1) (fun p a others ⟨first, notFailed, all⟩ => ?_) run
  refine ⟨fun _ pid other granted => ?_, kept_of_logged (first ▸ notFailed) all⟩
  rw [others pid (first ▸ other), idle] at granted
  cases granted.1

theorem delivered_once_alone : ∃ p : Processes StartPhase,
    Runs (step (effect plainLb) startMonitor) (opening registered (plainStarts 1) .idle) Serial p ∧
      deliveries p.shared = [0] ∧ (deliveries p.shared).length ≤ 1 := by
  have done : (execute (step (effect plainLb) startMonitor) Alone
      (opening registered (plainStarts 1) .idle)
      (startExchanges 0)).map (fun p => deliveries p.shared) = some [0] := by
    decide
  obtain ⟨p, reached, delivered⟩ := Option.map_eq_some_iff.mp done
  have run := serial_of_alone (fun _ => rfl) (Runs.start.execute reached)
  exact ⟨p, run, delivered, delivered_at_most_once plainLb registered _ rfl p run⟩

/-- Two starts pass before one of them has logged anything, and then deliver the
job one after the other. -/
theorem delivered_twice : ∃ p : Processes StartPhase, Runs (step (effect plainLb) startMonitor)
      (opening registered (plainStarts 2) .idle) Free p ∧ deliveries p.shared = [0, 1] := by
  have done : (execute (step (effect plainLb) startMonitor) Free
      (opening registered (plainStarts 2) .idle)
      ((startExchanges 0).take 10 ++ (startExchanges 1).take 10 ++ (startExchanges 0).drop 10 ++
        (startExchanges 1).drop 10)).map (fun p => deliveries p.shared) = some [0, 1] := by
    decide
  obtain ⟨p, reached, delivered⟩ := Option.map_eq_some_iff.mp done
  exact ⟨p, Runs.start.execute reached, delivered⟩

end Wms.Interface
