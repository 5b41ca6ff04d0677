import Wms.Interface.Requests

/-! A start and a cancellation of one job.

A start asks whether the job has been aborted and then delivers it. A
cancellation logs the abort and then purges the job. A start that has asked and
has not delivered yet does not see an abort that is logged then.
-/

set_option autoImplicit false

namespace Wms.Interface

open Lib Pool

/-! ### The phases of a start and of a cancellation -/

inductive RacePhase where
  | starting
  /-- The start was told that there is no abort and has not delivered the job yet. -/
  | clear
  | cancelling
  | aborted
  deriving DecidableEq, Repr

namespace RacePhase

def Starts (g : RacePhase) : Prop := g = .starting ∨ g = .clear

def allows (g : RacePhase) : Call → Prop
  | .deliver => g = .clear
  | .doPurge _ => g ≠ .cancelling
  | .log .abort _ | .log .expiredAbort _ => g.Starts
  | _ => True

def after (g : RacePhase) : (call : Call) → Reply call → RacePhase
  | .queryAbort, some false => if g = .starting then .clear else g
  | .deliver, _ => if g = .clear then .starting else g
  | .logAbortEventSync _, true => if g = .cancelling then .aborted else g
  | _, _ => g

theorem starts_after {g : RacePhase} {call : Call} {reply : Reply call} :
    (g.after call reply).Starts ↔ g.Starts := by
  unfold after
  split <;> cases g <;> simp [Starts]

end RacePhase

def raceMonitor : Monitor Call Reply RacePhase where
  allows := RacePhase.allows
  trusts _ _ _ := True
  after := RacePhase.after

variable {g : RacePhase}

theorem starts_obeys {α : Type} {x : Operation α} (only : x.Only (· ≠ .deliver)) (starts : g.Starts) :
    x.Obeys raceMonitor g () fun g' _ _ => g'.Starts := by
  refine only.invariant (fun g starts call other => ?_) (fun g starts call _ reply => ?_) starts ()
  · change g.allows call
    unfold RacePhase.allows
    split
    · exact absurd rfl other
    · rcases starts with rfl | rfl <;> simp
    · exact starts
    · exact starts
    · trivial
  · exact RacePhase.starts_after.mpr starts

/-! ### The start -/

theorem starts_then {α β : Type} {x : Operation α} {f : α → Operation β} {good : RacePhase → β → Prop}
    (only : x.Only (· ≠ .deliver)) (starts : g.Starts)
    (next : ∀ g a, g.Starts → (f a).Leads raceMonitor g () good) :
    (x >>= f).Leads raceMonitor g () good := by
  have first : x.Leads raceMonitor g () fun g' _ => g'.Starts :=
    (starts_obeys only starts).mono fun _ _ _ kept _ _ => kept
  exact .bind first fun g a _ => next g a

theorem clear_stage (step : Stage) : (stage step).Leads raceMonitor .clear () fun g _ => g = .clear := by
  have only : (stage step).Only (· = .stage step) := stage_only rfl
  refine only.leads ?_ ()
  rintro _ rfl
  exact ⟨trivial, fun _ => rfl⟩

theorem wmp2wmSubmit_starts : wmp2wmSubmit.Leads raceMonitor .clear () fun g _ => g.Starts := by
  refine .bind (clear_stage _) fun g _ _ same => ?_
  subst same
  have rest (delivered : Bool) : (if delivered then logEvent .enqueueOk
      else Dialog.throw .other : Operation Unit).Only
      (· ≠ .deliver) := by
    split
    · exact logEvent_only fun _ => nofun
    · exact .throw _
  have failed : (logEvent .deliverFail).Only (· ≠ .deliver) := logEvent_only fun _ => nofun
  refine Dialog.obeys_tryCatch.mpr (.asks rfl fun delivered _ => ?_)
  refine (starts_obeys (rest delivered) (.inl rfl)).mono fun g outcome _ starts => ?_
  cases outcome with
  | ok _ => exact fun _ _ => starts
  | error e => exact (starts_obeys failed starts).mono fun _ _ _ kept _ _ => kept

theorem deliverJob_starts (starts : g.Starts) : (deliverJob false).Leads raceMonitor g
    () fun _ _ => True := by
  refine .asks trivial fun reply _ => expect_leads fun found same => ?_
  subst same
  cases found with
  | true => exact Dialog.Leads.throw _
  | false =>
    have clear : g.after .queryAbort (some false) = .clear := by
      rcases starts with rfl | rfl <;> rfl
    rw [show raceMonitor.after g .queryAbort (some false) = .clear from clear]
    refine .bind (clear_stage _) fun g _ _ same => ?_
    subst same
    refine .bind wmp2wmSubmit_starts fun g _ _ starts => ?_
    refine starts_then (show writeTextFile.Only _ from .ask nofun) starts fun g written starts => ?_
    cases written with
    | false => exact .throw _
    | true =>
      refine starts_then (show rename.Only _ from .ask nofun) starts fun g _ starts => ?_
      exact (starts_obeys (unlockUnless_only nofun _) starts).mono fun _ _ _ _ _ _ => trivial

theorem submit_starts (conf : Conf) (jdl : Jdl) (starts : g.Starts) :
    (submit conf jdl false).Leads raceMonitor g () fun _ _ => True := by
  have opened : (openSubmit false).Only (· ≠ .deliver) := .bind (.ask nofun) fun reply => by
    cases reply with
    | none => exact .pure _
    | some e => exact .throw e
  have prepared : (prepare conf false jdl).Only (· ≠ .deliver) := by
    refine (prepare_only conf false jdl).mono fun call made => ?_
    rintro rfl
    exact made.elim id id
  refine starts_then opened starts fun g _ starts => ?_
  refine starts_then (logEvent_only fun _ => nofun) starts fun g _ starts => ?_
  refine starts_then (logEvent_only fun _ => nofun) starts fun g _ starts => ?_
  refine starts_then (stage_only nofun) starts fun g _ starts => ?_
  refine starts_then prepared starts fun g goesOn starts => ?_
  cases goesOn with
  | false => exact .pure trivial
  | true => exact deliverJob_starts starts

theorem jobStart_starts (conf : Conf) (jdl : Jdl) :
    (jobStart conf jdl).Leads raceMonitor .starting () fun _ _ => True := by
  have expired (e : Raise) : (handleExpired e).Only (· ≠ .deliver) := by
    refine .bind (onlyIf_only (.bind (logEvent_only fun _ => nofun) fun _ => ?_) _) fun _ => .throw e
    refine jobpurge_only.mono fun call made => ?_
    rintro rfl
    exact made
  refine starts_then (stage_only nofun) (.inl rfl) fun g _ starts => ?_
  refine starts_then (.tryCatch (stage_only nofun) expired) starts fun g _ starts => ?_
  refine starts_then (show (fileExists .directory).Only _ from .ask nofun) starts fun g found starts => ?_
  cases found with
  | false => exact .throw _
  | true =>
    refine starts_then (stage_only nofun) starts fun g _ starts => ?_
    refine starts_then (stage_only nofun) starts fun g _ starts => ?_
    refine starts_then (stage_only nofun) starts fun g _ starts => ?_
    refine starts_then (show queryEvents.Only _ from .ask nofun) starts fun g reply starts =>
      expect_leads fun events _ => ?_
    cases startAllowed events with
    | error e => exact .throw _
    | ok _ =>
      refine starts_then (stage_only nofun) starts fun g _ starts => ?_
      refine starts_then (show (fileExists .jdlToStart).Only _ from .ask nofun) starts
        fun g found starts => ?_
      cases found with
      | false => exact .throw _
      | true =>
        refine starts_then (stage_only nofun) starts fun g _ starts => ?_
        exact submit_starts conf jdl starts

/-! ### The cancellation -/

def Settled : Call → Prop
  | .deliver | .doPurge _ | .logAbortEventSync _ | .queryAbort => False
  | .log .abort _ | .log .expiredAbort _ => False
  | _ => True

theorem settled_ignored (g : RacePhase) : raceMonitor.Ignores g Settled := by
  refine fun call made => ⟨?_, fun reply => ?_⟩
  · change g.allows call
    unfold RacePhase.allows
    split <;> first | exact made.elim | trivial
  · change g.after call reply = g
    unfold RacePhase.after
    split <;> first | exact made.elim | rfl

theorem settled_then {α β : Type} {x : Operation α} {f : α → Operation β} {good : RacePhase → β → Prop}
    (only : x.Only Settled) (next : ∀ a, (f a).Leads raceMonitor g () good) :
    (x >>= f).Leads raceMonitor g () good :=
  only.leads_bind (settled_ignored g) fun a _ => next a

theorem logAbortEventSync_leads : logAbortEventSync.Leads raceMonitor .cancelling ()
    fun g logged => logged = true → g = .aborted := by
  have laps (more : Nat) : ∀ lap, (abortLaps lap more).Leads raceMonitor .cancelling ()
      fun g logged => logged = true → g = .aborted := by
    induction more with
    | zero => exact fun lap => .pure nofun
    | succ more ih =>
      refine fun lap => .asks trivial fun logged _ => ?_
      cases logged with
      | true => exact .pure fun _ => rfl
      | false => exact ih _
  exact laps _ _

theorem abortAndPurge_leads : abortAndPurge.Leads raceMonitor .cancelling () fun _ _ => True := by
  refine .bind logAbortEventSync_leads fun g logged _ aborted => ?_
  cases logged with
  | false => exact .pure trivial
  | true =>
    obtain rfl := aborted rfl
    refine settled_then (.bind (.ask trivial) expect_only) fun locked => ?_
    have only : (onlyIf (!locked) jobpurge).Only Processing := onlyIf_only jobpurge_only _
    refine (only.leads (fun call made => ⟨?_, fun reply => ?_⟩) ()).mono fun _ _ _ => trivial
    · change RacePhase.aborted.allows call
      unfold RacePhase.allows
      split <;> first | exact made.elim | trivial
    · change RacePhase.aborted.after call reply = .aborted
      unfold RacePhase.after
      split <;> rfl

theorem cancelInManager_settled : cancelInManager.Only Settled :=
  .bind (stage_only trivial) fun _ => logEvent_only fun _ => trivial

theorem jobCancel_leads : jobCancel.Leads raceMonitor .cancelling () fun _ _ => True := by
  have managed : cancelInManager.Leads raceMonitor .cancelling () fun _ _ => True :=
    (cancelInManager_settled.leads (settled_ignored _) ()).mono fun _ _ _ => trivial
  refine settled_then (stage_only trivial) fun _ => ?_
  refine settled_then (stage_only trivial) fun _ => ?_
  refine settled_then (stage_only trivial) fun _ => ?_
  refine settled_then (stage_only trivial) fun _ => ?_
  refine settled_then (.bind (.ask trivial) expect_only) fun status => ?_
  split
  · exact .throw _
  · refine settled_then (stage_only trivial) fun _ => ?_
    refine settled_then (stage_only trivial) fun _ => ?_
    refine settled_then (stage_only trivial) fun _ => ?_
    split
    · split
      · exact managed
      · refine .bind abortAndPurge_leads fun g _ _ _ => ?_
        exact ((stage_only trivial).leads (settled_ignored g) ()).mono fun _ _ _ => trivial
    · exact managed
    · exact managed
    · exact managed
    · exact managed
    · split
      · exact managed
      · exact .throw _
    · exact .throw _
    · exact .throw _
    · exact .throw _
    · exact .throw _

/-! ### Both of them -/

def startAndCancel (s : Shared) (conf : Conf) (jdl : Jdl) : Processes RacePhase where
  shared := s
  program
    | 0 => serve [.jobStart conf jdl]
    | 1 => serve [.jobCancel]
    | _ => serve []
  phase
    | 0 => .starting
    | _ => .cancelling

theorem startAndCancel_obeys (s : Shared) (conf : Conf) (jdl : Jdl) :
    (startAndCancel s conf jdl).Obeys raceMonitor := by
  intro pid
  match pid with
  | 0 => exact Interact.obeys_bind.mpr (Interact.Obeys.mono (jobStart_starts conf jdl) fun _ _ _ =>
      trivial)
  | 1 => exact Interact.obeys_bind.mpr (Interact.Obeys.mono jobCancel_leads fun _ _ _ => trivial)
  | _ + 2 => trivial

/-- The cancellation does not log its abort between the start's question for one and its delivery.
-/
def Undisturbed (p : Processes RacePhase) (a : Exchanged Call Reply) : Prop :=
  a.pid = 1 → eventOf a.call a.reply = some .abort → ¬(p.phase 0 = .clear ∧ (p.program 0).Running)

/-- The cancellation aborts or purges the job, and later the start delivers it. -/
def DeliveredCancelled (earlier later : Nat × Deed) : Prop :=
  earlier.1 = 1 ∧ (earlier.2 = .aborted ∨ ∃ locked, earlier.2 = .purged locked) ∧ later = (0, .delivered)

structure Raced (p : Processes RacePhase) : Prop where
  canceller : ¬(p.phase 1).Starts
  aborted : p.phase 1 = .aborted → p.shared.isAborted = true
  done : ∀ deed, (1, deed) ∈ p.shared.history → p.shared.isAborted = true
  clear : p.phase 0 = .clear → (p.program 0).Running →
    p.phase 1 = .cancelling ∧ ∀ deed, (1, deed) ∉ p.shared.history
  ordered : p.shared.history.Pairwise fun earlier later => ¬DeliveredCancelled earlier later

section Step

variable {g : RacePhase} {call : Call} {reply : Reply call}

theorem aborted_before (aborted : g.after call reply = .aborted) : g = .aborted ∨
    eventOf call reply = some .abort := by
  unfold RacePhase.after at aborted
  split at aborted
  · split at aborted
    · cases aborted
    · exact .inl aborted
  · split at aborted
    · cases aborted
    · exact .inl aborted
  · exact .inr rfl
  · exact .inl aborted

/-- The start is told that there is no abort only if there is none. -/
theorem clear_before {lb : Lb} {s : Shared} {pid : Nat} (clear : g.after call reply = .clear)
    (given : possible lb s pid call reply = true) : g = .clear ∨ s.isAborted = false := by
  unfold RacePhase.after at clear
  split at clear
  · exact .inr (beq_iff_eq.mp given).symm
  · split at clear
    · cases clear
    · exact .inl clear
  · split at clear
    · cases clear
    · exact .inl clear
  · exact .inl clear

theorem deed_logged {s : Shared} {deed : Deed} (done : deedOf s call reply = some deed)
    (allowed : g.allows call)
    (cancels : ¬g.Starts) : g = .aborted ∨ eventOf call reply = some .abort := by
  rcases deedOf_cases done with ⟨_, logged⟩ | ⟨_, force, rfl⟩ | ⟨_, rfl⟩
  · exact .inr logged
  · have purges : g ≠ .cancelling := allowed
    cases g <;> simp_all [RacePhase.Starts]
  · exact absurd (.inr allowed) cancels

end Step

section Invariant

variable {lb : Lb} {p q : Processes RacePhase} {a : Exchanged Call Reply}

theorem starts_step (stepped : Stepped (effect lb) raceMonitor p a q) (pid : Nat) :
    (q.phase pid).Starts ↔ (p.phase pid).Starts := by
  by_cases self : pid = a.pid
  · subst self
    rw [stepped.phase_self]
    exact RacePhase.starts_after
  · rw [stepped.phase_other self]

variable (held : Raced p) (undisturbed : Undisturbed p a) (allowed : (p.phase a.pid).allows a.call)
  (stepped : Stepped (effect lb) raceMonitor p a q)

include held stepped in
theorem aborted_step (aborted : q.phase 1 = .aborted) : q.shared.isAborted = true := by
  rw [(shared_after stepped).2]
  by_cases self : 1 = a.pid
  · rw [self, stepped.phase_self, ← self] at aborted
    rcases aborted_before aborted with before | logged
    · exact isAborted_kept (held.aborted before)
    · exact isAborted_logged logged
  · rw [stepped.phase_other self] at aborted
    exact isAborted_kept (held.aborted aborted)

include held allowed stepped in
theorem done_step {deed : Deed} (done : (1, deed) ∈ q.shared.history) : q.shared.isAborted = true := by
  rw [(shared_after stepped).2] at done ⊢
  rcases mem_history_after.mp done with before | ⟨self, done⟩
  · exact isAborted_kept (held.done deed before)
  · have self : 1 = a.pid := self
    rcases deed_logged done allowed (self ▸ held.canceller) with before | logged
    · exact isAborted_kept (held.aborted (self ▸ before))
    · exact isAborted_logged logged

include held undisturbed allowed stepped in
/-- While the start is on its way to the delivery the cancellation does nothing. -/
theorem idle_step (clear : p.phase 0 = .clear) (running : (p.program 0).Running) :
    q.phase 1 = .cancelling ∧ ∀ deed, (1, deed) ∉ q.shared.history := by
  obtain ⟨cancelling, absent⟩ := held.clear clear running
  have quiet (self : 1 = a.pid) : eventOf a.call a.reply ≠ some .abort := fun logged =>
    undisturbed self.symm logged ⟨clear, running⟩
  constructor
  · by_cases self : 1 = a.pid
    · have cancels : ¬(q.phase 1).Starts :=
          fun starts => held.canceller ((starts_step stepped 1).mp starts)
      have notAborted : q.phase 1 ≠ .aborted := fun aborted => by
        rw [self, stepped.phase_self, ← self, cancelling] at aborted
        rcases aborted_before aborted with before | logged
        · cases before
        · exact quiet self logged
      cases now : q.phase 1 <;> simp_all [RacePhase.Starts]
    · rw [stepped.phase_other self, cancelling]
  · intro deed done
    rw [(shared_after stepped).2] at done
    rcases mem_history_after.mp done with before | ⟨self, done⟩
    · exact absent deed before
    · have self : 1 = a.pid := self
      rcases deed_logged done allowed (self ▸ held.canceller) with before | logged
      · rw [← self, cancelling] at before
        cases before
      · exact quiet self logged

include held undisturbed allowed stepped in
theorem clear_step (clear : q.phase 0 = .clear) (running : (q.program 0).Running) :
    q.phase 1 = .cancelling ∧ ∀ deed, (1, deed) ∉ q.shared.history := by
  by_cases self : 0 = a.pid
  · have ran : (p.program 0).Running := self ▸ stepped.running
    rw [self, stepped.phase_self, ← self] at clear
    rcases clear_before clear (shared_after stepped).1 with before | notAborted
    · exact idle_step held undisturbed allowed stepped before ran
    · -- without an abort the cancellation has done nothing, and the start does not act for it
      have other : 1 ≠ a.pid := by omega
      refine ⟨?_, fun deed done => ?_⟩
      · rw [stepped.phase_other other]
        have aborted := held.aborted
        have canceller := held.canceller
        cases phase : p.phase 1 <;> simp_all [RacePhase.Starts]
      · rw [(shared_after stepped).2] at done
        rcases mem_history_after.mp done with before | ⟨same, _⟩
        · simp [held.done deed before] at notAborted
        · exact other same
  · rw [stepped.phase_other self] at clear
    rw [stepped.program 0 self] at running
    exact idle_step held undisturbed allowed stepped clear running

include held allowed stepped in
theorem ordered_step : q.shared.history.Pairwise fun earlier later =>
    ¬DeliveredCancelled earlier later := by
  rw [(shared_after stepped).2]
  refine List.pairwise_append.mpr ⟨held.ordered, ?_, ?_⟩
  · cases deedOf p.shared a.call a.reply <;> simp
  · rintro ⟨pid, earlier⟩ before later new ⟨rfl, _, rfl⟩
    obtain ⟨deed, done, same⟩ := List.mem_map.mp new
    obtain ⟨first, rfl⟩ := Prod.mk.inj same
    rcases deedOf_cases (Option.mem_toList.mp done) with ⟨other, _⟩ | ⟨other, _⟩ | ⟨_, delivers⟩
    · cases other
    · cases other
    · have clear : p.phase 0 = .clear := by
        rw [delivers, first] at allowed
        exact allowed
      exact (held.clear clear (first ▸ stepped.running)).2 earlier before

end Invariant

/-- If the cancellation does not log its abort between the start's question for
one and its delivery, then in every run of the two the start delivers nothing
after the cancellation has aborted or purged the job. -/
theorem not_delivered_cancelled (lb : Lb) (s : Shared) (conf : Conf) (jdl : Jdl) (new : s.history = [])
    (p : Processes RacePhase) (run : Runs (step (effect lb) raceMonitor) (startAndCancel s conf jdl)
      Undisturbed p) :
    p.shared.history.Pairwise fun earlier later => ¬DeliveredCancelled earlier later := by
  have initial : Raced (startAndCancel s conf jdl) := by
    have empty : (startAndCancel s conf jdl).shared.history = [] := new
    refine ⟨?_, nofun, ?_, nofun, ?_⟩
    · simp [startAndCancel, RacePhase.Starts]
    · simp [empty]
    · simp [empty]
  refine (runs_invariant (startAndCancel_obeys s conf jdl) initial (fun _ _ _ _ _ _ => trivial)
    (fun p a q held undisturbed allowed stepped => ?_) run).ordered
  exact {
    canceller := fun starts => held.canceller ((starts_step stepped 1).mp starts)
    aborted := aborted_step held stepped
    done := fun _ => done_step held allowed stepped
    clear := clear_step held undisturbed allowed stepped
    ordered := ordered_step held allowed stepped }

/-! ### A registered job that is cancelled while it is started -/

def plainStart : List (Exchanged Call Reply) := exchanges (jobStart (plainConf false) plainJob) calm 0

instance (p : Processes RacePhase) (a : Exchanged Call Reply) : Decidable (Undisturbed p a) :=
  inferInstanceAs (Decidable (_ → _ → ¬_))

/-- The cancellation logs its abort when the start is over. -/
theorem cancelled_after_delivery : ∃ p : Processes RacePhase,
    Runs (step (effect plainLb) raceMonitor)
      (startAndCancel registered (plainConf false) plainJob) Undisturbed p ∧
      p.shared.history = [(0, .delivered), (1, .aborted)] ∧
      p.shared.history.Pairwise fun earlier later => ¬DeliveredCancelled earlier later := by
  have done : (execute (step (effect plainLb) raceMonitor) Undisturbed
      (startAndCancel registered (plainConf false) plainJob)
      ((exchanges jobCancel calm 1).take 8 ++ plainStart ++
        ((exchanges jobCancel calm 1).drop 8).take 2)).map
      (fun p => p.shared.history) = some [(0, .delivered), (1, .aborted)] := by
    decide
  obtain ⟨p, reached, history⟩ := Option.map_eq_some_iff.mp done
  have run := Runs.start.execute reached
  exact ⟨p, run, history, not_delivered_cancelled plainLb registered _ _ rfl p run⟩

def startSeen : (call : Call) → Reply call
  | .isOperationLocked _ => some true
  | call => calm call

/-- The cancellation has seen a submitted job; it logs the abort when the start has asked for one,
and the start delivers the job. -/
theorem delivered_cancelled : ∃ p : Processes RacePhase,
    Runs (step (effect plainLb) raceMonitor)
      (startAndCancel registered (plainConf false) plainJob) Free p ∧
      p.shared.history = [(1, .aborted), (0, .delivered)] ∧ DeliveredCancelled (1, .aborted)
        (0, .delivered) := by
  have done : (execute (step (effect plainLb) raceMonitor) Free
      (startAndCancel registered (plainConf false) plainJob)
      ((exchanges jobCancel startSeen 1).take 8 ++ plainStart.takeWhile (·.call ≠ .deliver) ++
        (exchanges jobCancel startSeen 1).drop 8 ++ plainStart.dropWhile (·.call ≠ .deliver))).map
      (fun p => p.shared.history) = some [(1, .aborted), (0, .delivered)] := by
    decide
  obtain ⟨p, reached, history⟩ := Option.map_eq_some_iff.mp done
  exact ⟨p, Runs.start.execute reached, history, rfl, .inl rfl, rfl⟩

end Wms.Interface
