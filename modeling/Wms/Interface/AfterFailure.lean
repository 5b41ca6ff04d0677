import Wms.Interface.Submitted

/-! What `submit` does after a failure.

Two barriers stand before the delivery: a handler that throws or returns, and the query for an
abort. The renaming has none; it follows a delivery that failed as it follows one that did not.
-/

set_option autoImplicit false

namespace Wms.Interface

open Lib List

variable {answer : Answer} {conf : Conf} {issubmit : Bool} {jdl : Jdl}

def Fails (log : List Mark) : Prop := .failed ∈ log ∨ .aborted ∈ log

def Acts (log : List Mark) : Prop := .delivered ∈ log ∨ .renamed ∈ log

def Ordered (log : List Mark) : Prop :=
  log.Pairwise fun a b => a = .failed ∨ a = .aborted → b ≠ .delivered ∧ b ≠ .renamed

theorem ordered_append {before after : List Mark} (idle : ¬Acts before) :
    Ordered (before ++ after) ↔ Ordered after ∧ (Fails before → ¬Acts after) := by
  have first : Ordered before := by
    refine pairwise_of_forall_mem_list fun a _ b member _ => ⟨?_, ?_⟩
    · rintro rfl
      exact idle (.inl member)
    · rintro rfl
      exact idle (.inr member)
  rw [Ordered, pairwise_append]
  constructor
  · rintro ⟨_, second, across⟩
    refine ⟨second, fun fails acts => ?_⟩
    have each : ∀ b ∈ after, b ≠ .delivered ∧ b ≠ .renamed := by
      rcases fails with failed | aborted
      · exact fun b member => across _ failed b member (.inl rfl)
      · exact fun b member => across _ aborted b member (.inr rfl)
    rcases acts with delivered | renamed
    · exact (each _ delivered).1 rfl
    · exact (each _ renamed).2 rfl
  · rintro ⟨second, across⟩
    refine ⟨first, second, fun a before b after failure => ?_⟩
    have fails : Fails _ := failure.elim (fun same => .inl (same ▸ before)) fun same => .inr
        (same ▸ before)
    exact ⟨fun same => across fails (.inl (same ▸ after)), fun same => across fails (.inr (same ▸ after))⟩

/-! ### Before the delivery -/

section Idle

variable {α β : Type} {x : Operation α} {f : α → Operation β}

def Idle (answer : Answer) (x : Operation α) : Prop :=
  ∀ mark ∈ marks answer x, mark = .unlocked ∨ mark = .failed ∨ mark = .aborted

theorem Idle.not_acts (idle : Idle answer x) : ¬Acts (marks answer x) := by
  rintro (delivered | renamed)
  · simpa using idle _ delivered
  · simpa using idle _ renamed

theorem Idle.bind (first : Idle answer x) (second : ∀ a, Idle answer (f a)) : Idle answer (x >>= f) := by
  intro mark member
  rw [marks_bind, mem_append] at member
  rcases member with member | member
  · exact first mark member
  · cases found : outcome answer x with
    | ok a => exact second a mark (by simpa [found] using member)
    | error e => simp [found] at member

theorem Idle.tryCatch {handler : Raise → Operation α} (first : Idle answer x)
    (second : ∀ e, Idle answer (handler e)) :
    Idle answer (Dialog.tryCatch x handler) := by
  intro mark member
  rw [marks_tryCatch, mem_append] at member
  rcases member with member | member
  · exact first mark member
  · cases found : outcome answer x with
    | ok a => simp [found] at member
    | error e => exact second e mark (by simpa [found] using member)

theorem Idle.of_marks (empty : marks answer x = []) : Idle answer x := by simp [Idle, empty]

theorem Quiet.idle (quiet : Quiet answer x) : Idle answer x := by
  rcases quiet with nothing | ⟨aborted, _⟩
  · exact .of_marks nothing
  · simp [Idle, aborted]

theorem logEvent_idle (site : LogSite) : Idle answer (logEvent site) := by
  rw [Idle, marks_logEvent]
  split
  · cases site <;> simp [LogSite.mark, LogSite.event, EventType.mark]
  · simp

theorem unlockUnless_idle : Idle answer (unlockUnless issubmit) := by
  cases issubmit <;> simp [Idle]

end Idle

theorem handleJob_idle (e : Raise) : Idle answer (handleJob conf issubmit e) := by
  have last (goesOn : Bool) (e : Raise) :
      Idle answer (if conf.asyncJobStart then pure goesOn else Dialog.throw e : Operation Bool) := by
    split <;> exact .of_marks rfl
  cases e with
  | requestAdException =>
    exact .bind (logEvent_idle _) fun _ => .bind (logEvent_idle _) fun _ =>
      .bind unlockUnless_idle fun _ => last _ _
  | jobOperationException | other =>
    exact .bind (logEvent_idle _) fun _ => .bind unlockUnless_idle fun _ => last _ _

theorem handleDag_idle (dag : DagAd) (e : Raise) : Idle answer (handleDag dag issubmit e) := by
  cases e with
  | requestAdException =>
    exact .bind (logEvent_idle _) fun _ => .bind (logEvent_idle _) fun _ => .bind
      (Steps.stage _).quiet.idle fun _ =>
      .bind (.of_marks (marks_abortNodes 0 _)) fun _ => .bind unlockUnless_idle fun _ => .of_marks rfl
  | jobOperationException code =>
    exact .bind (logEvent_idle _) fun _ => .bind unlockUnless_idle fun _ => .of_marks rfl
  | other => exact .bind (logEvent_idle _) fun _ => .bind unlockUnless_idle fun _ => .of_marks rfl

theorem prepare_idle (jdl : Jdl) : Idle answer (prepare conf issubmit jdl) := by
  cases jdl with
  | job jad => exact .tryCatch (.bind (processJob_steps conf jad).quiet.idle fun _ =>
      .of_marks rfl) handleJob_idle
  | dag dag =>
    exact .bind (Steps.stage _).quiet.idle fun _ =>
      .tryCatch (.bind (processDag_steps conf dag).quiet.idle fun _ => .of_marks rfl) (handleDag_idle dag)

/-! ### The delivery and the renaming -/

def undeliverable : Answer where
  reply
    | .deliver => false
    | call => calm call

def Renames (answer : Answer) : Prop :=
  Forwards answer ∧ answer.writeTextFile = true ∧ answer.rename = true

def LogsFailure (answer : Answer) : Prop := NotForwarded answer ∧ Written answer .deliverFail

theorem acts_deliverJob (clear : Clear answer) :
    Acts (marks answer (deliverJob issubmit)) ↔ answer.deliver = true ∨ Renames answer := by
  rw [marks_deliverJob clear, Acts, Renames]
  cases answer.deliver <;> cases answer.rename <;> cases issubmit <;> simp

theorem ordered_deliverJob (clear : Clear answer) :
    Ordered (marks answer (deliverJob issubmit)) ↔ ¬(LogsFailure answer ∧ Renames answer) := by
  rw [marks_deliverJob clear, LogsFailure, Renames]
  by_cases logs : NotForwarded answer ∧ Written answer .deliverFail <;>
    by_cases ends : Forwards answer ∧ answer.writeTextFile = true <;>
    cases answer.deliver <;> cases answer.rename <;> cases issubmit <;> simp [Ordered, logs, ends]

def ActsAfterFailure (answer : Answer) (conf : Conf) (jdl : Jdl) : Prop :=
  Continued answer conf jdl ∧ (Written answer .enqueueFail ∨ Written answer .abort) ∧
    (answer.deliver = true ∨ Renames answer) ∨
  GoesOn answer conf jdl ∧ LogsFailure answer ∧ Renames answer

theorem fails_prepare {jdl : Jdl} (goesOn : GoesOn answer conf jdl) :
    Fails (marks answer (prepare conf issubmit jdl)) ↔
      Continued answer conf jdl ∧ (Written answer .enqueueFail ∨ Written answer .abort) := by
  by_cases continued : Continued answer conf jdl
  · rw [marks_prepare_continued continued]
    cases issubmit <;> simp [Fails, continued]
  · rw [marks_prepare_processed (goesOn.resolve_right continued)]
    simp [Fails, continued]

theorem ordered_submit_goesOn {jdl : Jdl} (opened : Opened answer issubmit)
    (goesOn : GoesOn answer conf jdl) :
    Ordered (marks answer (submit conf jdl issubmit)) ↔
      ¬(Clear answer ∧ ActsAfterFailure answer conf jdl) := by
  rw [marks_submit opened goesOn, ordered_append (prepare_idle jdl).not_acts, fails_prepare goesOn]
  by_cases clear : Clear answer
  · rw [ordered_deliverJob clear, acts_deliverJob clear]
    simp only [clear, true_and, ActsAfterFailure, goesOn]
    grind
  · simp [marks_deliverJob_of_not_clear clear, Ordered, Acts, clear]

/-- Nothing is done after a failure has been logged, except in two cases: an
asynchronous start goes on with a bad JDL and sees no abort, or a delivery fails
or cannot be logged, and the JDL is renamed all the same. -/
theorem ordered_submit_iff (conf : Conf) (jdl : Jdl) (issubmit : Bool) (answer : Answer) :
    Ordered (marks answer (submit conf jdl issubmit)) ↔
      ¬(Opened answer issubmit ∧ Clear answer ∧ ActsAfterFailure answer conf jdl) := by
  by_cases opened : Opened answer issubmit
  · by_cases goesOn : GoesOn answer conf jdl
    · rw [ordered_submit_goesOn opened goesOn]
      simp [opened]
    · have stops : ¬Continued answer conf jdl := fun continued => goesOn (.inr continued)
      have ordered : Ordered (marks answer (prepare conf issubmit jdl) ++ []) :=
        (ordered_append (prepare_idle jdl).not_acts).mpr ⟨.nil, by simp [Acts]⟩
      rw [append_nil] at ordered
      rw [marks_submit_of_not_goesOn opened goesOn]
      exact iff_of_true ordered (by simp [ActsAfterFailure, goesOn, stops])
  · simp [marks_submit_of_not_opened jdl opened, Ordered, opened]

/-- An asynchronous start logs that the JDL is bad, and then delivers the job; a start whose
delivery fails logs that, and then renames the JDL. -/
theorem acts_after_failure : ¬Ordered (marks badJdl (submit (plainConf true) plainJob false)) ∧
    ¬Ordered (marks undeliverable (submit (plainConf false) plainJob false)) := by
  rw [show marks badJdl (submit (plainConf true) plainJob false) =
      [.failed, .unlocked, .delivered, .renamed, .unlocked] by decide,
    show marks undeliverable (submit (plainConf false) plainJob false) =
      [.undelivered, .failed, .renamed, .unlocked] by decide]
  simp [Ordered]

/-! ### The files and the events after a delivery -/

/-- A start is refused because there is no JDL to start from. -/
def RefusedForJdl (answer : Answer) (conf : Conf) (jdl : Jdl) : Prop :=
  .fileExists .jdlToStart ∈ (jobStart conf jdl).calls answer.reply () ∧
    answer.fileExists .jdlToStart = false

/-- The JDL is renamed for a delivered job only, a failure is logged just for one that is not, and
such a job can be started again: a later start finds the JDL unless it has been renamed. -/
structure Consistent (log : List Mark) : Prop where
  renamed : .renamed ∈ log → .delivered ∈ log
  failed : .delivered ∈ log ∨ .undelivered ∈ log → (.failed ∈ log ↔ .undelivered ∈ log)
  startable : .undelivered ∈ log → ∀ later conf jdl,
    (later.fileExists .jdlToStart = true ↔ .renamed ∉ log) → ¬RefusedForJdl later conf jdl

theorem consistent_iff {log : List Mark} (once : .delivered ∈ log → .undelivered ∉ log) :
    Consistent log ↔ (.renamed ∈ log → .delivered ∈ log) ∧
      (.delivered ∈ log ∨ .undelivered ∈ log → (.failed ∈ log ↔ .undelivered ∈ log)) := by
  refine ⟨fun consistent => ⟨consistent.renamed, consistent.failed⟩, fun ⟨renamed, failed⟩ =>
    ⟨renamed, failed, ?_⟩⟩
  intro undelivered later conf jdl more refused
  have kept : .renamed ∉ log := fun found => once (renamed found) undelivered
  exact absurd refused.2 (by simp [more.mpr kept])

theorem consistent_of_idle {log : List Mark}
    (idle : ∀ mark ∈ log, mark = .unlocked ∨ mark = .failed ∨ mark = .aborted) : Consistent log where
  renamed found := by simpa using idle _ found
  failed tried := by rcases tried with found | found <;> simpa using idle _ found
  startable found := by simpa using idle _ found

def FailureLogged (answer : Answer) (conf : Conf) (jdl : Jdl) : Prop :=
  Continued answer conf jdl ∧ Written answer .enqueueFail ∨ LogsFailure answer

theorem failed_mem_submit {jdl : Jdl} (opened : Opened answer issubmit) (goesOn : GoesOn answer conf jdl)
    (clear : Clear answer) : .failed ∈ marks answer (submit conf jdl issubmit) ↔
      FailureLogged answer conf jdl := by
  have first : .failed ∈ marks answer (prepare conf issubmit jdl) ↔
      Continued answer conf jdl ∧ Written answer .enqueueFail := by
    by_cases continued : Continued answer conf jdl
    · rw [marks_prepare_continued continued]
      cases issubmit <;> simp [continued]
    · rw [marks_prepare_processed (goesOn.resolve_right continued)]
      simp [continued]
  have second : .failed ∈ marks answer (deliverJob issubmit) ↔ LogsFailure answer := by
    rw [marks_deliverJob clear, LogsFailure]
    cases answer.deliver <;> cases answer.rename <;> cases issubmit <;> simp
  rw [marks_submit opened goesOn, mem_append, first, second, FailureLogged]

theorem mem_submit {jdl : Jdl} (opened : Opened answer issubmit) (goesOn : GoesOn answer conf jdl)
    (clear : Clear answer) {mark : Mark} (late : mark = .delivered ∨ mark = .undelivered ∨
      mark = .renamed) :
    mark ∈ marks answer (submit conf jdl issubmit) ↔
      mark = (if answer.deliver then .delivered else .undelivered) ∨ mark = .renamed ∧ Renames answer := by
  have first : mark ∉ marks answer (prepare conf issubmit jdl) := by
    intro member
    rcases late with rfl | rfl | rfl <;> simpa using prepare_idle jdl _ member
  rw [marks_submit opened goesOn, mem_append, marks_deliverJob clear, Renames]
  rcases late with rfl | rfl | rfl <;> cases answer.deliver <;> cases answer.rename <;>
    cases issubmit <;> simp [first]

theorem submit_idle {jdl : Jdl} (stops : ¬(Opened answer issubmit ∧ GoesOn answer conf jdl ∧
    Clear answer)) :
    Idle answer (submit conf jdl issubmit) := by
  by_cases opened : Opened answer issubmit
  · by_cases goesOn : GoesOn answer conf jdl
    · have blocked : ¬Clear answer := fun clear => stops ⟨opened, goesOn, clear⟩
      rw [Idle, marks_submit opened goesOn, marks_deliverJob_of_not_clear blocked, append_nil]
      exact prepare_idle jdl
    · rw [Idle, marks_submit_of_not_goesOn opened goesOn]
      exact prepare_idle jdl
  · exact .of_marks (marks_submit_of_not_opened jdl opened)

/-- Where the delivery is tried, the JDL and the events tell what has become of it in two cases: the
job is delivered and no failure is logged, by the handler of a bad JDL or because the success cannot
be logged; or it is not delivered, a failure is logged and the JDL is not renamed. -/
theorem consistent_submit_iff (conf : Conf) (jdl : Jdl) (issubmit : Bool) (answer : Answer) :
    Consistent (marks answer (submit conf jdl issubmit)) ↔
      (Opened answer issubmit ∧ GoesOn answer conf jdl ∧ Clear answer →
        (FailureLogged answer conf jdl ↔ answer.deliver = false) ∧
          (answer.deliver = false → ¬Renames answer)) := by
  by_cases reached : Opened answer issubmit ∧ GoesOn answer conf jdl ∧ Clear answer
  · have ⟨opened, goesOn, clear⟩ := reached
    have delivered : .delivered ∈ marks answer (submit conf jdl issubmit) ↔ answer.deliver = true := by
      rw [mem_submit opened goesOn clear (.inl rfl)]
      cases answer.deliver <;> simp
    have undelivered : .undelivered ∈ marks answer (submit conf jdl issubmit) ↔
        answer.deliver = false := by
      rw [mem_submit opened goesOn clear (.inr (.inl rfl))]
      cases answer.deliver <;> simp
    have renamed : .renamed ∈ marks answer (submit conf jdl issubmit) ↔ Renames answer := by
      rw [mem_submit opened goesOn clear (.inr (.inr rfl))]
      cases answer.deliver <;> simp
    have failed := failed_mem_submit opened goesOn clear
    rw [consistent_iff (by simp [delivered, undelivered]), delivered, undelivered, renamed, failed]
    cases answer.deliver <;> simp [reached, and_comm]
  · exact iff_of_true (consistent_of_idle (submit_idle reached)) fun now => absurd now reached

def okLost : Answer where
  reply
    | .log .enqueueOk _ => .other
    | call => calm call

/-- A job that could not be delivered has its JDL renamed, so that it cannot be started again; one
that was delivered has a failure logged. -/
theorem delivery_told_wrongly : ¬Consistent
    (marks undeliverable (submit (plainConf false) plainJob false)) ∧
    ¬Consistent (marks okLost (submit (plainConf false) plainJob false)) := by
  rw [show marks undeliverable (submit (plainConf false) plainJob false) =
      [.undelivered, .failed, .renamed, .unlocked] by decide,
    show marks okLost (submit (plainConf false) plainJob false) =
      [.delivered, .failed, .renamed, .unlocked] by decide]
  constructor
  · intro consistent
    simpa using consistent.renamed (by simp)
  · intro consistent
    simpa using consistent.failed (.inl (by simp))

end Wms.Interface
