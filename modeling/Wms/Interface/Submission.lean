import Wms.Interface.Operations

/-! The steps in which a JDL is processed.

Whatever the type of the job, its processing is put together from a few kinds of
steps: one that may raise, one that is done once, and the end that a limit brings
about. What holds of these holds of the whole.
-/

set_option autoImplicit false

namespace Wms.Interface

open Lib

inductive Steps : Operation Unit → Prop where
  | done : Steps (pure ())
  | refuse (code : ErrorCode) : Steps (Dialog.throw (.jobOperationException code))
  | stage (step : Stage) : Steps (stage step)
  | limitReached : Steps limitReached
  | once (file : JobFile) {x : Operation Unit} : Steps x →
      Steps (do if ← fileExists file then pure () else x)
  | bind {x y : Operation Unit} : Steps x → Steps y → Steps (x >>= fun _ => y)

theorem Steps.onlyIf {x : Operation Unit} (steps : Steps x) (condition : Bool) :
    Steps (onlyIf condition x) := by
  cases condition with
  | false => exact .done
  | true => exact steps

variable {allowed : Call → Prop} (conf : Conf) (dag : DagAd) (issubmit : Bool) (index : Nat)
  (nodes : List NodeAd)

theorem addDestURIs_steps (within : Stage → Stage) (counter : Nat) (uris : List String) :
    Steps (addDestURIs conf within counter uris) := by
  induction uris generalizing counter with
  | nil => exact .done
  | cons uri rest ih =>
    unfold addDestURIs
    split
    · exact .bind (.stage _) (ih _)
    · split
      · exact .limitReached
      · exact ih _

theorem untarFiles_steps (files : List String) : Steps (untarFiles index files) := by
  induction files generalizing index with
  | nil => exact .done
  | cons file rest ih => exact .bind (.stage _) (ih _)

theorem unzip_steps (zipped : Option (List String)) : Steps (unzip zipped) := by
  cases zipped with
  | none => exact .done
  | some files => exact .once _ (.bind (.stage _) (.bind (untarFiles_steps 0 files) (.stage _)))

theorem checkInputSize_steps (size : Nat) : Steps (checkInputSize conf size) :=
  Steps.limitReached.onlyIf _

theorem inputSandbox_steps (jad : JobAd) : Steps (inputSandbox conf jad) := by
  unfold inputSandbox
  split
  · split
    · exact .bind (.stage _) (checkInputSize_steps conf _)
    · exact .done
  · exact .done

theorem outputSandbox_steps (jad : JobAd) : Steps (outputSandbox conf jad) := by
  unfold outputSandbox
  split
  · refine .bind (.stage _) ?_
    split
    · exact (Steps.stage _).onlyIf _
    · exact .bind (.stage _) (addDestURIs_steps conf _ _ _)
  · exact .done

theorem checkJobType_steps (type : JobType) : Steps (checkJobType type) := by
  cases type with
  | interactive => exact .stage _
  | checkpointable => exact .refuse _
  | normal => exact .done

theorem processJob_steps (jad : JobAd) : Steps (processJob conf jad) :=
  .bind (.stage _) <| .bind (.stage _) <| .bind (inputSandbox_steps conf jad) <|
    .bind (outputSandbox_steps conf jad) <| .bind ((Steps.stage _).onlyIf _) <| .bind (unzip_steps _) <|
    .bind (checkJobType_steps _) <| .bind (.stage _) <| .bind (.stage _) (.stage _)

theorem nodeOutputSandbox_steps (node : NodeAd) : Steps (nodeOutputSandbox conf dag index node) := by
  unfold nodeOutputSandbox
  split
  · exact .bind (.stage _) (addDestURIs_steps conf _ _ _)
  · exact .done

theorem processNode_steps (node : NodeAd) : Steps (processNode conf dag index node) :=
  .bind (.stage _) <| .bind (.stage _) <| .bind ((checkInputSize_steps conf _).onlyIf _) <|
    .bind (.stage _) <| .bind (nodeOutputSandbox_steps conf dag index node) <| .bind (.stage _) <|
    .bind ((Steps.stage _).onlyIf _) <| .bind ((Steps.refuse _).onlyIf _) (.stage _)

theorem processNodes_steps : Steps (processNodes conf dag index nodes) := by
  induction nodes generalizing index with
  | nil => exact .done
  | cons node rest ih => exact .bind (processNode_steps conf dag index node) (ih _)

theorem nodeInputSandbox_steps (node : NodeAd) : Steps (nodeInputSandbox conf node) := by
  unfold nodeInputSandbox
  split
  · exact checkInputSize_steps conf _
  · exact .done

theorem checkNodes_steps : Steps (checkNodes conf index nodes) := by
  induction nodes generalizing index with
  | nil => exact .done
  | cons node rest ih => exact .bind (.stage _) (.bind (nodeInputSandbox_steps conf node) (ih _))

theorem registerSubJobs_steps : Steps registerSubJobs := .once _ (.bind (.stage _) (.stage _))

theorem processDag_steps : Steps (processDag conf dag) :=
  .bind (.stage _) <| .bind (.stage _) <| .bind (.stage _) <| .bind (processNodes_steps conf dag 0 _) <|
    .bind (.stage _) <| .bind ((checkNodes_steps conf 0 _).onlyIf _) <| .bind (.stage _) <| .bind
      (.stage _) <|
    .bind registerSubJobs_steps <| .bind (unzip_steps _) <| .bind (.stage _) (.stage _)

/-! ### The calls that are made -/

def Processing : Call → Prop
  | .stage _ | .fileExists _ | .logAbortEventSync _ | .isOperationLocked _ | .getStatus | .jobPurgeLogger
  | .doPurge _ => True
  | _ => False

section Only

variable {allowed : Call → Prop} {α : Type}

theorem expect_only (reply : Option α) : (expect reply).Only allowed := by
  cases reply with
  | none => exact .throw _
  | some a => exact .pure a

theorem stage_only {step : Stage} (holds : allowed (.stage step)) : (stage step).Only allowed := by
  refine .bind (.ask holds) fun reply => ?_
  cases reply with
  | none => exact .pure _
  | some e => exact .throw e

theorem onlyIf_only {x : Operation Unit} (only : x.Only allowed) (condition : Bool) :
    (onlyIf condition x).Only allowed := by
  cases condition with
  | false => exact .pure _
  | true => exact only

theorem logEvent_only {site : LogSite} (holds : ∀ lap, allowed (.log site lap)) :
    (logEvent site).Only allowed := by
  have laps (more : Nat) : ∀ lap, (logLaps site lap more).Only allowed := by
    induction more with
    | zero => exact fun lap => .throw _
    | succ more ih =>
      refine fun lap => .bind (.ask (holds lap)) fun code => ?_
      cases code with
      | success | einval | gss => exact .pure _
      | other => exact ih _
  exact laps _ _

end Only

/-! ### Logging under a monitor -/

section Logging

variable {γ : Type} {m : Monitor Call Reply γ} {site : LogSite}

theorem expect_leads {α β : Type} {f : α → Operation β} {g : γ} {s : Unit} {good : γ → β → Prop}
    {reply : Option α}
    (next : ∀ a, reply = some a → (f a).Leads m g s good) : (expect reply >>= f).Leads m g s good := by
  cases reply with
  | none => exact Dialog.Leads.throw _
  | some a => exact next a rfl

theorem logEvent_leads (during done : γ → Prop)
    (allows : ∀ g, during g → ∀ lap, m.allows g (.log site lap))
    (again : ∀ g lap, during g → during (m.after g (.log site lap) LbCode.other))
    (ends : ∀ g lap (code : LbCode), during g → code ≠ .other → m.trusts g (.log site lap) code →
      done (m.after g (.log site lap) code)) {g : γ} (first : during g) :
    (logEvent site).Leads m g () fun g' _ => done g' := by
  have laps (more : Nat) : ∀ lap g, during g → (logLaps site lap more).Leads m g () fun g' _ =>
      done g' := by
    induction more with
    | zero => exact fun lap g _ => .throw _
    | succ more ih =>
      intro lap g here
      refine Dialog.obeys_bind.mpr ⟨allows g here lap, fun code trusted => ?_⟩
      have stop (code : LbCode) (last : code ≠ .other) (trusted : m.trusts g (.log site lap) code) :
          (pure () : Operation Unit).Leads m (m.after g (.log site lap) code) () fun g' _ => done g' :=
        .pure (ends g lap code here last trusted)
      cases code with
      | success => exact stop .success (by simp) trusted
      | einval => exact stop .einval (by simp) trusted
      | gss => exact stop .gss (by simp) trusted
      | other => exact ih (lap + 1) _ (again g lap here)
  exact laps _ 0 g first

theorem logEvent_settles (during : γ → Prop) (allows : ∀ g, during g → ∀ lap, m.allows g (.log site lap))
    (stays : ∀ g lap (code : LbCode), during g → m.trusts g (.log site lap) code →
      during (m.after g (.log site lap) code))
    (last : ∀ g, during g → ¬m.trusts g (.log site logRetryCount) LbCode.other) {g : γ}
      (first : during g) :
    (logEvent site).Obeys m g () fun g' outcome _ => outcome = .ok () ∧ during g' := by
  have laps (more : Nat) : ∀ lap g, lap + more = logRetryCount + 1 → more ≠ 0 → during g →
      (logLaps site lap more).Obeys m g () fun g' outcome _ => outcome = .ok () ∧ during g' := by
    induction more with
    | zero => exact fun lap g _ nothing => absurd rfl nothing
    | succ more ih =>
      intro lap g count _ here
      refine Dialog.obeys_bind.mpr ⟨allows g here lap, fun code trusted => ?_⟩
      have stop (code : LbCode) (trusted : m.trusts g (.log site lap) code) :
          (pure () : Operation Unit).Obeys m (m.after g (.log site lap) code) ()
            fun g' outcome _ => outcome = .ok () ∧ during g' :=
        ⟨rfl, stays g lap code here trusted⟩
      cases code with
      | success => exact stop .success trusted
      | einval => exact stop .einval trusted
      | gss => exact stop .gss trusted
      | other =>
        -- the last attempt does not end this way, so there is one left
        refine ih (lap + 1) _ (by omega) (fun nothing => ?_) (stays g lap .other here trusted)
        have final : lap = logRetryCount := by omega
        exact last g here (final ▸ trusted)
  exact laps _ 0 g (Nat.zero_add _) (by simp) first

end Logging

theorem logAbortEventSync_only (holds : ∀ lap, allowed (.logAbortEventSync lap)) :
    logAbortEventSync.Only allowed := by
  have laps (more : Nat) : ∀ lap, (abortLaps lap more).Only allowed := by
    induction more with
    | zero => exact fun lap => .pure _
    | succ more ih =>
      refine fun lap => .bind (.ask (holds lap)) fun logged => ?_
      cases logged with
      | true => exact .pure _
      | false => exact ih _
  exact laps _ _

theorem jobpurge_only : jobpurge.Only Processing :=
  .bind (.ask trivial) fun _ => .bind (expect_only _) fun _ => .bind
    (.bind (.ask trivial) expect_only) fun _ =>
    .bind (.ask trivial) fun _ => .bind (expect_only _) fun _ => .pure _

theorem abortAndPurge_only : abortAndPurge.Only Processing := by
  refine .bind (logAbortEventSync_only fun _ => trivial) fun logged => ?_
  cases logged with
  | false => exact .pure _
  | true => exact .bind (.bind (.ask trivial) expect_only) fun locked => onlyIf_only jobpurge_only _

theorem Steps.only {x : Operation Unit} (steps : Steps x) : x.Only Processing := by
  induction steps with
  | done => exact .pure _
  | refuse code => exact .throw _
  | stage step => exact stage_only trivial
  | limitReached => exact .bind abortAndPurge_only fun _ => .throw _
  | once file _ ih =>
    refine .bind (.ask trivial) fun found => ?_
    cases found with
    | true => exact .pure _
    | false => exact ih
  | bind _ _ first second => exact .bind first fun _ => second

def Handling : Call → Prop
  | .stage _ | .operationUnlock _ => True
  | .log .enqueueFail _ | .log .abort _ | .log (.nodeAbort _) _ => True
  | _ => False

theorem unlockUnless_only (holds : allowed (.operationUnlock .jobStart)) (issubmit : Bool) :
    (unlockUnless issubmit).Only allowed :=
  onlyIf_only (.ask holds) _

theorem abortNodes_only (stages : ∀ step, allowed (.stage step))
    (logs : ∀ node lap, allowed (.log (.nodeAbort node) lap)) (index : Nat) (nodes : List NodeAd) :
    (abortNodes index nodes).Only allowed := by
  induction nodes generalizing index with
  | nil => exact .pure _
  | cons node rest ih =>
    exact .bind (stage_only (stages _)) fun _ => .bind (logEvent_only fun _ => logs _ _) fun _ => ih _

theorem handleJob_only (e : Raise) : (handleJob conf issubmit e).Only Handling := by
  have last (goesOn : Bool) (e : Raise) :
      (if conf.asyncJobStart then pure goesOn else Dialog.throw e : Operation Bool).Only Handling := by
    split
    · exact .pure _
    · exact .throw e
  cases e with
  | requestAdException =>
    exact .bind (logEvent_only fun _ => trivial) fun _ => .bind (logEvent_only fun _ => trivial) fun _ =>
      .bind (unlockUnless_only trivial _) fun _ => last _ _
  | jobOperationException code | other =>
    exact .bind (logEvent_only fun _ => trivial) fun _ => .bind
      (unlockUnless_only trivial _) fun _ => last _ _

theorem handleDag_only (e : Raise) : (handleDag dag issubmit e).Only Handling := by
  cases e with
  | requestAdException =>
    exact .bind (logEvent_only fun _ => trivial) fun _ => .bind (logEvent_only fun _ => trivial) fun _ =>
      .bind (stage_only trivial) fun _ => .bind
        (abortNodes_only (fun _ => trivial) (fun _ _ => trivial) _ _) fun _ =>
      .bind (unlockUnless_only trivial _) fun _ => .throw _
  | jobOperationException code | other =>
    exact .bind (logEvent_only fun _ => trivial) fun _ => .bind
      (unlockUnless_only trivial _) fun _ => .throw _

theorem prepare_only (jdl : Jdl) : (prepare conf issubmit jdl).Only fun call => Processing call ∨
    Handling call := by
  have processed {x : Operation Unit} (steps : Steps x) :
      (do x; pure true : Operation Bool).Only fun call => Processing call ∨ Handling call :=
    .bind (steps.only.mono fun _ => .inl) fun _ => .pure _
  cases jdl with
  | job jad => exact .tryCatch (processed (processJob_steps conf jad)) fun e =>
      (handleJob_only conf issubmit e).mono fun _ => .inr
  | dag dag => exact .bind (stage_only (.inl trivial)) fun _ =>
      .tryCatch (processed (processDag_steps conf dag)) fun e =>
        (handleDag_only dag issubmit e).mono fun _ => .inr

end Wms.Interface
