import Wms.Ice.Submit
import Wms.Lib.Pool

/-! A submission that is cut short by crashes and executed again.

As long as the request is in the input, every life of ICE executes the command from its beginning,
and the status in the table decides what it does. The status lags behind what CREAM and the workload
manager have been told: a crash between an effect and its mark makes the next life do the opposite.
-/

set_option autoImplicit false

namespace Wms.Ice.Recovery

open Lib Dialog Submission List

/-! ### One execution -/

/-- An execution looks the job up, then it submits the job or leaves it as it is. -/
inductive Phase where
  | looking
  | fresh
  | left
  | started
  | sentBack
  deriving DecidableEq, Repr

/-- The row says that the job was started, or more. -/
def ahead (row : Option CreamJob) : Bool :=
  match row.map CreamJob.status with
  | none | some .unknown | some .registered => false
  | some _ => true

namespace Phase

def allows (gid : String) (g : Phase) : Call → Prop
  | .jobStart _ _ _ | .putRequest _ _ _ => g = .fresh
  | .getJobByGid asked => g = .looking → asked = gid
  | _ => g ≠ .looking

def after (g : Phase) : (c : Call) → Reply c → Phase
  | .getJobByGid _, row => if g = .looking then if ahead row then .left else .fresh else g
  | .jobStart _ _ _, .answered none => .started
  | .putRequest _ _ _, _ => .sentBack
  | _, _ => g

end Phase

def watch (gid : String) : Monitor Call Reply Phase where
  allows := Phase.allows gid
  trusts _ _ _ := True
  after := Phase.after

def Silent : Call → Prop
  | .jobStart _ _ _ | .putRequest _ _ _ => False
  | _ => True

variable {gid : String} {g : Phase}

variable {c : Call} {reply : Reply c}

theorem silent_ignored (begun : g ≠ .looking) : (watch gid).Ignores g Silent := by
  intro c silent
  cases c with
  | jobStart | putRequest => exact silent.elim
  | getJobByGid => exact ⟨fun looking => absurd looking begun, fun _ => if_neg begun⟩
  | _ => exact ⟨begun, fun _ => rfl⟩

def Begun {ε α σ : Type} (g : Phase) (_ : Except ε α) (_ : σ) : Prop := g ≠ .looking

theorem silent_then {σ ε α β : Type} {x : Dialog Call Reply σ ε α}
    {f : α → Dialog Call Reply σ ε β} {s : σ}
    {post : Phase → Except ε β → σ → Prop} (begun : g ≠ .looking) (only : x.Only Silent)
    (failed : ∀ e t, post g (.error e) t) (next : ∀ a t, (f a).Obeys (watch gid) g t post) :
    (x >>= f).Obeys (watch gid) g s post :=
  only.obeys_bind (silent_ignored begun) next failed

theorem silent_begun {σ ε α : Type} {x : Dialog Call Reply σ ε α} {s : σ} (begun : g ≠ .looking)
    (only : x.Only Silent) :
    x.Obeys (watch gid) g s Begun :=
  (only.obeys (silent_ignored begun) s).mono fun _ _ _ same => same ▸ begun

theorem registering_silent (c : Call) (registering : Registering c) : Silent c := by
  cases c with
  | jobStart | putRequest => exact registering
  | _ => trivial

theorem logging_silent (c : Call) (logging : Logging c) : Silent c := by
  cases c with
  | jobStart | putRequest => exact logging
  | _ => trivial

def Told (g : Phase) : Except Failure (Attempt (Option String)) → Prop
  | .ok (.answered none) => g = .started
  | _ => g = .fresh

theorem creamProxyMethod_answered {fail : Bool} {service url cid proxy : String} (more : Nat) :
    (creamProxyMethod fail service (fun _ => none) (ask (.jobStart url cid proxy)) more).Obeys
      (watch gid) .fresh ()
      (Telling Told) := by
  have begun : Phase.fresh ≠ .looking := nofun
  refine creamProxyMethod_told ⟨begun, fun _ => rfl⟩ ⟨begun, fun _ => rfl⟩ ?_ ?_ more
  · intro outcome unanswered
    unfold Told
    split
    · exact absurd rfl (unanswered none)
    · rfl
  · refine ⟨rfl, fun result _ => ⟨result, rfl, ?_⟩⟩
    cases result with
    | answered reason => exact .inl ⟨reason, rfl, rfl, by cases reason <;> rfl⟩
    | timedOut | connectionLost | exception => exact .inr ⟨rfl, nofun⟩

def Ends {α : Type} (g : Phase) (outcome : Except (Failure × String) α) (_ : CreamJob) : Prop :=
  match outcome with
  | .ok _ => g = .started
  | .error _ => g = .fresh

variable {conf : SubmitConf} {job : CreamJob}

theorem startJob_ends (cid url : String) : (startJob conf cid url).Obeys (watch gid) .fresh job Ends := by
  refine .gets (obeys_bind.mpr (within_obeys
    ((creamProxyMethod_answered 6).mono fun g' outcome _ answered => ?_)))
  obtain ⟨told, rfl, holds⟩ := answered
  have raised (holds : g' = .fresh) : (do
      let what : String ← call .what
      throw (.transient, "CREAM Start raised exception " ++ what) : Submission Unit).Obeys
        (watch gid) g' job Ends := by
    subst holds
    exact .asks nofun fun _ _ => rfl
  match told with
  | .error failure => exact raised holds
  | .ok (.answered none) => exact holds
  | .ok (.answered (some reason)) => exact holds
  | .ok .timedOut | .ok .connectionLost | .ok .exception => exact raised holds

theorem recordStarted_ends (onlyStart : Bool) (cid : String) :
    (recordStarted conf onlyStart cid).Obeys (watch gid) .started job Ends := by
  have begun : Phase.started ≠ .looking := nofun
  refine .asks begun fun _ _ => .modifies (.gets (.asks begun fun _ _ => ?_))
  exact log_then (fun _ logging => silent_ignored begun _ (logging_silent _ logging)) fun _ =>
    ⟨begun, fun _ _ => rfl⟩

theorem tryToSubmit_ends (rounds : Nat) (onlyStart : Bool) :
    (tryToSubmit conf rounds onlyStart).Obeys (watch gid) .fresh job Ends := by
  refine .gets (.asks nofun fun now _ => ?_)
  have submits : (do
      let ids ← (if onlyStart then stored else registerAnew conf rounds)
      call (.insertStat .registered)
      startJob conf ids.1 ids.2
      recordStarted conf onlyStart ids.1 : Submission Unit).Obeys (watch gid) .fresh job Ends := by
    refine silent_then nofun ((ids_registering conf rounds onlyStart).mono registering_silent)
      (fun _ _ => rfl)
      fun ids _ => ?_
    refine .asks nofun fun _ _ => obeys_bind.mpr
      ((startJob_ends ids.1 ids.2).mono fun g' outcome _ ends => ?_)
    cases outcome with
    | error e => exact ends
    | ok _ =>
      cases (show g' = .started from ends)
      exact recordStarted_ends onlyStart ids.1
  split
  · rfl
  · exact submits

theorem resubmitJob_begun (reason : String) : (resubmitJob job reason).Obeys (watch gid) .fresh
    () Begun := by
  have logs (event : LbEvent) (job : CreamJob) (useCancel : Bool) :
      (logEvent event job useCancel true).Only Silent :=
    (logEvent_logging event job useCancel true).mono logging_silent
  refine .asks nofun fun disabled _ => .branch (fun _ => nofun) fun _ => .asks nofun fun expires _ => ?_
  refine .branch (fun _ => silent_begun nofun (.bind (logs _ _ _) fun _ => .pure _)) fun _ => ?_
  refine silent_then nofun (logs _ _ _) (fun _ _ => nofun) fun job1 _ => ?_
  refine silent_then nofun (logs _ _ _) (fun _ _ => nofun) fun job2 _ => .asks rfl fun exception _ => ?_
  cases exception with
  | none => exact silent_begun nofun (.bind (logs _ _ _) fun _ => .pure _)
  | some what => exact silent_begun nofun (.bind (logs _ _ _) fun _ => .bind (logs _ _ _) fun _ => .pure _)

theorem decrement_silent (job : CreamJob) : (decrement job).Only Silent := optionally_only (.ask trivial)

/-- A submission that failed has not started the job, so that it may be sent back. -/
theorem conclude_begun {outcome : Except (Failure × String) Unit} (ends : Ends g outcome job) :
    (conclude outcome).Obeys (watch gid) g job Begun := by
  have logs (event : LbEvent) (updatedb : Bool) : (Submission.log event updatedb).Only Silent :=
    (log_logging event updatedb).mono logging_silent
  match outcome with
  | .ok _ =>
    cases (show g = .started from ends)
    exact nofun
  | .error (.fatal, what) =>
    cases (show g = .fresh from ends)
    exact silent_begun nofun (.bind (logs _ _) fun _ => .bind (.modify _) fun _ =>
      .bind (logs _ _) fun _ =>
      .bind .get fun _ => .bind (within_only (decrement_silent _)) fun _ => .ask trivial)
  | .error (.transient, what) =>
    cases (show g = .fresh from ends)
    refine .modifies (silent_then nofun (logs _ _) (fun _ _ => nofun) fun _ _ => ?_)
    refine silent_then nofun (logs _ _) (fun _ _ => nofun) fun _ job' => .gets ?_
    refine obeys_bind.mpr (within_obeys ((resubmitJob_begun _).mono fun g' outcome _ begun => ?_))
    cases outcome with
    | error e => exact begun
    | ok _ => exact silent_begun begun (.bind (within_only (decrement_silent _)) fun _ => .ask trivial)
  | .error (.blackListFailJob, _) =>
    cases (show g = .fresh from ends)
    exact silent_begun nofun (.bind (.modify _) fun _ => logs _ _)

theorem createAndCount_silent : createAndCount.Only Silent := by
  refine .bind .get fun job => .bind (.ask trivial) fun _ => ?_
  have counts (renewable : Bool) : (if renewable then
        call (.incrementUserProxyCounter job.userDn job.myproxyAddress job.userProxyFile
          job.isbProxyTimeEnd)
      else call (.setUserProxyIfLonger job.userDn job.userProxyFile job.isbProxyTimeEnd) :
        Submission Unit).Only Silent := by
    cases renewable <;> exact .ask trivial
  exact counts job.proxyRenewable

theorem submission_begun (rounds : Nat) (onlyStart : Bool) :
    (submission conf rounds onlyStart).Obeys (watch gid) .fresh job Begun := by
  refine silent_then nofun (onlyIf_only createAndCount_silent) (fun _ _ => nofun) fun _ _ => ?_
  exact obeys_bind.mpr (attempted_obeys ((tryToSubmit_ends rounds onlyStart).mono fun _ _ _ ends =>
    conclude_begun ends))

/-- What the row says decides whether the job is submitted. -/
theorem submitFound_begun (rounds : Nat) (found : Option CreamJob) :
    (submitFound conf rounds gid (found.map CreamJob.status)).Obeys (watch gid)
      (if ahead found then .left else .fresh)
      job Begun := by
  have anew : (submission conf rounds false).Obeys (watch gid) .fresh job Begun :=
    submission_begun rounds false
  unfold ahead submitFound
  generalize found.map CreamJob.status = status
  cases status with
  | none => exact anew
  | some status =>
    cases status with
    | unknown => exact ⟨(nofun : Phase.fresh ≠ .looking), fun _ _ => anew⟩
    | registered => exact submission_begun rounds true
    | _ => exact (nofun : Phase.left ≠ .looking)

theorem submit_obeys (rounds : Nat) : (submit conf rounds).Obeys
    (watch job.gridJobId) .looking job fun _ _ _ => True := by
  refine .gets (.asks (fun _ => rfl) fun found _ => ?_)
  refine obeys_bind.mpr ((submitFound_begun rounds found).mono fun g' outcome t begun => ?_)
  cases outcome with
  | error e => trivial
  | ok _ => exact ⟨begun, fun _ _ => trivial⟩

/-! ### One life after another -/

/-- What outlives a crash, and what is remembered of the executions to tell what they did. -/
structure Shared where
  jobs : Jobs
  life : Nat
  waiting : Bool
  started : List String
  sentBack : Bool

/-- A call that was answered. CREAM refuses to start a job that is already started. -/
def Shared.after (s : Shared) : (c : Call) → Reply c → Option Shared
  | .jobStart _ cid _, .answered none => if cid ∈ s.started then none
      else some { s with started := cid :: s.started }
  | .putRequest _ _ _, none => some { s with sentBack := true }
  | .removeRequest, _ => some { s with waiting := false }
  | .hang, _ => none
  | c, _ => some { s with jobs := s.jobs.after c }

/-- A start that had its effect, with a reply that says otherwise. -/
def Shared.afterUnheard (s : Shared) : (c : Call) → Reply c → Option Shared
  | .jobStart _ _ _, .answered none => none
  | .jobStart _ cid _, _ => if cid ∈ s.started then none else some { s with started := cid :: s.started }
  | _, _ => none

/-- Each life has a program of its own, which makes calls as long as the request is in the input. -/
def effect (heard : Bool) (s : Shared) (pid : Nat) (c : Call) (reply : Reply c) : Option Shared :=
  if pid = s.life ∧ s.waiting = true ∧ s.jobs.agrees c reply = true then
    if heard then s.after c reply else s.afterUnheard c reply
  else none

abbrev Lives := Pool Shared Call Reply Phase

inductive Move where
  | exchange (heard : Bool) (exchanged : Exchanged Call Reply)
  | others (jobs : Jobs)
  | crash

def step (gid : String) (p : Lives) : Move → Option Lives
  | .exchange heard exchanged => p.step (effect heard) (watch gid) exchanged
  | .others jobs => some { p with shared := { p.shared with jobs } }
  | .crash => some { p with shared := { p.shared with life := p.shared.life + 1 } }

def start (conf : SubmitConf) (rounds : Nat → Nat) (request : CreamJob) (jobs : Jobs) : Lives where
  shared := ⟨jobs, 0, true, [], false⟩
  program pid := (submit conf (rounds pid) request).bind fun _ => .ret ()
  phase _ := .looking

/-- A CREAM job is left started and the job was sent back to the workload manager. -/
def Both (p : Lives) : Prop := p.shared.started ≠ [] ∧ p.shared.sentBack = true

/-- The table tells of a job that was started. -/
def Marked (gid : String) (s : Shared) : Prop := s.started ≠ [] → ahead (s.jobs.getJobByGid gid) = true

instance (gid : String) (s : Shared) : Decidable (Marked gid s) :=
  inferInstanceAs (Decidable (s.started ≠ [] → ahead (s.jobs.getJobByGid gid) = true))

/-- While the request is in the input, ICE does not crash after it has sent the job back, nor after
it has started the job and before the row tells so, and no other command takes that mark away. ICE
is told of each start. -/
def Meets (gid : String) (p : Lives) : Move → Prop
  | .exchange heard _ => heard = true
  | .others jobs => p.shared.waiting = true → Marked gid p.shared → Marked gid { p.shared with jobs }
  | .crash => p.shared.waiting = true → p.shared.sentBack = false ∧ Marked gid p.shared

instance (gid : String) (p : Lives) (move : Move) : Decidable (Meets gid p move) :=
  match move with
  | .exchange heard _ => inferInstanceAs (Decidable (heard = true))
  | .others _ | .crash => inferInstanceAs (Decidable (_ → _))

/-- What an execution may rely on. Only the first look into the table depends on
what earlier lives have done. -/
def Kept (gid : String) (s : Shared) : Phase → Prop
  | .looking => s.sentBack = false ∧ Marked gid s
  | .fresh => s.started = [] ∧ s.sentBack = false
  | .left | .started => s.sentBack = false
  | .sentBack => s.started = []

section Kept

variable {s t : Shared}

theorem Kept.not_both (kept : Kept gid s g) : ¬(s.started ≠ [] ∧ s.sentBack = true) := by
  rintro ⟨started, sentBack⟩
  cases g with
  | looking => exact Bool.noConfusion (kept.1.symm.trans sentBack)
  | fresh => exact started kept.1
  | left | started => exact Bool.noConfusion (kept.symm.trans sentBack)
  | sentBack => exact started kept

/-- Once the job was looked up, the table does not matter. -/
theorem Kept.of_begun (kept : Kept gid s g) (begun : g ≠ .looking) (jobs : Jobs) (waiting : Bool) :
    Kept gid { s with jobs, waiting } g := by
  cases g with
  | looking => exact absurd rfl begun
  | _ => exact kept

/-- One call of the current life. -/
theorem Kept.after (kept : Kept gid s g) (allowed : (watch gid).allows g c)
    (agrees : s.jobs.agrees c reply = true)
    (done : s.after c reply = some t) : t.life = s.life ∧ Kept gid t ((watch gid).after g c reply) := by
  cases c with
  | getJobByGid asked =>
    cases done
    refine ⟨rfl, ?_⟩
    change Kept gid s (if g = .looking then if ahead reply then .left else .fresh else g)
    split_ifs with looking found
    · subst looking
      exact kept.1
    · subst looking
      -- nothing was started, or else the row would tell so
      have same (row : Option CreamJob) (agrees : sameJob row (s.jobs.getJobByGid asked) = true) :
          row = s.jobs.getJobByGid asked := of_decide_eq_true agrees
      rw [same reply agrees, show asked = gid from allowed rfl] at found
      exact ⟨by_contra fun started => found (kept.2 started), kept.1⟩
    · exact kept
  | jobStart url cid proxy =>
    cases (show g = .fresh from allowed)
    match reply, done with
    | .answered none, done =>
      change (if cid ∈ s.started then none else some { s with started := cid :: s.started }) =
        some t at done
      split at done
      · cases done
      · cases done
        exact ⟨rfl, kept.2⟩
    | .answered (some reason), rfl => exact ⟨rfl, kept⟩
    | .timedOut, rfl | .connectionLost, rfl | .exception, rfl => exact ⟨rfl, kept⟩
  | putRequest =>
    cases (show g = .fresh from allowed)
    match reply, done with
    | none, rfl | some _, rfl => exact ⟨rfl, kept.1⟩
  | hang => cases done
  | _ =>
    cases done
    exact ⟨rfl, kept.of_begun allowed _ _⟩

end Kept

structure Sound (gid : String) (p : Lives) : Prop where
  obeys : p.Obeys (watch gid)
  apart : ¬Both p
  kept : p.shared.waiting = true → Kept gid p.shared (p.phase p.shared.life)
  later : ∀ pid, p.shared.life < pid → p.phase pid = .looking

theorem sound_start (conf : SubmitConf) (rounds : Nat → Nat) (request : CreamJob) (jobs : Jobs) :
    Sound request.gridJobId (start conf rounds request jobs) where
  obeys pid := Interact.obeys_bind.mpr ((submit_obeys (rounds pid)).mono fun _ _ _ _ => trivial)
  apart both := both.1 rfl
  kept _ := ⟨rfl, fun started => absurd rfl started⟩
  later _ _ := rfl

variable {p q : Lives}

theorem Sound.exchange (sound : Sound gid p) {a : Exchanged Call Reply}
    (taken : p.step (effect true) (watch gid) a = some q) : Sound gid q := by
  have stepped := Pool.step_stepped taken
  obtain ⟨allowed, obeys⟩ := Pool.step_obeys sound.obeys taken
  have done := stepped.effect
  unfold effect at done
  split at done
  · rename_i here
    obtain ⟨current, waiting, agrees⟩ := here
    rw [current] at allowed
    obtain ⟨life, kept⟩ := (sound.kept waiting).after allowed agrees done
    have phase := stepped.phase_self
    rw [current] at phase
    refine ⟨obeys trivial, kept.not_both, fun _ => ?_, fun pid later => ?_⟩
    · rw [life, phase]
      exact kept
    · rw [life] at later
      rw [stepped.phase_other (by omega)]
      exact sound.later pid later
  · cases done

theorem Sound.step (p : Lives) (move : Move) (q : Lives) (sound : Sound gid p) (met : Meets gid p move)
    (taken : step gid p move = some q) : Sound gid q := by
  cases move with
  | exchange heard a =>
    cases (show heard = true from met)
    exact sound.exchange taken
  | others jobs =>
    cases taken
    refine ⟨sound.obeys, sound.apart, fun waiting => ?_, sound.later⟩
    have kept := sound.kept waiting
    by_cases looking : p.phase p.shared.life = .looking
    · change Kept gid _ (p.phase p.shared.life)
      rw [looking] at kept ⊢
      exact ⟨kept.1, met waiting kept.2⟩
    · exact kept.of_begun looking jobs _
  | crash =>
    cases taken
    refine ⟨sound.obeys, sound.apart, fun waiting => ?_, fun pid later =>
      sound.later pid (Nat.lt_of_succ_lt later)⟩
    -- the next life begins with a look into the table
    change Kept gid _ (p.phase (p.shared.life + 1))
    rw [sound.later _ (Nat.lt_succ_self _)]
    exact met waiting

/-- Over any number of crashes outside the windows, a job is not both started and sent back. -/
theorem not_both_outside_windows (conf : SubmitConf) (rounds : Nat → Nat) (request : CreamJob)
    (jobs : Jobs)
    (run : Runs (step request.gridJobId) (start conf rounds request jobs) (Meets request.gridJobId)
      p) : ¬Both p :=
  (run.invariant (sound_start conf rounds request jobs) Sound.step).apart

def nextMove (answer : (c : Call) → Reply c) (p : Lives) : Move :=
  match p.program p.shared.life with
  | .ret _ => .crash
  | .call c _ => .exchange true ⟨p.shared.life, c, p.shared.jobs.reply answer c⟩

def scripted (gid : String) (answer : (c : Call) → Reply c) : Nat → Lives → List Move
  | 0, _ => []
  | n + 1, p => nextMove answer p :: ((step gid p (nextMove answer p)).map (scripted gid answer n)).getD []

def submittedJob : CreamJob :=
  { doneJob with status := .unknown, creamJobId := "", completeCreamJobId := "", isbProxyTimeEnd := 100 }

def crashAfter (first : Nat) (answer : (c : Call) → Reply c) (second : Nat) (p : Lives) : List Move :=
  let before := scripted submittedJob.gridJobId obliging first p ++ [.crash]
  before ++ ((Lib.execute (step submittedJob.gridJobId) Free p before).map
    (scripted submittedJob.gridJobId answer second)).getD []

def submitting : Lives := start ⟨⟨true, false⟩, false, 600, "", true⟩ (fun _ => 1) submittedJob []

def view (p : Lives) : List String × Bool × Bool × Nat :=
  (p.shared.started, p.shared.sentBack, p.shared.waiting, p.shared.jobs.length)

/-- The crash comes after the job is started and the row tells so; the next life
leaves the job alone. -/
theorem not_both_marked : ∃ p, Lib.execute (step submittedJob.gridJobId)
    (Meets submittedJob.gridJobId) submitting
    (crashAfter 16 obliging 2 submitting) = some p ∧ view p = (["CREAM1"], false, false, 1) ∧ ¬Both p := by
  have kept : (Lib.execute (step submittedJob.gridJobId) (Meets submittedJob.gridJobId) submitting
      (crashAfter 16 obliging 2 submitting)).map view = some (["CREAM1"], false, false, 1) := by
        decide +kernel
  obtain ⟨p, done, seen⟩ := Option.map_eq_some_iff.mp kept
  exact ⟨p, done, seen, not_both_outside_windows _ _ _ _ (Runs.start.execute done)⟩

def refusing : (c : Call) → Reply c
  | .jobStart _ _ _ => Attempt.answered (some "the job is not in a valid status")
  | c => obliging c

/-- The crash comes after the start and before the table knows of it; the next life cannot start the
job and sends it back. -/
theorem both_after_crash : ∃ p, Lib.execute (step submittedJob.gridJobId) Free submitting
    (crashAfter 14 refusing 16 submitting) = some p ∧ Both p ∧ p.shared.waiting = false := by
  have reached : (Lib.execute (step submittedJob.gridJobId) Free submitting
      (crashAfter 14 refusing 16 submitting)).map
      view = some (["CREAM1"], true, false, 0) := by decide +kernel
  obtain ⟨p, done, seen⟩ := Option.map_eq_some_iff.mp reached
  simp only [view, Prod.mk.injEq] at seen
  obtain ⟨started, sentBack, waiting, _⟩ := seen
  exact ⟨p, done, ⟨by simp [started], sentBack⟩, waiting⟩

end Wms.Ice.Recovery
