import Wms.Manager.Replanner
import Wms.Manager.SingleJob

/-! What submissions and replans do with the token file of a job.

Each of them scans the directory of the job once and works on with the number it has read.
While it does, it relies on the token having that number.
-/

set_option autoImplicit false

namespace Wms.Manager.TokenRun

open Lib Dialog Replan

variable {N : Type} {config : Config}

/-! ### The directory of the job -/

inductive FileOp where
  | scan (leaves : Option (List Bytes))
  | rename (source target : Bytes) (failed : Option FsErrno)
  | look (file : Bytes) (present : Bool)
  | create (file : Bytes) (done : Bool)
  | unlink (file : Bytes)
  | other

def submissionOp : (c : Call N) → Reply c → FileOp
  | .scan, leaves => .scan leaves
  | .rename source target, failed => .rename source target failed
  | .fileExists file, present => .look file present
  | .create file, done => .create file done
  | _, _ => .other

def replanOp : (c : ReplanCall) → ReplanReply c → FileOp
  | .scan, leaves => .scan leaves
  | .rename source target, failed => .rename source target failed
  | .unlink file, _ => .unlink file
  | _, _ => .other

def FileOp.effect (dir : Finset Bytes) : FileOp → Option (Finset Bytes)
  | .scan (some leaves) => if leaves.Nodup ∧ leaves.toFinset = dir then some dir else none
  | .scan none => some dir
  | .rename source target none =>
    if source ∈ dir then some (insert target (dir.erase source)) else none
  | .rename source _ (some .noEntry) => if source ∈ dir then none else some dir
  | .rename _ _ (some (.other _)) => some dir
  | .look file present => if present = decide (file ∈ dir) then some dir else none
  | .create file done => some (if done then insert file dir else dir)
  | .unlink file => some (dir.erase file)
  | .other => some dir

def FileOp.isScan : FileOp → Bool
  | .scan _ => true
  | _ => false

/-- An activation is between its renames from the one that makes the temporary token, or its
creation, to the one that puts it in place. -/
def FileOp.between (before : Bool) : FileOp → Bool
  | .rename source target _ => target = source ++ ['.']
  | .create _ done => done
  | _ => before

/-! ### What a party knows of the token -/

/-- Before its scan a party knows nothing. Afterwards it relies on the token having the number
it has read; while it makes a temporary token there may be both names. -/
inductive Phase where
  | unread
  | one
  | known (n : Nat)
  | double (n : Nat)
  deriving DecidableEq

def Fits (config : Config) (dir : Finset Bytes) : Phase → Prop
  | .unread => False
  | .one => ReplanRun.OneToken config dir
  | .known n => ReplanRun.OneToken config dir ∧ ∀ f ∈ dir, isToken config f = true → IsTokenOf config n f
  | .double n => ∀ f ∈ dir, isToken config f = true → IsTokenOf config n f

def Phase.permits (config : Config) : Phase → FileOp → Prop
  | _, .other | _, .look _ _ | _, .unlink _ => True
  | .unread, .scan _ => True
  | .one, .rename source _ _ => isToken config source = true
  | .known n, .rename source target _ => isToken config source = true ∧ IsTokenOf config n target
  | .known n, .create file _ => file = tmpTokenName config n
  | .double n, .rename source target _ => source = tmpTokenName config n ∧ target = tokenName config n
  | _, _ => False

def Phase.after (read : Option (List Bytes) → Phase) : Phase → FileOp → Phase
  | .unread, .scan leaves => read leaves
  | .known n, .create _ true => .double n
  | .double n, .rename _ _ _ => .known n
  | g, _ => g

/-- Renames are trusted to fail only because there is no such file. -/
def FileOp.trusted : FileOp → Prop
  | .rename _ _ (some (.other _)) => False
  | _ => True

def phases {C : Type} {R : C → Type} (op : (c : C) → R c → FileOp) (config : Config)
    (read : Option (List Bytes) → Phase) : Monitor C R Phase where
  allows g c := ∀ reply, g.permits config (op c reply)
  trusts _ c reply := (op c reply).trusted
  after g c reply := g.after read (op c reply)

def readNumber (config : Config) (leaves : List Bytes) : Nat :=
  ((firstToken config leaves).bind (tokenNumber config)).getD 0

def submissionPhases (config : Config) : Monitor (Call N) Reply Phase :=
  phases submissionOp config fun
    | some leaves => .known (readNumber config leaves)
    | none => .one

def replanPhases (config : Config) : Monitor ReplanCall ReplanReply Phase :=
  phases replanOp config fun _ => .one

def Phase.settled : Phase → Prop
  | .double _ => False
  | _ => True

/-! ### Activations obey -/

theorem submissionOp_other {c : Call N} (reply : Reply c) (search : kind c ≠ .search)
    (token : kind c ≠ .token) : submissionOp c reply = .other := by
  cases c <;> first
    | rfl
    | exact absurd rfl search
    | exact absurd rfl token

theorem quiet {kinds : List Kind} (files : kinds.contains .search = false ∧
    kinds.contains .token = false) (g : Phase) :
    (submissionPhases (N := N) config).Ignores g (Within kinds) := by
  intro c within
  have other (reply : Reply c) : submissionOp c reply = .other := by
    apply submissionOp_other
    · rintro same
      rw [Within, same, files.1] at within
      cases within
    · rintro same
      rw [Within, same, files.2] at within
      cases within
  refine ⟨fun reply => ?_, fun reply => ?_⟩
  · rw [other reply]
    cases g <;> trivial
  · simp only [submissionPhases, phases, other reply]
    cases g <;> rfl

variable (shallowCount n : Nat) (s : SubmitState N)

theorem replansByToken_obeys : (replansByToken config).Obeys (submissionPhases config) .unread s
      fun g outcome _ => g.settled ∧ ∀ n, outcome = .ok n → g = .known n := by
  rw [replansByToken, findToken]
  simp only [bind_bind]
  refine .asks (fun _ => trivial) fun listing _ => ?_
  cases listing with
  | none => exact ⟨trivial, fun _ other => by cases other⟩
  | some leaves =>
    change Obeys _ _ (Phase.known (readNumber config leaves)) _ _
    have number : readNumber config leaves =
        (((leaves.dropWhile fun leaf => !isToken config leaf).head?).bind (tokenNumber config)).getD
          0 := rfl
    dsimp only
    cases found : leaves.dropWhile fun leaf => !isToken config leaf with
    | nil =>
      refine ⟨trivial, ?_⟩
      rintro n ⟨rfl⟩
      rw [number, found]
      rfl
    | cons token rest =>
      simp only [bind_bind]
      refine (complainAbout_plain _ rest).only.obeys_bind (quiet ⟨rfl, rfl⟩ _) ?_ fun e t =>
        ⟨trivial, fun _ other => by cases other⟩
      intro _ t
      rw [obeys_bind, obeys_pure]
      dsimp only
      cases read : tokenNumber config token with
      | none => exact ⟨trivial, fun _ other => by cases other⟩
      | some k =>
        refine ⟨trivial, ?_⟩
        rintro n ⟨rfl⟩
        rw [number, found]
        simp [read]

/-- A temporary token is left to be put in place, if the last step has succeeded. -/
def Prepared {α : Type} (n : Nat) (value : α) (g : Phase) (outcome : Except Exit α)
    (t : SubmitState N) : Prop :=
  g = .known n ∨ g = .double n ∧ outcome = .ok value ∧ shallowResubmissionIsEnabled t.ad = true

variable {n s} in
theorem Prepared.returns {x : Act N Unit}
    (prepared : x.Obeys (submissionPhases config) (.known n) s (Prepared n ()))
    (value : Bool) : (x >>= fun _ => pure value).Obeys (submissionPhases config) (.known n) s
      (Prepared n value) := by
  refine prepared.bind ?_ ?_
  · rintro g _ t (known | ⟨double, _, enabled⟩)
    · exact .inl known
    · exact .inr ⟨double, rfl, enabled⟩
  · rintro g _ t (known | ⟨_, done, _⟩)
    · exact .inl known
    · cases done

variable {n s} in
theorem createToken_obeys (enabled : shallowResubmissionIsEnabled s.ad = true) :
    (createToken (tmpTokenName config n)).Obeys (submissionPhases config) (.known n) s
      (Prepared n ()) := by
  refine .asks (fun _ => rfl) fun done _ => ?_
  cases done with
  | true => exact .inr ⟨rfl, rfl, enabled⟩
  | false => exact .inl rfl

theorem checked_log_obeys {g : Phase} {checked : Except Thrown Unit} {entry : Log} {s : SubmitState N} :
    (do check checked; Act.log entry : Act N Unit).Obeys (submissionPhases config) g s
      fun g' _ t => g' = g ∧ t = s := by
  cases checked with
  | error e => exact ⟨rfl, rfl⟩
  | ok _ =>
    refine .asks (fun _ => by cases g <;> trivial) fun reply _ => ?_
    have stays : (submissionPhases config).after g (.log entry) reply = g := by cases g <;> rfl
    rw [stays]
    cases reply <;> exact ⟨rfl, rfl⟩

theorem shallowResubmission_obeys (g : Phase) (s : SubmitState N) :
    (shallowResubmission config shallowCount n).Obeys (submissionPhases config) g s fun g' _ t =>
      g' = g ∧ t = s :=
  .gets checked_log_obeys

theorem deepResubmission_obeys (deepCount : Nat) (token : Option Bytes) (g : Phase) (s : SubmitState N) :
    (deepResubmission config deepCount token).Obeys (submissionPhases config) g s fun g' _ t =>
      g' = g ∧ t = s :=
  .gets checked_log_obeys

theorem resubmissionByToken_obeys (deepCount : Nat) (enabled : shallowResubmissionIsEnabled s.ad = true) :
    (resubmissionByToken config deepCount shallowCount n).Obeys (submissionPhases config)
      (.known n) s (Prepared n ()) := by
  refine .asks (fun _ => trivial) fun present _ => .branch (fun _ => ?_) fun _ => ?_
  · exact (shallowResubmission_obeys shallowCount n (.known n) s).mono fun _ _ _ same => .inl same.1
  · refine (deepResubmission_obeys deepCount _ (.known n) s).bind ?_ fun _ _ _ same => .inl same.1
    rintro _ _ _ ⟨rfl, rfl⟩
    exact createToken_obeys enabled

theorem resubmission_obeys (deepCount : Nat) :
    (resubmission config deepCount shallowCount n).Obeys (submissionPhases config) (.known n) s
      (Prepared n ()) := by
  refine .gets (.branch (fun enabled => ?_) fun _ => ?_)
  · refine .asks (fun _ => ⟨IsTokenOf.isToken (.inl rfl), .inr rfl⟩) fun failed trusted => ?_
    have goesOn := @resubmissionByToken_obeys _ config shallowCount n s deepCount enabled
    rcases failed with _ | _ | code
    · exact goesOn
    · exact goesOn
    · cases trusted
  · exact (deepResubmission_obeys deepCount none (.known n) s).mono fun _ _ _ same => .inl same.1

theorem ensureTmpToken_obeys (enabled : shallowResubmissionIsEnabled s.ad = true) :
    (ensureTmpToken config n).Obeys (submissionPhases config) (.known n) s (Prepared n ()) :=
  .asks (fun _ => trivial) fun _ _ => .branch (fun _ => .inl rfl) fun _ => createToken_obeys enabled

theorem detectReplan_obeys :
    (detectReplan config n).Obeys (submissionPhases config) (.known n) s (Prepared n false) := by
  rw [detectReplan]
  refine .gets ?_
  dsimp only
  split_ifs with same later enabled
  · exact .inl rfl
  · exact .inl rfl
  · exact (Prepared.returns (ensureTmpToken_obeys n s enabled) false :)
  · exact .inl rfl

theorem prepare_obeys (counts : Nat × Nat) :
    (prepare config counts n).Obeys (submissionPhases config) (.known n) s (Prepared n false) := by
  rw [prepare]
  refine .gets ?_
  cases s.command with
  | jobsubmit => exact detectReplan_obeys n s
  | jobresubmit => exact (Prepared.returns (resubmission_obeys counts.2 n s counts.1) false :)

variable {n s} in
theorem placeToken_obeys {isReplan : Bool} {g : Phase} (prepared : Prepared n false g (.ok isReplan) s) :
    (placeToken config n isReplan).Obeys (submissionPhases config) g s fun g _ _ => g = .known n := by
  rw [placeToken]
  refine .gets ?_
  split_ifs with places
  · refine .asks (fun _ => ?_) fun failed _ => ?_
    · rcases prepared with rfl | ⟨rfl, _⟩
      · exact ⟨IsTokenOf.isToken (.inr rfl), .inl rfl⟩
      · exact ⟨rfl, rfl⟩
    · have known : (submissionPhases config).after g
          (.rename (tmpTokenName config n) (tokenName config n)) failed = .known n := by
        rcases prepared with rfl | ⟨rfl, _⟩ <;> rfl
      rw [known]
      cases failed <;> rfl
  · rcases prepared with known | ⟨_, same, enabled⟩
    · exact known
    · cases same
      simp [enabled] at places

theorem deliver_obeys (counts : Nat × Nat) (s : SubmitState N) :
    (deliver config counts).Obeys (submissionPhases config) .unread s fun g _ _ => g.settled := by
  refine (replansByToken_obeys s).bind (fun g n t both => ?_) fun _ _ _ both => both.1
  obtain rfl := both.2 n rfl
  refine (prepare_obeys n t counts).bind (fun g isReplan t prepared => ?_) fun g e t prepared => ?_
  · refine (placeToken_obeys prepared).bind (fun g _ t known => ?_) fun _ _ _ known => known ▸ trivial
    exact ((submit_only isReplan).obeys (quiet ⟨rfl, rfl⟩ g) t).mono fun _ _ _ same =>
      same ▸ known ▸ trivial
  · rcases prepared with rfl | ⟨_, done, _⟩
    · trivial
    · cases done

theorem submitSingle_obeys :
    (submitSingle config).Obeys (submissionPhases config) .unread s fun g _ _ => g.settled := by
  rw [submitSingle]
  refine leaveLimbo_only.obeys_bind (quiet ⟨rfl, rfl⟩ _) ?_ fun _ _ => trivial
  intro _ t
  refine retryCounts_only.obeys_bind (quiet ⟨rfl, rfl⟩ _) ?_ fun _ _ => trivial
  intro counts t
  refine stopIfCancelled_only.obeys_bind (quiet ⟨rfl, rfl⟩ _) ?_ fun _ _ => trivial
  exact fun _ t => deliver_obeys counts t

theorem quiet_settled {α : Type} {x : Act N α} {kinds : List Kind} {g : Phase} {s : SubmitState N}
    (only : x.Only (Within kinds))
    (files : kinds.contains .search = false ∧ kinds.contains .token = false) (settled : g.settled) :
    x.Obeys (submissionPhases config) g s fun g _ _ => g.settled := by
  exact (only.obeys (quiet files g) s).mono fun _ _ _ same => same ▸ settled

variable [DecidableEq N]

/-- An activation never ends with a temporary token beside another one. -/
theorem activation_obeys : (activation config).Obeys
    (submissionPhases config) .unread s fun g _ _ => g.settled := by
  have abandons (reason : String) (t : SubmitState N) :
      (unrecoverable reason).Obeys (submissionPhases config) .unread t fun g _ _ => g.settled :=
    quiet_settled (unrecoverable_plain reason).only ⟨rfl, rfl⟩ trivial
  have processes (t : SubmitState N) :
      (process config).Obeys (submissionPhases config) .unread t fun g _ _ => g.settled := by
    rw [process]
    refine .gets ?_
    cases t.type with
    | single => exact submitSingle_obeys t
    | dag graph => exact quiet_settled (submitDag_only graph) ⟨rfl, rfl⟩ trivial
    | collection nodes => exact quiet_settled submitCollection_only ⟨rfl, rfl⟩ trivial
  have handles (e : Exit) {g : Phase} (t : SubmitState N) (settled : g.settled) :
      (handle config e).Obeys (submissionPhases config) g t fun g _ _ => g.settled := by
    rcases handle_only N config e with abandons | postpones
    · exact quiet_settled abandons ⟨rfl, rfl⟩ settled
    · exact quiet_settled postpones ⟨rfl, rfl⟩ settled
  refine .asks (fun _ => trivial) fun expired _ => ?_
  rcases expired with (what | what) | _ | _
  · exact abandons _ s
  · exact abandons _ s
  · refine isRequestExpired_only.obeys_bind (quiet ⟨rfl, rfl⟩ _) ?_ fun _ _ => trivial
    intro late t
    refine .branch (fun _ => abandons _ t) fun _ => ?_
    rw [obeys_tryCatch]
    apply (processes t).mono
    intro g outcome t settled
    cases outcome with
    | ok _ => exact settled
    | error e => exact handles e t settled
  · exact abandons _ s

/-! ### Passes of the replanner obey -/

omit [DecidableEq N]

def Plain : ReplanCall → Prop
  | .scan | .rename _ _ => False
  | _ => True

theorem plain_of_aside {c : ReplanCall} (aside : Aside c) : Plain c := by
  cases c <;> trivial

theorem enqueue_plain : (enqueue n).Only Plain := by
  have logs {entry : ReplanLog} : (log entry).Only Plain :=
    (log_aside entry).mono fun _ => plain_of_aside
  refine .asks (by trivial) fun opened => ?_
  rcases opened with e | _
  · exact .throw _
  · exact logs.bind fun _ => logs.bind fun _ => .asks (by trivial) fun _ => .branch logs logs

theorem plain (g : Phase) : (replanPhases config).Ignores g Plain := by
  intro c within
  refine ⟨fun reply => ?_, fun reply => ?_⟩ <;> cases c <;> first
    | exact within.elim
    | cases g <;> trivial

theorem plain_bind {α : Type} {x : Replan α} {g : Phase} {f : α → Replan Unit} (only : x.Only Aside)
    (settled : g.settled) (goesOn : ∀ a, (f a).Obeys (replanPhases config) g () fun g _ _ => g.settled) :
    (x >>= f).Obeys (replanPhases config) g () fun g _ _ => g.settled :=
  (only.mono fun _ => plain_of_aside).obeys_bind (plain g) (fun a _ => goesOn a) fun _ _ => settled

theorem findToken_obeys : (Replan.findToken config).Obeys (replanPhases config) .unread ()
    fun g outcome _ => g = .one ∧ ∀ found, outcome = .ok found → isToken config found.1 = true := by
  refine .asks (fun _ => trivial) fun listing _ => ?_
  cases listing with
  | none => exact ⟨rfl, fun _ other => by cases other⟩
  | some leaves =>
    dsimp only
    cases found : leaves.dropWhile fun leaf => !isToken config leaf with
    | nil => exact ⟨rfl, fun _ other => by cases other⟩
    | cons token rest =>
      have isFirst : isToken config token = true := by
        have := List.head?_dropWhile_not (fun leaf => !isToken config leaf) leaves
        simpa [found] using this
      refine ((Replan.complainAbout_aside rest).mono fun _ => plain_of_aside).obeys_bind (plain .one) ?_ ?_
      · intro _ _
        cases tokenNumber config token with
        | none => exact ⟨rfl, fun _ other => by cases other⟩
        | some n => exact ⟨rfl, by rintro _ ⟨rfl⟩; exact isFirst⟩
      · exact fun _ _ => ⟨rfl, fun _ other => by cases other⟩

theorem pass_obeys : (Replan.pass config).Obeys (replanPhases config) .unread () fun g _ _ =>
    g.settled := by
  rw [Replan.pass]
  apply plain_bind Replan.retrieveAd_aside (by trivial)
  intro _
  apply plain_bind Replan.createContext_aside (by trivial)
  intro _
  apply plain_bind Replan.checkCe_aside (by trivial)
  intro _
  refine findToken_obeys.bind ?_ fun _ _ _ both => both.1 ▸ trivial
  rintro _ found _ ⟨rfl, isToken⟩
  rw [Replan.useToken, Replan.renameToken]
  simp only [bind_bind]
  refine .asks (fun _ => isToken found rfl) fun failed _ => ?_
  cases failed with
  | some e => trivial
  | none =>
    simp only [bind_bind]
    refine .asks (fun _ => trivial) fun errno _ => ?_
    split_ifs
    · trivial
    · rw [obeys_bind, obeys_pure]
      exact plain_bind (Replan.stopAtMax_aside _ _) trivial fun _ =>
          ((enqueue_plain _).obeys (plain .one) ()).mono fun _ _ _ same => same ▸ trivial

end Wms.Manager.TokenRun
