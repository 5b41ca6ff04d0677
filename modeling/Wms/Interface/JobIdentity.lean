import Wms.Interface.Authorized

/-! Operations on a job that is there already, and whose identity they are decided by.

`jobStart` and `jobCancel` are authorized with the proxy they find in the directory of the job,
which is that of its owner; the client does not come into it. `getJDL` and `getOutputFileList`
compare the client with the owner, and `jobPurge` asks for the client themselves.
-/

set_option autoImplicit false

namespace Wms.Interface

open List

inductive JobOperation where
  | jobStart
  | jobCancel
  | jobPurge
  | getJDL
  | getOutputFileList
  deriving DecidableEq, Repr

def JobOperation.action : JobOperation → String
  | .jobStart => "jobStart"
  | .jobCancel => "jobCancel"
  | .jobPurge => "jobPurge"
  | .getJDL => "getJDL"
  | .getOutputFileList => "getOutputFileList"

/-- A registered job, with the attributes of its JDL that tell the owner; a missing one is empty. -/
structure StoredJob where
  jobId : String
  certSubj : String
  vomsFqan : String
  deriving DecidableEq, Repr

structure Server where
  env : AuthEnv
  initWMProxyOperation : JobOperation → Bool
  readable : StoredJob → Bool
  /-- What the rest of an operation comes to; `getOutputFileList` tells its
  logger the DN of the client. -/
  rest : JobOperation → StoredJob → Option String → Bool

inductive Decision where
  | acl (fqan dn : String)
  | argus (request : PepRequest)
  | owner (dn : String) (fqans : List String)
  deriving DecidableEq, Repr

def authorizeDecisions (env : AuthEnv) (auth : WMPAuthorizer) : List Decision :=
  if env.argusAuthz then
    if auth.userproxypath = "" then [] else [.argus (auth.pepRequest env)]
  else [.acl (auth.fqans.headD "") auth.userdn]

def authorizedDecisions (env : AuthEnv) (client : Client) (ask : Ask) :
    Except AuthError (List Decision) := do
  let auth ← authorizer env client ask
  let _ ← auth.authorize env
  return authorizeDecisions env auth

def checkOwnership (server : Server) (job : StoredJob) (client : Client) :
    Except AuthError (List Decision) := do
  if !server.readable job then .error .other
  else
    let dn ← getDNSSL client
    let fqans := getGridsiteFQANs client
    if job.certSubj ≠ dn || !fqans.contains job.vomsFqan then
      .error (.jobOperationException "getOutputFileList operation not allowed for presented DN/FQANs")
    else .ok [.owner dn fqans]

/-- The decisions an operation makes before it acts on the job. -/
def decisionsOf (server : Server) (job : StoredJob) (op : JobOperation) (client : Client) :
    Except AuthError (List Decision) :=
  match op with
  | .jobStart | .jobCancel => authorizedDecisions server.env client (.job op.action job.jobId)
  | .jobPurge => do
    -- the name of the user is asked for
    let _ ← doAuthZ server.env client op.action
    authorizedDecisions server.env client (.action op.action)
  | .getJDL | .getOutputFileList => checkOwnership server job client

def loggedDn (op : JobOperation) (client : Client) : Option String :=
  match op with
  | .getOutputFileList => (getDNSSL client).toOption
  | _ => none

def operate (server : Server) (job : StoredJob) (op : JobOperation) (client : Client) :
    Except AuthError (List Decision) := do
  if !server.initWMProxyOperation op then .error .other
  else
    let decisions ← decisionsOf server job op client
    if server.rest op job (loggedDn op client) then .ok decisions else .error .other

def Decision.Concerns (env : AuthEnv) (dn : String) : Decision → Prop
  | .acl _ dn' => dn' = dn
  | .argus request => ∃ fqans, env.vomsAuthN request.userproxypath = .ok (dn, fqans)
  | .owner dn' _ => dn' = dn

structure OwnedBy (server : Server) (job : StoredJob) (owner : String) : Prop where
  subject : job.certSubj = owner
  proxy : ∃ fqans, server.env.vomsAuthN (server.env.getJobDelegatedProxyPath job.jobId) = .ok
    (owner, fqans)

/-- For clients who do not own the job the operation succeeds only by a decision about them. -/
def DecidesOwn (op : JobOperation) (argus : Bool) : Prop :=
  ∀ server job owner client dn decisions, server.env.argusAuthz = argus → OwnedBy server job owner →
    getDNSSL client = .ok dn → dn ≠ owner → operate server job op client = .ok decisions →
    ∃ decision ∈ decisions, decision.Concerns server.env dn

/-- Two runs that differ only in the identity of the client may end differently. -/
def Distinguishes (op : JobOperation) (argus : Bool) : Prop :=
  ∃ server job client client', server.env.argusAuthz = argus ∧ (∃ dn, getDNSSL client = .ok dn) ∧
    (∃ dn, getDNSSL client' = .ok dn) ∧
    (operate server job op client).isOk ≠ (operate server job op client').isOk

/-! ### The operations that do not look at the client -/

theorem operate_jobStart (server : Server) (job : StoredJob) (client client' : Client) :
    operate server job .jobStart client = operate server job .jobStart client' := rfl

theorem operate_jobCancel (server : Server) (job : StoredJob) (client client' : Client) :
    operate server job .jobCancel client = operate server job .jobCancel client' := rfl

/-! ### The operations that do -/

variable {server : Server} {client : Client} {decisions : List Decision}

theorem operate_eq_ok {job : StoredJob} {op : JobOperation}
    (done : operate server job op client = .ok decisions) :
    decisionsOf server job op client = .ok decisions := by
  unfold operate at done
  split at done
  · cases done
  · cases decided : decisionsOf server job op client with
    | error error => simp [decided, bind, Except.bind] at done
    | ok found =>
      simp only [decided, bind, Except.bind] at done
      split at done
      · cases done
        rfl
      · cases done

theorem authorizer_known {dn : String} (known : getDNSSL client = .ok dn) :
    authorizer server.env client (.action "jobPurge") = .ok
      { uid := 0, gid := 0, action := "jobPurge", userproxypath := "", userdn := dn, fqans :=
        getGridsiteFQANs client } := by
  simp [authorizer, WMPAuthorizer.ofAction, known, bind, Except.bind, pure, Except.pure]

/-- With Argus every client that has a DN is let through, and nothing is decided. -/
theorem decisionsOf_jobPurge_argus (argus : server.env.argusAuthz = true) (job : StoredJob) {dn : String}
    (known : getDNSSL client = .ok dn) : decisionsOf server job .jobPurge client =
      (server.env.getpwuid 0).elim (.error .other) fun _ => .ok [] := by
  simp only [decisionsOf, doAuthZ, authorized, authorizedDecisions, JobOperation.action,
    authorizer_known known, bind, Except.bind,
    WMPAuthorizer.authorize, argus, if_true]
  cases server.env.getpwuid 0 <;> simp [authorizeDecisions, argus, pure, Except.pure]

theorem decisionsOf_jobPurge_gridsite (gridsite : server.env.argusAuthz = false) {job : StoredJob}
    {dn : String} (known : getDNSSL client = .ok dn)
    (decided : decisionsOf server job .jobPurge client = .ok decisions) :
    decisions = [.acl ((getGridsiteFQANs client).headD "") dn] := by
  simp only [decisionsOf, authorizedDecisions, JobOperation.action, authorizer_known known, bind,
    Except.bind] at decided
  split at decided
  · cases decided
  · split at decided
    · cases decided
    · simpa [authorizeDecisions, gridsite, pure, Except.pure, eq_comm] using decided

theorem checkOwnership_owner {job : StoredJob} {dn : String} (known : getDNSSL client = .ok dn)
    (other : dn ≠ job.certSubj) : checkOwnership server job client ≠ .ok decisions := by
  unfold checkOwnership
  split
  · simp
  · simp [known, bind, Except.bind, Ne.symm other]

/-! ### A server with one known user -/

def aliceServer (argus : Bool) : Server where
  env := {
    lib := { encode := id, anyUser := "any-user", regexMatch := fun _ _ => some false }
    getenv := fun _ => none
    files := fun _ => .loaded [{ creds := ["dn:/CN=alice"], allowed := 2, denied := 0 }]
    argusAuthz := argus
    argusPepdEndpoints := ["https://argus:8154/authz"]
    wmsPepcResourceid := "wms"
    getEndpoint := "https://wms:7443"
    pepAuthorize := fun _ => none
    getpwnam := fun _ => none
    getgrnam := fun _ => none
    getpwuid := fun _ => some ⟨"pool001", 501⟩
    getgid := 500
    lcmapsAccountInit := true
    lcmapsAccount := fun _ _ _ => some 1001
    lcmapsAccountClean := true
    checkProxyValidity := fun _ => .ok ()
    vomsAuthN := fun _ => .ok ("/CN=alice", ["/atlas"])
    cachedProxyFind := fun _ _ => none
    getJobDelegatedProxyPath := fun jobId => "/" ++ jobId ++ "/user.proxy" }
  initWMProxyOperation _ := true
  readable _ := true
  rest _ _ _ := true

def aliceJob : StoredJob := ⟨"job", "/CN=alice", "/atlas"⟩

def alice : Client := ⟨some "/CN=alice", ["fqan:/atlas"]⟩

def bob : Client := ⟨some "/CN=bob", ["fqan:/atlas"]⟩

theorem distinguishes_of_alice {op : JobOperation} {argus : Bool}
    (differ : (operate (aliceServer argus) aliceJob op alice).isOk ≠
      (operate (aliceServer argus) aliceJob op bob).isOk) :
    Distinguishes op argus :=
  ⟨aliceServer argus, aliceJob, alice, bob, rfl, ⟨"/CN=alice", by decide⟩, ⟨"/CN=bob", by decide⟩, differ⟩

/-- An operation is decided by the identity of the client, and not always in the
same way for every client, just if it compares the client with the owner, or asks
the access control list about the client. -/
theorem decided_by_client_iff (op : JobOperation) (argus : Bool) : DecidesOwn op argus ∧
    Distinguishes op argus ↔
      op = .getJDL ∨ op = .getOutputFileList ∨ op = .jobPurge ∧ argus = false := by
  have owned {op : JobOperation} (compares : ∀ server job client, decisionsOf server job op client =
      checkOwnership server job client) : DecidesOwn op argus := by
    intro server job owner client dn decisions _ owned known other done
    have passed := operate_eq_ok done
    rw [compares] at passed
    exact absurd passed (checkOwnership_owner known (owned.subject ▸ other))
  cases op with
  | jobStart =>
    refine iff_of_false (fun ⟨_, server, job, client, client', _, _, _, differ⟩ => ?_) (by simp)
    exact differ (congrArg Except.isOk (operate_jobStart server job client client'))
  | jobCancel =>
    refine iff_of_false (fun ⟨_, server, job, client, client', _, _, _, differ⟩ => ?_) (by simp)
    exact differ (congrArg Except.isOk (operate_jobCancel server job client client'))
  | getJDL =>
    refine iff_of_true ⟨owned fun _ _ _ => rfl, distinguishes_of_alice ?_⟩ (.inl rfl)
    cases argus <;> decide
  | getOutputFileList =>
    refine iff_of_true ⟨owned fun _ _ _ => rfl, distinguishes_of_alice ?_⟩ (.inr (.inl rfl))
    cases argus <;> decide
  | jobPurge =>
    cases argus with
    | true =>
      refine iff_of_false (fun ⟨_, server, job, client, client', on, ⟨dn, known⟩, ⟨dn', known'⟩,
        differ⟩ => ?_) (by simp)
      have same : decisionsOf server job .jobPurge client = decisionsOf server job .jobPurge client' :=
        (decisionsOf_jobPurge_argus on job known).trans (decisionsOf_jobPurge_argus on job known').symm
      apply differ
      rw [operate, operate, same]
      rfl
    | false =>
      refine iff_of_true ⟨?_, distinguishes_of_alice (by decide)⟩ (.inr (.inr ⟨rfl, rfl⟩))
      intro server job owner client dn decisions off _ known _ done
      rw [decisionsOf_jobPurge_gridsite off known (operate_eq_ok done)]
      exact ⟨_, List.mem_singleton_self _, rfl⟩

/-- A client who is refused by the access control list cancels and starts the job of another one;
with Argus every client purges it. -/
theorem acts_on_job_of_another :
    operate (aliceServer false) aliceJob .jobCancel bob = .ok [.acl "/atlas" "/CN=alice"] ∧
    operate (aliceServer false) aliceJob .jobStart bob = .ok [.acl "/atlas" "/CN=alice"] ∧
    operate (aliceServer true) aliceJob .jobPurge bob = .ok [] ∧
    checkGaclUserAuthZ (aliceServer false).env.lib (aliceServer false).env.getenv
      (aliceServer false).env.files
      "/atlas" "/CN=bob" = .error (.authorizationException "Authorization error: user not authorized") :=
  ⟨by decide, by decide, by decide, by decide⟩

end Wms.Interface
