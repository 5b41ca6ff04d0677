import Wms.Interface.Authorizer

/-! When a request is let through, and to whom it is mapped.

`Granted` says what has to be behind a user id: a permission of Argus that names the user, or the
access control list and LCMAPS. `Ungranted` collects the ways past it.
-/

set_option autoImplicit false

namespace Wms.Interface

open List

variable {env : AuthEnv}

/-! ### What Argus says -/

def namedUsers (values : List (String × String)) : List String :=
  values.filterMap fun (attrid, value) => if attrid = attributeUserId then some value else none

def KnownValue (env : AuthEnv) : String × String → Prop
  | (attrid, value) =>
    (attrid = attributeUserId → (env.getpwnam value).isSome = true) ∧
      (attrid = attributeGroupIdPrimary → (env.getgrnam value).isSome = true)

theorem assign_cases (env : AuthEnv) (ret : Mapping) (attrid value : String) :
    ¬KnownValue env (attrid, value) ∧ assign env ret (attrid, value) = none ∨
      KnownValue env (attrid, value) ∧ ∃ ret', assign env ret (attrid, value) = some ret' ∧
        (attrid = attributeUserId ∧ env.getpwnam value = some ret'.uid ∨
          attrid ≠ attributeUserId ∧ ret'.uid = ret.uid) := by
  have apart : attributeGroupIdPrimary ≠ attributeUserId := by decide
  have apart' : attributeGroupId ≠ attributeUserId := by decide
  have apart'' : attributeGroupId ≠ attributeGroupIdPrimary := by decide
  unfold assign KnownValue
  by_cases primary : attrid = attributeGroupIdPrimary
  · subst primary
    cases known : env.getgrnam value <;> simp [apart, known]
  · by_cases group : attrid = attributeGroupId
    · subst group
      simp [apart', apart'']
    · by_cases user : attrid = attributeUserId
      · subst user
        cases known : env.getpwnam value <;> simp [apart.symm, apart'.symm, known]
      · simp [primary, group, user]

theorem foldlM_assign (env : AuthEnv) (values : List (String × String)) (ret : Mapping) :
    (¬∀ value ∈ values, KnownValue env value) ∧ values.foldlM (assign env) ret = none ∨
      (∀ value ∈ values, KnownValue env value) ∧ ∃ ret', values.foldlM (assign env) ret = some ret' ∧
        (namedUsers values = [] ∧ ret'.uid = ret.uid ∨
          ∃ user, (namedUsers values).getLast? = some user ∧ env.getpwnam user = some ret'.uid) := by
  induction values generalizing ret with
  | nil => exact .inr ⟨by simp, ret, rfl, .inl ⟨rfl, rfl⟩⟩
  | cons value rest ih =>
    obtain ⟨attrid, text⟩ := value
    rw [foldlM_cons]
    obtain ⟨unknown, stops⟩ | ⟨known, next, goes, uid⟩ := assign_cases env ret attrid text
    · exact .inl ⟨fun all => unknown (all _ mem_cons_self), by rw [stops]; rfl⟩
    · rw [goes]
      change _ ∧ rest.foldlM (assign env) next = none ∨ _ ∧
        ∃ ret', rest.foldlM (assign env) next = some ret' ∧ _
      obtain ⟨unknown, stops⟩ | ⟨knownRest, last, ends, named⟩ := ih next
      · exact .inl ⟨fun all => unknown fun v member => all v (mem_cons_of_mem _ member), stops⟩
      · refine .inr ⟨forall_mem_cons.mpr ⟨known, knownRest⟩, last, ends, ?_⟩
        obtain ⟨isUser, mapped⟩ | ⟨noUser, kept⟩ := uid
        · have added : namedUsers ((attrid, text) :: rest) = text :: namedUsers rest := by
            simp [namedUsers, isUser]
          rw [added, getLast?_cons]
          obtain ⟨nobody, same⟩ | ⟨user, final, mapped'⟩ := named
          · exact .inr ⟨text, by rw [nobody]; rfl, same ▸ mapped⟩
          · exact .inr ⟨user, by rw [final]; rfl, mapped'⟩
        · have skipped : namedUsers ((attrid, text) :: rest) = namedUsers rest := by
            simp [namedUsers, noUser]
          rw [skipped, ← kept]
          exact named

/-- The first result of Argus, where it is about this resource and a permission. -/
def Permission (env : AuthEnv) (auth : WMPAuthorizer) (result : XacmlResult) : Prop :=
  (∃ rest, env.pepAuthorize (auth.pepRequest env) = some (some (result :: rest))) ∧
    result.resourceid = some (auth.pepRequest env).resourceid ∧ result.decision = .permit

/-- The user a result names last has this user id. -/
def Names (env : AuthEnv) (result : XacmlResult) (uid : UInt32) : Prop :=
  ∃ user, (namedUsers result.values).getLast? = some user ∧ env.getpwnam user = some uid

variable {auth : WMPAuthorizer}

theorem Permission.unique {result result' : XacmlResult} (first : Permission env auth result)
    (second : Permission env auth result') : result = result' := by
  obtain ⟨⟨rest, asked⟩, _⟩ := first
  obtain ⟨⟨rest', asked'⟩, _⟩ := second
  simp only [asked, Option.some.injEq, List.cons.injEq] at asked'
  exact asked'.1

theorem Names.obliged {result : XacmlResult} {uid : UInt32} (names : Names env result uid) :
    result.obligations ≠ [] := by
  intro empty
  obtain ⟨user, last, _⟩ := names
  simp [namedUsers, XacmlResult.values, empty] at last

theorem getResponse_permit (env : AuthEnv) (response : Option (List XacmlResult)) (resourceid : String)
    (ret : Mapping) : getResponse env response resourceid = (.permit, ret) ↔
      ∃ result rest, response = some (result :: rest) ∧ result.resourceid = some resourceid ∧
        result.decision = .permit ∧ result.obligations ≠ [] ∧
        result.values.foldlM (assign env) unmapped = some ret := by
  cases response with
  | none => simp [getResponse]
  | some results =>
    cases results with
    | nil => simp [getResponse]
    | cons result rest =>
      simp only [getResponse, Option.some.injEq, List.cons.injEq]
      cases folded : result.values.foldlM (assign env) unmapped <;> by_cases same :
        result.resourceid = some resourceid <;>
        by_cases empty : result.obligations = [] <;> cases decision : result.decision <;>
        simp_all

theorem authorizeArgus_eq_ok (env : AuthEnv) (auth auth' : WMPAuthorizer) :
    auth.authorizeArgus env = .ok auth' ↔ env.argusPepdEndpoints ≠ [] ∧
      ∃ result, Permission env auth result ∧
      result.obligations ≠ [] ∧ ∃ ret, result.values.foldlM (assign env) unmapped = some ret ∧
        auth' = { auth with uid := ret.uid, gid := ret.gid } := by
  have permitted : auth.authorizeArgus env = .ok auth' ↔ env.argusPepdEndpoints ≠ [] ∧
      ∃ response ret, env.pepAuthorize (auth.pepRequest env) = some response ∧
        getResponse env response (auth.pepRequest env).resourceid = (.permit, ret) ∧
        auth' = { auth with uid := ret.uid, gid := ret.gid } := by
    unfold WMPAuthorizer.authorizeArgus argusAuthZ
    cases env.argusPepdEndpoints with
    | nil => simp
    | cons endpoint endpoints =>
      cases env.pepAuthorize (auth.pepRequest env) with
      | none => simp
      | some response =>
        cases answer : getResponse env response (auth.pepRequest env).resourceid with
        | mk decision ret => cases decision <;> simp [answer, eq_comm]
  rw [permitted]
  simp only [getResponse_permit, Permission]
  constructor
  · rintro ⟨endpoints, _, ret, asked, ⟨result, rest, rfl, same, permit, obliged, folded⟩, rfl⟩
    exact ⟨endpoints, result, ⟨⟨rest, asked⟩, same, permit⟩, obliged, ret, folded, rfl⟩
  · rintro ⟨endpoints, result, ⟨⟨rest, asked⟩, same, permit⟩, obliged, ret, folded, rfl⟩
    exact ⟨endpoints, _, ret, asked, ⟨result, rest, rfl, same, permit, obliged, folded⟩, rfl⟩

/-! ### What LCMAPS says -/

/-- LCMAPS maps the user to this user id, which is one of the system and not of the server's group.
-/
structure Maps (env : AuthEnv) (auth : WMPAuthorizer) (uid : UInt32) : Prop where
  initialized : env.lcmapsAccountInit = true
  account : (env.lcmapsAccount 0 auth.userdn auth.fqans.head?).or
    (env.lcmapsAccount 1 auth.userdn auth.fqans.head?) = some uid
  group : ∃ userInfo, env.getpwuid uid = some userInfo ∧ userInfo.pwGid ≠ env.getgid
  cleaned : env.lcmapsAccountClean = true

theorem mapUserLcmaps_iff (env : AuthEnv) (auth : WMPAuthorizer) (uid : UInt32) :
    (∃ auth', auth.mapUserLcmaps env = .ok auth' ∧ auth'.uid = uid) ↔ Maps env auth uid := by
  constructor
  · intro ⟨auth', mapped, same⟩
    unfold WMPAuthorizer.mapUserLcmaps at mapped
    split at mapped
    · cases mapped
    · rename_i initialized
      split at mapped
      · cases mapped
      · rename_i uid' account
        split at mapped
        · cases mapped
        · rename_i userInfo known
          split_ifs at mapped with group cleaned
          cases mapped
          subst same
          exact ⟨by simpa using initialized, account, ⟨userInfo, known, group⟩, by simpa using cleaned⟩
  · intro maps
    obtain ⟨userInfo, known, group⟩ := maps.group
    refine ⟨{ auth with uid, gid := userInfo.pwGid }, ?_, rfl⟩
    simp [WMPAuthorizer.mapUserLcmaps, maps.initialized, maps.account, known, group, maps.cleaned]

/-! ### What is behind a user id -/

def Listed (env : AuthEnv) (auth : WMPAuthorizer) : Prop :=
  checkGaclUserAuthZ env.lib env.getenv env.files (auth.fqans.headD "") auth.userdn = .ok ()

inductive Granted (env : AuthEnv) (auth : WMPAuthorizer) (uid : UInt32) : Prop where
  | argus {result : XacmlResult} : env.argusAuthz = true → Permission env auth result →
      Names env result uid →
      Granted env auth uid
  | gridsite : env.argusAuthz = false → Listed env auth → Maps env auth uid → Granted env auth uid

inductive Ungranted (env : AuthEnv) (auth : WMPAuthorizer) : Prop where
  /-- Argus is not asked about a request without a proxy. -/
  | unasked : env.argusAuthz = true → auth.userproxypath = "" → Ungranted env auth
  /-- Its permission has obligations, but none that names a user. -/
  | unnamed {result : XacmlResult} : env.argusAuthz = true → auth.userproxypath ≠ "" →
      env.argusPepdEndpoints ≠ [] → Permission env auth result → result.obligations ≠ [] →
      (∀ value ∈ result.values, KnownValue env value) → namedUsers result.values = [] → Ungranted env auth
  | argusRoot {result : XacmlResult} : env.argusAuthz = true → auth.userproxypath ≠ "" →
      env.argusPepdEndpoints ≠ [] → Permission env auth result →
      (∀ value ∈ result.values, KnownValue env value) → Names env result 0 → Ungranted env auth
  | gridsiteRoot : env.argusAuthz = false → Listed env auth → Maps env auth 0 → Ungranted env auth

/-- With Argus and a proxy: the user that is named last is there, and is not the superuser. -/
theorem authorizeArgus_granted_iff (argus : env.argusAuthz = true) (path : auth.userproxypath ≠ "") :
    (∀ auth', auth.authorizeArgus env = .ok auth' → auth'.uid ≠ 0 ∧ Granted env auth auth'.uid) ↔
      ¬Ungranted env auth := by
  constructor
  · intro all ungranted
    cases ungranted with
    | unasked _ empty => exact path empty
    | gridsiteRoot off => simp [argus] at off
    | @unnamed result _ _ endpoints permission obliged known nobody =>
      obtain ⟨unknown, _⟩ | ⟨_, ret, folded, named⟩ := foldlM_assign env result.values unmapped
      · exact unknown known
      · have granted := (all _ ((authorizeArgus_eq_ok env auth _).mpr
          ⟨endpoints, result, permission, obliged, ret, folded, rfl⟩)).2
        cases granted with
        | gridsite off => simp [argus] at off
        | argus _ permission' names =>
          obtain ⟨user, last, _⟩ := permission.unique permission' ▸ names
          simp [nobody] at last
    | @argusRoot result _ _ endpoints permission known root =>
      obtain ⟨unknown, _⟩ | ⟨_, ret, folded, named⟩ := foldlM_assign env result.values unmapped
      · exact unknown known
      · have nonzero := (all _ ((authorizeArgus_eq_ok env auth _).mpr
          ⟨endpoints, result, permission, root.obliged, ret, folded, rfl⟩)).1
        obtain ⟨user, last, isRoot⟩ := root
        obtain ⟨nobody, _⟩ | ⟨user', last', mapped⟩ := named
        · simp [nobody] at last
        · cases last.symm.trans last'
          exact nonzero (Option.some.inj (mapped.symm.trans isRoot))
  · intro granted auth' let_through
    obtain ⟨endpoints, result, permission, obliged, ret, folded, rfl⟩ :=
      (authorizeArgus_eq_ok env auth auth').mp let_through
    obtain ⟨_, stops⟩ | ⟨known, ret', folded', named⟩ := foldlM_assign env result.values unmapped
    · simp [stops] at folded
    · cases folded'.symm.trans folded
      obtain ⟨nobody, _⟩ | named := named
      · exact absurd (.unnamed argus path endpoints permission obliged known nobody) granted
      · refine ⟨fun root => granted ?_, .argus argus permission named⟩
        exact .argusRoot argus path endpoints permission known (root ▸ named)

theorem authorizeGridsite_eq_ok (env : AuthEnv) (auth : WMPAuthorizer) (uid : UInt32) :
    (∃ auth', auth.authorizeGridsite env = .ok auth' ∧ auth'.uid = uid) ↔ Listed env auth ∧
      Maps env auth uid := by
  unfold WMPAuthorizer.authorizeGridsite Listed
  rw [← mapUserLcmaps_iff]
  cases checkGaclUserAuthZ env.lib env.getenv env.files (auth.fqans.headD "") auth.userdn <;> simp

theorem authorizeGridsite_granted_iff (gridsite : env.argusAuthz = false) :
    (∀ auth', auth.authorizeGridsite env = .ok auth' → auth'.uid ≠ 0 ∧ Granted env auth auth'.uid) ↔
      ¬Ungranted env auth := by
  constructor
  · intro all ungranted
    cases ungranted with
    | unasked on => simp [gridsite] at on
    | unnamed on => simp [gridsite] at on
    | argusRoot on => simp [gridsite] at on
    | gridsiteRoot _ listed maps =>
      obtain ⟨auth', let_through, root⟩ := (authorizeGridsite_eq_ok env auth 0).mpr ⟨listed, maps⟩
      exact (all auth' let_through).1 root
  · intro granted auth' let_through
    obtain ⟨listed, maps⟩ := (authorizeGridsite_eq_ok env auth auth'.uid).mp ⟨auth', let_through, rfl⟩
    exact ⟨fun root => granted (.gridsiteRoot gridsite listed (root ▸ maps)),
      .gridsite gridsite listed maps⟩

theorem authorize_granted_iff (env : AuthEnv) (auth : WMPAuthorizer) (initial : auth.uid = 0) :
    (∀ auth', auth.authorize env = .ok auth' → auth'.uid ≠ 0 ∧ Granted env auth auth'.uid) ↔
      ¬Ungranted env auth := by
  unfold WMPAuthorizer.authorize
  cases argus : env.argusAuthz with
  | true =>
    by_cases path : auth.userproxypath = ""
    · refine iff_of_false (fun all => ?_) fun granted => granted (.unasked argus path)
      exact (all auth (by simp [path])).1 initial
    · simpa [path] using authorizeArgus_granted_iff argus path
  | false =>
    simpa using authorizeGridsite_granted_iff argus

theorem authorizer_uid {client : Client} {ask : Ask} (made : authorizer env client ask = .ok auth) :
    auth.uid = 0 := by
  have ofProxy {action path : String} (made : authorizerFor env action path = .ok auth) :
      auth.uid = 0 := by
    unfold authorizerFor WMPAuthorizer.ofProxy at made
    cases valid : env.checkProxyValidity path with
    | error error => simp [valid, bind, Except.bind] at made
    | ok _ =>
      cases identity : env.vomsAuthN path with
      | error error => simp [valid, identity, bind, Except.bind] at made
      | ok found =>
        simp only [valid, identity, bind, Except.bind, pure, Except.pure, Except.ok.injEq] at made
        rw [← made]
  cases ask with
  | action action =>
    unfold authorizer WMPAuthorizer.ofAction at made
    cases dn : getDNSSL client with
    | error error => simp [dn, bind, Except.bind] at made
    | ok userdn =>
      simp only [dn, bind, Except.bind, pure, Except.pure, Except.ok.injEq] at made
      rw [← made]
  | delegation action delegationId =>
    unfold authorizer at made
    cases dn : getDNSSL client with
    | error error => simp [dn, bind, Except.bind] at made
    | ok userdn =>
      cases path : getDelegatedProxyPath env delegationId userdn with
      | error error => simp [dn, path, bind, Except.bind] at made
      | ok delegatedproxy =>
        simp only [dn, path, bind, Except.bind] at made
        exact ofProxy made
  | job action jobId => exact ofProxy made

/-- The user id that a request is let through with is that of the user it has been mapped to, and
not the one the authorizer starts with, just when nothing leads past the two services. -/
theorem authorized_granted_iff (env : AuthEnv) (client : Client) (ask : Ask) :
    (∀ auth', authorized env client ask = .ok auth' → auth'.info.uid ≠ 0 ∧
      ∃ auth, authorizer env client ask = .ok auth ∧ Granted env auth auth'.info.uid) ↔
      ∀ auth, authorizer env client ask = .ok auth → ¬Ungranted env auth := by
  unfold authorized
  cases made : authorizer env client ask with
  | error error => simp [bind, Except.bind]
  | ok auth =>
    change (∀ auth', auth.authorize env = .ok auth' → _) ↔ _
    simpa [WMPAuthorizer.info] using authorize_granted_iff env auth (authorizer_uid made)

def argusEnv (results : List XacmlResult) : AuthEnv where
  lib := { encode := id, anyUser := "any-user", regexMatch := fun _ _ => none }
  getenv _ := none
  files _ := .missing
  argusAuthz := true
  argusPepdEndpoints := ["https://argus:8154/authz"]
  wmsPepcResourceid := "wms"
  getEndpoint := "https://wms:7443"
  pepAuthorize _ := some (some results)
  getpwnam _ := none
  getgrnam _ := none
  getpwuid uid := if uid = 0 then some ⟨"root", 0⟩ else none
  getgid := 500
  lcmapsAccountInit := true
  lcmapsAccount _ _ _ := none
  lcmapsAccountClean := true
  checkProxyValidity _ := .ok ()
  vomsAuthN _ := .ok ("/CN=bob", ["/atlas"])
  cachedProxyFind _ _ := none
  getJobDelegatedProxyPath jobId := "/" ++ jobId ++ "/user.proxy"

def denial : XacmlResult := ⟨some "wms", .deny, []⟩

def emptyPermission : XacmlResult := ⟨some "wms", .permit, [[]]⟩

theorem emptyPermission_names (env : AuthEnv) (uid : UInt32) : ¬Names env emptyPermission uid := by
  rintro ⟨user, last, _⟩
  simp [emptyPermission, XacmlResult.values, namedUsers] at last

/-- Argus denies everything, and a request with an action only is let through as the superuser. A
permission that names nobody lets a request through with the user id `-1`. -/
theorem let_through_as_root :
    ((authorized (argusEnv [denial]) ⟨some "/CN=bob", []⟩ (.action "getFreeQuota")).map
      (·.info.uid) = .ok 0 ∧
      doAuthZ (argusEnv [denial]) ⟨some "/CN=bob", []⟩ "getFreeQuota" = .ok "root") ∧
    (doAuthZJobid (argusEnv [emptyPermission]) ⟨some "/CN=bob", []⟩ "jobStart" "job" =
        .ok ⟨4294967295, 4294967295, ["/atlas"]⟩ ∧
          ∀ uid, ¬Names (argusEnv [emptyPermission]) emptyPermission uid) :=
  ⟨⟨by decide, by decide⟩, by decide, emptyPermission_names _⟩

end Wms.Interface
