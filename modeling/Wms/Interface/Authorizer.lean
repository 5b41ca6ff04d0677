import Wms.Interface.GaclGrants

/-! The authorization of a request and the mapping of its user (`authorizer.cpp`,
`argus_authz.cpp`).

Argus decides about the proxy of a user and names the local one; the access
control list decides about their identity, and LCMAPS then maps them. A request
that brings no proxy is not shown to Argus at all.
-/

set_option autoImplicit false

namespace Wms.Interface

open List

/-! ### The client -/

structure Client where
  sslClientDn : Option String
  /-- `GRST_CRED_AURI_0` and those behind it, up to the first one that is not set. -/
  credAuris : List String
  deriving DecidableEq, Repr

inductive AuthError where
  | authorizationException (message : String)
  | proxyOperationException (message : String)
  | jobOperationException (message : String)
  | gacl (error : GaclError)
  | other
  deriving DecidableEq, Repr

def cutBefore (pattern : List Char) : List Char → List Char
  | [] => []
  | c :: rest => if pattern.isPrefixOf (c :: rest) then [] else c :: cutBefore pattern rest

def getDNSSL (client : Client) : Except AuthError String :=
  let failure := AuthError.proxyOperationException "Unable to get a valid user DN"
  match client.sslClientDn with
  | none => .error failure
  | some clientDn =>
    let userDn := cutBefore "/CN=proxy".toList clientDn.toList
    let userDn := cutBefore "/CN=limited proxy".toList userDn
    if userDn.isEmpty then .error failure else .ok (String.ofList userDn)

def getGridsiteFQANs (client : Client) : List String :=
  client.credAuris.filterMap fun grstCred =>
    if 5 < grstCred.length && startsWith grstCred "fqan:" then
      some (String.ofList (grstCred.toList.drop 5))
    else none

/-! ### Argus -/

inductive XacmlDecision where
  | deny
  | permit
  | indeterminate
  | notApplicable
  deriving DecidableEq, Repr

structure XacmlResult where
  resourceid : Option String
  decision : XacmlDecision
  obligations : List (List (String × List String))
  deriving DecidableEq, Repr

/-- What Argus is asked; of the user it is shown the certificates in the file of the proxy. -/
structure PepRequest where
  pepds : List String
  resourceid : String
  actionid : String
  userproxypath : String
  deriving DecidableEq, Repr

structure Passwd where
  pwName : String
  pwGid : UInt32
  deriving DecidableEq, Repr

structure AuthEnv where
  lib : GridSite
  getenv : String → Option String
  files : String → GaclFile
  argusAuthz : Bool
  argusPepdEndpoints : List String
  wmsPepcResourceid : String
  getEndpoint : String
  /-- The results of Argus; nothing where a call of the client fails, `some none`
  for a null response. -/
  pepAuthorize : PepRequest → Option (Option (List XacmlResult))
  getpwnam : String → Option UInt32
  getgrnam : String → Option UInt32
  getpwuid : UInt32 → Option Passwd
  getgid : UInt32
  lcmapsAccountInit : Bool
  /-- The user id LCMAPS gives at the first and at the second attempt, for a DN and its first FQAN.
  -/
  lcmapsAccount : Nat → String → Option String → Option UInt32
  lcmapsAccountClean : Bool
  checkProxyValidity : String → Except AuthError Unit
  vomsAuthN : String → Except AuthError (String × List String)
  cachedProxyFind : String → String → Option String
  getJobDelegatedProxyPath : String → String

def attributeUserId : String := "http://glite.org/xacml/attribute/user-id"

def attributeGroupId : String := "http://glite.org/xacml/attribute/group-id"

def attributeGroupIdPrimary : String := "http://glite.org/xacml/attribute/group-id/primary"

/-- The values of a result with the identifiers of their attributes, in the order
of the three loops. -/
def XacmlResult.values (result : XacmlResult) : List (String × String) :=
  result.obligations.flatten.flatMap fun (attrid, values) => values.map fun value => (attrid, value)

structure Mapping where
  uid : UInt32
  gid : UInt32
  deriving DecidableEq, Repr

def unmapped : Mapping := ⟨4294967295, 4294967295⟩

/-- One value of an obligation; nothing where a user or a group is not known. -/
def assign (env : AuthEnv) (ret : Mapping) : String × String → Option Mapping
  | (attrid, value) =>
    if attrid = attributeGroupIdPrimary then (env.getgrnam value).map fun gid => { ret with gid }
    else if attrid = attributeGroupId then some ret
    else if attrid = attributeUserId then (env.getpwnam value).map fun uid => { ret with uid }
    else some ret

def getResponse (env : AuthEnv) (response : Option (List XacmlResult)) (resourceid : String) :
    XacmlDecision × Mapping :=
  let error := (XacmlDecision.indeterminate, unmapped)
  match response with
  -- only the first result is relevant
  | some (result :: _) =>
    if result.resourceid ≠ some resourceid then error
    else if result.obligations.isEmpty && result.decision == .permit then error
    else (result.values.foldlM (assign env) unmapped).elim error fun ret => (result.decision, ret)
  | _ => error

def argusAuthZ (env : AuthEnv) (request : PepRequest) : Bool × XacmlDecision × Mapping :=
  match env.pepAuthorize request with
  | none => (false, .indeterminate, ⟨0, 0⟩)
  | some response => (true, getResponse env response request.resourceid)

/-! ### The authorizer -/

structure WMPAuthorizer where
  uid : UInt32
  gid : UInt32
  action : String
  userproxypath : String
  userdn : String
  fqans : List String
  deriving DecidableEq, Repr

namespace WMPAuthorizer

def ofAction (client : Client) (action : String) : Except AuthError WMPAuthorizer := do
  let userdn ← getDNSSL client
  return { uid := 0, gid := 0, action, userproxypath := "", userdn, fqans := getGridsiteFQANs client }

def ofProxy (env : AuthEnv) (action userproxypath : String) : Except AuthError WMPAuthorizer := do
  let (userdn, fqans) ← env.vomsAuthN userproxypath
  return { uid := 0, gid := 0, action, userproxypath, userdn, fqans }

/-- `map_user_lcmaps`; with no FQAN it reads what is not there. -/
def mapUserLcmaps (env : AuthEnv) (auth : WMPAuthorizer) : Except AuthError WMPAuthorizer :=
  if !env.lcmapsAccountInit then .error (.authorizationException "LCMAPS info initialization failure")
  else match (env.lcmapsAccount 0 auth.userdn auth.fqans.head?).or
      (env.lcmapsAccount 1 auth.userdn auth.fqans.head?) with
    | none => .error (.authorizationException "LCMAPS failed to map user credential")
    | some uid =>
      match env.getpwuid uid with
      | none => .error (.authorizationException "LCMAPS could not find the username related to uid")
      | some userInfo =>
        if userInfo.pwGid = env.getgid then
          .error (.authorizationException
            ("Mapping not allowed, mapped local user group equal to group of user running server\n" ++
              "(please contact server administrator)"))
        else if !env.lcmapsAccountClean then .error (.authorizationException "LCMAPS info clean failure")
        else .ok { auth with uid, gid := userInfo.pwGid }

def pepRequest (env : AuthEnv) (auth : WMPAuthorizer) : PepRequest where
  pepds := env.argusPepdEndpoints
  resourceid := if env.wmsPepcResourceid = "" then env.getEndpoint else env.wmsPepcResourceid
  actionid := auth.action
  userproxypath := auth.userproxypath

def authorizeArgus (env : AuthEnv) (auth : WMPAuthorizer) : Except AuthError WMPAuthorizer :=
  if env.argusPepdEndpoints.isEmpty then .error (.authorizationException "no Argus endpoint was specified")
  else match argusAuthZ env (auth.pepRequest env) with
    | (true, .permit, mapping) => .ok { auth with uid := mapping.uid, gid := mapping.gid }
    | (true, _, _) =>
      .error (.authorizationException ("Argus denied authorization or permitted with no obligation" ++ "on " ++
        auth.action ++ " issued by DN: " ++ auth.userdn))
    | (false, _, _) =>
      .error (.authorizationException ("Argus request on " ++ auth.action ++ " by DN: " ++ auth.userdn ++
        " failed for some reason"))

def authorizeGridsite (env : AuthEnv) (auth : WMPAuthorizer) : Except AuthError WMPAuthorizer :=
  match checkGaclUserAuthZ env.lib env.getenv env.files (auth.fqans.headD "") auth.userdn with
  | .ok () => auth.mapUserLcmaps env
  | .error error => .error (.gacl error)

/-- `authorize`; with Argus nothing is done for a request without a proxy. -/
def authorize (env : AuthEnv) (auth : WMPAuthorizer) : Except AuthError WMPAuthorizer :=
  if env.argusAuthz then
    if auth.userproxypath = "" then .ok auth else auth.authorizeArgus env
  else auth.authorizeGridsite env

end WMPAuthorizer

/-! ### The ways of asking -/

structure AuthInfo where
  uid : UInt32
  gid : UInt32
  fqans : List String
  deriving DecidableEq, Repr

/-- What an operation asks for: an action, with a delegation id or a job id where it has one. -/
inductive Ask where
  | action (action : String)
  | delegation (action delegationId : String)
  | job (action jobId : String)
  deriving DecidableEq, Repr

def getDelegatedProxyPath (env : AuthEnv) (delegationId dn : String) : Except AuthError String :=
  if delegationId.toList.contains '/' then .error (.jobOperationException "invalid delegation id")
  else (env.cachedProxyFind delegationId dn).elim
    (.error (.jobOperationException "Unable to get delegated Proxy")) .ok

def authorizerFor (env : AuthEnv) (action delegatedproxy : String) : Except AuthError WMPAuthorizer := do
  env.checkProxyValidity delegatedproxy
  WMPAuthorizer.ofProxy env action delegatedproxy

def authorizer (env : AuthEnv) (client : Client) : Ask → Except AuthError WMPAuthorizer
  | .action action => WMPAuthorizer.ofAction client action
  | .delegation action delegationId => do
    let dn ← getDNSSL client
    let delegatedproxy ← getDelegatedProxyPath env delegationId dn
    authorizerFor env action delegatedproxy
  | .job action jobId => authorizerFor env action (env.getJobDelegatedProxyPath jobId)

def authorized (env : AuthEnv) (client : Client) (ask : Ask) : Except AuthError WMPAuthorizer := do
  let auth ← authorizer env client ask
  auth.authorize env

def WMPAuthorizer.info (auth : WMPAuthorizer) : AuthInfo := ⟨auth.uid, auth.gid, auth.fqans⟩

def doAuthZJobid (env : AuthEnv) (client : Client) (action jobId : String) : Except AuthError AuthInfo :=
  (authorized env client (.job action jobId)).map WMPAuthorizer.info

/-- `do_authZ( action )`; a user without an entry in the password file ends the process. -/
def doAuthZ (env : AuthEnv) (client : Client) (action : String) : Except AuthError String := do
  let auth ← authorized env client (.action action)
  (env.getpwuid auth.uid).elim (.error .other) fun userInfo => .ok userInfo.pwName

variable {env : AuthEnv}

end Wms.Interface
