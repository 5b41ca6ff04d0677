import Mathlib.Data.List.Basic

/-! The access control list of the server (`gaclmanager.cpp`) and the check of a user against it
(`checkGaclUserAuthZ`).

The manager keeps the permissions of the entry it has found last. A lookup that finds no entry
leaves them as they are, and the lookup of any user takes the first credential there is, so that the
permissions that are looked at may be those of somebody else.
-/

set_option autoImplicit false

namespace Wms.Interface

structure GridSite where
  encode : String → String
  anyUser : String
  /-- Whether a text matches an expression; nothing where the expression is not well formed. -/
  regexMatch : String → String → Option Bool

inductive GaclError where
  | gaclException (message : String)
  | authorizationException (message : String)
  | outOfRange
  | regexError
  deriving DecidableEq, Repr

structure GaclEntry where
  creds : List String
  allowed : UInt32
  denied : UInt32
  deriving DecidableEq, Repr

abbrev GaclAcl := List GaclEntry

def wmpgaclNoperm : UInt32 := 0

def wmpgaclExec : UInt32 := 2

inductive WMPgaclCredType where
  | undefcred
  | anyuser
  | person
  | dnlist
  | voms
  | dns
  deriving DecidableEq, Repr

structure GaclManager where
  gaclFile : String
  gaclAcl : GaclAcl
  gaclAllowed : UInt32
  gaclDenied : UInt32

inductive GaclFile where
  | missing
  | malformed
  | loaded (acl : GaclAcl)

def startsWith (text start : String) : Bool := start.toList.isPrefixOf text.toList

/-- `boost::replace_all`; the number counts the characters of an occurrence that
are still to be left out. -/
def replaceAll (pattern replacement : List Char) : Nat → List Char → List Char
  | _, [] => []
  | n + 1, _ :: rest => replaceAll pattern replacement n rest
  | 0, c :: rest =>
    if pattern.isPrefixOf (c :: rest) then replacement ++ replaceAll pattern replacement
      (pattern.length - 1) rest
    else c :: replaceAll pattern replacement 0 rest

/-- The expression for a credential, behind its first five characters. -/
def gaclRegex (auri : String) : String :=
  let gaclRegex := replaceAll ".".toList "[.]".toList 0 (auri.toList.drop 5)
  let gaclRegex := replaceAll "%2A".toList ".*".toList 0 gaclRegex
  let gaclRegex := replaceAll "+".toList " ".toList 0 gaclRegex
  "^" ++ String.ofList gaclRegex ++ "$"

def compareFQAN (lib : GridSite) (gaclFqan userFqan : String) : Except GaclError Bool :=
  -- `substr` throws for a text that is too short
  if gaclFqan.length < 5 then .error .outOfRange
  else (lib.regexMatch (gaclRegex gaclFqan) userFqan).elim (.error .regexError) .ok

def GridSite.person (lib : GridSite) (dn : String) : String := "dn:" ++ lib.encode dn

namespace GaclManager

def construct (files : String → GaclFile) (file : String) : Except GaclError GaclManager :=
  match files file with
  | .missing => .error (.gaclException ("gacl file not found (" ++ file ++ ")\n"))
  | .malformed =>
    .error (.gaclException
      ("unable to load gacl from file : [" ++ file ++ "] (contact the server administrator)"))
  | .loaded acl =>
    .ok { gaclFile := file, gaclAcl := acl, gaclAllowed := wmpgaclNoperm, gaclDenied := wmpgaclNoperm }

def credFound (lib : GridSite) (type : WMPgaclCredType) (rawvalue auri : String) : Except GaclError Bool :=
  match type with
  | .anyuser => .ok true
  | .person => .ok (auri == lib.person rawvalue)
  | .voms => compareFQAN lib auri rawvalue
  | .undefcred | .dnlist | .dns => .ok false

def scanCreds (lib : GridSite) (type : WMPgaclCredType) (rawvalue : String) : List String →
    Except GaclError Bool
  | [] => .ok false
  | auri :: rest => do
    if ← credFound lib type rawvalue auri then return true
    scanCreds lib type rawvalue rest

def scanEntries (lib : GridSite) (type : WMPgaclCredType) (rawvalue : String) :
    GaclAcl → Except GaclError (Option GaclEntry)
  | [] => .ok none
  | entry :: rest => do
    if ← scanCreds lib type rawvalue entry.creds then return some entry
    scanEntries lib type rawvalue rest

/-- `loadCredential`; the permissions are set only if an entry is found. -/
def loadCredential (lib : GridSite) (m : GaclManager) (type : WMPgaclCredType) (rawvalue : String) :
    Except GaclError (GaclManager × Bool) := do
  if type = .undefcred then throw (.gaclException "credential type not supported")
  match ← scanEntries lib type rawvalue m.gaclAcl with
  | some entry => return ({ m with gaclAllowed := entry.allowed, gaclDenied := entry.denied }, true)
  | none => return (m, false)

/-- `checkAllowPermission`; whether the credential has been found makes no difference to the answer.
-/
def checkAllowPermission (lib : GridSite) (m : GaclManager) (type : WMPgaclCredType) (rawvalue : String)
    (permission : UInt32) : Except GaclError (GaclManager × Bool) := do
  let (m, _) ← loadCredential lib m type rawvalue
  let allow := m.gaclAllowed &&& permission != 0
  let deny := m.gaclDenied &&& permission != 0
  if allow && deny then
    throw (.gaclException ("gacl syntax error: operation both allowed and denied (" ++ m.gaclFile ++ ")"))
  return (m, allow)

/-- `checkCredentialEntries`; the credential of any user is taken for every type. -/
def checkCredentialEntries (m : GaclManager) (type : String) : Bool :=
  m.gaclAcl.any fun entry => entry.creds.any fun auri =>
    (type == "person" && startsWith auri "dn:") || (type == "voms" && startsWith auri "fqan:") ||
      (type == "dn-list" && startsWith auri "url:") || (type == "hostname" && startsWith auri "dns:") ||
      startsWith auri "any"

end GaclManager

def gaclFileName : String := "glite_wms_wmproxy.gacl"

def gaclPath (getenv : String → Option String) : String :=
  match getenv "GLITE_WMS_CONFIG_DIR", getenv "GLITE_LOCATION", getenv "WMS_LOCATION_ETC",
    getenv "WMS_LOCATION" with
  | some dir, _, _, _ => dir ++ "/" ++ gaclFileName
  | _, some dir, _, _ => dir ++ "/etc/" ++ gaclFileName
  | _, _, some dir, _ => dir ++ "/" ++ gaclFileName
  | _, _, _, some dir => dir ++ "/etc/" ++ gaclFileName
  | _, _, _, _ => "/etc/glite-wms/" ++ gaclFileName

/-- A check that is made only if the list has credentials of the type. -/
def GaclManager.checkPresent (lib : GridSite) (gacl : GaclManager) (present : Bool)
    (type : WMPgaclCredType) (rawvalue : String) : Except GaclError (GaclManager × Bool) :=
  if present then gacl.checkAllowPermission lib type rawvalue wmpgaclExec else .ok (gacl, false)

def checkWithFqan (lib : GridSite) (gacl : GaclManager) (exist existDN existAU : Bool) (fqan dn : String) :
    Except GaclError Bool := do
  let (gacl, execAU) ← gacl.checkPresent lib existAU .anyuser ""
  let (gacl, execVO) ← gacl.checkPresent lib exist .voms fqan
  let exec := if exist then execVO else existAU || existDN
  -- overrides any-user authorization if VO auth is fine
  let execAU := execAU || execVO
  let (_, execDN) ← gacl.checkPresent lib existDN .person dn
  -- overrides VO and any-user authorization if DN is fine
  let exec := exec || execDN
  let execAU := execAU || execDN
  let execDN := if existDN then execDN else execAU || exec
  return exec && execDN && execAU

def checkWithoutFqan (lib : GridSite) (gacl : GaclManager) (existDN existAU : Bool) (dn : String) :
    Except GaclError Bool := do
  let (gacl, execAU) ← gacl.checkPresent lib existAU .anyuser ""
  let (gacl, execDN) ← gacl.checkPresent lib existDN .person dn
  -- the second operand of `||` is the same check
  let (_, execDN) ← gacl.checkPresent lib (existDN && !execDN) .person dn
    |>.map fun (gacl, again) => (gacl, execDN || again)
  let execAU := execAU || execDN
  return execDN || execAU

def checkExec (lib : GridSite) (gacl : GaclManager) (fqan dn : String) : Except GaclError Bool :=
  let exist := gacl.checkCredentialEntries "voms"
  let existDN := gacl.checkCredentialEntries "person"
  let existAU := gacl.checkCredentialEntries "any-user"
  if fqan = "" then checkWithoutFqan lib gacl existDN existAU dn
  else checkWithFqan lib gacl exist existDN existAU fqan dn

def checkGaclBody (lib : GridSite) (files : String → GaclFile) (gaclfile fqan dn : String) :
    Except GaclError Unit := do
  let gacl ← GaclManager.construct files gaclfile
  let exec ← checkExec lib gacl fqan dn
  if exec then return
  throw (.authorizationException "Authorization error: user not authorized")

/-- `checkGaclUserAuthZ`; only an exception of the manager gets a text in front. -/
def checkGaclUserAuthZ (lib : GridSite) (getenv : String → Option String) (files : String → GaclFile)
    (fqan dn : String) : Except GaclError Unit :=
  match checkGaclBody lib files (gaclPath getenv) fqan dn with
  | .error (.gaclException message) => .error (.gaclException ("User not authorized:\n" ++ message))
  | other => other

end Wms.Interface
