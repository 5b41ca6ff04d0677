import Wms.Interface.Gacl

/-! Which entry of the access control list a user is granted by.

The entries that the three lookups find decide: with an FQAN the one that has been
found last, without one each of them. `Misled` says when the user is granted
though no entry that concerns them allows it.
-/

set_option autoImplicit false

namespace Wms.Interface

open GaclManager

variable {lib : GridSite}

namespace GaclEntry

def allowsExec (e : GaclEntry) : Bool := e.allowed &&& wmpgaclExec != 0

def deniesExec (e : GaclEntry) : Bool := e.denied &&& wmpgaclExec != 0

/-- The entry allows the execution and does not deny it. -/
def Allows (e : GaclEntry) : Prop := e.allowsExec = true ∧ e.deniesExec = false

def Conflicts (e : GaclEntry) : Prop := e.allowsExec = true ∧ e.deniesExec = true

/-- The entry concerns any user, the FQAN of this one or their DN. -/
def AppliesTo (lib : GridSite) (fqan dn : String) (e : GaclEntry) : Prop :=
  lib.anyUser ∈ e.creds ∨ lib.person dn ∈ e.creds ∨
    fqan ≠ "" ∧ ∃ auri ∈ e.creds, startsWith auri "fqan:" = true ∧ compareFQAN lib auri fqan = .ok true

instance (lib : GridSite) (fqan dn : String) (e : GaclEntry) : Decidable (e.AppliesTo lib fqan dn) :=
  inferInstanceAs (Decidable (_ ∨ _ ∨ _ ∧ _))

instance (e : GaclEntry) : Decidable e.Allows := inferInstanceAs (Decidable (_ ∧ _))

instance (e : GaclEntry) : Decidable e.Conflicts := inferInstanceAs (Decidable (_ ∧ _))

end GaclEntry

/-! ### The lookups -/

def hasAnyUser (acl : GaclAcl) : Bool := acl.any (·.creds.any (startsWith · "any"))

def hasFqan (acl : GaclAcl) : Bool := acl.any (·.creds.any (startsWith · "fqan:"))

/-- What the lookup of any user finds: the first entry with a credential. -/
def firstEntry (acl : GaclAcl) : Option GaclEntry := acl.find? (!·.creds.isEmpty)

def ownEntry (lib : GridSite) (dn : String) (acl : GaclAcl) : Option GaclEntry :=
  acl.find? (·.creds.contains (lib.person dn))

namespace GaclManager

variable (m : GaclManager) (rawvalue : String) (found : Option GaclEntry)

theorem scanCreds_anyuser (creds : List String) : scanCreds lib .anyuser rawvalue creds = .ok
    (!creds.isEmpty) := by
  cases creds <;> rfl

theorem scanEntries_anyuser (acl : GaclAcl) : scanEntries lib .anyuser rawvalue acl = .ok
    (firstEntry acl) := by
  induction acl with
  | nil => rfl
  | cons entry rest ih =>
    rw [scanEntries, scanCreds_anyuser, firstEntry, List.find?_cons]
    cases entry.creds.isEmpty with
    | true => exact ih
    | false => rfl

theorem scanCreds_person (dn : String) (creds : List String) :
    scanCreds lib .person dn creds = .ok (creds.contains (lib.person dn)) := by
  induction creds with
  | nil => rfl
  | cons auri rest ih =>
    rw [scanCreds, credFound, ih, List.contains_cons, Bool.beq_comm]
    cases lib.person dn == auri <;> rfl

theorem scanEntries_person (dn : String) (acl : GaclAcl) :
    scanEntries lib .person dn acl = .ok (ownEntry lib dn acl) := by
  induction acl with
  | nil => rfl
  | cons entry rest ih =>
    rw [scanEntries, scanCreds_person, ownEntry, List.find?_cons]
    cases entry.creds.contains (lib.person dn) with
    | true => rfl
    | false => exact ih

def allow (m : GaclManager) : Bool := m.gaclAllowed &&& wmpgaclExec != 0

def deny (m : GaclManager) : Bool := m.gaclDenied &&& wmpgaclExec != 0

def after (m : GaclManager) : Option GaclEntry → GaclManager
  | some entry => { m with gaclAllowed := entry.allowed, gaclDenied := entry.denied }
  | none => m

@[simp] theorem after_gaclAcl : (m.after found).gaclAcl = m.gaclAcl := by
  cases found <;> rfl

@[simp] theorem allow_after : (m.after found).allow = found.elim m.allow GaclEntry.allowsExec := by
  cases found <;> rfl

@[simp] theorem deny_after : (m.after found).deny = found.elim m.deny GaclEntry.deniesExec := by
  cases found <;> rfl

def Settled (m : GaclManager) : Prop := ¬(m.allow = true ∧ m.deny = true)

def answer (m : GaclManager) : Except GaclError (GaclManager × Bool) :=
  if m.allow && m.deny then
    .error (.gaclException ("gacl syntax error: operation both allowed and denied (" ++ m.gaclFile ++ ")"))
  else .ok (m, m.allow)

theorem answer_cases : m.Settled ∧ m.answer = .ok (m, m.allow) ∨ ¬m.Settled ∧
    ∃ error, m.answer = .error error := by
  unfold Settled answer
  cases m.allow <;> cases m.deny <;> simp

theorem checkAllowPermission_eq {type : WMPgaclCredType} (known : type ≠ .undefcred) (rawvalue : String)
    {found : Option GaclEntry} (scanned : scanEntries lib type rawvalue m.gaclAcl = .ok found) :
    m.checkAllowPermission lib type rawvalue wmpgaclExec = (m.after found).answer := by
  unfold checkAllowPermission loadCredential
  rw [if_neg known, scanned]
  cases found <;> rfl

theorem checkAllowPermission_error {type : WMPgaclCredType} (known : type ≠ .undefcred) (rawvalue : String)
    {error : GaclError} (scanned : scanEntries lib type rawvalue m.gaclAcl = .error error) :
    m.checkAllowPermission lib type rawvalue wmpgaclExec = .error error := by
  unfold checkAllowPermission loadCredential
  rw [if_neg known, scanned]
  rfl

end GaclManager

/-! ### What is granted -/

def anyEntry (acl : GaclAcl) : Option GaclEntry := if hasAnyUser acl then firstEntry acl else none

def groupEntry (lib : GridSite) (fqan : String) (acl : GaclAcl) : Except GaclError (Option GaclEntry) :=
  if hasAnyUser acl || hasFqan acl then scanEntries lib .voms fqan acl else .ok none

def GaclManager.Fresh (m : GaclManager) : Prop := m.allow = false ∧ m.deny = false

theorem hasAnyUser_eq (m : GaclManager) : m.checkCredentialEntries "any-user" = hasAnyUser m.gaclAcl := by
  simp [checkCredentialEntries, hasAnyUser]

theorem checkCredentialEntries_voms (m : GaclManager) :
    m.checkCredentialEntries "voms" = (hasAnyUser m.gaclAcl || hasFqan m.gaclAcl) := by
  rw [Bool.eq_iff_iff]
  simp [checkCredentialEntries, hasAnyUser, hasFqan]
  grind

theorem ownEntry_eq_none (lib : GridSite) (m : GaclManager) (dn : String)
    (absent : m.checkCredentialEntries "person" = false) :
    ownEntry lib dn m.gaclAcl = none := by
  rw [ownEntry, List.find?_eq_none]
  intro entry member contained
  have start : startsWith (lib.person dn) "dn:" = true := by simp [startsWith, GridSite.person]
  simp [checkCredentialEntries] at absent
  simp only [List.contains_iff_mem] at contained
  exact absurd start (by simp [absent entry member _ contained])

section Checks

variable {m : GaclManager} (fqan dn : String)

def GaclManager.afterAny (m : GaclManager) : GaclManager := m.after (anyEntry m.gaclAcl)

/-- A lookup ends with an exception just when the entry it has found leaves the permissions torn. -/
def GaclManager.Answered (m : GaclManager) (present : Bool)
    (r : Except GaclError (GaclManager × Bool)) : Prop :=
  m.Settled ∧ r = .ok (m, present && m.allow) ∨ ¬m.Settled ∧ ∃ error, r = .error error

theorem GaclManager.answered (m : GaclManager) {present : Bool} {type : WMPgaclCredType}
    {rawvalue : String} {found : Option GaclEntry} (known : type ≠ .undefcred) (settled : m.Settled)
    (there : present = true → scanEntries lib type rawvalue m.gaclAcl = .ok found)
      (absent : present = false → found = none) :
    (m.after found).Answered present (m.checkPresent lib present type rawvalue) := by
  cases present with
  | false =>
    rw [absent rfl]
    exact .inl ⟨settled, rfl⟩
  | true =>
    rw [checkPresent, if_pos rfl, m.checkAllowPermission_eq known rawvalue (there rfl)]
    exact (m.after found).answer_cases

theorem checkPresent_anyuser (lib : GridSite) (fresh : m.Fresh) :
    m.afterAny.Answered (hasAnyUser m.gaclAcl)
      (m.checkPresent lib (hasAnyUser m.gaclAcl) .anyuser "") := by
  refine m.answered (by decide) (by simp [Settled, fresh.1]) (fun any => ?_) fun nothing => ?_
  · rw [scanEntries_anyuser, anyEntry, if_pos any]
  · simp [anyEntry, nothing]

theorem checkPresent_person (lib : GridSite) (dn : String) {m' : GaclManager}
    (kept : m'.gaclAcl = m.gaclAcl)
    (settled : m'.Settled) : (m'.after (ownEntry lib dn m.gaclAcl)).Answered
      (m.checkCredentialEntries "person")
      (m'.checkPresent lib (m.checkCredentialEntries "person") .person dn) :=
  m'.answered (by decide) settled (fun _ => by rw [scanEntries_person, kept])
    (ownEntry_eq_none lib m dn)

theorem checkPresent_false (lib : GridSite) (m : GaclManager) (type : WMPgaclCredType)
    (rawvalue : String) :
    m.checkPresent lib false type rawvalue = .ok (m, false) := rfl

theorem GaclManager.after_after (m : GaclManager) (found : Option GaclEntry) :
    (m.after found).after found = m.after found := by
  cases found <;> rfl

theorem ok_bind {α β : Type} (a : α) (f : α → Except GaclError β) : (Except.ok a >>= f) = f a := rfl

theorem afterAny_allow (fresh : m.Fresh) :
    (hasAnyUser m.gaclAcl && m.afterAny.allow) = m.afterAny.allow := by
  cases any : hasAnyUser m.gaclAcl <;> simp [afterAny, anyEntry, any, fresh.1]

attribute [local simp] bind Except.bind pure Except.pure Except.map

theorem checkWithoutFqan_iff (fresh : m.Fresh) :
    checkWithoutFqan lib m (m.checkCredentialEntries "person") (hasAnyUser m.gaclAcl) dn = .ok true ↔
      m.afterAny.Settled ∧ (m.afterAny.after (ownEntry lib dn m.gaclAcl)).Settled ∧
        (m.afterAny.allow = true ∨ (m.afterAny.after (ownEntry lib dn m.gaclAcl)).allow = true) := by
  have kept : m.afterAny.gaclAcl = m.gaclAcl := m.after_gaclAcl _
  unfold checkWithoutFqan
  obtain ⟨settled, any⟩ | ⟨torn, error, any⟩ := checkPresent_anyuser lib fresh
  · rw [any, ok_bind, afterAny_allow fresh]
    obtain ⟨settled', own⟩ | ⟨torn', error, own⟩ := checkPresent_person lib dn kept settled
    · have again := checkPresent_person lib dn ((after_gaclAcl _ _).trans kept) settled'
      rw [after_after] at again
      replace again := (again.resolve_right fun torn => torn.1 settled').2
      cases person : m.checkCredentialEntries "person" with
      | false =>
        have nothing := ownEntry_eq_none lib m dn person
        simp [nothing, after, checkPresent_false, settled]
      | true =>
        rw [person] at own again
        cases allow : (m.afterAny.after (ownEntry lib dn m.gaclAcl)).allow <;>
          simp [own, again, allow, settled, settled', checkPresent_false, -allow_after]
    · simp [own, torn']
  · simp [any, torn]

/-- The lookup of an FQAN and what it leaves for the one of a person. -/
theorem checkPresent_voms (lib : GridSite) (fqan : String) {m' : GaclManager}
    (kept : m'.gaclAcl = m.gaclAcl)
    (settled : m'.Settled) : (∃ error, groupEntry lib fqan m.gaclAcl = .error error ∧
        m'.checkPresent lib (m.checkCredentialEntries "voms") .voms fqan = .error error) ∨
      ∃ group, groupEntry lib fqan m.gaclAcl = .ok group ∧
        (m.checkCredentialEntries "voms" = false → group = none) ∧
        (m'.after group).Answered (m.checkCredentialEntries "voms")
          (m'.checkPresent lib (m.checkCredentialEntries "voms") .voms fqan) := by
  have looked := checkCredentialEntries_voms m
  cases present : m.checkCredentialEntries "voms" with
  | false =>
    refine .inr ⟨none, ?_, fun _ => rfl, .inl ⟨settled, rfl⟩⟩
    rw [groupEntry, ← looked, present]
    rfl
  | true =>
    have group : groupEntry lib fqan m.gaclAcl = scanEntries lib .voms fqan m.gaclAcl := by
      rw [groupEntry, ← looked, present, if_pos rfl]
    cases scanned : scanEntries lib .voms fqan m.gaclAcl with
    | error error =>
      exact .inl ⟨error, group.trans scanned,
        m'.checkAllowPermission_error (by decide) fqan (kept ▸ scanned)⟩
    | ok found =>
      exact .inr ⟨found, group.trans scanned, nofun,
        m'.answered (by decide) settled (fun _ => kept ▸ scanned) nofun⟩

theorem checkWithFqan_iff (fresh : m.Fresh) :
    checkWithFqan lib m (m.checkCredentialEntries "voms") (m.checkCredentialEntries "person")
        (hasAnyUser m.gaclAcl) fqan dn = .ok true ↔
      ∃ group, groupEntry lib fqan m.gaclAcl = .ok group ∧ m.afterAny.Settled ∧
        (m.afterAny.after group).Settled ∧
        ((m.afterAny.after group).after (ownEntry lib dn m.gaclAcl)).Settled ∧
        ((m.afterAny.after group).after (ownEntry lib dn m.gaclAcl)).allow = true := by
  have kept : m.afterAny.gaclAcl = m.gaclAcl := m.after_gaclAcl _
  unfold checkWithFqan
  obtain ⟨settled, any⟩ | ⟨torn, error, any⟩ := checkPresent_anyuser lib fresh
  · rw [any, ok_bind, afterAny_allow fresh]
    obtain ⟨error, scanned, check⟩ | ⟨group, scanned, nothing, check⟩ :=
      checkPresent_voms lib fqan kept settled
    · simp [check, scanned]
    rw [scanned]
    simp only [Except.ok.injEq, exists_eq_left', settled, true_and]
    obtain ⟨settled', check⟩ | ⟨torn', error', check⟩ := check
    · rw [check, ok_bind]
      obtain ⟨settledOwn, own⟩ | ⟨tornOwn, errorOwn, own⟩ :=
        checkPresent_person lib dn ((after_gaclAcl _ _).trans kept) settled'
      · simp only [own, ok_bind, settled', settledOwn, true_and]
        cases present : m.checkCredentialEntries "voms" <;> cases person :
          m.checkCredentialEntries "person"
        · have any := (checkCredentialEntries_voms m).symm.trans present
          simp_all [ownEntry_eq_none lib m dn person, after, afterAny, anyEntry, fresh.1]
        · have any := (checkCredentialEntries_voms m).symm.trans present
          simp_all [-allow_after]
        · rw [ownEntry_eq_none lib m dn person, after]
          cases (m.afterAny.after group).allow <;> simp
        · cases ((m.afterAny.after group).after (ownEntry lib dn m.gaclAcl)).allow <;> simp
      · simp [own, tornOwn]
    · simp [check, torn']
  · simp [any, torn]

end Checks

/-! ### Who is granted by the entry of somebody else -/

def GaclFile.entries : GaclFile → GaclAcl
  | .loaded acl => acl
  | .missing | .malformed => []

def decidingEntry (lib : GridSite) (fqan : String) (acl : GaclAcl) : Option GaclEntry :=
  if fqan = "" then anyEntry acl
  else match groupEntry lib fqan acl with
    | .ok group => group.or (anyEntry acl)
    -- the check ends with an exception
    | .error _ => none

structure Misled (lib : GridSite) (fqan dn : String) (acl : GaclAcl) : Prop where
  decided : ∃ e, decidingEntry lib fqan acl = some e ∧ e.Allows
  settled : ∀ e, anyEntry acl = some e → ¬e.Conflicts
  /-- With an FQAN the entry of the person would decide. -/
  own : fqan = "" ∨ ownEntry lib dn acl = none
  unjustified : ∀ e ∈ acl, e.AppliesTo lib fqan dn → e.allowsExec = false

section Granted

variable {m : GaclManager} {fqan dn : String}

theorem ownEntry_applies (fqan : String) {acl : GaclAcl} {e : GaclEntry}
    (found : ownEntry lib dn acl = some e) :
    e ∈ acl ∧ e.AppliesTo lib fqan dn :=
  ⟨List.mem_of_find?_eq_some found, .inr (.inl (by simpa using List.find?_some found))⟩

theorem GaclManager.Fresh.after_iff (fresh : m.Fresh) (found : Option GaclEntry) :
    (m.after found).Settled ∧ (m.after found).allow = true ↔ ∃ e, found = some e ∧ e.Allows := by
  cases found with
  | none => simp [after, fresh.1]
  | some e =>
    simp only [Settled, allow_after, deny_after, Option.elim_some,
      Option.some.injEq, exists_eq_left', GaclEntry.Allows]
    cases e.allowsExec <;> cases e.deniesExec <;> decide

theorem GaclManager.Fresh.after_settled_iff (fresh : m.Fresh) (found : Option GaclEntry) :
    (m.after found).Settled ↔ ∀ e, found = some e → ¬e.Conflicts := by
  cases found with
  | none => simp [after, Settled, fresh.1]
  | some e => simp [Settled, GaclEntry.Conflicts]

theorem GaclManager.after_or (m : GaclManager) (first second : Option GaclEntry) :
    (m.after first).after second = m.after (second.or first) := by
  cases first <;> cases second <;> rfl

theorem granted_withoutFqan (fresh : m.Fresh)
    (unjustified : ∀ e ∈ m.gaclAcl, e.AppliesTo lib fqan dn → e.allowsExec = false) :
    checkWithoutFqan lib m (m.checkCredentialEntries "person") (hasAnyUser m.gaclAcl) dn = .ok true ↔
      ∃ e, anyEntry m.gaclAcl = some e ∧ e.Allows := by
  rw [checkWithoutFqan_iff dn fresh, ← fresh.after_iff, afterAny]
  cases own : ownEntry lib dn m.gaclAcl with
  | none => simp [after]
  | some e =>
    obtain ⟨member, applies⟩ := ownEntry_applies fqan own
    have refused := unjustified e member applies
    simp [Settled, refused]

theorem granted_withFqan (fresh : m.Fresh)
    (unjustified : ∀ e ∈ m.gaclAcl, e.AppliesTo lib fqan dn → e.allowsExec = false) :
    checkWithFqan lib m (m.checkCredentialEntries "voms") (m.checkCredentialEntries "person")
        (hasAnyUser m.gaclAcl) fqan dn = .ok true ↔
      (∀ e, anyEntry m.gaclAcl = some e → ¬e.Conflicts) ∧ ownEntry lib dn m.gaclAcl = none ∧
        ∃ group, groupEntry lib fqan m.gaclAcl = .ok group ∧
          ∃ e, group.or (anyEntry m.gaclAcl) = some e ∧ e.Allows := by
  rw [checkWithFqan_iff fqan dn fresh, ← fresh.after_settled_iff, afterAny]
  cases own : ownEntry lib dn m.gaclAcl with
  | none =>
    simp only [after_or, Option.none_or, ← fresh.after_iff, true_and]
    grind
  | some e =>
    obtain ⟨member, applies⟩ := ownEntry_applies fqan own
    have refused := unjustified e member applies
    simp [refused]

end Granted

theorem construct_fresh {files : String → GaclFile} {file : String} {m : GaclManager}
    (made : construct files file = .ok m) : m.Fresh ∧ m.gaclAcl = (files file).entries := by
  unfold construct at made
  cases content : files file with
  | missing | malformed => simp [content] at made
  | loaded acl =>
    simp only [content, Except.ok.injEq] at made
    subst made
    exact ⟨⟨by simp [allow, wmpgaclNoperm], by simp [deny, wmpgaclNoperm]⟩, rfl⟩

theorem construct_error {files : String → GaclFile} {file : String} {error : GaclError}
    (made : construct files file = .error error) : (files file).entries = [] := by
  unfold construct at made
  cases content : files file with
  | missing | malformed => rfl
  | loaded acl => simp [content] at made

theorem checkGaclUserAuthZ_eq_ok (lib : GridSite) (getenv : String → Option String)
    (files : String → GaclFile)
    (fqan dn : String) : checkGaclUserAuthZ lib getenv files fqan dn = .ok () ↔
      ∃ m, construct files (gaclPath getenv) = .ok m ∧ checkExec lib m fqan dn = .ok true := by
  have body : checkGaclUserAuthZ lib getenv files fqan dn = .ok () ↔
      checkGaclBody lib files (gaclPath getenv) fqan dn = .ok () := by
    unfold checkGaclUserAuthZ
    split <;> simp_all
  rw [body, checkGaclBody]
  cases construct files (gaclPath getenv) with
  | error error => simp [bind, Except.bind]
  | ok m =>
    simp only [ok_bind, Except.ok.injEq, exists_eq_left']
    cases checkExec lib m fqan dn with
    | error error => simp [bind, Except.bind]
    | ok exec => cases exec <;> simp [bind, Except.bind, throw, throwThe, MonadExceptOf.throw, pure,
        Except.pure]

theorem misled_iff {lib : GridSite} {fqan dn : String} {acl : GaclAcl}
    (unjustified : ∀ e ∈ acl, e.AppliesTo lib fqan dn → e.allowsExec = false) : Misled lib fqan dn acl ↔
      (∃ e, decidingEntry lib fqan acl = some e ∧ e.Allows) ∧ (∀ e, anyEntry acl = some e → ¬e.Conflicts) ∧
        (fqan = "" ∨ ownEntry lib dn acl = none) :=
  ⟨fun misled => ⟨misled.decided, misled.settled, misled.own⟩,
    fun ⟨decided, settled, own⟩ => ⟨decided, settled, own, unjustified⟩⟩

/-- Where no entry that concerns the user allows it, they are granted just when they are misled. -/
theorem granted_iff_misled (lib : GridSite) (getenv : String → Option String) (files : String → GaclFile)
    (fqan dn : String) (unjustified : ∀ e ∈ (files (gaclPath getenv)).entries,
      e.AppliesTo lib fqan dn → e.allowsExec = false) :
        checkGaclUserAuthZ lib getenv files fqan dn = .ok () ↔
      Misled lib fqan dn (files (gaclPath getenv)).entries := by
  rw [checkGaclUserAuthZ_eq_ok, misled_iff unjustified]
  cases made : construct files (gaclPath getenv) with
  | error error =>
    have empty := construct_error made
    by_cases plain : fqan = "" <;> simp [empty, decidingEntry, anyEntry, hasAnyUser, groupEntry,
      hasFqan, plain]
  | ok m =>
    obtain ⟨fresh, loaded⟩ := construct_fresh made
    rw [← loaded] at unjustified ⊢
    simp only [Except.ok.injEq, exists_eq_left', checkExec, hasAnyUser_eq]
    by_cases plain : fqan = ""
    · rw [if_pos plain, granted_withoutFqan fresh unjustified]
      simp only [decidingEntry, plain, if_true, true_or, and_true]
      -- an entry that allows without a conflict is the only one there is
      refine ⟨fun ⟨e, found, allows⟩ => ⟨⟨e, found, allows⟩, fun e' found' => ?_⟩,
        fun decided => decided.1⟩
      rw [found, Option.some.injEq] at found'
      intro conflict
      exact absurd conflict.2 (by simp [← found', allows.2])
    · rw [if_neg plain, granted_withFqan fresh unjustified]
      simp only [decidingEntry, plain, false_or]
      cases groupEntry lib fqan m.gaclAcl with
      | error error => simp
      | ok group =>
        simp only [Except.ok.injEq, exists_eq_left']
        tauto

/-- A user is granted only by an entry that concerns them just when they are not
misled to the entry of somebody else. -/
theorem checkGaclUserAuthZ_justified_iff (lib : GridSite) (getenv : String → Option String)
    (files : String → GaclFile) (fqan dn : String) :
    (checkGaclUserAuthZ lib getenv files fqan dn = .ok () →
      ∃ e ∈ (files (gaclPath getenv)).entries, e.AppliesTo lib fqan dn ∧ e.allowsExec = true) ↔
      ¬Misled lib fqan dn (files (gaclPath getenv)).entries := by
  by_cases justified : ∃ e ∈ (files (gaclPath getenv)).entries, e.AppliesTo lib fqan dn ∧
    e.allowsExec = true
  · obtain ⟨e, member, applies, allows⟩ := justified
    refine iff_of_true (fun _ => ⟨e, member, applies, allows⟩) fun misled => ?_
    exact absurd (misled.unjustified e member applies) (by simp [allows])
  · have unjustified : ∀ e ∈ (files (gaclPath getenv)).entries, e.AppliesTo lib fqan dn →
        e.allowsExec = false := by
      intro e member applies
      exact Bool.eq_false_iff.mpr fun allows => justified ⟨e, member, applies, allows⟩
    simp only [justified, imp_false]
    rw [not_iff_not, granted_iff_misled lib getenv files fqan dn unjustified]

def plainGridSite : GridSite where
  encode dn := dn
  anyUser := "any-user"
  regexMatch regex text := some (regex == "^" ++ text ++ "$")

def onePersonAcl : GaclAcl :=
  [{ creds := ["dn:/CN=alice"], allowed := 2, denied := 0 },
    { creds := ["any-user"], allowed := 0, denied := 2 }]

/-- Another person is granted by the entry of the first one, without an FQAN and with one. -/
theorem granted_by_another_entry :
    checkGaclUserAuthZ plainGridSite (fun _ => none)
      (fun _ => .loaded onePersonAcl) "" "/CN=bob" = .ok () ∧
    checkGaclUserAuthZ plainGridSite (fun _ => none)
      (fun _ => .loaded onePersonAcl) "/atlas" "/CN=bob" = .ok () ∧
    ∀ fqan ∈ ["", "/atlas"], ¬∃ e ∈ onePersonAcl, e.AppliesTo plainGridSite fqan "/CN=bob" ∧
      e.allowsExec = true := by
  exact ⟨by decide, by decide, by decide⟩

end Wms.Interface
