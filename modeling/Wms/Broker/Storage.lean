import Mathlib.Data.List.Infix
import Wms.Lib.FileStream
import Wms.Lib.Fold

/-! The storage elements of the replicas of a job (`storage_utils.cpp`).

The host is taken out of the name of a replica by a regular expression, or else by cutting the
name. Adjacent classes of the expression are disjoint, so the longest runs are its only match.
-/

set_option autoImplicit false

namespace Wms.Broker

open Lib List

/-! ### The host of a replica -/

def isSeparator (c : Char) : Bool := FileStream.isSpace c || c == '/'

def isHostChar (c : Char) : Bool := !(FileStream.isSpace c || c == ':' || c == '/')

def skipPort : Bytes → Bytes
  | ':' :: rest => if rest.takeWhile Char.isDigit = [] then ':' :: rest else rest.dropWhile Char.isDigit
  | rest => rest

/-- The second group of `^\s*([^:]*):[\s/]*([^\s:/]+)(:[0-9]+)?/.*`. -/
def storageMatch (sfn : Bytes) : Option Bytes :=
  let rest := ((sfn.dropWhile (· != ':')).drop 1).dropWhile isSeparator
  if ':' ∈ sfn ∧ rest.takeWhile isHostChar ≠ [] ∧
    (skipPort (rest.dropWhile isHostChar)).head? = some '/' then
    some (rest.takeWhile isHostChar)
  else none

/-- The position of `://` is compared before it is assigned, so that it is always 1. Nothing stands
for the exception of `substr`. -/
def resolveStorageName (sfn : Bytes) : Option Bytes :=
  match storageMatch sfn with
  | some name => some name
  | none => if [':', '/', '/'] <:+: sfn then if sfn.length < 4 then none else some (sfn.drop 4)
      else some []

/-! ### The storage mapping -/

structure SeAd where
  accessProtocol : List (Bytes × Int)
  closeComputingElements : List (Bytes × Bytes)

structure StorageInfo where
  protocols : List (Bytes × Int)
  links : List Bytes
  ceMounts : List (Bytes × Bytes)

abbrev FileMapping := List (Bytes × List Bytes)

abbrev StorageMapping := List (Bytes × StorageInfo)

def StorageMapping.info (sm : StorageMapping) (name : Bytes) : StorageInfo :=
  ((sm.find? (·.1 = name)).map Prod.snd).getD ⟨[], [], []⟩

def link (info : StorageInfo) (lfn : Bytes) (ad : SeAd) : StorageInfo where
  protocols := info.protocols ∪ ad.accessProtocol
  links := info.links ++ [lfn]
  ceMounts := info.ceMounts ++ ad.closeComputingElements

def resolveReplica (ism : Bytes → Option SeAd) (lfn : Bytes) (sm : StorageMapping) (sfn : Bytes) :
    Option StorageMapping := do
  let name ← resolveStorageName sfn
  match if name = [] then none else ism name with
  | none => some sm
  | some ad => some ((name, link (sm.info name) lfn ad) :: sm.filter (·.1 ≠ name))

def resolveStoragemappingInfo (ism : Bytes → Option SeAd) (fm : FileMapping) : Option StorageMapping :=
  fm.foldlM (fun sm file => file.2.foldlM (resolveReplica ism file.1) sm) []

def matchesAnyProtocolIn (protocols : List (Bytes × Int)) (p : Bytes) : Bool := protocols.any (·.1 == p)

def isMountDefined (mount : Bytes × Bytes) : Bool := mount.2 != []

def fileProtocol : Bytes := ['f', 'i', 'l', 'e']

def isCompatible (dap : List Bytes) (info : StorageInfo) : Bool :=
  match dap.find? (matchesAnyProtocolIn info.protocols) with
  | none => false
  | some p => p != fileProtocol || info.ceMounts.any isMountDefined

def selectCompatibleStorage (sm : StorageMapping) (dap : List Bytes) : StorageMapping :=
  sm.filter fun storage => isCompatible dap storage.2

/-! ### The names of replicas -/

/-- A name `scheme://host` with a port or without, and with a path or without. -/
structure ReplicaName where
  scheme : Bytes
  host : Bytes
  port : Option Bytes
  path : Option Bytes
  schemeEnds : ':' ∉ scheme
  hostNonempty : host ≠ []
  hostChars : ∀ c ∈ host, isHostChar c = true
  portDigits : ∀ digits ∈ port, digits ≠ [] ∧ ∀ c ∈ digits, c.isDigit = true

namespace ReplicaName

variable (r : ReplicaName)

def portText : Bytes := r.port.elim [] (':' :: ·)

def pathText : Bytes := r.path.elim [] ('/' :: ·)

def text : Bytes := r.scheme ++ ([':', '/', '/'] ++ (r.host ++ (r.portText ++ r.pathText)))

theorem skipPort_text : skipPort (r.portText ++ r.pathText) = r.pathText := by
  rw [portText]
  have stop : ∀ c ∈ r.pathText.head?, c.isDigit = false := by
    cases path : r.path with
    | none | some => simp [pathText, path]
  cases port : r.port with
  | none =>
    cases path : r.path with
    | none | some => simp [pathText, path, skipPort]
  | some digits =>
    obtain ⟨nonempty, inside⟩ := r.portDigits digits port
    simp only [Option.elim_some, cons_append, skipPort, takeWhile_run inside stop, if_neg nonempty]
    exact dropWhile_run inside stop

theorem storageMatch_text : storageMatch r.text = if r.path.isSome then some r.host else none := by
  have scheme : ∀ c ∈ r.scheme, (c != ':') = true := by
    intro c member
    simpa using fun same : c = ':' => r.schemeEnds (same ▸ member)
  have start : ((r.text.dropWhile (· != ':')).drop 1) = ['/', '/'] ++
      (r.host ++ (r.portText ++ r.pathText)) := by
    rw [text, dropWhile_run scheme (by simp)]
    rfl
  have stop : ∀ c ∈ (r.portText ++ r.pathText).head?, isHostChar c = false := by
    cases port : r.port with
    | none => cases path : r.path <;> simp [portText, pathText, port, path, isHostChar]
    | some digits => simp [portText, port, isHostChar]
  have first : ∀ c ∈ (r.host ++ (r.portText ++ r.pathText)).head?, isSeparator c = false := by
    obtain ⟨c, rest, shape⟩ := exists_cons_of_ne_nil r.hostNonempty
    have good := r.hostChars c (by simp [shape])
    simp only [isHostChar, Bool.not_eq_true', Bool.or_eq_false_iff] at good
    simp [shape, isSeparator, good.1, -beq_eq_false_iff_ne, good.2]
  have slashes : ∀ c ∈ ['/', '/'], isSeparator c = true := by simp [isSeparator]
  have colon : ':' ∈ r.text := by simp [text]
  rw [storageMatch, start, dropWhile_run slashes first, takeWhile_run r.hostChars stop,
    dropWhile_run r.hostChars stop,
    skipPort_text]
  cases path : r.path with
  | none => simp [pathText, path]
  | some text => simp [pathText, path, colon, r.hostNonempty]

/-- Where there is no path, the first four characters are cut off. -/
theorem resolveStorageName_text :
    resolveStorageName r.text = if r.path.isSome then some r.host else some (r.text.drop 4) := by
  have inside : [':', '/', '/'] <:+: r.text :=
    ⟨r.scheme, r.host ++ (r.portText ++ r.pathText), by simp [text]⟩
  have long : ¬ r.text.length < 4 := by
    have positive := length_pos_iff.mpr r.hostNonempty
    simp only [text, length_append, length_cons, length_nil]
    omega
  rw [resolveStorageName, storageMatch_text]
  cases r.path with
  | none => simp [inside, long]
  | some path => rfl

theorem drop_eq_host_iff (nothing : r.path = none) : r.text.drop 4 = r.host ↔ r.scheme.length = 1 ∧
    r.port = .none := by
  have shape : r.text = r.scheme ++ ([':', '/', '/'] ++ (r.host ++ r.portText)) := by
    simp [text, pathText, nothing]
  constructor
  · intro same
    have sizes := congrArg List.length same
    have positive := length_pos_iff.mpr r.hostNonempty
    rw [shape] at sizes
    simp only [length_drop, length_append, length_cons, length_nil] at sizes
    cases port : r.port with
    | none =>
      simp only [portText, port, Option.elim_none, length_nil] at sizes
      exact ⟨by omega, rfl⟩
    | some digits =>
      have digit := length_pos_iff.mpr (r.portDigits digits port).1
      simp only [portText, port, Option.elim_some, length_cons] at sizes
      omega
  · rintro ⟨one, port⟩
    obtain ⟨c, single⟩ := length_eq_one_iff.mp one
    simp [shape, portText, port, single]

end ReplicaName

/-! ### The links -/

section Links

variable {ism : Bytes → Option SeAd} {sm sm' : StorageMapping} {name lfn : Bytes}

def Linked (name lfn : Bytes) (sm : StorageMapping) : Prop := lfn ∈ (sm.info name).links

theorem info_cons_filter (name other : Bytes) (info : StorageInfo) (sm : StorageMapping) :
    StorageMapping.info ((name, info) :: sm.filter (·.1 ≠ name)) other = if name = other then info
      else sm.info other := by
  by_cases same : name = other
  · simp [StorageMapping.info, same]
  · have kept (e : Bytes × StorageInfo) : (e.1 ≠ name ∧ e.1 = other) ↔ e.1 = other :=
      and_iff_right_of_imp fun named => named ▸ Ne.symm same
    simp only [StorageMapping.info, find?_cons, decide_eq_false same, if_neg same, find?_filter,
      decide_eq_true_eq, kept]

theorem resolveReplica_keeps {file sfn : Bytes} (linked : Linked name lfn sm)
    (done : resolveReplica ism file sm sfn = some sm') : Linked name lfn sm' := by
  obtain ⟨found, -, done⟩ := Option.bind_eq_some_iff.mp done
  split at done
  · cases done
    exact linked
  · cases done
    rw [Linked, info_cons_filter]
    split
    · rename_i same
      exact mem_append_left _ (same ▸ linked)
    · exact linked

theorem resolveReplica_links {sfn : Bytes} {ad : SeAd} (resolved : resolveStorageName sfn = some name)
    (nonempty : name ≠ []) (stored : ism name = some ad)
      (done : resolveReplica ism lfn sm sfn = some sm') :
    Linked name lfn sm' := by
  rw [resolveReplica, resolved] at done
  simp only [Option.bind_eq_bind, Option.bind_some, if_neg nonempty, stored] at done
  cases done
  rw [Linked, info_cons_filter, if_pos rfl]
  exact mem_append_right _ (mem_singleton_self _)

variable {fm : FileMapping} {sfns : List Bytes} {sfn : Bytes} {ad : SeAd}

theorem exists_resolveStoragemappingInfo
    (resolved : ∀ file ∈ fm, ∀ sfn ∈ file.2, resolveStorageName sfn ≠ none) :
    ∃ sm, resolveStoragemappingInfo ism fm = some sm := by
  refine exists_foldlM (fun file member sm => exists_foldlM (fun sfn replica sm => ?_) sm) []
  obtain ⟨name, found⟩ := Option.ne_none_iff_exists'.mp (resolved file member sfn replica)
  rw [resolveReplica, found]
  simp only [Option.bind_eq_bind, Option.bind_some]
  split
  · exact ⟨sm, rfl⟩
  · exact ⟨_, rfl⟩

theorem resolveStoragemappingInfo_links (resolved : resolveStorageName sfn = some name)
    (nonempty : name ≠ [])
    (stored : ism name = some ad) (file : (lfn, sfns) ∈ fm) (replica : sfn ∈ sfns)
    (done : resolveStoragemappingInfo ism fm = some sm) : Linked name lfn sm := by
  refine foldlM_establishes ?_ (.inr ⟨(lfn, sfns), file, fun s t run => ?_⟩) done
  · intro s file t linked run
    exact foldlM_establishes (fun _ _ _ => resolveReplica_keeps) (.inl linked) run
  · exact foldlM_establishes (f := resolveReplica ism lfn) (fun _ _ _ => resolveReplica_keeps)
      (.inr ⟨sfn, replica, fun _ _ => resolveReplica_links resolved nonempty stored⟩) run

/-- The name of the replica is resolved to its host, and its file is linked to the storage element
of that host if there is one. -/
structure ReplicaName.Resolves (r : ReplicaName) : Prop where
  name : resolveStorageName r.text = some r.host
  links : ∀ (ism : Bytes → Option SeAd) (fm : FileMapping) (lfn : Bytes) (sfns : List Bytes),
    (∀ file ∈ fm, ∀ sfn ∈ file.2, resolveStorageName sfn ≠ none) → (ism r.host).isSome = true →
    (lfn, sfns) ∈ fm → r.text ∈ sfns → ∃ sm, resolveStoragemappingInfo ism fm = some sm ∧
      Linked r.host lfn sm

theorem ReplicaName.resolves_of_name (r : ReplicaName) (name : resolveStorageName r.text = some r.host) :
    r.Resolves where
  name := name
  links ism fm lfn sfns resolved stored file replica := by
    obtain ⟨ad, found⟩ := Option.isSome_iff_exists.mp stored
    obtain ⟨sm, done⟩ : ∃ sm, resolveStoragemappingInfo ism fm = some sm :=
      exists_resolveStoragemappingInfo resolved
    exact ⟨sm, done, resolveStoragemappingInfo_links name r.hostNonempty found file replica done⟩

/-- The host is found iff there is a path, or the scheme has one character and there is no port. -/
theorem replica_resolves_iff (r : ReplicaName) :
    r.Resolves ↔ r.path.isSome = true ∨ (r.scheme.length = 1 ∧ r.port = none) := by
  have named : r.Resolves ↔ resolveStorageName r.text = some r.host :=
    ⟨ReplicaName.Resolves.name, r.resolves_of_name⟩
  rw [named, r.resolveStorageName_text]
  cases path : r.path with
  | none => simpa using r.drop_eq_host_iff path
  | some text => simp

def bareReplica : ReplicaName where
  scheme := ['s', 'r', 'm']
  host := ['s', 'e']
  port := none
  path := none
  schemeEnds := by decide
  hostNonempty := by decide
  hostChars := all_eq_true.mp (by decide)
  portDigits := by simp

theorem bare_replica_unresolved :
    resolveStorageName bareReplica.text = some (['/', '/'] ++ bareReplica.host) := by decide

end Links

/-! ### The protocols -/

section Protocols

variable {sm : StorageMapping} {dap : List Bytes}

/-- The storage element supports the protocol, and a mount point is defined if it is `file`. -/
def Usable (info : StorageInfo) (p : Bytes) : Prop :=
  matchesAnyProtocolIn info.protocols p = true ∧
    (p = fileProtocol → info.ceMounts.any isMountDefined = true)

instance (info : StorageInfo) (p : Bytes) : Decidable (Usable info p) :=
  inferInstanceAs (Decidable (_ ∧ _))

/-- The `file` protocol can stand before another one that is usable. -/
def Shadowed (dap : List Bytes) (info : StorageInfo) : Prop :=
  info.ceMounts.any isMountDefined = false ∧ fileProtocol ∈ dap ∧
    matchesAnyProtocolIn info.protocols fileProtocol = true ∧
    ∃ p ∈ dap, p ≠ fileProtocol ∧ matchesAnyProtocolIn info.protocols p = true

theorem isCompatible_eq {info : StorageInfo} (clear : ¬ Shadowed dap info) :
    isCompatible dap info = decide (∃ p ∈ dap, Usable info p) := by
  rw [isCompatible]
  cases found : dap.find? (matchesAnyProtocolIn info.protocols) with
  | none =>
    have unsupported := find?_eq_none.mp found
    refine (decide_eq_false ?_).symm
    rintro ⟨p, listed, usable⟩
    exact unsupported p listed usable.1
  | some p =>
    have listed := mem_of_find?_eq_some found
    have supported := find?_some found
    by_cases mount : info.ceMounts.any isMountDefined = true
    · have usable : ∃ p ∈ dap, Usable info p := ⟨p, listed, supported, fun _ => mount⟩
      simp [mount, usable]
    · by_cases file : p = fileProtocol
      · subst file
        -- Every supported protocol is `file`, or it would be shadowed.
        have only : ¬ ∃ p ∈ dap, Usable info p := by
          rintro ⟨q, member, supports, needs⟩
          refine clear ⟨by simpa using mount, listed, supported, q, member,
            fun same => mount (needs same), supports⟩
        simp [mount, only]
      · have usable : ∃ p ∈ dap, Usable info p := ⟨p, listed, supported, fun same => absurd same file⟩
        simp [file, usable]

/-- In every order of the protocols the usable storage elements are selected, iff `file` cannot
shadow another protocol. -/
theorem compatible_storage_iff (sm : StorageMapping) (dap : List Bytes) : (∀ order, order.Perm dap →
      selectCompatibleStorage sm order = sm.filter fun storage => ∃ p ∈ dap, Usable storage.2 p) ↔
    ∀ storage ∈ sm, ¬ Shadowed dap storage.2 := by
  constructor
  · rintro all storage member ⟨mount, listed, file, p, other, different, supported⟩
    have usable : storage ∈ sm.filter fun storage => ∃ p ∈ dap, Usable storage.2 p :=
      mem_filter.mpr ⟨member, decide_eq_true ⟨p, other, supported, fun same => absurd same different⟩⟩
    rw [← all (fileProtocol :: dap.erase fileProtocol) (perm_cons_erase listed).symm,
      selectCompatibleStorage,
      mem_filter] at usable
    simp [isCompatible, file, mount] at usable
  · intro clear order perm
    refine filter_congr fun storage member => ?_
    have same (p : Bytes) : p ∈ order ↔ p ∈ dap := perm.mem_iff
    have unshadowed : ¬ Shadowed order storage.2 := by simpa [Shadowed, same] using clear storage member
    rw [isCompatible_eq unshadowed]
    simp [same]

def twoProtocols : StorageMapping := [(['s', 'e'],
    ⟨[(fileProtocol, 0), (['r', 'f', 'i', 'o'], 0)], [], []⟩)]

theorem order_of_protocols_counts : selectCompatibleStorage twoProtocols
    [fileProtocol, ['r', 'f', 'i', 'o']] = [] ∧
    selectCompatibleStorage twoProtocols [['r', 'f', 'i', 'o'], fileProtocol] = twoProtocols := by
  exact ⟨rfl, rfl⟩

end Protocols

end Wms.Broker
