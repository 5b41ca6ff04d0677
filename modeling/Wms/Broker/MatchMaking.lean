import Wms.Broker.Storage
import Wms.Manager.BulkMatching

/-! Matchmaking against the information supermarket (`matchmakerISMImpl.cpp`, `RBSimpleISMImpl.cpp`,
`RBMaximizeFilesISMImpl.cpp`, `maxRankSelector.cpp`).

A CE comes into the table of matches with an undefined rank of zero. The broker for jobs without
data drops the CEs whose rank stays undefined, the one for jobs with data keeps them.
-/

set_option autoImplicit false

namespace Wms.Broker

open Lib List
open Manager.BulkMatching (Partitioner)

/-- The updater sets the expiry time of an expired entry to -1. -/
structure IsmEntry (Ad : Type) where
  id : Bytes
  expiryTime : Int
  ad : Ad

structure Ism (Ad : Type) where
  entries : List (IsmEntry Ad)
  nodup : (entries.map IsmEntry.id).Nodup

/-- What the class-ad library evaluates for the job; the rank is an exact number. -/
structure Job (Ad : Type) where
  leftMatchesRight : Ad → Bool
  /-- nothing where `right_rank` throws -/
  rightRank : Ad → Option ℚ
  hostName : Ad → Option String
  previousMatches : Option (List String)
  dataAccessProtocol : List Bytes
  fullListMatchResult : Option Bool

structure MatchInfo (Ad : Type) where
  rank : Bool × ℚ
  ad : Ad

abbrev MatchTable (Ad : Type) := List (Bytes × MatchInfo Ad)

section MatchMaker

variable {Ad : Type} (job : Job Ad) (ism : Ism Ad)

def isVoidIsmEntry (entry : IsmEntry Ad) : Bool := entry.expiryTime ≤ 0

def suitable (entry : IsmEntry Ad) : Option (Bytes × MatchInfo Ad) :=
  if entry.expiryTime ≠ -1 ∧ job.leftMatchesRight entry.ad = true then
    some (entry.id, ⟨(false, 0), entry.ad⟩) else none

def checkRequirement : MatchTable Ad :=
  let suitableCEs := (ism.entries.filter (!isVoidIsmEntry ·)).filterMap (suitable job)
  match job.previousMatches with
  | none => suitableCEs
  | some previous =>
    let more := suitableCEs.filter fun ce => (job.hostName ce.2.ad).getD "" ∉ previous
    if more.isEmpty then suitableCEs else more

/-- The entries whose identifiers start with one of those given; an entry may be met several times.
-/
def checkRequirementOf (ceIds : List Bytes) : MatchTable Ad :=
  ceIds.foldl (fun table ceId =>
    ((ism.entries.filter (ceId <+: ·.id)).filterMap (suitable job)).foldl
      (fun table ce => ce :: table.filter (·.1 ≠ ce.1)) table) []

def setRank (ce : Bytes × MatchInfo Ad) : Bytes × MatchInfo Ad :=
  match job.rightRank ce.2.ad with
  | some rank => (ce.1, { ce.2 with rank := (true, rank) })
  | none => ce

/-- Nothing stands for `RankingError`. -/
def checkRank (table : MatchTable Ad) : Option (MatchTable Ad) :=
  if table ≠ [] ∧ ∀ ce ∈ table, job.rightRank ce.2.ad = none then none else some (table.map (setRank job))

/-- `RBSimpleISMImpl::findSuitableCEs` -/
def findSimple : Option (MatchTable Ad) :=
  (checkRank job (checkRequirement job ism)).map fun table => table.filter (·.2.rank.1)

def isStorageCloseTo (ceId : Bytes) (storage : Bytes × StorageInfo) : Bool :=
  storage.2.ceMounts.any (·.1 <+: ceId)

def countUniqueLogicalFiles (storages : StorageMapping) : Nat :=
  (storages.flatMap (·.2.links)).toFinset.card

def extractComputingElementsId (storages : StorageMapping) : List Bytes :=
  (storages.flatMap (·.2.ceMounts)).map Prod.fst

/-- A round of the loop: the vector of storage elements is partitioned in place. -/
def countFiles (partition : Partitioner (Bytes × StorageInfo))
    (state : StorageMapping × List (Bytes × Nat))
    (ce : Bytes × MatchInfo Ad) : StorageMapping × List (Bytes × Nat) :=
  let parts := partition (isStorageCloseTo ce.1) state.1
  (parts.front ++ parts.back, state.2 ++ [(ce.1, countUniqueLogicalFiles parts.front)])

/-- `RBMaximizeFilesISMImpl::findSuitableCEs` -/
def findMaximizing (partition : Partitioner (Bytes × StorageInfo)) (sm : StorageMapping) :
    Option (MatchTable Ad) := do
  let storages := selectCompatibleStorage sm job.dataAccessProtocol
  let table ← checkRank job (checkRequirementOf job ism (extractComputingElementsId storages))
  let counts := (table.foldl (countFiles partition) (storages, [])).2
  let maxFiles := (counts.map Prod.snd).foldl max 0
  if job.fullListMatchResult = some true then some table
  else some (table.filter fun ce => (ce.1, maxFiles) ∈ counts)

def selectBestCE (table : MatchTable Ad) (unirand : Fin 667) : Option (Bytes × MatchInfo Ad) :=
  match (table.map (·.2.rank.2)).max? with
  | none => none
  | some rank =>
    let cluster := table.filter (·.2.rank.2 = rank)
    if cluster.length = 1 then cluster.head? else cluster[unirand % cluster.length]?

/-! ### The CEs that match -/

variable {job ism} {id : Bytes} {info : MatchInfo Ad} {ceIds : List Bytes} {table : MatchTable Ad}

def Suits (job : Job Ad) (ism : Ism Ad) (id : Bytes) (info : MatchInfo Ad) : Prop :=
  ∃ entry ∈ ism.entries, suitable job entry = some (id, info)

theorem suitable_iff {entry : IsmEntry Ad} : suitable job entry = some (id, info) ↔
    (entry.expiryTime ≠ -1 ∧ job.leftMatchesRight entry.ad = true) ∧ entry.id = id ∧
      info = ⟨(false, 0), entry.ad⟩ := by
  rw [suitable]
  split
  · rename_i yes
    simp [yes, eq_comm]
  · rename_i no
    simp [no]

theorem mem_scan : (id, info) ∈ (ism.entries.filter (!isVoidIsmEntry ·)).filterMap (suitable job) ↔
    ∃ entry ∈ ism.entries, 0 < entry.expiryTime ∧ job.leftMatchesRight entry.ad = true ∧ entry.id = id ∧
      info = ⟨(false, 0), entry.ad⟩ := by
  rw [mem_filterMap]
  constructor
  · rintro ⟨entry, member, suits⟩
    obtain ⟨present, valid⟩ := mem_filter.mp member
    obtain ⟨⟨-, yes⟩, same⟩ := suitable_iff.mp suits
    exact ⟨entry, present, by simpa [isVoidIsmEntry] using valid, yes, same⟩
  · rintro ⟨entry, present, valid, yes, same⟩
    exact ⟨entry, mem_filter.mpr ⟨present, by simpa [isVoidIsmEntry] using valid⟩,
      suitable_iff.mpr ⟨⟨by omega, yes⟩, same⟩⟩

/-- The valid CEs that match the job and are on a host that the test accepts. -/
def Valid (job : Job Ad) (ism : Ism Ad) (accepts : String → Prop) (id : Bytes) : Prop :=
  ∃ entry ∈ ism.entries, 0 < entry.expiryTime ∧ job.leftMatchesRight entry.ad = true ∧
    accepts ((job.hostName entry.ad).getD "") ∧ entry.id = id

theorem mem_accepted (accepts : String → Prop) [DecidablePred accepts] (id : Bytes) :
    id ∈ (((ism.entries.filter (!isVoidIsmEntry ·)).filterMap (suitable job)).filter
      fun ce => accepts ((job.hostName ce.2.ad).getD "")).map Prod.fst ↔ Valid job ism accepts id := by
  simp only [mem_map, Prod.exists, exists_and_right, exists_eq_right, mem_filter, mem_scan, Valid]
  constructor
  · rintro ⟨_, ⟨entry, present, valid, yes, same, rfl⟩, new⟩
    exact ⟨entry, present, valid, yes, of_decide_eq_true new, same⟩
  · rintro ⟨entry, present, valid, yes, new, same⟩
    exact ⟨_, ⟨entry, present, valid, yes, same, rfl⟩, decide_eq_true new⟩

/-- The CEs on hosts that were not matched before, or all valid ones if there are none of these. -/
theorem checkRequirement_exact (job : Job Ad) (ism : Ism Ad) :
    ∀ previous, job.previousMatches = some previous → ∀ id, id ∈ (checkRequirement job ism).map Prod.fst ↔
      Valid job ism (· ∉ previous) id ∨
        (¬ ∃ other, Valid job ism (· ∉ previous) other) ∧ Valid job ism (fun _ => True) id := by
  intro previous given id
  have all := @mem_accepted Ad job ism (fun _ => True) _ id
  have more := @mem_accepted Ad job ism (· ∉ previous) _
  rw [checkRequirement, given]
  dsimp only
  split
  · rename_i empty
    have nobody (other : Bytes) : ¬ Valid job ism (· ∉ previous) other := by
      rw [← more other, List.isEmpty_iff.mp empty]
      exact not_mem_nil
    simpa [nobody] using all
  · rename_i nonempty
    obtain ⟨first, rest, shape⟩ := exists_cons_of_ne_nil (mt List.isEmpty_iff.mpr nonempty)
    have somebody : ∃ other, Valid job ism (· ∉ previous) other :=
      ⟨first.1, (more first.1).mp (by rw [shape]; exact mem_cons_self)⟩
    rw [more id]
    simp [somebody]

/-- Two CEs, one of them on a host that was matched before. -/
theorem checkRequirement_known_host :
    let job : Job Bool := ⟨fun _ => true, fun _ => none, fun known =>
      some (if known then "old" else "new"),
      some ["old"], [], none⟩
    let ism : Ism Bool := ⟨[⟨['a'], 300, true⟩, ⟨['b'], 300, false⟩], by decide⟩
    (checkRequirement job ism).map Prod.fst = [['b']] ∧
      ∀ id, id ∈ (checkRequirement job ism).map Prod.fst ↔ Valid job ism (· ∉ ["old"]) id ∨
        (¬ ∃ other, Valid job ism (· ∉ ["old"]) other) ∧ Valid job ism (fun _ => True) id :=
  ⟨rfl, checkRequirement_exact _ _ _ rfl⟩

/-! ### Maximising the files -/

theorem Suits.unique {x y : Bytes × MatchInfo Ad} (first : Suits job ism x.1 x.2)
    (second : Suits job ism y.1 y.2) (same : x.1 = y.1) : x = y := by
  obtain ⟨e, present, found⟩ := first
  obtain ⟨e', present', found'⟩ := second
  obtain ⟨-, id, info⟩ := suitable_iff.mp found
  obtain ⟨-, id', info'⟩ := suitable_iff.mp found'
  obtain rfl := inj_on_of_nodup_map ism.nodup present present' (by rw [id, id', same])
  exact Prod.ext same (info.trans info'.symm)

/-- Writing an entry again does not change the table, since the store has one
entry for each identifier. -/
theorem mem_foldl_insert {l : List (Bytes × MatchInfo Ad)} (new : ∀ x ∈ l, Suits job ism x.1 x.2)
    (old : ∀ x ∈ table, Suits job ism x.1 x.2) (ce : Bytes × MatchInfo Ad) :
    ce ∈ l.foldl (fun table ce => ce :: table.filter (·.1 ≠ ce.1)) table ↔ ce ∈ table ∨ ce ∈ l := by
  induction l generalizing table with
  | nil => simp
  | cons x rest ih =>
    have suits := new x mem_cons_self
    have inserted (y : Bytes × MatchInfo Ad) : y ∈ x :: table.filter (·.1 ≠ x.1) ↔ y ∈ table ∨ y = x := by
      simp only [mem_cons, mem_filter, decide_eq_true_eq]
      constructor
      · rintro (rfl | ⟨member, -⟩)
        · exact .inr rfl
        · exact .inl member
      · rintro (member | rfl)
        · by_cases same : y.1 = x.1
          · exact .inl ((old y member).unique suits same)
          · exact .inr ⟨member, same⟩
        · exact .inl rfl
    rw [foldl_cons, ih (fun y later => new y (mem_cons_of_mem _ later)), inserted, mem_cons, or_assoc]
    intro y member
    rcases (inserted y).mp member with before | rfl
    · exact old y before
    · exact suits

theorem mem_checkRequirementOf {ce : Bytes × MatchInfo Ad} : ce ∈ checkRequirementOf job ism ceIds ↔
    Suits job ism ce.1 ce.2 ∧ ∃ ceId ∈ ceIds, ceId <+: ce.1 := by
  have met (x : Bytes × MatchInfo Ad) : x ∈ ceIds.flatMap (fun ceId =>
      (ism.entries.filter (ceId <+: ·.id)).filterMap (suitable job)) ↔
        Suits job ism x.1 x.2 ∧ ∃ ceId ∈ ceIds, ceId <+: x.1 := by
    simp only [mem_flatMap, mem_filterMap, mem_filter, decide_eq_true_eq]
    constructor
    · rintro ⟨ceId, listed, entry, ⟨present, starts⟩, found⟩
      exact ⟨⟨entry, present, found⟩, ceId, listed, (suitable_iff.mp found).2.1 ▸ starts⟩
    · rintro ⟨⟨entry, present, found⟩, ceId, listed, starts⟩
      exact ⟨ceId, listed, entry, ⟨present, (suitable_iff.mp found).2.1.symm ▸ starts⟩, found⟩
  rw [checkRequirementOf, ← foldl_flatMap,
    mem_foldl_insert (fun x member => ((met x).mp member).1) (fun x member =>
      absurd member not_mem_nil), met]
  simp

def accessibleFiles (storages : StorageMapping) (id : Bytes) : Nat :=
  countUniqueLogicalFiles (storages.filter (isStorageCloseTo id))

/-- The order in which the partitions leave the vector is of no account. -/
theorem foldl_countFiles (partition : Partitioner (Bytes × StorageInfo)) (storages order : StorageMapping)
    (acc : List (Bytes × Nat)) (perm : order.Perm storages) (table : MatchTable Ad) :
    (table.foldl (countFiles partition) (order, acc)).2 =
      acc ++ table.map fun ce => (ce.1, accessibleFiles storages ce.1) := by
  induction table generalizing order acc with
  | nil => simp
  | cons ce rest ih =>
    rw [foldl_cons, countFiles]
    generalize partition (isStorageCloseTo ce.1) order = parts
    have same : countUniqueLogicalFiles parts.front = accessibleFiles storages ce.1 := by
      rw [accessibleFiles, countUniqueLogicalFiles, countUniqueLogicalFiles]
      congr 1
      ext file
      have close (storage : Bytes × StorageInfo) :
          storage ∈ parts.front ↔ storage ∈ storages ∧ isStorageCloseTo ce.1 storage = true := by
        rw [← perm.mem_iff, ← parts.perm.mem_iff, mem_append]
        constructor
        · exact fun front => ⟨.inl front, parts.meets storage front⟩
        · rintro ⟨front | back, yes⟩
          · exact front
          · exact absurd yes (by simp [parts.fails storage back])
      simp [close]
    rw [ih _ _ (parts.perm.trans perm), same, map_cons, append_assoc]
    rfl

variable {partition : Partitioner (Bytes × StorageInfo)} {sm : StorageMapping}

/-- A CE that comes into the table: it starts with an identifier bound to a
compatible storage element. -/
def Candidate (job : Job Ad) (ism : Ism Ad) (sm : StorageMapping) (id : Bytes)
    (info : MatchInfo Ad) : Prop :=
  Suits job ism id info ∧ ∃ storage ∈ selectCompatibleStorage sm job.dataAccessProtocol,
    ∃ mount ∈ storage.2.ceMounts, mount.1 <+: id

theorem setRank_fst (ce : Bytes × MatchInfo Ad) : (setRank job ce).1 = ce.1 := by
  unfold setRank
  split <;> rfl

theorem mem_close (job : Job Ad) (ism : Ism Ad) (sm : StorageMapping) (ce : Bytes × MatchInfo Ad) :
    ce ∈ checkRequirementOf job ism
    (extractComputingElementsId (selectCompatibleStorage sm job.dataAccessProtocol)) ↔
      Candidate job ism sm ce.1 ce.2 := by
  rw [mem_checkRequirementOf, Candidate]
  simp only [extractComputingElementsId, mem_map, mem_flatMap]
  constructor
  · rintro ⟨suits, -, ⟨mount, ⟨storage, member, bound⟩, rfl⟩, starts⟩
    exact ⟨suits, storage, member, mount, bound, starts⟩
  · rintro ⟨suits, storage, member, mount, bound, starts⟩
    exact ⟨suits, mount.1, ⟨mount, ⟨storage, member, bound⟩, rfl⟩, starts⟩

theorem mem_filter_max {α : Type} (key : α → Bytes) {files : Bytes → Nat} {l : List α} {x : α} :
    x ∈ l.filter (fun x => (key x, ((l.map fun x => (key x, files (key x))).map Prod.snd).foldl max 0) ∈
      l.map fun x => (key x, files (key x))) ↔ x ∈ l ∧ ∀ y ∈ l, files (key y) ≤ files (key x) := by
  have greatest : (0 :: l.map fun x => files (key x)).max? = some
      ((l.map fun x => files (key x)).foldl max 0) :=
    max?_cons'
  have top := max?_eq_some_iff.mp greatest
  rw [map_map, mem_filter, decide_eq_true_eq]
  simp only [Function.comp_def]
  clear greatest
  generalize (l.map fun x => files (key x)).foldl max 0 = most at top
  refine and_congr_right fun member => ?_
  have below (y : α) (other : y ∈ l) : files (key y) ≤ most :=
    top.2 _ (mem_cons_of_mem _ (mem_map_of_mem other))
  simp only [mem_map, Prod.mk.injEq]
  constructor
  · rintro ⟨z, -, same, rfl⟩ y other
    exact same ▸ below y other
  · intro maximal
    refine ⟨x, member, rfl, (below x member).antisymm ?_⟩
    rcases mem_cons.mp top.1 with rfl | reached
    · exact Nat.zero_le _
    · obtain ⟨y, other, rfl⟩ := mem_map.mp reached
      exact maximal y other

/-- The table of the broker for jobs with data, and when ranking fails. -/
theorem findMaximizing_exact (job : Job Ad) (ism : Ism Ad) (partition : Partitioner (Bytes × StorageInfo))
    (sm : StorageMapping) :
    (job.fullListMatchResult ≠ some true → ∀ table, findMaximizing job ism partition sm = some table →
      ∀ id, id ∈ table.map Prod.fst ↔ (∃ info, Candidate job ism sm id info) ∧
        ∀ other info, Candidate job ism sm other info →
          accessibleFiles (selectCompatibleStorage sm job.dataAccessProtocol) other ≤
            accessibleFiles (selectCompatibleStorage sm job.dataAccessProtocol) id) ∧
    (findMaximizing job ism partition sm = none ↔ (∃ id info, Candidate job ism sm id info) ∧
      ∀ id info, Candidate job ism sm id info → job.rightRank info.ad = none) := by
  have close (ce : Bytes × MatchInfo Ad) := mem_close job ism sm ce
  rw [findMaximizing]
  generalize checkRequirementOf job ism _ = found at close
  simp only [checkRank, Option.bind_eq_bind]
  split
  · rename_i failed
    refine ⟨fun _ table done => (by cases done), iff_of_true rfl ⟨?_, fun id info candidate => ?_⟩⟩
    · obtain ⟨ce, member⟩ := exists_mem_of_ne_nil _ failed.1
      exact ⟨ce.1, ce.2, (close ce).mp member⟩
    · exact failed.2 (id, info) ((close (id, info)).mpr candidate)
  · rename_i ranked
    rw [Option.bind_some, foldl_countFiles partition _ _ [] (.refl _), nil_append]
    constructor
    · intro notFull table done id
      rw [if_neg notFull] at done
      cases done
      rw [mem_map]
      constructor
      · rintro ⟨ce, kept, rfl⟩
        obtain ⟨present, maximal⟩ := (mem_filter_max Prod.fst).mp kept
        obtain ⟨old, inside, rfl⟩ := mem_map.mp present
        rw [setRank_fst] at maximal ⊢
        refine ⟨⟨old.2, (close old).mp inside⟩, fun other info candidate => ?_⟩
        have most := maximal _ (mem_map_of_mem ((close (other, info)).mpr candidate))
        rwa [setRank_fst] at most
      · rintro ⟨⟨info, candidate⟩, maximal⟩
        refine ⟨setRank job (id, info), (mem_filter_max Prod.fst).mpr
          ⟨mem_map_of_mem ((close (id, info)).mpr candidate), fun y member => ?_⟩, setRank_fst _⟩
        obtain ⟨ce, inside, rfl⟩ := mem_map.mp member
        rw [setRank_fst, setRank_fst]
        exact maximal ce.1 ce.2 ((close ce).mp inside)
    · refine iff_of_false ?_ fun fails => ranked ⟨?_, fun ce member => fails.2 _ _ ((close ce).mp member)⟩
      · split <;> simp
      · obtain ⟨id, info, candidate⟩ := fails.1
        exact ne_nil_of_mem ((close (id, info)).mpr candidate)

def twoCEs : Ism Bool := ⟨[⟨['a'], 300, false⟩, ⟨['b'], 300, true⟩], by decide⟩

def negativeRank : Job Bool where
  leftMatchesRight _ := true
  rightRank ad := if ad then some (-1) else none
  hostName _ := none
  previousMatches := none
  dataAccessProtocol := [['r', 'f', 'i', 'o']]
  fullListMatchResult := none

/-- Storage `s` has two files and is close to `b`, storage `t` has one of them and is close to `a`.
-/
theorem findMaximizing_most_files :
    let sm : StorageMapping := [(['s'], ⟨[(['r', 'f', 'i', 'o'], 0)], [['f'], ['g']], [(['b'], [])]⟩),
      (['t'], ⟨[(['r', 'f', 'i', 'o'], 0)], [['f']], [(['a'], [])]⟩)]
    ∀ id, id ∈ [['b']] ↔ (∃ info, Candidate negativeRank twoCEs sm id info) ∧
      ∀ other info, Candidate negativeRank twoCEs sm other info →
        accessibleFiles (selectCompatibleStorage sm negativeRank.dataAccessProtocol) other ≤
          accessibleFiles (selectCompatibleStorage sm negativeRank.dataAccessProtocol) id :=
  (findMaximizing_exact negativeRank twoCEs (Partitioner.stable _) _).1 (by decide)
    [(['b'], ⟨(true, -1), true⟩)] rfl

/-! ### The choice of a CE -/

def Ranked (job : Job Ad) (table : MatchTable Ad) : Prop :=
  ∀ ce ∈ table, ce.2.rank = (job.rightRank ce.2.ad).elim (false, 0) (true, ·)

theorem checkRank_ranked {found : MatchTable Ad} (initial : ∀ ce ∈ found, ce.2.rank = (false, 0))
    (done : checkRank job found = some table) : Ranked job table := by
  rw [checkRank] at done
  split at done
  · cases done
  · cases done
    intro ce member
    obtain ⟨old, present, rfl⟩ := mem_map.mp member
    unfold setRank
    cases rank : job.rightRank old.2.ad with
    | none => simp [rank, initial old present]
    | some r => simp [rank]

inductive Implementation where
  | simple
  | maximizeFiles (partition : Partitioner (Bytes × StorageInfo)) (sm : StorageMapping)

def findSuitableCEs (job : Job Ad) (ism : Ism Ad) : Implementation → Option (MatchTable Ad)
  | .simple => findSimple job ism
  | .maximizeFiles partition sm => findMaximizing job ism partition sm

theorem findSuitableCEs_ranked {impl : Implementation} (done : findSuitableCEs job ism impl = some table) :
    Ranked job table ∧ (impl = .simple → ∀ ce ∈ table, (job.rightRank ce.2.ad).isSome = true) := by
  cases impl with
  | simple =>
    obtain ⟨ranked, found, rfl⟩ := Option.map_eq_some_iff.mp done
    have initial : ∀ ce ∈ checkRequirement job ism, ce.2.rank = (false, 0) := by
      intro ce member
      have scanned : ce ∈ (ism.entries.filter (!isVoidIsmEntry ·)).filterMap (suitable job) := by
        unfold checkRequirement at member
        dsimp only at member
        split at member
        · exact member
        · split at member
          · exact member
          · exact (mem_filter.mp member).1
      obtain ⟨entry, -, -, -, -, same⟩ := mem_scan.mp scanned
      rw [same]
    have all := checkRank_ranked initial found
    refine ⟨fun ce member => all ce (mem_filter.mp member).1, fun _ ce member => ?_⟩
    obtain ⟨present, defined⟩ := mem_filter.mp member
    rw [all ce present] at defined
    cases rank : job.rightRank ce.2.ad with
    | none => simp [rank] at defined
    | some r => rfl
  | maximizeFiles partition sm =>
    refine ⟨?_, fun same => (by cases same)⟩
    obtain ⟨ranked, found, rest⟩ := Option.bind_eq_some_iff.mp done
    have initial : ∀ ce ∈ checkRequirementOf job ism (extractComputingElementsId
        (selectCompatibleStorage sm job.dataAccessProtocol)), ce.2.rank = (false, 0) := by
      intro ce member
      obtain ⟨⟨entry, -, suits⟩, -⟩ := mem_checkRequirementOf.mp member
      rw [(suitable_iff.mp suits).2.2]
    have all := checkRank_ranked initial found
    split at rest
    · cases rest
      exact all
    · cases rest
      exact fun ce member => all ce (mem_filter.mp member).1

/-- Whatever is drawn, the chosen CE has a defined rank, the greatest of those in the table. -/
def ChoosesBest (job : Job Ad) (table : MatchTable Ad) : Prop :=
  ∀ unirand, ∃ ce ∈ table, selectBestCE table unirand = some ce ∧
    ∃ rank, job.rightRank ce.2.ad = some rank ∧
    ∀ other ∈ table, ∀ rank', job.rightRank other.2.ad = some rank' → rank' ≤ rank

theorem selectBestCE_spec (nonempty : table ≠ []) : ∃ top ∈ table,
    (∀ other ∈ table, other.2.rank.2 ≤ top.2.rank.2) ∧
    ∃ cluster, cluster = table.filter (·.2.rank.2 = top.2.rank.2) ∧
      ∀ unirand, selectBestCE table unirand = cluster[unirand.val % cluster.length]? := by
  obtain ⟨rank, greatest⟩ := Option.ne_none_iff_exists'.mp
    (mt max?_eq_none_iff.mp (mt map_eq_nil_iff.mp nonempty) : (table.map (·.2.rank.2)).max? ≠ none)
  obtain ⟨reached, below⟩ := max?_eq_some_iff.mp greatest
  obtain ⟨top, present, rfl⟩ := mem_map.mp reached
  refine ⟨top, present, fun other there => below _ (mem_map_of_mem there), _, rfl, fun unirand => ?_⟩
  rw [selectBestCE, greatest]
  dsimp only
  split
  · rename_i one
    rw [one, Nat.mod_one, head?_eq_getElem?]
  · rfl

/-- The CEs that are taken where no rank is positive and one is missing: a rank that is missing
counts as zero, and the generator reaches no further. -/
def drawn (job : Job Ad) (table : MatchTable Ad) : MatchTable Ad :=
  (table.filter fun ce => (job.rightRank ce.2.ad).getD 0 = 0).take 667

theorem Ranked.rank_eq (ranked : Ranked job table) {ce : Bytes × MatchInfo Ad} (member : ce ∈ table) :
    ce.2.rank.2 = (job.rightRank ce.2.ad).getD 0 := by
  rw [ranked ce member]
  cases job.rightRank ce.2.ad <;> rfl

theorem Ranked.drawn_eq (ranked : Ranked job table) :
    drawn job table = (table.filter (·.2.rank.2 = 0)).take 667 :=
  congrArg (take 667) (filter_congr fun ce member => by rw [ranked.rank_eq member])

/-- The best CE is chosen iff none that can be drawn lacks a rank, or a rank
above the initial one is in the table. -/
theorem choosesBest_iff_of_ranked (ranked : Ranked job table) (nonempty : table ≠ []) :
    ChoosesBest job table ↔
    (∀ ce ∈ drawn job table, (job.rightRank ce.2.ad).isSome = true) ∨
      ∃ ce ∈ table, ∃ rank, job.rightRank ce.2.ad = some rank ∧ 0 < rank := by
  obtain ⟨top, present, below, cluster, shape, select⟩ := selectBestCE_spec nonempty
  have reachable (zero : top.2.rank.2 = 0) : drawn job table = cluster.take 667 := by
    rw [ranked.drawn_eq, shape, zero]
  constructor
  · intro best
    by_contra! bad
    obtain ⟨⟨ce, taken, undefined⟩, low⟩ := bad
    replace undefined := Option.not_isSome_iff_eq_none.mp undefined
    have zero : top.2.rank.2 = 0 := by
      have least := below ce (mem_filter.mp (mem_of_mem_take taken)).1
      rw [ranked.rank_eq (mem_filter.mp (mem_of_mem_take taken)).1, undefined] at least
      refine le_antisymm ?_ least
      rw [ranked.rank_eq present]
      cases rank : job.rightRank top.2.ad with
      | none => exact le_refl _
      | some r => exact low top present r rank
    rw [reachable zero] at taken
    obtain ⟨i, inside, rfl⟩ := getElem_of_mem taken
    obtain ⟨early, within⟩ := lt_min_iff.mp (length_take ▸ inside)
    obtain ⟨chosen, -, selected, rank, defined, -⟩ := best ⟨i, early⟩
    rw [select, Nat.mod_eq_of_lt within, getElem?_eq_getElem within] at selected
    cases selected
    rw [getElem_take, defined] at undefined
    cases undefined
  · intro good unirand
    have within : unirand.val % cluster.length < cluster.length :=
      Nat.mod_lt _ (length_pos_iff.mpr (ne_nil_of_mem (shape ▸ mem_filter.mpr ⟨present, by simp⟩)))
    obtain ⟨ce, chosen⟩ : ∃ ce, ce = cluster[unirand.val % cluster.length] := ⟨_, rfl⟩
    obtain ⟨member, same⟩ := mem_filter.mp (shape ▸ chosen ▸ getElem_mem within)
    have rank := (ranked.rank_eq member).symm.trans (of_decide_eq_true same)
    have defined : (job.rightRank ce.2.ad).isSome = true := by
      by_contra undefined
      rw [Option.not_isSome_iff_eq_none.mp undefined] at rank
      rcases good with all | ⟨other, there, r, known, positive⟩
      · refine undefined (all ce ?_)
        have early := Nat.lt_of_le_of_lt (Nat.mod_le unirand.val cluster.length) unirand.isLt
        rw [reachable rank.symm, chosen]
        exact mem_take_iff_getElem.mpr ⟨_, by omega, rfl⟩
      · have high := below other there
        rw [ranked.rank_eq there, known, ← rank] at high
        exact absurd high (not_le.mpr positive)
    obtain ⟨value, known⟩ := Option.isSome_iff_exists.mp defined
    refine ⟨ce, member, (select unirand).trans (chosen ▸ getElem?_eq_getElem within), value, known, ?_⟩
    intro other there r is
    have high := below other there
    rwa [ranked.rank_eq there, is, ← rank, known] at high

/-- With the broker for jobs without data the best CE is always chosen; with the other one, unless a
CE without a rank can be drawn and no rank is above zero. -/
theorem chooses_best_iff {impl : Implementation} (done : findSuitableCEs job ism impl = some table)
    (found : table ≠ []) : ChoosesBest job table ↔ impl = .simple ∨
      (∀ ce ∈ drawn job table, (job.rightRank ce.2.ad).isSome = true) ∨
      ∃ ce ∈ table, ∃ rank, job.rightRank ce.2.ad = some rank ∧ 0 < rank := by
  obtain ⟨ranked, simple⟩ := findSuitableCEs_ranked done
  rw [choosesBest_iff_of_ranked ranked found]
  constructor
  · exact .inr
  · rintro (same | good)
    · exact .inl fun ce member => simple same ce (mem_filter.mp (mem_of_mem_take member)).1
    · exact good

end MatchMaker

def closeStorage : StorageMapping := [(['s'],
    ⟨[(['r', 'f', 'i', 'o'], 0)], [['f']], [(['a'], []), (['b'], [])]⟩)]

theorem chooses_best_simple : ∃ table, findSuitableCEs negativeRank twoCEs .simple = some table ∧
    table ≠ [] ∧ ChoosesBest negativeRank table := by
  have done : findSuitableCEs negativeRank twoCEs .simple = some [(['b'], ⟨(true, -1), true⟩)] := rfl
  exact ⟨_, done, cons_ne_nil _ _, (chooses_best_iff done (cons_ne_nil _ _)).mpr (.inl rfl)⟩

theorem chooses_unranked : ∃ table,
    findSuitableCEs negativeRank twoCEs (.maximizeFiles (Partitioner.stable _) closeStorage) = some table ∧
      ¬ ChoosesBest negativeRank table := by
  have done : findSuitableCEs negativeRank twoCEs (.maximizeFiles (Partitioner.stable _) closeStorage) =
      some [(['b'], ⟨(true, -1), true⟩), (['a'], ⟨(false, 0), false⟩)] := rfl
  refine ⟨_, done, fun best => ?_⟩
  obtain all | ⟨ce, member, rank, known, positive⟩ :=
    (choosesBest_iff_of_ranked (findSuitableCEs_ranked done).1 (cons_ne_nil _ _)).mp best
  · exact absurd (all (['a'], ⟨(false, 0), false⟩) (by simp [drawn, negativeRank])) (by decide)
  · simp only [negativeRank, Option.ite_none_right_eq_some, Option.some.injEq] at known
    exact absurd positive (known.2 ▸ by norm_num)

end Wms.Broker
