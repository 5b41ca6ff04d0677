import Mathlib.Tactic.Linarith
import Mathlib.Tactic.Positivity
import Mathlib.Tactic.Ring
import Wms.Lib.Fold

/-! Matchmaking for all nodes of a collection at once (`bulkmm_utils.cpp`).

Nodes with the same values of the attributes that matter form a cluster, which is matched once.
Each node of a cluster then draws its destination among the matches.
-/

set_option autoImplicit false

namespace Wms.Manager.BulkMatching

open Lib List

/-- `match_type`; the class-ad with the broker info is left out. -/
structure Match (R : Type) where
  ceId : String
  rank : R
  deriving DecidableEq

/-! ### The choice of a destination -/

/-- What `std::partition` may do with a range: the elements that meet the test come first. -/
structure Partition {α : Type} (test : α → Bool) (l : List α) where
  front : List α
  back : List α
  perm : (front ++ back).Perm l
  meets : ∀ x ∈ front, test x = true
  fails : ∀ x ∈ back, test x = false

abbrev Partitioner (α : Type) := (test : α → Bool) → (l : List α) → Partition test l

def Partitioner.stable (α : Type) : Partitioner α := fun test l =>
  ⟨l.filter test, l.filter (!test ·), filter_append_perm test l, by simp, by simp⟩

section Choice

section Ranks

variable {R : Type} [LT R] [DecidableLT R] [BEq R]

def maxElement (max : Match R) : List (Match R) → Match R
  | [] => max
  -- of equal ranks the first one stays
  | m :: rest => if max.rank < m.rank then maxElement m rest else maxElement max rest

def maxPartition (partition : Partitioner (Match R)) : List (Match R) → List (Match R) × Nat
  | [] => ([], 0)
  | first :: rest =>
    let parts := partition (fun m => m.rank == (maxElement first rest).rank) (first :: rest)
    (parts.front ++ parts.back, parts.front.length)

variable {D : Type} [LT D] [DecidableLT D] [Add D] [Mul D]

def partialSum (sum : D) : List D → List D
  | [] => []
  | x :: rest => (sum + x) :: partialSum (sum + x) rest

def lowerBound (distribution : List D) (p : D) : Nat := distribution.findIdx fun x => !decide (x < p)

/-- `SelectDestination`: the distance of the iterator from the first match; `unirand01` is the value
of the random generator. -/
def selectDestination (distribution : List D) (unirand01 : D) : Option Nat :=
  match distribution.getLast? with
  | none => none
  | some back => some (lowerBound distribution (unirand01 * back))

def selectMax [Zero D] [One D] (partition : Partitioner (Match R)) (found : List (Match R))
    (unirand01 : D) : Option Nat :=
  selectDestination (partialSum 0 (List.replicate (maxPartition partition found).2 1)) unirand01

omit [LT D] [DecidableLT D] [Mul D] in
theorem length_partialSum (sum : D) (l : List D) : (partialSum sum l).length = l.length := by
  induction l generalizing sum with
  | nil => rfl
  | cons x rest ih => simp [partialSum, ih]

omit [Add D] in
theorem selectDestination_inside {distribution : List D} {u : D} (below : ∀ x ∈ distribution, ¬x < u * x)
    (nonempty : distribution ≠ []) : ∃ i < distribution.length,
      selectDestination distribution u = some i := by
  have last := getLast_mem nonempty
  refine ⟨lowerBound distribution (u * distribution.getLast nonempty),
    findIdx_lt_length_of_exists ⟨distribution.getLast nonempty, last, ?_⟩, ?_⟩
  · simpa using below _ last
  · rw [selectDestination, getLast?_eq_some_getLast nonempty]

end Ranks

variable {R : Type} [LinearOrder R]

theorem maxElement_spec (max : Match R) (l : List (Match R)) :
    maxElement max l ∈ max :: l ∧ ∀ m ∈ max :: l, m.rank ≤ (maxElement max l).rank := by
  induction l generalizing max with
  | nil => simp [maxElement]
  | cons m rest ih =>
    rw [maxElement]
    split
    · rename_i less
      obtain ⟨member, upper⟩ := ih m
      refine ⟨mem_cons_of_mem _ member, forall_mem_cons.mpr ⟨?_, upper⟩⟩
      exact less.le.trans (upper m mem_cons_self)
    · rename_i notLess
      obtain ⟨member, upper⟩ := ih max
      have first := upper max mem_cons_self
      refine ⟨?_, forall_mem_cons.mpr ⟨first, forall_mem_cons.mpr
        ⟨(not_lt.mp notLess).trans first, fun x later => upper x (mem_cons_of_mem _ later)⟩⟩⟩
      rcases mem_cons.mp member with same | later
      · rw [same]
        exact mem_cons_self
      · exact mem_cons_of_mem _ (mem_cons_of_mem _ later)

theorem partialSum_replicate (n : Nat) (sum : ℚ) :
    partialSum sum (List.replicate n 1) = (List.range n).map fun i : Nat => sum + (i + 1) := by
  induction n generalizing sum with
  | zero => rfl
  | succ n ih =>
    rw [replicate_succ, partialSum, ih, range_succ_eq_map, map_cons, map_map]
    congr 1
    · simp
    · refine map_congr_left fun i _ => ?_
      simp only [Function.comp_apply, Nat.cast_succ]
      ring

section Found

variable {partition : Partitioner (Match R)} {found : List (Match R)}

theorem selectMax_inside {u : ℚ} (high : u < 1) (nonempty : (maxPartition partition found).2 ≠ 0) :
    ∃ i < (maxPartition partition found).2, selectMax partition found u = some i := by
  have shape := partialSum_replicate (maxPartition partition found).2 0
  have below : ∀ x ∈ partialSum 0 (List.replicate (maxPartition partition found).2 1), ¬x < u * x := by
    intro x member
    rw [shape] at member
    obtain ⟨i, -, rfl⟩ := mem_map.mp member
    exact not_lt.mpr (mul_le_of_le_one_left (by positivity) high.le)
  obtain ⟨i, inside, chosen⟩ := selectDestination_inside below (by rw [shape]; simpa using nonempty)
  rw [shape, length_map, length_range] at inside
  exact ⟨i, inside, chosen⟩

theorem selectMax_iff {u : ℚ} {i : Nat} (inside : i < (maxPartition partition found).2) :
    selectMax partition found u = some i ↔ u * (maxPartition partition found).2 ≤ i + 1 ∧
      ∀ j : Nat, j < i → (j + 1 : ℚ) < u * (maxPartition partition found).2 := by
  obtain ⟨n, same⟩ := Nat.exists_eq_add_one.mpr (Nat.zero_lt_of_lt inside)
  rw [selectMax, partialSum_replicate, same, selectDestination, getLast?_map, getLast?_range]
  simp only [Nat.add_one_ne_zero, if_false, Nat.add_sub_cancel, Option.map_some, zero_add,
    Option.some.injEq, lowerBound]
  rw [findIdx_eq (by rw [length_map, length_range, ← same]; exact inside)]
  simp

theorem maxPartition_spec (partition : Partitioner (Match R)) (nonempty : found ≠ []) :
    ∃ front back, maxPartition partition found = (front ++ back, front.length) ∧ front ≠ [] ∧
      ∀ m, m ∈ front ↔ m ∈ found ∧ ∀ x ∈ found, x.rank ≤ m.rank := by
  obtain ⟨first, rest, rfl⟩ := exists_cons_of_ne_nil nonempty
  obtain ⟨member, upper⟩ := maxElement_spec first rest
  let parts := partition (fun m => m.rank == (maxElement first rest).rank) (first :: rest)
  have largest (m : Match R) : m ∈ parts.front ↔ m ∈ first :: rest ∧ ∀ x ∈ first :: rest,
      x.rank ≤ m.rank := by
    constructor
    · intro inside
      have top : m.rank = (maxElement first rest).rank := beq_iff_eq.mp (parts.meets m inside)
      exact ⟨parts.perm.mem_iff.mp (mem_append_left _ inside), fun x present => top ▸ upper x present⟩
    · rintro ⟨present, maximal⟩
      have top : m.rank = (maxElement first rest).rank := (upper m present).antisymm (maximal _ member)
      rcases mem_append.mp (parts.perm.mem_iff.mpr present) with inside | behind
      · exact inside
      · exact absurd top (beq_eq_false_iff_ne.mp (parts.fails m behind))
  exact ⟨parts.front, parts.back, rfl, ne_nil_of_mem ((largest _).mpr ⟨member, upper⟩), largest⟩

theorem maxPartition_getElem {front back : List (Match R)} {i : Nat}
    (parts : maxPartition partition found = (front ++ back, front.length)) (inside : i < front.length) :
    (maxPartition partition found).1[i]? = front[i]? := by
  rw [parts]
  exact getElem?_append_left inside

theorem selectMax_chosen {u : ℚ} (partition : Partitioner (Match R)) (filled : found ≠ []) (high : u < 1) :
    ∃ i m, selectMax partition found u = .some i ∧ i < (maxPartition partition found).2 ∧
      (maxPartition partition found).1[i]? = .some m ∧ m ∈ found ∧ ∀ x ∈ found, x.rank ≤ m.rank := by
  obtain ⟨front, back, parts, nonempty, largest⟩ := maxPartition_spec partition filled
  have size : (maxPartition partition found).2 = front.length := by rw [parts]
  obtain ⟨i, within, chosen⟩ := selectMax_inside high (size ▸ Nat.ne_of_gt (length_pos_iff.mpr nonempty))
  have inside : i < front.length := size ▸ within
  exact ⟨i, front[i], chosen, within, by
    rw [maxPartition_getElem parts inside, getElem?_eq_getElem inside],
    (largest _).mp (getElem_mem inside)⟩

/-- The destination lies in the part of the maximal matches, each of which some
random value chooses. -/
theorem selectMax_maximal (partition : Partitioner (Match R)) (filled : found ≠ []) :
    (∀ u : ℚ, 0 ≤ u → u < 1 → ∃ i m, selectMax partition found u = .some i ∧
      i < (maxPartition partition found).2 ∧
      (maxPartition partition found).1[i]? = .some m ∧ m ∈ found ∧ ∀ x ∈ found, x.rank ≤ m.rank) ∧
    ∀ m ∈ found, (∀ x ∈ found, x.rank ≤ m.rank) → ∃ (u : ℚ) (i : Nat), 0 ≤ u ∧ u < 1 ∧
      selectMax partition found u = .some i ∧ (maxPartition partition found).1[i]? = .some m := by
  constructor
  · intro u _ high
    exact selectMax_chosen partition filled high
  · intro m present maximal
    obtain ⟨front, back, parts, nonempty, largest⟩ := maxPartition_spec partition filled
    have size : (maxPartition partition found).2 = front.length := by rw [parts]
    have positive : 0 < front.length := length_pos_iff.mpr nonempty
    obtain ⟨i, inside, same⟩ := getElem_of_mem ((largest m).mpr ⟨present, maximal⟩)
    have count : (0 : ℚ) < front.length := Nat.cast_pos.mpr positive
    have drawn : ((i : ℚ) + 1 / 2) / front.length * front.length = i + 1 / 2 := div_mul_cancel₀ _ count.ne'
    have below : (i : ℚ) + 1 ≤ front.length := by exact_mod_cast inside
    -- The value in the middle of those that lead to the position of the match.
    refine ⟨(i + 1 / 2) / front.length, i, by positivity, ?_, (selectMax_iff (size ▸ inside)).mpr ?_, ?_⟩
    · rw [div_lt_one count]
      linarith
    · rw [size, drawn]
      refine ⟨by linarith, fun j earlier => ?_⟩
      have le : (j : ℚ) + 1 ≤ i := by exact_mod_cast earlier
      linarith
    · rw [maxPartition_getElem parts inside, getElem?_eq_getElem inside, same]

/-- Two matches, the second of which is better. -/
theorem selectMax_maximal_two : ∃ i m,
    selectMax (Partitioner.stable _) [⟨"a", (1 : Int)⟩, ⟨"b", 2⟩] (0 : ℚ) = some i ∧
    i < (maxPartition (Partitioner.stable _) [⟨"a", (1 : Int)⟩, ⟨"b", 2⟩]).2 ∧
    (maxPartition (Partitioner.stable _) [⟨"a", (1 : Int)⟩, ⟨"b", 2⟩]).1[i]? = some m ∧
    m ∈ [(⟨"a", (1 : Int)⟩ : Match Int), ⟨"b", 2⟩] ∧
      ∀ x ∈ [(⟨"a", (1 : Int)⟩ : Match Int), ⟨"b", 2⟩], x.rank ≤ m.rank :=
  (selectMax_maximal (Partitioner.stable _) (show ([⟨"a", 1⟩, ⟨"b", 2⟩] : List (Match Int)) ≠
    [] by simp)).1 0
    (by norm_num) (by norm_num)

end Found

end Choice

/-! ### Clusters -/

/-- A collection: the attributes of its node `nodes` and of the whole, and its nodes by name. -/
structure DagAd (Ad : Type) where
  ad : Ad
  nodesAd : Ad
  nodes : List (String × Ad)
  nodup : (nodes.map Prod.fst).Nodup

/-- What the comparisons and the arithmetic of `double` are known for. A rank is equal to itself
unless it is not a number, and such a value is neither less than nor equal to any. -/
class Double (R : Type) extends LT R, BEq R, Add R, Sub R, Mul R, Div R, Zero R, One R, NatCast R where
  decidableLT : DecidableLT R
  number_of_lt {a b : R} : a < b → (a == a) = true ∧ (b == b) = true
  number_of_beq {a b : R} : (a == b) = true → (b == b) = true
  nonneg_zero : ¬(0 : R) < 0
  nonneg_one : ¬(1 : R) < 0
  nonneg_add {a b : R} : ¬a < 0 → ¬b < 0 → ¬a + b < 0
  draw {u x : R} : ¬u < 0 → u < 1 → ¬x < 0 → ¬x < u * x

instance decidableLess {R : Type} [Double R] : DecidableLT R := Double.decidableLT

structure Surroundings (Ad Expr R : Type) [Double R] where
  getSignificantAttributes : Ad → Option (List String)
  lookup : Ad → String → Option Expr
  unparse : Expr → String
  unparse_ne : ∀ expr, unparse expr ≠ ""
  /-- `Match`: a match error leaves the matches read before it, another error ends the pass. -/
  resolve : Ad → Except String (List (Match R))
  fuzzyRank : Ad → Bool
  /-- 1 if the attribute cannot be read. -/
  fuzzyFactor : Ad → R
  atan : R → R
  atan_bound : ∀ x, ¬atan x + atan 1 * (1 + 1) < 0
  partition : Partitioner (Match R)
  unirand01 : String → R
  unirand01_bound : ∀ name, ¬unirand01 name < 0 ∧ unirand01 name < 1
  adapt : String → Match R → Except String Unit

abbrev ClusterKey := List (String × String)

structure Cluster (Ad : Type) where
  key : ClusterKey
  jdl : Ad
  names : List String

def keyLess : ClusterKey → ClusterKey → Bool
  | _, [] => false
  | [], _ :: _ => true
  | (a, v) :: k, (b, w) :: l => a < b || (a = b && (v < w || (v = w && keyLess k l)))

structure Outputs (R : Type) where
  jobs : List (String × Match R)
  pending : Finset String

section Bulk

variable {Ad Expr R : Type} [Double R] (env : Surroundings Ad Expr R)

def lookupSignificantAttributes (dag : DagAd Ad) (jdl : Ad) : List String :=
  ((env.getSignificantAttributes jdl).or ((env.getSignificantAttributes dag.nodesAd).or
    (env.getSignificantAttributes dag.ad))).getD []

def lookup (dag : DagAd Ad) (jdl : Ad) (name : String) : Option Expr :=
  (env.lookup jdl name).or ((env.lookup dag.nodesAd name).or (env.lookup dag.ad name))

def significant (dag : DagAd Ad) (jdl : Ad) : ClusterKey :=
  (lookupSignificantAttributes env dag jdl).filterMap fun name =>
    (lookup env dag jdl name).map fun expr => (name, env.unparse expr)

def makeKey (dag : DagAd Ad) (node : String × Ad) : ClusterKey :=
  if significant env dag node.2 = [] then [(node.1, "")] else significant env dag node.2

def insertCluster (c : Cluster Ad) : List (Cluster Ad) → List (Cluster Ad)
  | [] => [c]
  | d :: rest => if keyLess c.key d.key then c :: d :: rest else d :: insertCluster c rest

/-- `Clusterize`: the node goes to the cluster with its key; the first one gives the description. -/
def clusterize (dag : DagAd Ad) (clusters : List (Cluster Ad)) (node : String × Ad) : List (Cluster Ad) :=
  let key := makeKey env dag node
  if key ∈ clusters.map Cluster.key then
    clusters.map fun c => if c.key = key then { c with names := c.names ++ [node.1] } else c
  else insertCluster ⟨key, node.2, [node.1]⟩ clusters

def clustersOf (dag : DagAd Ad) : List (Cluster Ad) := dag.nodes.foldl (clusterize env dag) []

/-! The keys. -/

variable {env} {dag : DagAd Ad} {x y : String × Ad}

/-- A node without significant attributes has a key that no other node can have. -/
theorem makeKey_eq_iff : makeKey env dag x = makeKey env dag y ↔
    (significant env dag x.2 = [] ∧ significant env dag y.2 = [] ∧ x.1 = y.1) ∨
      (significant env dag x.2 ≠ [] ∧ significant env dag x.2 = significant env dag y.2) := by
  -- No value is written as the empty text, so the key made of a node's name is its own.
  have written (node : String × Ad) (name : String) : significant env dag node.2 ≠ [(name, "")] := by
    intro same
    have member : (name, "") ∈ significant env dag node.2 := same ▸ mem_singleton_self _
    obtain ⟨_, -, found⟩ := mem_filterMap.mp member
    obtain ⟨expr, -, pair⟩ := Option.map_eq_some_iff.mp found
    exact env.unparse_ne expr (Prod.ext_iff.mp pair).2
  by_cases first : significant env dag x.2 = []
  · by_cases second : significant env dag y.2 = []
    · simp [makeKey, first, second]
    · simp only [makeKey, first, second, if_true, if_false, true_and, false_and, or_false, ne_eq,
        not_true, iff_false]
      exact fun same => written y x.1 same.symm
  · by_cases second : significant env dag y.2 = []
    · simp only [makeKey, first, second, if_true, if_false, false_and, false_or, ne_eq,
        not_false_iff, true_and, iff_false]
      exact written x y.1
    · simp [makeKey, first, second]

structure Clustered (env : Surroundings Ad Expr R) (dag : DagAd Ad) (done : List (String × Ad))
    (clusters : List (Cluster Ad)) : Prop where
  keys : (clusters.map Cluster.key).Nodup
  members : ∀ c ∈ clusters, ∀ name ∈ c.names, ∃ node ∈ done, node.1 = name ∧ makeKey env dag node = c.key
  complete : (clusters.flatMap Cluster.names).Perm (done.map Prod.fst)
  inhabited : ∀ c ∈ clusters, c.names ≠ []

theorem insertCluster_perm (c : Cluster Ad) (clusters : List (Cluster Ad)) :
    (insertCluster c clusters).Perm (c :: clusters) := by
  induction clusters with
  | nil => exact .refl _
  | cons d rest ih =>
    rw [insertCluster]
    split
    · exact .refl _
    · exact (ih.cons d).trans (.swap c d rest)

variable {clusters : List (Cluster Ad)}

theorem join_perm {key : ClusterKey} (name : String) (nodup : (clusters.map Cluster.key).Nodup)
    (present : key ∈ clusters.map Cluster.key) :
    ((clusters.map fun c => if c.key = key then { c with names := c.names ++ [name] } else c).flatMap
      Cluster.names).Perm (name :: clusters.flatMap Cluster.names) := by
  induction clusters with
  | nil => cases present
  | cons c rest ih =>
    obtain ⟨fresh, nodup⟩ := nodup_cons.mp nodup
    rw [map_cons, flatMap_cons, flatMap_cons]
    by_cases here : c.key = key
    · have others : (rest.map fun c => if c.key = key then { c with names := c.names ++ [name] }
          else c) = rest := by
        refine (map_congr_left fun d member => if_neg fun same => fresh ?_).trans (map_id rest)
        exact here ▸ same ▸ mem_map_of_mem member
      rw [if_pos here, others]
      exact (perm_append_comm.append_right _)
    · rw [if_neg here]
      have later : key ∈ rest.map Cluster.key :=
        (mem_cons.mp present).resolve_left fun same => here same.symm
      exact ((ih nodup later).append_left _).trans perm_middle

theorem Clustered.step {done : List (String × Ad)} (clustered : Clustered env dag done clusters)
    (node : String × Ad) : Clustered env dag (done ++ [node]) (clusterize env dag clusters node) := by
  have new : node ∈ done ++ [node] := mem_append_right _ (mem_singleton_self _)
  have old {c : Cluster Ad} (present : c ∈ clusters) {name : String} (inside : name ∈ c.names) :
      ∃ x ∈ done ++ [node], x.1 = name ∧ makeKey env dag x = c.key := by
    obtain ⟨x, member, same⟩ := clustered.members c present name inside
    exact ⟨x, mem_append_left _ member, same⟩
  have complete (l : List String) (perm : l.Perm (node.1 :: clusters.flatMap Cluster.names)) :
      l.Perm ((done ++ [node]).map Prod.fst) := by
    rw [map_append, map_singleton]
    exact perm.trans ((clustered.complete.cons _).trans (perm_append_singleton _ _).symm)
  unfold clusterize
  dsimp only
  split
  · rename_i present
    refine ⟨?_, ?_, complete _ (join_perm node.1 clustered.keys present), ?_⟩
    · rw [map_map]
      refine (map_congr_left fun c _ => ?_) ▸ clustered.keys
      simp only [Function.comp_apply]
      split <;> rfl
    · intro c' member name inside
      obtain ⟨c, there, rfl⟩ := mem_map.mp member
      split at inside
      · rename_i same
        rw [if_pos same]
        rcases mem_append.mp inside with before | added
        · exact old there before
        · exact ⟨node, new, (mem_singleton.mp added).symm, same.symm⟩
      · rename_i other
        rw [if_neg other]
        exact old there inside
    · intro c' member
      obtain ⟨c, there, rfl⟩ := mem_map.mp member
      split
      · simp
      · exact clustered.inhabited c there
  · rename_i absent
    have perm := insertCluster_perm ⟨makeKey env dag node, node.2, [node.1]⟩ clusters
    refine ⟨(perm.map Cluster.key).nodup_iff.mpr (nodup_cons.mpr ⟨absent, clustered.keys⟩), ?_,
      complete _ (perm.flatMap_right Cluster.names), ?_⟩
    · intro c member name inside
      rcases mem_cons.mp (perm.mem_iff.mp member) with rfl | before
      · exact ⟨node, new, (mem_singleton.mp inside).symm, rfl⟩
      · exact old before inside
    · intro c member
      rcases mem_cons.mp (perm.mem_iff.mp member) with rfl | before
      · simp
      · exact clustered.inhabited c before

theorem clustered (env : Surroundings Ad Expr R) (dag : DagAd Ad) : Clustered env dag dag.nodes
    (clustersOf env dag) := by
  have folds (rest done : List (String × Ad)) (clusters : List (Cluster Ad))
      (so : Clustered env dag done clusters) :
      Clustered env dag (done ++ rest) (rest.foldl (clusterize env dag) clusters) := by
    induction rest generalizing done clusters with
    | nil => rwa [append_nil]
    | cons node rest ih =>
      rw [foldl_cons, append_cons]
      exact ih _ _ (so.step node)
  exact folds dag.nodes [] [] ⟨nodup_nil, by simp, .refl _, by simp⟩

def SameCluster (env : Surroundings Ad Expr R) (dag : DagAd Ad) (a b : String) : Prop :=
  ∃ c ∈ clustersOf env dag, a ∈ c.names ∧ b ∈ c.names

theorem cluster_of (env : Surroundings Ad Expr R) (here : x ∈ dag.nodes) : ∃ c ∈ clustersOf env dag,
    x.1 ∈ c.names :=
  mem_flatMap.mp ((clustered env dag).complete.mem_iff.mpr (mem_map_of_mem here))

theorem key_of_mem {c : Cluster Ad} (here : x ∈ dag.nodes) (present : c ∈ clustersOf env dag)
    (inside : x.1 ∈ c.names) :
    makeKey env dag x = c.key := by
  obtain ⟨node, member, same, key⟩ := (clustered env dag).members c present _ inside
  rwa [inj_on_of_nodup_map dag.nodup member here same] at key

theorem sameCluster_iff (here : x ∈ dag.nodes) (there : y ∈ dag.nodes) :
    SameCluster env dag x.1 y.1 ↔ makeKey env dag x = makeKey env dag y := by
  constructor
  · rintro ⟨c, present, first, second⟩
    exact (key_of_mem here present first).trans (key_of_mem there present second).symm
  · intro same
    obtain ⟨c, present, first⟩ := cluster_of env here
    obtain ⟨d, other, second⟩ := cluster_of env there
    have keys : c.key = d.key := by
      rw [← key_of_mem here present first, ← key_of_mem there other second, same]
    obtain rfl := inj_on_of_nodup_map (clustered env dag).keys present other keys
    exact ⟨c, present, first, second⟩

/-! ### The pass -/

variable (env)

def matchCluster (done : List (Cluster Ad × List (Match R))) (c : Cluster Ad) :
    Except String (List (Cluster Ad × List (Match R))) :=
  (env.resolve c.jdl).map fun found => done ++ [(c, found)]

def matchesOf (c : Cluster Ad) : List (Match R) := (env.resolve c.jdl).toOption.getD []

variable {env} in
theorem matchCluster_matched {matched : List (Cluster Ad × List (Match R))}
    (runs : clusters.foldlM (matchCluster env) [] = .ok matched) :
    matched = clusters.map fun c => (c, matchesOf env c) := by
  refine foldlM_keeps (fun done matched => matched = done.map fun c => (c, matchesOf env c)) rfl ?_ runs
  rintro done c _ b' rfl one
  rw [matchCluster] at one
  cases resolved : env.resolve c.jdl with
  | error e =>
    rw [resolved] at one
    cases one
  | ok found =>
    rw [resolved] at one
    cases one
    simp [matchesOf, resolved, Except.toOption]

def makeDistribution (found : List (Match R)) (f : R) : List R :=
  let ranks := found.map Match.rank
  let rankMean := ranks.foldl (· + ·) 0 / (ranks.length : R)
  partialSum 0 (ranks.map fun rank => env.atan (f * (rank - rankMean)) + env.atan 1 * (1 + 1))

def destination (c : Cluster Ad) (found : List (Match R)) (name : String) : Option Nat × List (Match R) :=
  if env.fuzzyRank c.jdl then
    (selectDestination (makeDistribution env found (env.fuzzyFactor c.jdl)) (env.unirand01 name), found)
  else (selectMax env.partition found (env.unirand01 name), (maxPartition env.partition found).1)

/-- A node with a destination is scheduled there, one without stays pending. -/
def scheduleNode (c : Cluster Ad) (found : List (Match R)) (out : Outputs R) (name : String) :
    Except String (Outputs R) :=
  match destination env c found name with
  | (none, _) => .ok { out with pending := insert name out.pending }
  | (some i, order) =>
    match order[i]? with
    | none => .error "the iterator is outside of the matches"
    | some the_match => (env.adapt name the_match).map fun _ => { out with jobs :=
        out.jobs ++ [(name, the_match)] }

def schedule (out : Outputs R) (matched : Cluster Ad × List (Match R)) : Except String (Outputs R) :=
  matched.1.names.foldlM (scheduleNode env matched.1 matched.2) out

def doBulkMm (dag : DagAd Ad) : Except String (Outputs R) := do
  let matched ← (clustersOf env dag).foldlM (matchCluster env) []
  matched.foldlM (schedule env) ⟨[], ∅⟩

variable {c : Cluster Ad} {found : List (Match R)} {out : Outputs R} {name : String}

/-- The first match of a cluster without a fuzzy rank has a number as its rank. -/
def ranked (c : Cluster Ad) : List (Match R) → Bool
  | [] => false
  | first :: _ => env.fuzzyRank c.jdl || first.rank == first.rank

theorem nonneg_partialSum {sum : R} (start : ¬sum < 0) {l : List R} (nonneg : ∀ x ∈ l, ¬x < 0) :
    ∀ y ∈ partialSum sum l, ¬y < 0 := by
  induction l generalizing sum with
  | nil => nofun
  | cons x rest ih =>
    obtain ⟨first, later⟩ := forall_mem_cons.mp nonneg
    have next := Double.nonneg_add start first
    exact forall_mem_cons.mpr ⟨next, ih next later⟩

theorem partialSum_below (name : String) {l : List R} (nonneg : ∀ x ∈ l, ¬x < 0) :
    ∀ x ∈ partialSum 0 l, ¬x < env.unirand01 name * x := fun x member =>
  Double.draw (env.unirand01_bound name).1 (env.unirand01_bound name).2
    (nonneg_partialSum Double.nonneg_zero nonneg x member)

/-- A largest element that is a number is found where the first one is a number; otherwise the first
one stays. -/
theorem maxElement_number (max : Match R) (l : List (Match R)) : maxElement max l ∈ max :: l ∧
    ((maxElement max l).rank == (maxElement max l).rank) = (max.rank == max.rank) := by
  induction l generalizing max with
  | nil => exact ⟨mem_singleton_self _, rfl⟩
  | cons m rest ih =>
    rw [maxElement]
    split
    · rename_i less
      obtain ⟨member, same⟩ := ih m
      have both := Double.number_of_lt less
      exact ⟨mem_cons_of_mem _ member, same.trans (both.2.trans both.1.symm)⟩
    · obtain ⟨member, same⟩ := ih max
      refine ⟨?_, same⟩
      rcases mem_cons.mp member with first | later
      · rw [first]
        exact mem_cons_self
      · exact mem_cons_of_mem _ (mem_cons_of_mem _ later)

theorem maxPartition_number (partition : Partitioner (Match R)) (first : Match R) (rest : List (Match R)) :
    (maxPartition partition (first :: rest)).2 = 0 ↔ (first.rank == first.rank) = false := by
  obtain ⟨member, number⟩ := maxElement_number first rest
  let parts := partition (fun m => m.rank == (maxElement first rest).rank) (first :: rest)
  change parts.front.length = 0 ↔ _
  rw [length_eq_zero_iff]
  constructor
  · intro empty
    have behind := parts.perm.mem_iff.mpr member
    rw [empty, nil_append] at behind
    exact number ▸ parts.fails _ behind
  · intro other
    refine eq_nil_iff_forall_not_mem.mpr fun m inside => ?_
    have same := Double.number_of_beq (parts.meets m inside)
    rw [number, other] at same
    cases same

theorem maxPartition_le (partition : Partitioner (Match R)) :
    (maxPartition partition found).2 ≤ (maxPartition partition found).1.length := by
  cases found with
  | nil => exact Nat.le_refl _
  | cons first rest => simp [maxPartition]

/-- A match is chosen, and the iterator to it is inside of the matches. -/
theorem destination_inside (name : String) (known : ranked env c found = true) :
    ∃ i m, (destination env c found name).1 = some i ∧ (destination env c found name).2[i]? = some m := by
  cases found with
  | nil => cases known
  | cons first rest =>
    unfold destination
    split
    · have length : (makeDistribution env (first :: rest) (env.fuzzyFactor c.jdl)).length =
          rest.length + 1 := by
        simp [makeDistribution, length_partialSum]
      have below : ∀ x ∈ makeDistribution env (first :: rest) (env.fuzzyFactor c.jdl), _ :=
        partialSum_below env name fun x member => by
          obtain ⟨rank, -, rfl⟩ := mem_map.mp member
          exact env.atan_bound _
      obtain ⟨i, inside, chosen⟩ := selectDestination_inside below (ne_nil_of_length_pos (by omega))
      rw [length] at inside
      exact ⟨i, _, chosen, getElem?_eq_getElem inside⟩
    · rename_i plain
      have number : (first.rank == first.rank) = true := by simpa [ranked, plain] using known
      have nonempty : (maxPartition env.partition (first :: rest)).2 ≠ 0 := fun zero => by
        cases number.symm.trans ((maxPartition_number _ first rest).mp zero)
      obtain ⟨i, inside, chosen⟩ := selectDestination_inside
        (partialSum_below env name fun x member => (eq_of_mem_replicate member).symm ▸ Double.nonneg_one)
        (ne_nil_of_length_pos (by rw [length_partialSum, length_replicate]; exact Nat.pos_of_ne_zero nonempty))
      rw [length_partialSum, length_replicate] at inside
      exact ⟨i, _, chosen, getElem?_eq_getElem (Nat.lt_of_lt_of_le inside (maxPartition_le _))⟩

theorem scheduleNode_eq (out : Outputs R) (name : String) (known : ranked env c found = true) :
    ∃ the_match,
    scheduleNode env c found out name =
      (env.adapt name the_match).map fun _ => { out with jobs := out.jobs ++ [(name, the_match)] } := by
  obtain ⟨i, m, chosen, here⟩ := destination_inside env name known
  refine ⟨m, ?_⟩
  unfold scheduleNode
  generalize destination env c found name = chosen' at chosen here
  obtain ⟨_, order⟩ := chosen'
  subst chosen
  simp only at here
  simp only [here]

theorem scheduleNode_unranked (out : Outputs R) (name : String) (unknown : ranked env c found = false) :
    scheduleNode env c found out name = .ok { out with pending := insert name out.pending } := by
  have nowhere : (destination env c found name).1 = none := by
    unfold destination
    cases found with
    | nil => split <;> rfl
    | cons first rest =>
      obtain ⟨plain, other⟩ := Bool.or_eq_false_iff.mp unknown
      simp [plain, selectMax, (maxPartition_number env.partition first rest).mpr other, partialSum,
        selectDestination]
  unfold scheduleNode
  generalize destination env c found name = chosen at nowhere
  obtain ⟨_, order⟩ := chosen
  subst nowhere
  rfl

structure Placed (env : Surroundings Ad Expr R) (c : Cluster Ad) (out : Outputs R) (found : List (Match R))
    (names : List String) (new : Outputs R) : Prop where
  jobs : new.jobs.map Prod.fst = out.jobs.map Prod.fst ++ if ranked env c found then names else []
  pending : new.pending = out.pending ∪ if ranked env c found then ∅ else names.toFinset

variable {env}

theorem Placed.step {names : List String} {mid new : Outputs R} (placed : Placed env c out found names mid)
    (runs : scheduleNode env c found mid name = .ok new) :
    Placed env c out found (names ++ [name]) new := by
  obtain ⟨jobs, pending⟩ := placed
  cases known : ranked env c found with
  | false =>
    rw [scheduleNode_unranked env mid name known] at runs
    cases runs
    rw [known] at jobs pending
    refine ⟨by simpa [known] using jobs, ?_⟩
    simp only [Bool.false_eq_true, if_false, known] at pending ⊢
    rw [pending, toFinset_append, ← Finset.union_assoc, Finset.insert_eq, Finset.union_comm]
    rfl
  | true =>
    obtain ⟨m, same⟩ := scheduleNode_eq env mid name known
    rw [same] at runs
    cases adapted : env.adapt name m with
    | error e =>
      rw [adapted] at runs
      cases runs
    | ok done =>
      rw [adapted] at runs
      cases runs
      rw [known, if_pos rfl] at jobs pending
      refine ⟨?_, by rw [known, if_pos rfl, pending]⟩
      rw [known, if_pos rfl, map_append, jobs, append_assoc]
      rfl

theorem schedule_placed {new : Outputs R} (runs : schedule env out (c, found) = .ok new) :
    Placed env c out found c.names new :=
  foldlM_keeps (Placed env c out found) ⟨by simp, by simp⟩ (fun _ _ _ _ placed one => placed.step one) runs

structure Settled (env : Surroundings Ad Expr R) (clusters : List (Cluster Ad))
    (out : Outputs R) : Prop where
  jobs : out.jobs.map Prod.fst = (clusters.filter fun c => ranked env c (matchesOf env c)).flatMap
    Cluster.names
  pending : out.pending =
    ((clusters.filter fun c => !ranked env c (matchesOf env c)).flatMap Cluster.names).toFinset

theorem doBulkMm_settled (runs : doBulkMm env dag = .ok out) : Settled env (clustersOf env dag) out := by
  unfold doBulkMm at runs
  cases first : (clustersOf env dag).foldlM (matchCluster env) [] with
  | error e =>
    rw [first] at runs
    cases runs
  | ok matched =>
    rw [first] at runs
    change matched.foldlM (schedule env) _ = _ at runs
    rw [matchCluster_matched first, foldlM_map] at runs
    refine foldlM_keeps (Settled env) ⟨rfl, rfl⟩ ?_ runs
    intro done c b b' settled one
    obtain ⟨jobs, pending⟩ := schedule_placed one
    rw [settled.jobs] at jobs
    rw [settled.pending] at pending
    cases known : ranked env c (matchesOf env c) with
    | false =>
      refine ⟨by simpa [known] using jobs, ?_⟩
      rw [pending]
      simp [known]
    | true =>
      refine ⟨by simpa [known] using jobs, ?_⟩
      rw [pending]
      simp [known]

theorem doBulkMm_returns (resolved : ∀ c ∈ clustersOf env dag, ∃ found, env.resolve c.jdl = .ok found)
    (adapted : ∀ name m, env.adapt name m = .ok ()) : ∃ out, doBulkMm env dag = .ok out := by
  obtain ⟨matched, first⟩ := exists_foldlM (f := matchCluster env) (l := clustersOf env dag)
    (fun c member b => by
    obtain ⟨found, same⟩ := resolved c member
    exact ⟨b ++ [(c, found)], by rw [matchCluster, same]; rfl⟩) []
  rw [doBulkMm, first]
  refine exists_foldlM (fun matched _ out => exists_foldlM (fun name _ out => ?_) out) _
  cases known : ranked env matched.1 matched.2 with
  | false => exact ⟨_, scheduleNode_unranked env out name known⟩
  | true =>
    obtain ⟨m, same⟩ := scheduleNode_eq env out name known
    rw [same, adapted]
    exact ⟨_, rfl⟩

/-- Each node is scheduled or pending, once, and is scheduled iff its cluster has a match; nodes
share a cluster iff they have the same significant attributes. -/
structure Partitions (env : Surroundings Ad Expr R) (dag : DagAd Ad) (out : Outputs R) : Prop where
  once : (out.jobs.map Prod.fst ++ out.pending.toList).Perm (dag.nodes.map Prod.fst)
  shared : ∀ x ∈ dag.nodes, ∀ y ∈ dag.nodes, SameCluster env dag x.1 y.1 ↔
    x = y ∨ (significant env dag x.2 ≠ [] ∧ significant env dag x.2 = significant env dag y.2)
  scheduled : ∀ x ∈ dag.nodes, x.1 ∈ out.jobs.map Prod.fst ↔
    ∃ c ∈ clustersOf env dag, x.1 ∈ c.names ∧ matchesOf env c ≠ []

theorem sameCluster_iff_significant (here : x ∈ dag.nodes) (there : y ∈ dag.nodes) :
    SameCluster env dag x.1 y.1 ↔
    x = y ∨ (significant env dag x.2 ≠ [] ∧ significant env dag x.2 = significant env dag y.2) := by
  rw [sameCluster_iff here there, makeKey_eq_iff]
  constructor
  · rintro (⟨-, -, same⟩ | same)
    · exact .inl (inj_on_of_nodup_map dag.nodup here there same)
    · exact .inr same
  · rintro (rfl | same)
    · by_cases empty : significant env dag x.2 = []
      · exact .inl ⟨empty, empty, rfl⟩
      · exact .inr ⟨empty, rfl⟩
    · exact .inr same

theorem Settled.once (settled : Settled env (clustersOf env dag) out) :
    (out.jobs.map Prod.fst ++ out.pending.toList).Perm (dag.nodes.map Prod.fst) := by
  have names := (clustered env dag).complete
  -- The clusters with and without a destination are all clusters, and their names are those of the
  -- nodes, each once; hence the set of the pending names loses none.
  have parts := (filter_append_perm (fun c =>
      ranked env c (matchesOf env c)) (clustersOf env dag)).flatMap_right
    Cluster.names
  rw [flatMap_append] at parts
  have nodup := parts.nodup_iff.mpr (names.nodup_iff.mpr dag.nodup)
  rw [settled.jobs, settled.pending]
  exact ((toFinset_toList (nodup_append.mp nodup).2.1).append_left _).trans (parts.trans names)

theorem Settled.scheduled_iff (settled : Settled env (clustersOf env dag) out) :
    (∀ x ∈ dag.nodes, x.1 ∈ out.jobs.map Prod.fst ↔
      ∃ c ∈ clustersOf env dag, x.1 ∈ c.names ∧ matchesOf env c ≠ []) ↔
    ∀ c ∈ clustersOf env dag, matchesOf env c ≠ [] → ranked env c (matchesOf env c) = true := by
  simp only [settled.jobs, mem_flatMap, mem_filter]
  constructor
  · intro all c present nonempty
    obtain ⟨name, inside⟩ := exists_mem_of_ne_nil _ ((clustered env dag).inhabited c present)
    obtain ⟨x, here, rfl, key⟩ := (clustered env dag).members c present name inside
    obtain ⟨d, ⟨other, known⟩, within⟩ := (all x here).mpr ⟨c, present, inside, nonempty⟩
    have keys : d.key = c.key := (key_of_mem here other within).symm.trans key
    rwa [inj_on_of_nodup_map (clustered env dag).keys other present keys] at known
  · intro all x _
    constructor
    · rintro ⟨c, ⟨present, known⟩, inside⟩
      refine ⟨c, present, inside, fun empty => ?_⟩
      rw [empty] at known
      cases known
    · rintro ⟨c, present, inside, nonempty⟩
      exact ⟨c, ⟨present, all c present nonempty⟩, inside⟩

theorem partitions_iff (runs : doBulkMm env dag = .ok out) : Partitions env dag out ↔
    ∀ c ∈ clustersOf env dag, ∀ first rest, matchesOf env c = first :: rest → env.fuzzyRank c.jdl = false →
      (first.rank == first.rank) = true := by
  have settled := doBulkMm_settled runs
  have numbers (c : Cluster Ad) : (matchesOf env c ≠ [] → ranked env c (matchesOf env c) = true) ↔
      ∀ first rest, matchesOf env c = first :: rest → env.fuzzyRank c.jdl = false →
        (first.rank == first.rank) = true := by
    cases matchesOf env c with
    | nil => simp
    | cons first rest => cases fuzzy : env.fuzzyRank c.jdl <;> simp [ranked, fuzzy]
  simp only [← numbers]
  rw [← settled.scheduled_iff]
  exact ⟨fun partitions => partitions.scheduled, fun scheduled =>
    ⟨settled.once, fun x here y there => sameCluster_iff_significant here there, scheduled⟩⟩

/-- A pass that returns partitions the nodes exactly if in each cluster with matches and without a
fuzzy rank the first match has a number as its rank; and it returns unless a helper throws. -/
theorem doBulkMm_partitions_iff (env : Surroundings Ad Expr R) (dag : DagAd Ad) :
    (∀ out, doBulkMm env dag = .ok out → (Partitions env dag out ↔
      ∀ c ∈ clustersOf env dag, ∀ first rest, matchesOf env c = first :: rest →
        env.fuzzyRank c.jdl = false →
        (first.rank == first.rank) = true)) ∧
    ((∀ c ∈ clustersOf env dag, ∃ found, env.resolve c.jdl = .ok found) →
      (∀ name m, env.adapt name m = .ok ()) →
      ∃ out, doBulkMm env dag = .ok out) :=
  ⟨fun _ => partitions_iff, doBulkMm_returns⟩

end Bulk

inductive Rank where
  | nan
  | number (x : ℚ)

def Rank.operate (op : ℚ → ℚ → ℚ) : Rank → Rank → Rank
  | .number x, .number y => .number (op x y)
  | _, _ => .nan

def Rank.compare (test : ℚ → ℚ → Bool) : Rank → Rank → Bool
  | .number x, .number y => test x y
  | _, _ => false

instance : Double Rank where
  lt a b := Rank.compare (fun x y => x < y) a b = true
  beq := Rank.compare (· == ·)
  add := Rank.operate (· + ·)
  sub := Rank.operate (· - ·)
  mul := Rank.operate (· * ·)
  div := Rank.operate (· / ·)
  zero := .number 0
  one := .number 1
  natCast n := .number n
  decidableLT a b := inferInstanceAs (Decidable (_ = true))
  number_of_lt {a b} less := by
    cases a <;> cases b <;> first
      | cases less
      | exact ⟨beq_self_eq_true _, beq_self_eq_true _⟩
  number_of_beq {a b} same := by
    cases a <;> cases b <;> first
      | cases same
      | exact beq_self_eq_true _
  nonneg_zero := by decide
  nonneg_one := by decide
  nonneg_add {a b} first second less := by
    cases a <;> cases b <;> first
      | exact Bool.false_ne_true less
      | exact absurd (of_decide_eq_true less)
          (not_lt.mpr (add_nonneg (not_lt.mp fun below => first (decide_eq_true below))
          (not_lt.mp fun below => second (decide_eq_true below))))
  draw {u x} low high nonneg less := by
    cases u <;> cases x <;> first
      | exact Bool.false_ne_true less
      | exact absurd (of_decide_eq_true less) (not_lt.mpr (mul_le_of_le_one_left
          (not_lt.mp fun below => nonneg (decide_eq_true below)) (of_decide_eq_true high).le))

def oneNode : DagAd Unit := ⟨(), (), [("a", ())], by simp⟩

def matching (found : List (Match Rank)) : Surroundings Unit Unit Rank where
  getSignificantAttributes _ := none
  lookup _ _ := none
  unparse _ := "x"
  unparse_ne _ := by decide
  resolve _ := .ok found
  fuzzyRank _ := false
  fuzzyFactor _ := 1
  atan _ := 0
  atan_bound _ := by decide +kernel
  partition := .stable _
  unirand01 _ := 0
  unirand01_bound _ := by decide
  adapt _ _ := .ok ()

theorem doBulkMm_partitions_one :
    ∃ out, doBulkMm (matching [⟨"ce", .number 1⟩]) oneNode = .ok out ∧
      Partitions (matching [⟨"ce", .number 1⟩]) oneNode out := by
  obtain ⟨iff, returns⟩ := doBulkMm_partitions_iff (matching [⟨"ce", .number 1⟩]) oneNode
  obtain ⟨out, runs⟩ := returns (fun _ _ => ⟨_, rfl⟩) fun _ _ => rfl
  refine ⟨out, runs, (iff out runs).mpr fun c _ first rest found _ => ?_⟩
  cases found
  rfl

/-- The only match of the node has a rank that is not a number: the node stays pending. -/
theorem matched_node_pending : ∃ out, doBulkMm (matching [⟨"ce", .nan⟩]) oneNode = .ok out ∧
    out.jobs = [] ∧
    "a" ∈ out.pending ∧ ¬Partitions (matching [⟨"ce", .nan⟩]) oneNode out := by
  refine ⟨_, rfl, rfl, by decide, fun partitions => ?_⟩
  have number := (partitions_iff rfl).mp partitions _ (mem_singleton_self _) _ _ rfl rfl
  cases number

end Wms.Manager.BulkMatching
