import Mathlib.Data.List.Nodup

/-! Doubly linked lists in a store of nodes.

A segment is a list of keys with their values such that the node of each key points back
to the key before it and on to the key after it. The ends are two further keys: the one
the first node points back to and the one the last node points on to. Inserting and
removing an element changes the nodes beside it and no other.
-/

set_option autoImplicit false

namespace Wms.Lib.Links

open Function List

structure Node (K V : Type) where
  prev : K
  next : K
  value : V
  deriving DecidableEq, Repr

variable {K V : Type}

def keys (l : List (K × V)) : List K := l.map Prod.fst

def headKey : List (K × V) → K → K
  | [], stop => stop
  | (key, _) :: _, _ => key

def lastKey : List (K × V) → K → K
  | [], prev => prev
  | (key, _) :: rest, _ => lastKey rest key

def Segment (look : K → Option (Node K V)) : K → List (K × V) → K → Prop
  | _, [], _ => True
  | prev, (key, value) :: rest, stop =>
    look key = some ⟨prev, headKey rest stop, value⟩ ∧ Segment look key rest stop

variable {look : K → Option (Node K V)} {prev stop : K} {a b l : List (K × V)}

theorem headKey_append : headKey (a ++ b) stop = headKey a (headKey b stop) := by
  cases a <;> rfl

theorem headKey_of_ne_nil (nonempty : l ≠ []) (other : K) : headKey l stop = headKey l other := by
  cases l with
  | nil => exact absurd rfl nonempty
  | cons first rest => rfl

theorem lastKey_of_ne_nil (nonempty : l ≠ []) (other : K) : lastKey l prev = lastKey l other := by
  cases l with
  | nil => exact absurd rfl nonempty
  | cons first rest => rfl

theorem lastKey_append : lastKey (a ++ b) prev = lastKey b (lastKey a prev) := by
  induction a generalizing prev with
  | nil => rfl
  | cons first rest ih => exact ih

@[simp] theorem keys_append : keys (a ++ b) = keys a ++ keys b := map_append

@[simp] theorem keys_cons (key : K) (value : V) : keys ((key, value) :: l) = key :: keys l := rfl

@[simp] theorem keys_nil : keys ([] : List (K × V)) = [] := rfl

theorem nodup_insert {key : K} {value : V} (nodup : (keys (a ++ b)).Nodup) (fresh : key ∉ keys (a ++ b)) :
    (keys (a ++ (key, value) :: b)).Nodup := by
  rw [keys_append] at nodup fresh ⊢
  exact nodup_middle.mpr (nodup_cons.mpr ⟨fresh, nodup⟩)

theorem headKey_mem (nonempty : l ≠ []) : headKey l stop ∈ keys l := by
  cases l with
  | nil => exact absurd rfl nonempty
  | cons first rest => exact mem_cons_self

theorem lastKey_mem (prev : K) (nonempty : l ≠ []) : lastKey l prev ∈ keys l := by
  induction l generalizing prev with
  | nil => exact absurd rfl nonempty
  | cons first rest ih =>
    cases rest with
    | nil => exact mem_cons_self
    | cons second others => exact mem_cons_of_mem _ (ih first.1 (by simp))

theorem exists_split {key : K} (member : key ∈ keys l) : ∃ a value b, l = a ++ (key, value) :: b := by
  obtain ⟨⟨found, value⟩, inside, rfl⟩ := mem_map.mp member
  obtain ⟨a, b, rfl⟩ := append_of_mem inside
  exact ⟨a, value, b, rfl⟩

theorem exists_last (nonempty : l ≠ []) : ∃ a key value, l = a ++ [(key, value)] :=
  ⟨l.dropLast, (l.getLast nonempty).1, (l.getLast nonempty).2, (dropLast_append_getLast nonempty).symm⟩

namespace Segment

theorem append : Segment look prev (a ++ b) stop ↔
    Segment look prev a (headKey b stop) ∧ Segment look (lastKey a prev) b stop := by
  induction a generalizing prev with
  | nil => simp [Segment, lastKey]
  | cons first rest ih =>
    obtain ⟨key, value⟩ := first
    simp only [cons_append, Segment, lastKey, ih, headKey_append, and_assoc]

theorem node {key : K} {value : V} (segment : Segment look prev (a ++ (key, value) :: b) stop) :
    look key = some ⟨lastKey a prev, headKey b stop, value⟩ :=
  (append.mp segment).2.1

theorem look_of_mem {key : K} (segment : Segment look prev l stop) (member : key ∈ keys l) :
    ∃ node, look key = some node := by
  obtain ⟨a, value, b, rfl⟩ := exists_split member
  exact ⟨_, segment.node⟩

theorem congr {other : K → Option (Node K V)} (segment : Segment look prev l stop)
    (same : ∀ key ∈ keys l, other key = look key) : Segment other prev l stop := by
  induction l generalizing prev with
  | nil => trivial
  | cons first rest ih =>
    obtain ⟨key, value⟩ := first
    exact ⟨(same key mem_cons_self).trans segment.1,
      ih segment.2 fun key member => same key (mem_cons_of_mem _ member)⟩

variable [DecidableEq K] {key : K} {value : V}

/-- A change outside a segment does not matter to it. -/
theorem frame {x : Option (Node K V)} (segment : Segment look prev l stop) (outside : key ∉ keys l) :
    Segment (update look key x) prev l stop :=
  segment.congr fun other member => update_of_ne (fun same : other = key => outside (same ▸ member)) _ _

theorem set_next {other : K} (segment : Segment look prev (a ++ [(key, value)]) stop)
    (outside : key ∉ keys a) :
    Segment (update look key (some ⟨lastKey a prev, other, value⟩)) prev (a ++ [(key, value)]) other := by
  rw [append] at segment ⊢
  exact ⟨segment.1.frame outside, update_self _ _ _, trivial⟩

theorem set_prev (other : K) (segment : Segment look prev ((key, value) :: b) stop)
    (outside : key ∉ keys b) :
    Segment (update look key (some ⟨other, headKey b stop, value⟩)) other ((key, value) :: b) stop :=
  ⟨update_self _ _ _, segment.2.frame outside⟩

/-! Insertion of a new key and removal of an element, as a sequence of node updates. -/

section

variable {new before after : K} {v u w : V}

theorem insert_last (segment : Segment look prev (a ++ [(before, u)]) stop) (outside : before ∉ keys a)
    (fresh : new ∉ keys (a ++ [(before, u)])) {other : K} :
    Segment (update (update look before (some ⟨lastKey a prev, new, u⟩))
      new (some ⟨before, other, v⟩)) prev (a ++ [(before, u)] ++ [(new, v)]) other := by
  refine append.mpr ⟨(segment.set_next outside).frame fresh, ?_, trivial⟩
  rw [lastKey_append]
  exact update_self _ _ _

theorem insert_first (segment : Segment look prev ((after, w) :: b) stop) (outside : after ∉ keys b)
    (fresh : new ∉ keys ((after, w) :: b)) :
    Segment (update (update look after (some ⟨new, headKey b stop, w⟩))
      new (some ⟨prev, after, v⟩)) prev ((new, v) :: (after, w) :: b) stop :=
  ⟨update_self _ _ _, (segment.set_prev _ outside).frame fresh⟩

/-- The nodes on both sides of a gap are changed to point elsewhere. -/
theorem relink {x y m n : K} (front : Segment look prev (a ++ [(before, u)]) x)
    (back : Segment look y ((after, w) :: b) stop)
      (nodup : (keys (a ++ [(before, u)] ++ (after, w) :: b)).Nodup) :
    let changed := update (update look after (some ⟨n, headKey b stop, w⟩))
      before (some ⟨lastKey a prev, m, u⟩)
    Segment changed prev (a ++ [(before, u)]) m ∧ Segment changed n ((after, w) :: b) stop := by
  rw [keys_append, keys_append, nodup_append, nodup_append] at nodup
  obtain ⟨⟨-, -, beforeOutside⟩, afterNodup, apart⟩ := nodup
  have kept := front.frame (x := some ⟨n, headKey b stop, w⟩) fun member =>
    apart after (by simpa using member) after mem_cons_self rfl
  have moved := back.set_prev n (nodup_cons.mp afterNodup).1
  exact ⟨kept.set_next fun member => beforeOutside before member before mem_cons_self rfl,
    moved.frame fun member => apart before (by simp) before member rfl⟩

theorem insert_between (segment : Segment look prev (a ++ [(before, u)] ++ (after, w) :: b) stop)
    (nodup : (keys (a ++ [(before, u)] ++ (after, w) :: b)).Nodup)
    (fresh : new ∉ keys (a ++ [(before, u)] ++ (after, w) :: b)) : Segment (update (update (update look
        after (some ⟨new, headKey b stop, w⟩)) before (some ⟨lastKey a prev, new, u⟩))
        new (some ⟨before, after, v⟩)) prev (a ++ [(before, u)] ++ (new, v) :: (after, w) :: b) stop := by
  obtain ⟨front, back⟩ := append.mp segment
  obtain ⟨first, last⟩ := relink (m := new) (n := new) front back nodup
  rw [keys_append, mem_append, not_or] at fresh
  refine append.mpr ⟨first.frame fresh.1, ?_, last.frame fresh.2⟩
  rw [lastKey_append]
  exact update_self _ _ _

theorem remove_last (segment : Segment look prev (a ++ [(before, u)] ++ [(key, value)]) stop)
    (nodup : (keys (a ++ [(before, u)] ++ [(key, value)])).Nodup) :
    Segment (update (update look before (some ⟨lastKey a prev, stop, u⟩)) key none)
      prev (a ++ [(before, u)]) stop := by
  rw [keys_append, keys_append, nodup_append, nodup_append] at nodup
  obtain ⟨⟨-, -, beforeOutside⟩, -, apart⟩ := nodup
  have front := (append.mp segment).1
  refine (front.set_next fun member => beforeOutside before member before mem_cons_self rfl).frame ?_
  exact fun member => apart key (by simpa using member) key mem_cons_self rfl

theorem remove_first (segment : Segment look prev ((key, value) :: (after, w) :: b) stop)
    (nodup : (keys ((key, value) :: (after, w) :: b)).Nodup) :
    Segment (update (update look after (some ⟨prev, headKey b stop, w⟩)) key none) prev
      ((after, w) :: b) stop := by
  obtain ⟨outside, rest⟩ := nodup_cons.mp nodup
  exact (segment.2.set_prev _ (nodup_cons.mp rest).1).frame outside

theorem remove_between (segment : Segment look prev (a ++ [(before, u)] ++ (key, value) ::
    (after, w) :: b) stop)
    (nodup : (keys (a ++ [(before, u)] ++ (key, value) :: (after, w) :: b)).Nodup) :
    Segment (update (update (update look
        after (some ⟨before, headKey b stop, w⟩)) before (some ⟨lastKey a prev, after, u⟩))
        key none) prev (a ++ [(before, u)] ++ (after, w) :: b) stop := by
  obtain ⟨front, back⟩ := append.mp segment
  rw [keys_append] at nodup
  obtain ⟨outside, rest⟩ := nodup_cons.mp (nodup_middle.mp nodup)
  obtain ⟨first, last⟩ := relink (m := after) (n := before) front back.2 (by rwa [keys_append])
  rw [mem_append, not_or] at outside
  refine append.mpr ⟨first.frame outside.1, ?_⟩
  rw [lastKey_append]
  exact last.frame outside.2

end

end Segment

end Wms.Lib.Links
