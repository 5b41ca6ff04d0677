import Mathlib.Data.Fin.Basic
import Wms.Lib.SharedPtr
import Wms.Lib.Transition

/-! The two sides of the information supermarket.

A matcher asks for the active side and is given a copy of the shared pointer kept
for it; the purchaser waits until the pointer of the dark side has no other
owner, clears and populates that side, and switches. Every section under the
mutex, every use of a count and every release of a handle is one step.
-/

set_option autoImplicit false

namespace Wms.Manager.Ism

open Lib Function List

inductive Kind where
  | ce
  | se
  deriving DecidableEq, Repr

inductive Work where
  | clear (kind : Kind)
  | populate (kind : Kind)
  deriving DecidableEq, Repr

inductive Purchaser where
  | testing
  | counting (side : Int)
  | reporting
  /-- `dark_side` for the first of these, or `switch_active_side` when none is left -/
  | reading (work : List Work)
  | working (side : Int) (work : Work) (rest : List Work)
  | resting
  | exited
  deriving DecidableEq, Repr

/-- What `match_on_active_side` gave to a matcher, and whether the matcher still
goes through the side. -/
structure Handle where
  number : Nat
  pointer : SharedPtr
  side : Int
  matching : Bool
  deriving DecidableEq, Repr

structure State where
  activeSide : Int
  matchingThreads : Fin 2 → SharedPtr
  blocks : Blocks
  purchaser : Purchaser
  handles : List Handle
  /-- How many handles were given out so far, and for each side the number of its last one. -/
  given : Nat
  last : Fin 2 → Option Nat

inductive Action where
  | matchOnActiveSide
  | matched (position : Nat)
  | release (position : Nat)
  | purchase
  | fail
  | rest (again : Bool)
  deriving DecidableEq, Repr

def element (index : Int) : Option (Fin 2) :=
  if index = 0 then some 0 else if index = 1 then some 1 else none

def switchActiveSide (active : Int) : Int := if active = -1 then 0 else (active + 1) % 2

def darkSide (active : Int) : Int := if active = -1 then 0 else (active + 1) % 2

def activeSide (active : Int) : Int := if active = -1 then 1 else active

def matchingThreads (s : State) (side : Fin 2) : Int :=
  (s.blocks.useCount (s.matchingThreads side) : Int) - 1

/-- The stored pointer is reset if it has no address, and a copy of it is given out. An index
outside of the array leaves nothing to say about the state after it. -/
def matchOnActiveSide (s : State) : Option State := do
  let tested ← element s.activeSide
  let old := s.matchingThreads tested
  let reset := old.address.isNone
  let blocks := if reset then s.blocks.own.release old else s.blocks
  let pointers :=
    if reset then update s.matchingThreads tested ⟨none, some s.blocks.made⟩ else s.matchingThreads
  let side ← element (if s.activeSide = -1 then 1 else s.activeSide)
  some { s with
    blocks := blocks.acquire (pointers side)
    matchingThreads := pointers
    handles := ⟨s.given, pointers side, s.activeSide, true⟩ :: s.handles
    given := s.given + 1
    last := update s.last side (some s.given) }

section Step

variable (glue13 glue20 : Bool)

/-- One purchase: both sides are cleared, and populated once for each schema that is enabled. -/
def purchase : List Work :=
  [.clear .ce, .clear .se] ++ (if glue13 then [.populate .ce, .populate .se] else []) ++
    if glue20 then [.populate .ce, .populate .se] else []

def purchaserStep (s : State) : Option State :=
  match s.purchaser with
  | .testing => some { s with purchaser := .counting (darkSide s.activeSide) }
  | .counting side => do
    let counted ← element side
    some { s with purchaser := if 0 < matchingThreads s counted then .reporting
      else .reading (purchase glue13 glue20) }
  | .reporting => do
    let _ ← element (activeSide s.activeSide)
    some { s with purchaser := .testing }
  | .reading [] => some { s with activeSide := switchActiveSide s.activeSide, purchaser := .resting }
  | .reading (work :: rest) => some { s with purchaser := .working (darkSide s.activeSide) work rest }
  | .working _ _ rest => some { s with purchaser := .reading rest }
  | .resting | .exited => none

def inTry : Purchaser → Bool
  | .reading [] | .reading (.populate _ :: _) | .working _ (.populate _) _ => true
  | _ => false

def step (s : State) : Action → Option State
  | .matchOnActiveSide => matchOnActiveSide s
  | .matched position => do
    let handle ← s.handles[position]?
    some { s with handles := s.handles.set position { handle with matching := false } }
  | .release position => do
    let handle ← s.handles[position]?
    some { s with handles := s.handles.eraseIdx position, blocks := s.blocks.release handle.pointer }
  | .purchase => purchaserStep glue13 glue20 s
  | .fail => if inTry s.purchaser then some { s with purchaser := .resting } else none
  | .rest again =>
    if s.purchaser = .resting then some { s with purchaser := if again then .testing else .exited }
      else none

end Step

def start : State where
  activeSide := -1
  matchingThreads _ := ⟨none, none⟩
  blocks := ⟨0, fun _ => 0⟩
  purchaser := .testing
  handles := []
  given := 0
  last _ := none

def indices (s : State) : Action → List Int
  | .matchOnActiveSide => [s.activeSide, if s.activeSide = -1 then 1 else s.activeSide]
  | .purchase =>
    match s.purchaser with
    | .counting side => [side]
    | .reporting => [activeSide s.activeSide]
    | .reading (_ :: _) => [darkSide s.activeSide]
    | _ => []
  | _ => []

def heldFor (s : State) (side : Fin 2) : List Handle :=
  s.handles.filter fun handle => element handle.side = some side

def Purchaser.side : Purchaser → Option Int
  | .counting side | .working side _ _ => some side
  | _ => none

def Purchaser.purchasing : Purchaser → Bool
  | .reading _ | .working _ _ _ => true
  | _ => false

/-! ### What holds in every state -/

/-- No handle that is held is the last one given out for the dark side. -/
def Alone (s : State) : Prop :=
  ∀ handle ∈ s.handles, ∀ side, element (darkSide s.activeSide) = some side →
    s.last side ≠ some handle.number

structure Sound (s : State) : Prop where
  active : s.activeSide = -1 ∨ s.activeSide = 0 ∨ s.activeSide = 1
  counts : s.blocks.Counts (s.matchingThreads 0 :: s.matchingThreads 1 :: s.handles.map Handle.pointer)
  made : s.blocks.made = s.given
  -- a stored pointer never has an address, so that every call makes a new block
  stored : ∀ side, s.matchingThreads side = ⟨none, s.last side⟩
  held : ∀ handle ∈ s.handles, handle.pointer.block = some handle.number
  numbers : (s.handles.map Handle.number).Nodup
  sides : ∀ handle ∈ s.handles, ∀ side, s.last side = some handle.number → element handle.side = some side
  apart : ∀ side other n, s.last side = some n → s.last other = some n → side = other
  read : ∀ side ∈ s.purchaser.side, side = darkSide s.activeSide
  alone : s.purchaser.purchasing = true → Alone s

theorem sound_start : Sound start where
  active := .inl rfl
  counts := ⟨fun _ => rfl, by simp [start]⟩
  made := rfl
  stored _ := rfl
  held := by simp [start]
  numbers := by simp [start]
  sides := by simp [start]
  apart := by simp [start]
  read := by simp [start, Purchaser.side]
  alone := by simp [start, Purchaser.purchasing]

variable {glue13 glue20 : Bool} {s t : State} {action : Action}

theorem Sound.number_lt (sound : Sound s) {handle : Handle} (member : handle ∈ s.handles) :
    handle.number < s.given := by
  rw [← sound.made]
  refine sound.counts.made handle.pointer ?_ _ (sound.held handle member)
  simp only [mem_cons, mem_map]
  exact .inr (.inr ⟨handle, member, rfl⟩)

variable {side : Fin 2}

theorem Sound.last_lt (sound : Sound s) {n : Nat} (last : s.last side = some n) : n < s.given := by
  rw [← sound.made]
  refine sound.counts.made (s.matchingThreads side) ?_ n (by rw [sound.stored, last])
  match side with
  | 0 => simp
  | 1 => simp

theorem Sound.purchaser (sound : Sound s) {next : Purchaser}
    (read : ∀ side ∈ next.side, side = darkSide s.activeSide)
    (alone : next.purchasing = true → Alone s) : Sound { s with purchaser := next } :=
  { sound with read, alone }

theorem Sound.handles (sound : Sound s) {handles : List Handle} {blocks : Blocks}
    (counts : blocks.Counts (s.matchingThreads 0 :: s.matchingThreads 1 :: handles.map Handle.pointer))
    (made : blocks.made = s.blocks.made) (numbers : (handles.map Handle.number).Nodup)
    (kept : ∀ handle ∈ handles, ∃ old ∈ s.handles,
      handle.number = old.number ∧ handle.pointer = old.pointer ∧ handle.side = old.side) :
    Sound { s with handles, blocks } :=
  { sound with
    counts
    numbers
    made := made.trans sound.made
    held := fun handle member => by
      obtain ⟨old, mem, number, pointer, _⟩ := kept handle member
      rw [number, pointer, sound.held old mem]
    sides := fun handle member side last => by
      obtain ⟨old, mem, number, _, same⟩ := kept handle member
      rw [same]
      exact sound.sides old mem side (number ▸ last)
    alone := fun purchasing handle member side dark => by
      obtain ⟨old, mem, number, _, _⟩ := kept handle member
      rw [number]
      exact sound.alone purchasing old mem side dark }

theorem element_dark {active : Int} (known : element active = some side) :
    element (darkSide active) ≠ some side := by
  unfold element at known
  split at known
  · cases known
    subst active
    decide
  · split at known
    · cases known
      subst active
      decide
    · cases known

theorem element_ne_neg {active : Int} (known : element active = some side) : active ≠ -1 := by
  rintro rfl
  simp [element] at known

theorem matchOnActiveSide_eq (sound : Sound s) (called : matchOnActiveSide s = some t) :
    ∃ side, element s.activeSide = some side ∧ t = { s with
      blocks := (s.blocks.own.release (s.matchingThreads side)).acquire ⟨none, some s.given⟩
      matchingThreads := update s.matchingThreads side ⟨none, some s.given⟩
      handles := ⟨s.given, ⟨none, some s.given⟩, s.activeSide, true⟩ :: s.handles
      given := s.given + 1
      last := update s.last side (some s.given) } := by
  unfold matchOnActiveSide at called
  obtain ⟨tested, known, called⟩ := Option.bind_eq_some_iff.mp called
  obtain ⟨side, again, called⟩ := Option.bind_eq_some_iff.mp called
  rw [if_neg (element_ne_neg known), known] at again
  cases again
  refine ⟨tested, known, ?_⟩
  simp only [sound.stored tested, Option.isNone_none, if_true, update_self, sound.made,
    Option.some.injEq] at called
  rw [← called, sound.stored tested]

theorem Sound.called (sound : Sound s) (called : matchOnActiveSide s = some t) : Sound t := by
  obtain ⟨side, known, rfl⟩ := matchOnActiveSide_eq sound called
  have fresh : ∀ other, s.last other ≠ some s.given :=
    fun other last => Nat.lt_irrefl _ (sound.last_lt last)
  constructor <;> dsimp only
  case active => exact sound.active
  case counts =>
    have made := sound.counts.own none
    rw [sound.made] at made
    match side with
    | 0 =>
      have released := (made.perm (.swap ..)).release
      exact (released.acquire (mem_cons_self ..)).perm (.cons _ (.swap ..))
    | 1 =>
      have released := (made.perm ((List.Perm.cons _ (.swap ..)).trans (.swap ..))).release
      refine (released.acquire (mem_cons_self ..)).perm ?_
      exact (List.Perm.cons _ (.swap ..)).trans (.swap ..)
  case made => simp [Blocks.own, sound.made]
  case stored =>
    intro other
    by_cases same : other = side
    · subst same
      simp
    · simp [update_of_ne same, sound.stored]
  case held =>
    intro handle member
    rcases mem_cons.mp member with rfl | member
    · rfl
    · exact sound.held handle member
  case numbers =>
    refine nodup_cons.mpr ⟨fun member => ?_, sound.numbers⟩
    obtain ⟨handle, mem, number⟩ := mem_map.mp member
    exact Nat.ne_of_lt (sound.number_lt mem) number
  case sides =>
    intro handle member other last
    by_cases same : other = side
    · subst same
      rw [update_self, Option.some.injEq] at last
      rcases mem_cons.mp member with rfl | member
      · exact known
      · exact absurd last.symm (Nat.ne_of_lt (sound.number_lt member))
    · rw [update_of_ne same] at last
      rcases mem_cons.mp member with rfl | member
      · exact absurd last (fresh other)
      · exact sound.sides handle member other last
  case apart =>
    intro one other n first second
    by_cases one_side : one = side <;> by_cases other_side : other = side
    · rw [one_side, other_side]
    · subst one_side
      rw [update_self] at first
      rw [update_of_ne other_side, ← first] at second
      exact absurd second (fresh other)
    · subst other_side
      rw [update_self] at second
      rw [update_of_ne one_side, ← second] at first
      exact absurd first (fresh one)
    · rw [update_of_ne one_side] at first
      rw [update_of_ne other_side] at second
      exact sound.apart one other n first second
  case read => exact sound.read
  case alone =>
    intro purchasing handle member other dark
    have differs : other ≠ side := fun same => element_dark known (same ▸ dark)
    dsimp only
    rw [update_of_ne differs]
    rcases mem_cons.mp member with rfl | member
    · exact fresh other
    · exact sound.alone purchasing handle member other dark

/-- What the count of a side says: the last handle alone. -/
theorem Sound.matchingThreads_eq (sound : Sound s) {n : Nat} (last : s.last side = some n) :
    matchingThreads s side = (s.handles.countP (fun handle => handle.number = n) : Int) := by
  have other : ∀ one, one ≠ side → (s.matchingThreads one).block ≠ some n := by
    intro one differs same
    rw [sound.stored] at same
    exact differs (sound.apart one side n same last)
  have own : (s.matchingThreads side).block = some n := by rw [sound.stored, last]
  have handles : (s.handles.map Handle.pointer).countP (fun pointer => pointer.block = some n) =
      s.handles.countP (fun handle => handle.number = n) := by
    rw [countP_map]
    refine countP_congr fun handle member => ?_
    simp [sound.held handle member]
  have count := sound.counts.counts n
  rw [countP_cons, countP_cons, handles] at count
  unfold matchingThreads Blocks.useCount
  rw [own, Option.elim_some, count]
  match side with
  | 0 => simp [own, other 1 (by decide)]
  | 1 => simp [own, other 0 (by decide)]

theorem Sound.matchingThreads_none (sound : Sound s) (last : s.last side = none) :
    matchingThreads s side = -1 := by
  simp [matchingThreads, Blocks.useCount, sound.stored, last]

theorem Sound.purchased (sound : Sound s) (moved : purchaserStep glue13 glue20 s = some t) : Sound t := by
  unfold purchaserStep at moved
  split at moved
  · cases moved
    exact sound.purchaser (fun side same => (Option.some.inj same).symm) nofun
  · rename_i side counting
    obtain ⟨counted, known, moved⟩ := Option.bind_eq_some_iff.mp moved
    cases moved
    have dark : side = darkSide s.activeSide := sound.read side (by rw [counting]; rfl)
    split
    · exact sound.purchaser nofun nofun
    · rename_i few
      refine sound.purchaser nofun fun _ handle member other found last => few ?_
      rw [← dark, known] at found
      cases found
      rw [sound.matchingThreads_eq last]
      exact_mod_cast countP_pos_iff.mpr ⟨handle, member, by simp⟩
  · obtain ⟨_, _, moved⟩ := Option.bind_eq_some_iff.mp moved
    cases moved
    exact sound.purchaser nofun nofun
  · cases moved
    have active : switchActiveSide s.activeSide = 0 ∨ switchActiveSide s.activeSide = 1 := by
      rcases sound.active with same | same | same <;> rw [same] <;> decide
    exact { sound with active := .inr active, read := nofun, alone := nofun }
  · rename_i reading
    cases moved
    exact sound.purchaser (fun side same => (Option.some.inj same).symm) fun _ => sound.alone
      (by rw [reading]; rfl)
  · rename_i working
    cases moved
    exact sound.purchaser nofun fun _ => sound.alone (by rw [working]; rfl)
  · cases moved
  · cases moved

theorem Sound.step (sound : Sound s) (taken : step glue13 glue20 s action = some t) : Sound t := by
  cases action with
  | matchOnActiveSide => exact sound.called taken
  | matched position =>
    obtain ⟨handle, found, taken⟩ := Option.bind_eq_some_iff.mp taken
    cases taken
    have same : ∀ {β : Type} (f : Handle → β), f { handle with matching := false } = f handle →
        (s.handles.set position { handle with matching := false }).map f = s.handles.map f := by
      intro β f equal
      obtain ⟨within, rfl⟩ := List.getElem?_eq_some_iff.mp found
      rw [map_set, equal, ← getElem_map f, set_getElem_self]
      simpa using within
    refine sound.handles ?_ rfl ?_ fun held member => ?_
    · rw [same Handle.pointer rfl]
      exact sound.counts
    · rw [same Handle.number rfl]
      exact sound.numbers
    · rcases mem_or_eq_of_mem_set member with member | rfl
      · exact ⟨held, member, rfl, rfl, rfl⟩
      · exact ⟨handle, mem_of_getElem? found, rfl, rfl, rfl⟩
  | release position =>
    obtain ⟨handle, found, taken⟩ := Option.bind_eq_some_iff.mp taken
    cases taken
    refine sound.handles ?_ (Blocks.release_made _ _) ?_ fun held member =>
      ⟨held, mem_of_mem_eraseIdx member, rfl, rfl, rfl⟩
    · obtain ⟨within, rfl⟩ := List.getElem?_eq_some_iff.mp found
      refine (sound.counts.perm ?_).release
      have apart := (getElem_cons_eraseIdx_perm within).map Handle.pointer
      exact (((apart.symm.cons _).trans (.swap ..)).cons _).trans (.swap ..) |>.trans (.cons _ (.refl _))
    · exact sound.numbers.sublist ((eraseIdx_sublist ..).map _)
  | purchase => exact sound.purchased taken
  | fail =>
    change (if _ then _ else _) = _ at taken
    split at taken
    · cases taken
      exact sound.purchaser nofun nofun
    · cases taken
  | rest again =>
    change (if _ then _ else _) = _ at taken
    split at taken
    · cases taken
      cases again <;> exact sound.purchaser nofun nofun
    · cases taken

/-! ### The counts, the indices and the purchaser -/

/-- Every side counts the handles that are held for it. -/
def Counted (s : State) : Prop := ∀ side, matchingThreads s side = ((heldFor s side).length : Int)

def InRange (s : State) (action : Action) : Prop := ∀ index ∈ indices s action, index = 0 ∨ index = 1

/-- No matcher goes through the side that the purchaser clears or populates. -/
def Undisturbed (s : State) : Prop :=
  ∀ index work rest, s.purchaser = .working index work rest →
    ∀ handle ∈ s.handles, handle.side = index → handle.matching = false

/-- A handle has been given out for every side, and only the last one of a side may still be held.
-/
def OnlyLastHeld (s : State) : Prop :=
  ∀ side, ∃ n, s.last side = some n ∧ ∀ handle ∈ heldFor s side, handle.number = n

/-- The matchers whose handle is not the last one of its side are through with the side the
purchaser works on. -/
def OlderDone (s : State) : Prop :=
  ∀ index work rest, s.purchaser = .working index work rest →
    ∀ handle ∈ s.handles, handle.side = index → (∀ side, s.last side ≠ some handle.number) →
      handle.matching = false

theorem Sound.counted_iff (sound : Sound s) (side : Fin 2) :
    matchingThreads s side = ((heldFor s side).length : Int) ↔
      ∃ n, s.last side = some n ∧ ∀ handle ∈ heldFor s side, handle.number = n := by
  cases last : s.last side with
  | none =>
    rw [sound.matchingThreads_none last]
    constructor
    · intro counted
      omega
    · rintro ⟨n, impossible, _⟩
      cases impossible
  | some n =>
    -- the last handle is among those held for the side
    have within : s.handles.countP (fun handle => handle.number = n) =
        (heldFor s side).countP (fun handle => handle.number = n) := by
      unfold heldFor
      rw [countP_filter]
      refine countP_congr fun handle member => ?_
      simp only [decide_eq_true_eq, Bool.and_eq_true, iff_self_and]
      rintro rfl
      exact sound.sides handle member side last
    rw [sound.matchingThreads_eq last, within, Int.natCast_inj, countP_eq_length]
    simp

theorem Sound.inRange_iff (sound : Sound s) (action : Action) :
    InRange s action ↔ (action = .matchOnActiveSide → s.activeSide ≠ -1) := by
  have active := sound.active
  have dark : darkSide s.activeSide = 0 ∨ darkSide s.activeSide = 1 := by
    rcases active with same | same | same <;> rw [same] <;> decide
  unfold InRange indices
  cases action with
  | matchOnActiveSide =>
    constructor
    · intro range _ unset
      have first := range (-1) (by simp [unset])
      omega
    · intro switched index member
      rcases active with unset | same | same
      · exact absurd unset (switched rfl)
      · simp_all
      · simp_all
  | purchase =>
    refine iff_of_true ?_ nofun
    cases purchaser : s.purchaser with
    | counting side =>
      rw [sound.read side (by rw [purchaser]; rfl)]
      simpa using dark
    | reporting =>
      rcases active with same | same | same <;> rw [same] <;> decide
    | reading work =>
      cases work with
      | nil => nofun
      | cons first rest => simpa using dark
    | testing | working _ _ _ | resting | exited => nofun
  | matched _ | release _ | fail | rest _ => exact iff_of_true nofun nofun

theorem Sound.undisturbed_iff (sound : Sound s) : Undisturbed s ↔ OlderDone s := by
  constructor
  · intro undisturbed index work rest working handle member there _
    exact undisturbed index work rest working handle member there
  · intro older index work rest working handle member there
    refine older index work rest working handle member there fun side last => ?_
    have dark := sound.read index (by rw [working]; rfl)
    have alone := sound.alone (by rw [working]; rfl) handle member side
    rw [← dark, ← there] at alone
    exact alone (sound.sides handle member side last) last

theorem sound_execute {actions : List Action}
    (reached : execute (step glue13 glue20) Free start actions = some s) :
    Sound s :=
  (Runs.start.execute reached).invariant sound_start fun _ _ _ sound _ taken => sound.step taken

/-- In every state of every run: the counts are right exactly if only last handles are held, a step
stays in the array exactly if it is no match before the first switch, and the purchaser disturbs no
matcher exactly if it finds none with an older handle at work. -/
theorem sides_kept_iff (glue13 glue20 : Bool) (actions : List Action)
    (reached : execute (step glue13 glue20) Free start actions = some s) (action : Action) :
    (Counted s ↔ OnlyLastHeld s) ∧ (InRange s action ↔ (action = .matchOnActiveSide → s.activeSide ≠ -1)) ∧
      (Undisturbed s ↔ OlderDone s) := by
  have sound := sound_execute reached
  exact ⟨forall_congr' sound.counted_iff, sound.inRange_iff action, sound.undisturbed_iff⟩

def view (s : State) : Purchaser × List Handle × (Option Nat × Option Nat) × Int :=
  (s.purchaser, s.handles, (s.last 0, s.last 1), matchingThreads s 0)

def oneCycle : List Action := List.replicate 11 .purchase ++ [.rest true]

def oneMatcherEach : List Action :=
  oneCycle ++ [.matchOnActiveSide, .release 0] ++ oneCycle ++ [.matchOnActiveSide] ++
    List.replicate 3 .purchase

theorem sides_kept_one_matcher_each :
    ∃ s, execute (step true false) Free start oneMatcherEach = some s ∧ Counted s ∧ Undisturbed s := by
  have reached : (execute (step true false) Free start oneMatcherEach).map view =
      some (.working 0 (.clear .ce) [.clear .se, .populate .ce, .populate .se],
        [⟨1, ⟨none, some 1⟩, 1, true⟩],
        (some 0, some 1), 0) := by decide +kernel
  obtain ⟨s, reached, seen⟩ := Option.map_eq_some_iff.mp reached
  simp only [view, Prod.mk.injEq] at seen
  obtain ⟨working, handles, ⟨first, second⟩, _⟩ := seen
  obtain ⟨counted, _, undisturbed⟩ := sides_kept_iff true false oneMatcherEach reached .purchase
  refine ⟨s, reached, counted.mpr fun side => ?_, undisturbed.mpr ?_⟩
  · match side with
    | 0 => exact ⟨0, first, by simp [heldFor, handles, element]⟩
    | 1 => exact ⟨1, second, by simp [heldFor, handles]⟩
  · intro index work rest at_work handle member there
    rw [working] at at_work
    cases at_work
    rw [handles] at member
    cases mem_singleton.mp member
    cases there

def olderMatcherLeft : List Action :=
  oneCycle ++ [.matchOnActiveSide, .matchOnActiveSide, .release 0] ++ oneCycle ++
    List.replicate 3 .purchase

def firstPurchaseFailed : List Action := List.replicate 6 .purchase ++ [.fail]

/-- At the start a side counts one handle less than none; the purchaser clears a side whose older
matcher is at work; a matcher after a failed first purchase uses the index -1. -/
theorem cleared_while_matching : ¬Counted start ∧
      (∃ s, execute (step true false) Free start olderMatcherLeft = some s ∧ ¬Counted s ∧ ¬Undisturbed s) ∧
      ∃ s, execute (step true false) Free start firstPurchaseFailed = some s ∧
        ¬InRange s .matchOnActiveSide := by
  refine ⟨fun counted => absurd (counted 0) (by decide), ?_, ?_⟩
  · have reached : (execute (step true false) Free start olderMatcherLeft).map view =
        some (.working 0 (.clear .ce) [.clear .se, .populate .ce, .populate .se],
          [⟨0, ⟨none, some 0⟩, 0, true⟩],
          (some 1, none), 0) := by decide +kernel
    obtain ⟨s, reached, seen⟩ := Option.map_eq_some_iff.mp reached
    simp only [view, Prod.mk.injEq] at seen
    obtain ⟨working, handles, _, count⟩ := seen
    refine ⟨s, reached, fun counted => ?_, fun undisturbed => ?_⟩
    · have first := counted 0
      rw [count, heldFor, handles] at first
      exact absurd first (by decide)
    · have matching := undisturbed 0 _ _ working _ (by rw [handles]; exact mem_cons_self ..) rfl
      cases matching
  · have reached : (execute (step true false) Free start firstPurchaseFailed).map State.activeSide =
        some (-1) := by
      decide +kernel
    obtain ⟨s, reached, unset⟩ := Option.map_eq_some_iff.mp reached
    refine ⟨s, reached, fun range => ?_⟩
    have index := range (-1) (by simp [indices, unset])
    omega

end Wms.Manager.Ism
