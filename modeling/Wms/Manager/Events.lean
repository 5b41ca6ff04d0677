import Wms.Lib.Multimap
import Wms.Lib.Transition

/-! The event queue of the workload manager (`events.cpp`).

Functions scheduled for now wait in the ready queue, those scheduled for later in the
waiting queue; any number of worker threads take them from the ready queue. The mutex
makes each stretch of `run` between two releases one step. A worker that waits on the
condition may continue at any time, notified or not. The clock is an argument of the
steps that read it, so nothing is assumed about its readings.
-/

set_option autoImplicit false

namespace Wms.Manager.Events

open Lib Function Multimap List

structure TimePriority where
  time : Int
  priority : Int
  deriving DecidableEq, Repr

/-- The comparator of the waiting queue; it is not strict. -/
def timeFirst (lhs rhs : TimePriority) : Prop := lhs.time ≤ rhs.time

def priorityFirst (lhs rhs : TimePriority) : Prop :=
  lhs.priority < rhs.priority ∨ lhs.priority = rhs.priority ∧ lhs.time < rhs.time

instance : DecidableRel timeFirst := fun lhs rhs => inferInstanceAs (Decidable (lhs.time ≤ rhs.time))

instance : DecidableRel priorityFirst := fun lhs rhs =>
  inferInstanceAs (Decidable
    (lhs.priority < rhs.priority ∨ lhs.priority = rhs.priority ∧ lhs.time < rhs.time))

abbrev Entry (F : Type) := TimePriority × F

structure Impl (F : Type) where
  shutdown : Bool := false
  ready : List (Entry F) := []
  waiting : List (Entry F) := []
  deriving DecidableEq

variable {F : Type}

def expiredToReady (now : Int) (m : Impl F) : Impl F :=
  let comp : TimePriority := ⟨now, 0⟩
  { m with
    ready := insertRange priorityFirst (below timeFirst comp m.waiting) m.ready
    waiting := above timeFirst comp m.waiting }

/-- A call of `schedule` or `schedule_at` that has made its entry and waits for the mutex. -/
inductive Call (F : Type) where
  | schedule (entry : Entry F)
  | scheduleAt (entry : Entry F)
  deriving DecidableEq

def Call.entry : Call F → Entry F
  | .schedule entry | .scheduleAt entry => entry

def Call.insert : Call F → Impl F → Impl F
  | .schedule entry, m => { m with ready := Multimap.insert priorityFirst entry m.ready }
  | .scheduleAt entry, m => { m with waiting := Multimap.insert timeFirst entry m.waiting }

inductive Worker (F : Type) where
  | outside
  | waits
  /-- in `cond.timed_wait`; the time is absent when it was read off an empty queue -/
  | waitsUntil (wake : Option Int)
  | runs (entry : Entry F)
  | exited
  deriving DecidableEq

structure Stretch (F : Type) where
  worker : Worker F
  impl : Impl F
  readings : List Int

/-- From the test of the inner loop to the next release of the mutex. -/
def serve (now : Int) (m : Impl F) : Stretch F :=
  if m.shutdown then ⟨.exited, m, [now]⟩
  else match m.ready with
    -- waiting.begin() is read without a test that the queue has a first element
    | [] => ⟨.waitsUntil (m.waiting.head?.map fun e => e.1.time), m, [now]⟩
    | e :: rest => ⟨.runs e, { m with ready := rest }, [now]⟩

/-- After `timed_wait`: the clock is read again and only the inner test is repeated. -/
def wake (now : Int) (m : Impl F) : Stretch F := serve now (expiredToReady now m)

/-- From the lock, or from the end of `wait`: the test of the first loop comes first. -/
def enter (now : Int) (m : Impl F) : Stretch F :=
  if m.shutdown then ⟨.exited, m, []⟩
  else if m.ready = [] ∧ m.waiting = [] then ⟨.waits, m, []⟩
  else wake now m

structure Taking (F : Type) where
  worker : Nat
  now : Int
  entry : Entry F
  deriving DecidableEq

/-- The queue, its threads and its callers. The last three fields record the run: the
entries inserted, the entries taken and the clock readings, in order. -/
structure World (F : Type) where
  impl : Impl F
  workers : Nat → Worker F
  calls : List (Call F)
  scheduled : List (Entry F)
  taken : List (Taking F)
  readings : List Int

def World.start (F : Type) : World F := ⟨{}, fun _ => .outside, [], [], [], []⟩

def Stretch.takes (s : Stretch F) : List (Entry F) :=
  match s.worker with
  | .runs e => [e]
  | _ => []

def World.after (w : World F) (worker : Nat) (now : Int) (s : Stretch F) : World F :=
  { w with
    impl := s.impl
    workers := update w.workers worker s.worker
    taken := w.taken ++ s.takes.map (⟨worker, now, ·⟩)
    readings := w.readings ++ s.readings }

inductive Action (F : Type) where
  | schedule (f : F) (priority now : Int)
  | scheduleAt (f : F) (time priority : Int)
  | insert (call : Nat)
  | enter (worker : Nat) (now : Int)
  | wake (worker : Nat) (now : Int)
  | finish (worker : Nat)
  | stop
  deriving DecidableEq

def step (w : World F) : Action F → Option (World F)
  | .schedule f priority now => some { w with
      -- the clock is read before the mutex is locked
      calls := w.calls ++ [.schedule (⟨now, priority⟩, f)]
      readings := w.readings ++ [now] }
  | .scheduleAt f time priority => some { w with
      calls := w.calls ++ [.scheduleAt (⟨time, priority⟩, f)] }
  | .insert n => w.calls[n]?.map fun call => { w with
      impl := call.insert w.impl
      calls := w.calls.eraseIdx n
      scheduled := w.scheduled ++ [call.entry] }
  | .enter i now => match w.workers i with
    | .outside | .waits => some (w.after i now (Events.enter now w.impl))
    | _ => none
  | .wake i now => match w.workers i with
    | .waitsUntil _ => some (w.after i now (Events.wake now w.impl))
    | _ => none
  | .finish i => match w.workers i with
    | .runs _ => some { w with workers := update w.workers i .outside }
    | _ => none
  | .stop => some { w with impl := { w.impl with shutdown := true } }

abbrev Reachable (w : World F) : Prop := Runs step (World.start F) Free w

/-! ### The queues keep their order -/

theorem timeFirst_decides : Decides timeFirst timeFirst where
  before _ _ ahead := ahead
  after a b behind := by
    unfold timeFirst at *
    omega
  transitive a b c := by
    unfold timeFirst
    omega

/-- The order of the ready queue: the later entry is not to be served before the earlier. -/
def priorityLe (lhs rhs : TimePriority) : Prop := ¬ priorityFirst rhs lhs

theorem priorityFirst_decides : Decides priorityFirst priorityLe where
  before a b := by
    unfold priorityLe priorityFirst
    omega
  after _ _ behind := behind
  transitive a b c := by
    unfold priorityLe priorityFirst
    omega

structure Impl.Ordered (m : Impl F) : Prop where
  waiting : Sorted timeFirst m.waiting
  ready : Sorted priorityLe m.ready

variable {m : Impl F} {now : Int} {w w' : World F} {a : Action F}

theorem Impl.Ordered.expired (ordered : m.Ordered) (now : Int) :
    (expiredToReady now m).Ordered where
  waiting := ordered.waiting.above _
  ready := priorityFirst_decides.sorted_insertRange _ ordered.ready

theorem Impl.Ordered.insert (ordered : m.Ordered) (call : Call F) : (call.insert m).Ordered := by
  cases call with
  | schedule entry => exact ⟨ordered.waiting, priorityFirst_decides.sorted_insert ordered.ready entry⟩
  | scheduleAt entry => exact ⟨timeFirst_decides.sorted_insert ordered.waiting entry, ordered.ready⟩

theorem Impl.Ordered.not_expired (ordered : m.Ordered) {e : Entry F}
    (member : e ∈ (expiredToReady now m).waiting) : now < e.1.time := by
  have late : ¬ timeFirst e.1 ⟨now, 0⟩ :=
    ordered.waiting.not_comp_of_mem_above timeFirst
      (fun _ _ _ => timeFirst_decides.transitive _ _ _) member
  exact Int.not_le.mp late

theorem perm_expired (now : Int) (m : Impl F) :
    ((expiredToReady now m).waiting ++ (expiredToReady now m).ready).Perm (m.waiting ++ m.ready) := by
  let probe : TimePriority := ⟨now, 0⟩
  have split := below_append_above timeFirst probe m.waiting
  have moved : (expiredToReady now m).ready.Perm (below timeFirst probe m.waiting ++ m.ready) :=
    perm_insertRange _ _
  refine (moved.append_left _).trans ?_
  conv => rhs; rw [← split]
  rw [← append_assoc]
  exact perm_append_comm.append_right _

theorem mem_ready_expired {e : Entry F} (member : e ∈ (expiredToReady now m).ready) :
    e ∈ m.ready ∨ e.1.time ≤ now := by
  rcases mem_append.mp ((perm_insertRange _ _).mem_iff.mp member) with moved | ready
  · exact .inr (comp_of_mem_below moved)
  · exact .inl ready

theorem Impl.Ordered.mem_ready (ordered : m.Ordered) {e : Entry F}
    (due : e ∈ m.ready ∨ e ∈ m.waiting ∧ e.1.time ≤ now) : e ∈ (expiredToReady now m).ready := by
  have member : e ∈ m.waiting ++ m.ready :=
    mem_append.mpr (due.symm.imp (fun expired => expired.1) id)
  rcases mem_append.mp ((perm_expired now m).mem_iff.mpr member) with more | ready
  · rcases due with ready | ⟨-, expired⟩
    · exact (perm_insertRange _ _).mem_iff.mpr (mem_append_right _ ready)
    · exact absurd (ordered.not_expired more) (Int.not_lt.mpr expired)
  · exact ready

/-! ### One stretch of a worker -/

section Stretch

variable {now : Int} {m : Impl F}

/-- The ways a stretch can end after the expired entries have become ready. -/
theorem serve_cases (now : Int) (m : Impl F) : m.shutdown = true ∧ serve now m = ⟨.exited, m, [now]⟩ ∨
    m.shutdown = false ∧ m.ready = [] ∧
      serve now m = ⟨.waitsUntil (m.waiting.head?.map fun e => e.1.time), m, [now]⟩ ∨
    m.shutdown = false ∧ ∃ e rest, m.ready = e :: rest ∧
      serve now m = ⟨.runs e, { m with ready := rest }, [now]⟩ := by
  unfold serve
  cases m.shutdown with
  | true => exact .inl ⟨rfl, rfl⟩
  | false =>
    cases m.ready with
    | nil => exact .inr (.inl ⟨rfl, rfl, rfl⟩)
    | cons e rest => exact .inr (.inr ⟨rfl, e, rest, rfl, rfl⟩)

structure Stretch.Sound (now : Int) (m : Impl F) (s : Stretch F) : Prop where
  ordered : m.Ordered → s.impl.Ordered
  entries : (s.impl.waiting ++ s.impl.ready ++ s.takes).Perm (m.waiting ++ m.ready)
  due : ∀ e ∈ s.impl.ready ++ s.takes, e ∈ m.ready ∨ e.1.time ≤ now ∧ now ∈ s.readings
  minimal : m.Ordered → ∀ e ∈ s.takes, s.readings = [now] ∧
    ∀ other, other ∈ m.ready ∨ other ∈ m.waiting ∧ other.1.time ≤ now →
      ¬ priorityFirst other.1 e.1

theorem Stretch.Sound.idle (worker : Worker F) (readings : List Int)
    (takes : Stretch.takes ⟨worker, m, readings⟩ = []) :
    Stretch.Sound now m ⟨worker, m, readings⟩ where
  ordered := id
  entries := by simp [takes]
  due e member := .inl (by simpa [takes] using member)
  minimal _ e member := by simp [takes] at member

theorem wake_sound (now : Int) (m : Impl F) : (wake now m).Sound now m := by
  unfold wake
  have due (e : Entry F) (member : e ∈ (expiredToReady now m).ready) :
      e ∈ m.ready ∨ e.1.time ≤ now ∧ now ∈ [now] :=
    (mem_ready_expired member).imp_right fun expired => ⟨expired, mem_singleton_self now⟩
  have idle (worker : Worker F) (takes : Stretch.takes ⟨worker, expiredToReady now m, [now]⟩ = []) :
      Stretch.Sound now m ⟨worker, expiredToReady now m, [now]⟩ :=
    ⟨fun ordered => ordered.expired now, by simpa [takes] using perm_expired now m,
      fun e member => due e (by simpa [takes] using member), fun _ _ member => by simp [takes] at member⟩
  rcases serve_cases now (expiredToReady now m) with
    ⟨-, shape⟩ | ⟨-, -, shape⟩ | ⟨-, e, rest, first, shape⟩ <;> rw [shape]
  · exact idle _ rfl
  · exact idle _ rfl
  · refine ⟨fun ordered => ?_, ?_, fun other member => due other ?_, fun ordered taken member => ?_⟩
    · have sorted := (ordered.expired now).ready
      rw [first] at sorted
      exact ⟨(ordered.expired now).waiting, (pairwise_cons.mp sorted).2⟩
    · refine .trans ?_ (perm_expired now m)
      rw [first, append_assoc]
      exact perm_append_comm.append_left _
    · rw [first]
      simpa [Stretch.takes, or_comm] using member
    · cases mem_singleton.mp member
      refine ⟨rfl, fun other candidate => ?_⟩
      have sorted := (ordered.expired now).ready
      have ready := ordered.mem_ready candidate
      rw [first] at sorted ready
      rcases mem_cons.mp ready with rfl | later
      · unfold priorityFirst
        omega
      · exact (pairwise_cons.mp sorted).1 other later

theorem enter_sound (now : Int) (m : Impl F) : (enter now m).Sound now m := by
  unfold enter
  split
  · exact .idle _ _ rfl
  · split
    · exact .idle _ _ rfl
    · exact wake_sound now m

end Stretch

/-! ### Runs -/

section Inversion

variable {w w' : World F} {i : Nat} {now : Int}

theorem step_enter (taken : step w (.enter i now) = some w') :
    (w.workers i = .outside ∨ w.workers i = .waits) ∧ w' = w.after i now (enter now w.impl) := by
  simp only [step] at taken
  split at taken
  · rename_i place
    exact ⟨.inl place, (Option.some.inj taken).symm⟩
  · rename_i place
    exact ⟨.inr place, (Option.some.inj taken).symm⟩
  · cases taken

theorem step_wake (taken : step w (.wake i now) = some w') :
    (∃ t, w.workers i = .waitsUntil t) ∧ w' = w.after i now (wake now w.impl) := by
  simp only [step] at taken
  split at taken
  · rename_i t place
    exact ⟨⟨t, place⟩, (Option.some.inj taken).symm⟩
  · cases taken

theorem step_finish (taken : step w (.finish i) = some w') :
    w' = { w with workers := update w.workers i .outside } := by
  simp only [step] at taken
  split at taken
  · exact (Option.some.inj taken).symm
  · cases taken

end Inversion

structure World.Accounted (w : World F) : Prop where
  ordered : w.impl.Ordered
  entries : w.scheduled.Perm (w.impl.waiting ++ w.impl.ready ++ w.taken.map Taking.entry)
  dueReady : ∀ e ∈ w.impl.ready, ∃ reading ∈ w.readings, e.1.time ≤ reading
  dueCalls : ∀ e, Call.schedule e ∈ w.calls → ∃ reading ∈ w.readings, e.1.time ≤ reading

theorem due_later {time : Int} {readings more : List Int} (due : ∃ reading ∈ readings, time ≤ reading) :
    ∃ reading ∈ readings ++ more, time ≤ reading :=
  due.imp fun _ reached => reached.imp_left (mem_append_left _)

theorem World.Accounted.start : (World.start F).Accounted where
  ordered := ⟨.nil, .nil⟩
  entries := .refl _
  dueReady := by simp [World.start]
  dueCalls := by simp [World.start]

theorem World.Accounted.after (accounted : w.Accounted) {i : Nat} {s : Stretch F}
    (sound : s.Sound now w.impl) :
    (w.after i now s).Accounted where
  ordered := sound.ordered accounted.ordered
  entries := by
    refine accounted.entries.trans ?_
    have held := (sound.entries.symm.append_right (w.taken.map Taking.entry))
    simp only [World.after, map_append, map_map, comp_def, map_id']
    refine held.trans ?_
    rw [append_assoc, append_assoc, append_assoc]
    exact (perm_append_comm.append_left _).append_left _
  dueReady e member := by
    rcases sound.due e (mem_append_left _ member) with ready | ⟨expired, read⟩
    · exact due_later (accounted.dueReady e ready)
    · exact ⟨now, mem_append_right _ read, expired⟩
  dueCalls e call := due_later (accounted.dueCalls e call)

theorem World.Accounted.inserted (accounted : w.Accounted) {n : Nat} {call : Call F}
    (pending : w.calls[n]? = some call) : World.Accounted { w with
      impl := call.insert w.impl
      calls := w.calls.eraseIdx n
      scheduled := w.scheduled ++ [call.entry] } where
  ordered := accounted.ordered.insert call
  entries := by
    have added : (w.scheduled ++ [call.entry]).Perm
        (call.entry :: (w.impl.waiting ++ w.impl.ready ++ w.taken.map Taking.entry)) :=
      perm_append_comm.trans (accounted.entries.cons call.entry)
    refine added.trans ?_
    cases call with
    | schedule e =>
      have held : (e :: w.impl.ready).Perm (Multimap.insert priorityFirst e w.impl.ready) :=
        (Multimap.perm_insert e w.impl.ready).symm
      rw [← cons_append]
      exact (perm_middle.symm.trans (held.append_left _)).append_right _
    | scheduleAt e =>
      have held : (e :: w.impl.waiting).Perm (Multimap.insert timeFirst e w.impl.waiting) :=
        (Multimap.perm_insert e w.impl.waiting).symm
      exact (held.append_right _).append_right _
  dueReady e member := by
    cases call with
    | schedule entry =>
      rcases mem_cons.mp ((Multimap.perm_insert _ _).mem_iff.mp member) with rfl | ready
      · exact accounted.dueCalls e (mem_of_getElem? pending)
      · exact accounted.dueReady e ready
    | scheduleAt entry => exact accounted.dueReady e member
  dueCalls e member := accounted.dueCalls e (mem_of_mem_eraseIdx member)

theorem World.Accounted.step (accounted : w.Accounted) (taken : step w a = some w') : w'.Accounted := by
  cases a with
  | schedule f priority now =>
    cases taken
    refine ⟨accounted.ordered, accounted.entries, fun e ready => due_later (accounted.dueReady e ready),
      fun e call => ?_⟩
    rcases mem_append.mp call with pending | new
    · exact due_later (accounted.dueCalls e pending)
    · cases mem_singleton.mp new
      exact ⟨now, by simp, Int.le_refl _⟩
  | scheduleAt f time priority =>
    cases taken
    exact ⟨accounted.ordered, accounted.entries, accounted.dueReady,
      fun e call => accounted.dueCalls e (by simpa using call)⟩
  | insert n =>
    obtain ⟨call, pending, rfl⟩ := Option.map_eq_some_iff.mp taken
    exact accounted.inserted pending
  | enter i now =>
    obtain ⟨-, rfl⟩ := step_enter taken
    exact accounted.after (enter_sound now w.impl)
  | wake i now =>
    obtain ⟨-, rfl⟩ := step_wake taken
    exact accounted.after (wake_sound now w.impl)
  | finish i =>
    cases step_finish taken
    exact ⟨accounted.ordered, accounted.entries, accounted.dueReady, accounted.dueCalls⟩
  | stop =>
    cases taken
    exact ⟨⟨accounted.ordered.waiting, accounted.ordered.ready⟩, accounted.entries,
      accounted.dueReady, accounted.dueCalls⟩

theorem Reachable.accounted (run : Reachable w) : w.Accounted :=
  run.invariant .start fun _ _ _ accounted _ taken => accounted.step taken

theorem step_taking (taken : step w a = some w') {t : Taking F} (takes : w'.taken = w.taken ++ [t]) :
    ∃ s : Stretch F, s.Sound t.now w.impl ∧ t.entry ∈ s.takes ∧
      w'.readings = w.readings ++ s.readings := by
  have none_taken (same : w'.taken = w.taken) : False := by
    rw [same] at takes
    simpa using congrArg List.length takes
  have of_after {i : Nat} {now : Int} {s : Stretch F} (sound : s.Sound now w.impl)
      (shape : w' = w.after i now s) : ∃ s : Stretch F, s.Sound t.now w.impl ∧
        t.entry ∈ s.takes ∧ w'.readings = w.readings ++ s.readings := by
    subst shape
    have listed : s.takes.map (Taking.mk i now) = [t] := append_cancel_left takes
    obtain ⟨e, member, rfl⟩ := mem_map.mp (listed ▸ mem_singleton_self t)
    exact ⟨s, sound, member, rfl⟩
  cases a with
  | schedule | scheduleAt | stop =>
    cases taken
    exact (none_taken rfl).elim
  | insert n =>
    obtain ⟨call, -, rfl⟩ := Option.map_eq_some_iff.mp taken
    exact (none_taken rfl).elim
  | enter i now => exact of_after (enter_sound now w.impl) (step_enter taken).2
  | wake i now => exact of_after (wake_sound now w.impl) (step_wake taken).2
  | finish i =>
    cases step_finish taken
    exact (none_taken rfl).elim

/-- Along every interleaving each scheduled entry is in exactly one place, and is taken only
when no ready and no expired entry is to be served before it. The time of an entry has been
reached by some reading of the clock when it is taken; it is the taking worker's own reading
that has reached it as long as readings never go back. -/
theorem entries_taken_once_in_order {w : World F} (run : Reachable w) :
    w.scheduled.Perm (w.impl.waiting ++ w.impl.ready ++ w.taken.map Taking.entry) ∧
    ∀ a w' t, step w a = some w' → w'.taken = w.taken ++ [t] →
      (∃ reading ∈ w'.readings, t.entry.1.time ≤ reading) ∧
      (w'.readings.Pairwise (· ≤ ·) → t.entry.1.time ≤ t.now) ∧
        (∀ e ∈ w.impl.ready, ¬ priorityFirst e.1 t.entry.1) ∧
      ∀ e ∈ w.impl.waiting, e.1.time ≤ t.now → ¬ priorityFirst e.1 t.entry.1 := by
  have accounted := run.accounted
  refine ⟨accounted.entries, fun a w' t taken takes => ?_⟩
  obtain ⟨s, sound, member, readings⟩ := step_taking taken takes
  obtain ⟨read, least⟩ := sound.minimal accounted.ordered _ member
  rw [read] at readings
  have due : ∃ reading ∈ w'.readings, t.entry.1.time ≤ reading := by
    rw [readings]
    rcases sound.due _ (mem_append_right _ member) with ready | ⟨expired, -⟩
    · exact due_later (accounted.dueReady _ ready)
    · exact ⟨t.now, by simp, expired⟩
  refine ⟨due, fun monotone => ?_, fun e ready => least e (.inl ready),
    fun e waiting expired => least e (.inr ⟨waiting, expired⟩)⟩
  obtain ⟨reading, made, bound⟩ := due
  -- the taking worker's reading is the last one
  rw [readings] at made monotone
  rcases mem_append.mp made with earlier | last
  · exact Int.le_trans bound ((pairwise_append.mp monotone).2.2 reading earlier t.now (by simp))
  · cases mem_singleton.mp last
    exact bound

def twoDue : List (Action Unit) :=
  [.scheduleAt () 10 60, .insert 0, .scheduleAt () 10 60, .insert 0, .enter 0 10]

theorem entries_taken_once_in_order_two : ∃ w w' : World Unit, Reachable w ∧
    step w (.enter 1 11) = some w' ∧ w'.taken.length = 2 ∧
    ∀ t, w'.taken = w.taken ++ [t] → w'.readings.Pairwise (· ≤ ·) → t.entry.1.time ≤ t.now := by
  obtain ⟨w, done⟩ : ∃ w, execute step Free (World.start Unit) twoDue = some w := ⟨_, rfl⟩
  have run : Reachable w := Runs.start.execute done
  obtain ⟨w', taken, two⟩ : ∃ w', step w (.enter 1 11) = some w' ∧ w'.taken.length = 2 := by
    cases done
    exact ⟨_, rfl, rfl⟩
  exact ⟨w, w', run, taken, two, fun t takes monotone =>
    ((entries_taken_once_in_order run).2 _ w' t taken takes).2.1 monotone⟩

/-- A reading that goes back: the second worker takes an entry before its time. -/
theorem entry_taken_before_its_time : ∃ w : World Unit, Reachable w ∧ ∃ t ∈ w.taken,
    t.now < t.entry.1.time := by
  obtain ⟨w, done⟩ : ∃ w, execute step Free (World.start Unit) (twoDue ++ [.enter 1 5]) = some w :=
    ⟨_, rfl⟩
  have run : Reachable w := Runs.start.execute done
  cases done
  exact ⟨_, run, ⟨1, 5, ⟨⟨10, 60⟩, ()⟩⟩, by decide, by decide⟩

/-! ### The wake-up time of a timed wait -/

theorem expiredToReady_eq_nil (now : Int) (m : Impl F) :
    (expiredToReady now m).ready = [] ∧ (expiredToReady now m).waiting = [] ↔ m.ready = [] ∧
      m.waiting = [] := by
  have held := (perm_expired now m).length_eq
  simp only [length_append] at held
  simp only [← length_eq_zero_iff]
  omega

/-- A worker that comes back from `timed_wait` reads the first of the waiting entries
without asking whether another worker has taken the last one. -/
theorem wake_reads_empty_iff : (wake now m).worker = .waitsUntil none ↔
      m.shutdown = false ∧ m.ready = [] ∧ m.waiting = [] := by
  have running : (expiredToReady now m).shutdown = m.shutdown := rfl
  unfold wake
  constructor
  · intro reads
    rcases serve_cases now (expiredToReady now m) with
      ⟨-, shape⟩ | ⟨opened, none_ready, shape⟩ | ⟨-, e, rest, -, shape⟩ <;> rw [shape] at reads
    · cases reads
    · have first : (expiredToReady now m).waiting.head? = none := by simpa using reads
      exact ⟨running ▸ opened, (expiredToReady_eq_nil now m).mp ⟨none_ready, head?_eq_none_iff.mp first⟩⟩
    · cases reads
  · rintro ⟨opened, empty⟩
    obtain ⟨none_ready, none_waiting⟩ := (expiredToReady_eq_nil now m).mpr empty
    simp [serve, running, opened, none_ready, none_waiting]

theorem enter_reads_entry : (enter now m).worker ≠ .waitsUntil none := by
  unfold enter
  split
  · simp
  · split
    · simp
    · rename_i filled
      exact fun reads => filled (wake_reads_empty_iff.mp reads).2

def Action.worker : Action F → Option Nat
  | .enter i _ | .wake i _ | .finish i => some i
  | _ => none

/-- A worker that comes back from `timed_wait` finds an entry in one of the queues, or the
queue is being shut down. -/
def WakesToEntries (w : World F) : Action F → Prop
  | .wake _ _ => w.impl.shutdown = true ∨ w.impl.ready ≠ [] ∨ w.impl.waiting ≠ []
  | _ => True

/-- The wake-up time a worker has just computed was read off an empty queue. -/
def World.ReadsEmpty (w' : World F) (a : Action F) : Prop :=
  ∃ i, a.worker = some i ∧ w'.workers i = .waitsUntil none

theorem World.after_worker {i : Nat} {s : Stretch F} : (w.after i now s).workers i = s.worker := by
  simp [World.after]

theorem step_reads_empty_iff (taken : step w a = some w') : w'.ReadsEmpty a ↔ ¬ WakesToEntries w a := by
  cases a with
  | enter i now =>
    obtain ⟨-, rfl⟩ := step_enter taken
    simp [World.ReadsEmpty, Action.worker, WakesToEntries, World.after_worker, enter_reads_entry]
  | wake i now =>
    obtain ⟨-, rfl⟩ := step_wake taken
    simp [World.ReadsEmpty, Action.worker, WakesToEntries, World.after_worker, wake_reads_empty_iff]
  | finish i =>
    cases step_finish taken
    simp [World.ReadsEmpty, Action.worker, WakesToEntries]
  | schedule | scheduleAt | insert | stop => simp [World.ReadsEmpty, Action.worker, WakesToEntries]

theorem step_other_worker (taken : step w a = some w') {i : Nat} (other : a.worker ≠ some i) :
    w'.workers i = w.workers i := by
  cases a with
  | enter j now =>
    obtain ⟨-, rfl⟩ := step_enter taken
    exact update_of_ne (fun same => other (congrArg some same.symm)) _ _
  | wake j now =>
    obtain ⟨-, rfl⟩ := step_wake taken
    exact update_of_ne (fun same => other (congrArg some same.symm)) _ _
  | finish j =>
    cases step_finish taken
    exact update_of_ne (fun same => other (congrArg some same.symm)) _ _
  | schedule | scheduleAt | stop =>
    cases taken
    rfl
  | insert n =>
    obtain ⟨call, -, rfl⟩ := Option.map_eq_some_iff.mp taken
    rfl

theorem reads_entries_of_wakes (run : Runs step (World.start F) WakesToEntries w) :
    ∀ i, w.workers i ≠ .waitsUntil none := by
  induction run with
  | start => simp [World.start]
  | @next s t a _ met taken ih =>
    intro i reads
    by_cases acts : a.worker = some i
    · exact (step_reads_empty_iff taken).mp ⟨i, acts, reads⟩ met
    · exact ih i (step_other_worker taken acts ▸ reads)

/-- A step of a run reads its wake-up time off an empty queue exactly when a worker comes
back from `timed_wait` to two empty queues; a run without such steps never does. -/
theorem wakeup_time_read_iff : (∀ (w w' : World F) (a : Action F), Reachable w → step w a = some w' →
      (w'.ReadsEmpty a ↔ ¬ WakesToEntries w a)) ∧ ∀ w : World F,
        Runs step (World.start F) WakesToEntries w →
      ∀ i, w.workers i ≠ .waitsUntil none :=
  ⟨fun _ _ _ _ taken => step_reads_empty_iff taken, fun _ run => reads_entries_of_wakes run⟩

/-- Two workers and one entry: the first waits for its time, the second takes it. -/
theorem wakeup_time_read_off_empty_queue : ∃ w w' : World Unit, Reachable w ∧
    step w (.wake 0 10) = some w' ∧ w'.workers 0 = .waitsUntil none := by
  obtain ⟨w, done⟩ : ∃ w, execute step Free (World.start Unit)
      [.scheduleAt () 10 60, .insert 0, .enter 0 5, .enter 1 10] = some w := ⟨_, rfl⟩
  have run : Reachable w := Runs.start.execute done
  cases done
  exact ⟨_, _, run, rfl, rfl⟩

/-! ### One worker -/

def OneWorker (_ : World F) (a : Action F) : Prop := ∀ i ∈ a.worker, i = 0

instance (w : World F) (a : Action F) : Decidable (OneWorker w a) :=
  inferInstanceAs (Decidable (∀ i ∈ a.worker, i = 0))

structure World.KeepsEntry (w : World F) : Prop where
  others : ∀ i, i ≠ 0 → w.workers i = .outside
  entry : ∀ t, w.workers 0 = .waitsUntil t → w.impl.ready ≠ [] ∨ w.impl.waiting ≠ []

theorem wake_keeps_entry {t : Option Int} (waits : (wake now m).worker = .waitsUntil t)
    (filled : m.ready ≠ [] ∨ m.waiting ≠ []) : (wake now m).impl.waiting ≠ [] := by
  unfold wake at *
  rcases serve_cases now (expiredToReady now m) with
    ⟨-, shape⟩ | ⟨-, none_ready, shape⟩ | ⟨-, e, rest, -, shape⟩ <;> rw [shape] at waits ⊢
  · cases waits
  · intro none_waiting
    have empty := (expiredToReady_eq_nil now m).mp ⟨none_ready, none_waiting⟩
    exact filled.elim (· empty.1) (· empty.2)
  · cases waits

theorem enter_keeps_entry {t : Option Int} (waits : (enter now m).worker = .waitsUntil t) :
    (enter now m).impl.waiting ≠ [] := by
  unfold enter at *
  split at waits
  · cases waits
  · split at waits
    · cases waits
    · rename_i running filled
      rw [if_neg running, if_neg filled]
      exact wake_keeps_entry waits (by tauto)

theorem World.KeepsEntry.step (keeps : w.KeepsEntry) (one : OneWorker w a) (taken : step w a = some w') :
    w'.KeepsEntry := by
  have others (i : Nat) (other : i ≠ 0) : w'.workers i = .outside := by
    rw [step_other_worker taken fun acts => other (one i acts), keeps.others i other]
  refine ⟨others, fun t waits => ?_⟩
  cases a with
  | enter i now =>
    obtain ⟨-, rfl⟩ := step_enter taken
    cases one i rfl
    rw [World.after_worker] at waits
    exact .inr (enter_keeps_entry waits)
  | wake i now =>
    obtain ⟨⟨u, waiting⟩, rfl⟩ := step_wake taken
    cases one i rfl
    rw [World.after_worker] at waits
    exact .inr (wake_keeps_entry waits (keeps.entry u waiting))
  | finish i =>
    cases step_finish taken
    cases one i rfl
    simp at waits
  | schedule | scheduleAt | stop =>
    cases taken
    exact keeps.entry t waits
  | insert n =>
    obtain ⟨call, -, rfl⟩ := Option.map_eq_some_iff.mp taken
    cases call with
    | schedule e => exact .inl (Multimap.insert_ne_nil e w.impl.ready)
    | scheduleAt e => exact .inr (Multimap.insert_ne_nil e w.impl.waiting)

/-- With one worker nobody else takes entries: what it waits for is still there. -/
theorem one_worker_reads_entries (run : Runs step (World.start F) OneWorker w) :
    ∀ i, w.workers i ≠ .waitsUntil none := by
  have initial : (World.start F).KeepsEntry := ⟨fun _ _ => rfl, fun _ waits => by cases waits⟩
  have preserved (s : World F) (a : Action F) (t : World F) (keeps : s.KeepsEntry)
      (one : OneWorker s a) (taken : step s a = some t) : t.KeepsEntry := keeps.step one taken
  apply reads_entries_of_wakes
  apply run.guarded initial preserved
  intro s a t keeps one taken
  cases a with
  | wake i now =>
    obtain ⟨⟨u, waiting⟩, -⟩ := step_wake taken
    cases one i rfl
    exact .inr (keeps.entry u waiting)
  | _ => trivial

theorem one_worker_waits : ∃ w : World Unit, Runs step (World.start Unit) OneWorker w ∧
    w.workers 0 = .waitsUntil (some 10) ∧ ∀ i, w.workers i ≠ .waitsUntil none := by
  obtain ⟨w, done, waits⟩ : ∃ w, execute step OneWorker (World.start Unit)
      [.scheduleAt () 10 60, .insert 0, .enter 0 5] = some w ∧ w.workers 0 = .waitsUntil
        (some 10) := ⟨_, rfl, rfl⟩
  have run : Runs step (World.start Unit) OneWorker w := Runs.start.execute done
  exact ⟨w, run, waits, one_worker_reads_entries run⟩

/-! ### After `stop` -/

/-- Nothing has been taken since `w`, and a worker that has moved is outside or has ended. -/
structure World.Stopped (w w' : World F) : Prop where
  shutdown : w'.impl.shutdown = true
  taken : w'.taken = w.taken
  workers : ∀ i, w'.workers i = w.workers i ∨ w'.workers i = .outside ∨ w'.workers i = .exited

/-- What is in the queues stays there, whatever the callers and the workers do. -/
theorem nothing_taken_after_stop (stopped : w.impl.shutdown = true) (run : Runs step w Free w') :
    w.Stopped w' := by
  induction run with
  | start => exact ⟨stopped, rfl, fun _ => .inl rfl⟩
  | @next v _ a _ _ taken before =>
    obtain ⟨shutdown, same, workers⟩ := before
    have moved {i : Nat} {p : Worker F} (more : p = .outside ∨ p = .exited) (j : Nat) :
        update v.workers i p j = w.workers j ∨ update v.workers i p j = .outside ∨
          update v.workers i p j = .exited := by
      by_cases here : j = i <;> simp [here, more, workers]
    have exits {i : Nat} {now : Int} {m : Impl F} {r : List Int} (down : m.shutdown = true) :
        w.Stopped (v.after i now ⟨.exited, m, r⟩) :=
      ⟨down, by simpa [World.after, Stretch.takes] using same, moved (.inr rfl)⟩
    cases a with
    | enter i now =>
      obtain ⟨-, rfl⟩ := step_enter taken
      have ends : enter now v.impl = ⟨.exited, v.impl, []⟩ := if_pos shutdown
      exact ends ▸ exits shutdown
    | wake i now =>
      obtain ⟨-, rfl⟩ := step_wake taken
      have ends : wake now v.impl = ⟨.exited, expiredToReady now v.impl, [now]⟩ := if_pos shutdown
      exact ends ▸ exits shutdown
    | finish i =>
      cases step_finish taken
      exact ⟨shutdown, same, moved (.inl rfl)⟩
    | schedule | scheduleAt | stop =>
      cases taken
      exact ⟨by simp [shutdown], same, workers⟩
    | insert n =>
      obtain ⟨call, -, rfl⟩ := Option.map_eq_some_iff.mp taken
      cases call <;> exact ⟨shutdown, same, workers⟩

theorem entry_left_after_stop : ∃ w w' : World Unit, w.impl.ready ≠ [] ∧ w'.workers 0 = .exited ∧
    w.Stopped w' := by
  let w : World Unit := { World.start Unit with impl := ⟨true, [(⟨5, 0⟩, ())], []⟩ }
  obtain ⟨w', done, exited⟩ : ∃ w', execute step Free w [.enter 0 10] = some w' ∧
    w'.workers 0 = .exited := ⟨_, rfl, rfl⟩
  exact ⟨w, w', by simp [w], exited, nothing_taken_after_stop rfl (Runs.start.execute done)⟩

end Wms.Manager.Events
