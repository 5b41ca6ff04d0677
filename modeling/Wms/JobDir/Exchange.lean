import Wms.JobDir.Deliver

/-! Deliveries and reads of one job directory in any order.

When no two deliveries compute the same file name and no rename of the reader fails, every
content whose delivery has returned is in exactly one place: in `new`, in the result of the
read that is under way, or in the result of exactly one read that has returned.
-/

set_option autoImplicit false

namespace Wms.JobDir

open Lib List

/-- No other delivery has the same clock reading, identifier and tag, and the renames of the
reader succeed. -/
def Undisturbed (w : World) : Action → Prop
  | .deliver job => ∀ c ∈ w.calls,
      ¬ (c.job.reading = job.reading ∧ c.job.id = job.id ∧ c.job.tag = job.tag)
  | .setOld errno => errno = none
  | _ => True

instance (w : World) (a : Action) : Decidable (Undisturbed w a) := by
  cases a <;> unfold Undisturbed <;> infer_instance

structure View.Unpublished (v : View) : Prop where
  new : v.content .new = none
  old : v.content .old = none
  listed : v.listed = false
  collected : v.collected = 0
  handed : v.handed = 0

/-- The content is under the name in exactly one place of the reader's world. -/
inductive View.Held (v : View) (contents : Bytes) : Prop where
  | inNew : v.content .new = some contents → v.content .old = none → v.collected = 0 →
      v.handed = 0 → v.Held contents
  | moved : v.content .new = none → v.content .old = some contents → v.listed = false →
      v.collected = 1 → v.handed = 0 → v.Held contents
  | handed : v.content .new = none → v.listed = false → v.collected = 0 → v.handed = 1 →
      (v.content .old = some contents ∨ v.removed = true) → v.Held contents

def Call.Placed (c : Call) (v : View) : Prop :=
  match c.stage with
  | .named => v.Unpublished ∧ v.content .tmp = none
  | .opened i => v.Unpublished ∧ v.file .tmp = some i ∧ v.content .tmp = some []
  | .written => v.Unpublished ∧ v.content .tmp = some c.job.contents
  | .returned => v.Held c.job.contents
  | .failed _ => v.Unpublished

/-- What a step does to a name of which no call moves on. -/
structure View.Kept (v v' : View) : Prop where
  unpublished : v.Unpublished → v'.Unpublished
  held : ∀ contents, v.Held contents → v'.Held contents
  file : v'.file .tmp = v.file .tmp
  content : v'.content .tmp = v.content .tmp

theorem View.Kept.of_eq {v v' : View} (same : v' = v) : v.Kept v' := by
  rw [same]
  exact ⟨id, fun _ => id, rfl, rfl⟩

theorem Call.Placed.kept {c : Call} {v v' : View} (placed : c.Placed v) (kept : v.Kept v') :
    c.Placed v' := by
  unfold Call.Placed at *
  rw [kept.file, kept.content]
  cases stage : c.stage <;> simp only [stage] at placed
  case named | opened | written => exact ⟨kept.unpublished placed.1, placed.2⟩
  case returned => exact kept.held _ placed
  case failed => exact kept.unpublished placed

structure World.Settled (w : World) : Prop where
  sound : w.files.Sound
  distinct : (w.calls.map fun c => c.job.name).Nodup
  placed : ∀ c ∈ w.calls, c.Placed (w.view c.job.name)
  unowned : ∀ name, name ∉ (w.calls.map fun c => c.job.name) →
    (w.view name).Unpublished ∧ (w.view name).content .tmp = none
  todo : w.reader.todo.Nodup
  listed : ∀ name ∈ w.reader.todo, (.new, name) ∈ w.files.paths

theorem World.Settled.start : World.start.Settled where
  sound := ⟨by simp [World.start, Files.none, Files.file?], by simp [World.start, Files.none, Files.file?]⟩
  distinct := .nil
  placed := by simp [World.start]
  unowned name _ := by
    refine ⟨⟨?_, ?_, ?_, ?_, ?_⟩, ?_⟩ <;>
      simp [World.start, World.view, Files.none, Files.content?, Files.file?, Reader.todo, Reader.result]
  todo := .nil
  listed := by simp [World.start, Reader.todo]

/-! ### A delivery moves only its own file -/

section Advance

variable {c c' : Call} {fault : Option Fault} {fs fs' : Files Path}

inductive Call.Advanced (c : Call) (fs : Files Path) : Call → Files Path → Prop where
  | opened (stage : c.stage = .named) :
      c.Advanced fs ⟨c.job, .opened (fs.create (.tmp, c.job.name)).1⟩ (fs.create (.tmp, c.job.name)).2
  | written {i : Nat} (stage : c.stage = .opened i) : c.Advanced fs ⟨c.job, .written⟩
      (fs.write i c.job.contents)
  | cut {i : Nat} {e : JobDirError} (n : Nat) (stage : c.stage = .opened i) :
      c.Advanced fs ⟨c.job, .failed e⟩ (fs.write i (c.job.contents.take n))
  | returned {fs' : Files Path} (stage : c.stage = .written)
      (renamed : fs.rename (.tmp, c.job.name) (.new, c.job.name) = some fs') :
        c.Advanced fs ⟨c.job, .returned⟩ fs'
  | failed {e : JobDirError} (stage : c.stage = .named ∨ c.stage = .written) :
      c.Advanced fs ⟨c.job, .failed e⟩ fs

theorem advance_advanced (moved : c.advance fault fs = some (c', fs')) : c.Advanced fs c' fs' := by
  unfold Call.advance at moved
  simp only at moved
  split at moved
  · cases moved
    exact .opened ‹_›
  · cases moved
    exact .failed (.inl ‹_›)
  · cases moved
    exact .written ‹_›
  · cases moved
    exact .cut _ ‹_›
  · split at moved <;> cases moved
    · rename_i stage _ renamed
      exact .returned stage (moveFile_eq_ok.mp renamed).2
    · exact .failed (.inr ‹_›)
  · cases moved

theorem advance_job (moved : c.advance fault fs = some (c', fs')) : c'.job = c.job := by
  cases advance_advanced moved <;> rfl

/-- Outside its own name a delivery changes nothing. -/
theorem advance_frame (sound : fs.Sound) (moved : c.advance fault fs = some (c', fs'))
    (holds : ∀ i, c.stage = .opened i → fs.file? (.tmp, c.job.name) = some i) {name : Bytes}
    (other : name ≠ c.job.name) (d : Dir) :
    fs'.file? (d, name) = fs.file? (d, name) ∧ fs'.content? (d, name) = fs.content? (d, name) := by
  have apart (d' : Dir) : ((d, name) : Path) ≠ (d', c.job.name) := by simp [other]
  cases advance_advanced moved with
  | opened => exact ⟨Files.create_file?_of_ne (apart _), sound.create_content?_of_ne (apart _)⟩
  | written stage | cut _ stage => exact ⟨rfl, sound.write_content?_of_ne (holds _ stage) (apart _)⟩
  | returned stage renamed =>
    exact ⟨Files.rename_file?_of_ne renamed (apart _) (apart _),
      Files.rename_content?_of_ne renamed (apart _) (apart _)⟩
  | failed => exact ⟨rfl, rfl⟩

theorem advance_sound (sound : fs.Sound) (moved : c.advance fault fs = some (c', fs')) : fs'.Sound := by
  cases advance_advanced moved with
  | opened => exact sound.create
  | written | cut => exact sound.write
  | returned stage renamed => exact sound.rename renamed
  | failed => exact sound

theorem View.Unpublished.of_files {w : World} {name : Bytes} (before : (w.view name).Unpublished)
    (w' : World) (reader : w'.reader = w.reader) (reads : w'.reads = w.reads)
    (new : w'.files.content? (.new, name) = w.files.content? (.new, name))
    (old : w'.files.content? (.old, name) = w.files.content? (.old, name)) :
    (w'.view name).Unpublished := by
  obtain ⟨noNew, noOld, unlisted, uncollected, unhanded⟩ := before
  constructor <;> simp_all [World.view]

theorem advance_placed {w : World} {calls : List Call} (sound : w.files.Sound)
    (placed : c.Placed (w.view c.job.name)) (moved : c.advance fault w.files = some (c', fs')) :
    c'.Placed (World.view { w with files := fs', calls := calls } c.job.name) := by
  cases advance_advanced moved with
  | opened stage =>
    simp only [Call.Placed, stage] at placed ⊢
    obtain ⟨unpublished, -⟩ := placed
    refine ⟨unpublished.of_files _ rfl rfl ?_ ?_, ?_, ?_⟩
    · exact sound.create_content?_of_ne (by simp)
    · exact sound.create_content?_of_ne (by simp)
    · exact Files.create_file?
    · exact Files.content?_eq_some.mpr ⟨_, Files.create_file?, Files.create_data⟩
  | @written i stage =>
    simp only [Call.Placed, stage] at placed ⊢
    obtain ⟨unpublished, held, empty⟩ := placed
    refine ⟨unpublished.of_files _ rfl rfl ?_ ?_, ?_⟩
    · exact sound.write_content?_of_ne held (by simp)
    · exact sound.write_content?_of_ne held (by simp)
    · obtain ⟨j, at_path, blank⟩ := Files.content?_eq_some.mp empty
      cases Option.some.inj (at_path.symm.trans held)
      exact Files.content?_eq_some.mpr ⟨i, held, Files.write_data blank⟩
  | cut _ stage =>
    simp only [Call.Placed, stage] at placed ⊢
    obtain ⟨unpublished, held, -⟩ := placed
    refine unpublished.of_files _ rfl rfl ?_ ?_
    · exact sound.write_content?_of_ne held (by simp)
    · exact sound.write_content?_of_ne held (by simp)
  | returned stage renamed =>
    simp only [Call.Placed, stage] at placed ⊢
    obtain ⟨unpublished, filled⟩ := placed
    have kept : fs'.content? (.old, c.job.name) = w.files.content? (.old, c.job.name) :=
      Files.rename_content?_of_ne renamed (by simp) (by simp)
    refine .inNew ?_ ?_ unpublished.collected unpublished.handed
    · exact (Files.rename_content?_target renamed).trans filled
    · exact kept.trans unpublished.old
  | failed stage =>
    rcases stage with stage | stage <;> simp only [Call.Placed, stage] at placed ⊢ <;>
      exact placed.1.of_files _ rfl rfl rfl rfl

end Advance

/-! ### Steps -/

theorem view_eq {w w' : World} {name : Bytes}
    (file : ∀ d, w'.files.file? (d, name) = w.files.file? (d, name))
    (content : ∀ d, w'.files.content? (d, name) = w.files.content? (d, name))
    (todo : name ∈ w'.reader.todo ↔ name ∈ w.reader.todo)
    (result : w'.reader.result.count name = w.reader.result.count name)
    (reads : w'.reads.flatten.count name = w.reads.flatten.count name)
    (removed : name ∈ w'.removed ↔ name ∈ w.removed) : w'.view name = w.view name := by
  simp only [World.view, file, content, todo, result, reads, removed]

theorem Job.name_inj {job job' : Job} (same : job.name = job'.name) :
    job.reading = job'.reading ∧ job.id = job'.id ∧ job.tag = job'.tag :=
  fileName_inj same

namespace World.Settled

variable {w : World}

theorem deliver (settled : w.Settled) {job : Job} (fresh : Undisturbed w (.deliver job)) :
    World.Settled { w with calls := w.calls ++ [⟨job, .named⟩] } := by
  have unused : job.name ∉ w.calls.map fun c => c.job.name := by
    intro used
    obtain ⟨c, member, same⟩ := mem_map.mp used
    exact fresh c member (Job.name_inj same)
  refine ⟨settled.sound, ?_, fun c member => ?_, fun name unowned => ?_, settled.todo, settled.listed⟩
  · rw [map_append]
    exact nodup_append_comm.mp (nodup_cons.mpr ⟨unused, settled.distinct⟩)
  · rcases mem_append.mp member with earlier | new
    · exact settled.placed c earlier
    · cases mem_singleton.mp new
      exact settled.unowned job.name unused
  · exact settled.unowned name fun used => unowned (by simp [mem_map.mp used])

theorem mem_set (settled : w.Settled) {n : Nat} {c c' : Call} (at_index : w.calls[n]? = some c)
    {d : Call} (member : d ∈ w.calls.set n c') : d = c' ∨ d ∈ w.calls ∧ d.job.name ≠ c.job.name := by
  obtain ⟨m, reached⟩ := mem_iff_getElem?.mp member
  rw [getElem?_set] at reached
  split at reached
  · split at reached
    · exact .inl (Option.some.inj reached).symm
    · cases reached
  · rename_i apart
    refine .inr ⟨mem_of_getElem? reached, fun same => apart ?_⟩
    have first : (w.calls.map fun c => c.job.name)[n]? = some c.job.name := by simp [at_index]
    have second : (w.calls.map fun c => c.job.name)[m]? = some d.job.name := by simp [reached]
    obtain ⟨bound, -⟩ := List.getElem?_eq_some_iff.mp first
    exact (getElem?_inj bound settled.distinct).mp (by rw [first, second, same])

theorem names_set {calls : List Call} {n : Nat} {c c' : Call} (at_index : calls[n]? = some c)
    (same : c'.job = c.job) : ((calls.set n c').map fun d => d.job.name) = calls.map fun d =>
      d.job.name := by
  obtain ⟨within, rfl⟩ := List.getElem?_eq_some_iff.mp at_index
  rw [map_set, same, ← getElem_map fun d : Call => d.job.name, set_getElem_self]
  simpa using within

theorem advance (settled : w.Settled) {n : Nat} {c c' : Call} {fault : Option Fault}
    {fs' : Files Path} (at_index : w.calls[n]? = some c)
      (moved : c.advance fault w.files = some (c', fs')) :
    World.Settled { w with calls := w.calls.set n c', files := fs' } := by
  have placed := settled.placed c (mem_of_getElem? at_index)
  have holds (i : Nat) (stage : c.stage = .opened i) : w.files.file? (.tmp, c.job.name) = some i := by
    simp only [Call.Placed, stage] at placed
    exact placed.2.1
  have frame (name : Bytes) (other : name ≠ c.job.name) :
      World.view { w with calls := w.calls.set n c', files := fs' } name = w.view name :=
    view_eq (fun d => (advance_frame settled.sound moved holds other d).1)
      (fun d => (advance_frame settled.sound moved holds other d).2) .rfl rfl rfl .rfl
  have names := names_set at_index (advance_job moved)
  refine ⟨advance_sound settled.sound moved, ?_, fun d member => ?_, fun name unowned => ?_,
    settled.todo, fun name listed => ?_⟩
  · rw [names]
    exact settled.distinct
  · rcases settled.mem_set at_index member with rfl | ⟨earlier, other⟩
    · rw [advance_job moved]
      exact advance_placed settled.sound placed moved
    · rw [frame _ other]
      exact settled.placed d earlier
  · have other : name ≠ c.job.name := by
      rintro rfl
      refine unowned (names ▸ mem_map_of_mem (mem_of_getElem? at_index))
    rw [frame name other]
    exact settled.unowned name (names ▸ unowned)
  · -- a name still to be moved belongs to a delivery that has returned
    have other : name ≠ c.job.name := by
      rintro rfl
      have visible : (w.view c.job.name).listed = true := decide_eq_true listed
      have unlisted : (w.view c.job.name).listed = false := by
        cases advance_advanced moved with
        | opened stage | written stage | cut _ stage | returned stage =>
          simp only [Call.Placed, stage] at placed
          exact placed.1.listed
        | failed stage =>
          rcases stage with stage | stage <;> simp only [Call.Placed, stage] at placed <;>
            exact placed.1.listed
      exact absurd (unlisted.symm.trans visible) (by simp)
    rw [Files.mem_paths, (advance_frame settled.sound moved holds other .new).1, ← Files.mem_paths]
    exact settled.listed name listed

theorem kept {w' : World} (settled : w.Settled) (calls : w'.calls = w.calls) (sound : w'.files.Sound)
    (kept : ∀ name, (w.view name).Kept (w'.view name)) (todo : w'.reader.todo.Nodup)
    (listed : ∀ name ∈ w'.reader.todo, (.new, name) ∈ w'.files.paths) : w'.Settled where
  sound
  distinct := calls ▸ settled.distinct
  placed c member := (settled.placed c (calls ▸ member)).kept (kept _)
  unowned name unowned := by
    obtain ⟨unpublished, absent⟩ := settled.unowned name (calls ▸ unowned)
    exact ⟨(kept name).unpublished unpublished, (kept name).content.trans absent⟩
  todo
  listed

theorem list (settled : w.Settled) (idle : w.reader = .idle) :
    World.Settled { w with reader := .reading (newEntries w.files) [] } := by
  have unlisted (name : Bytes) (absent : w.files.content? (.new, name) = none) :
      name ∉ newEntries w.files := by
    rw [mem_newEntries]
    exact Files.file?_eq_none.mp (Files.content?_eq_none.mp absent)
  refine settled.kept rfl settled.sound (fun name => ⟨fun before => ?_, fun contents held => ?_, rfl, rfl⟩)
    (nodup_newEntries w.files) fun name => mem_newEntries.mp
  · exact ⟨before.new, before.old, decide_eq_false (unlisted name before.new), rfl, before.handed⟩
  · cases held with
    | inNew new old _ handed => exact .inNew new old rfl handed
    | moved new old _ collected handed => simp [World.view, idle, Reader.result] at collected
    | handed new _ _ handed old => exact .handed new (decide_eq_false (unlisted _ new)) rfl handed old

theorem setOld (settled : w.Settled) {file : Bytes} {rest result : List Bytes} {fs' : Files Path}
    (reading : w.reader = .reading (file :: rest) result)
      (moved : JobDir.setOld file none w.files = .ok fs') :
    World.Settled { w with files := fs', reader := .reading rest (result ++ [file]) } := by
  have renamed := (moveFile_eq_ok.mp moved).2
  have todo : w.reader.todo = file :: rest := by rw [reading]; rfl
  have distinct := settled.todo
  rw [todo] at distinct
  obtain ⟨fresh, distinct⟩ := nodup_cons.mp distinct
  have present : (w.view file).content .new ≠ none := by
    have held := settled.listed file (by simp [todo])
    exact fun absent => Files.file?_eq_none.mp (Files.content?_eq_none.mp absent) held
  have frame (name : Bytes) (other : name ≠ file) :
      World.view { w with files := fs', reader := .reading rest (result ++ [file]) } name =
        w.view name := by
    refine view_eq (fun d => ?_) (fun d => ?_) ?_ ?_ rfl .rfl
    · exact Files.rename_file?_of_ne renamed (by simp [other]) (by simp [other])
    · exact Files.rename_content?_of_ne renamed (by simp [other]) (by simp [other])
    · simp [reading, Reader.todo, other]
    · simp [reading, Reader.result, other.symm]
  have tmp_file : fs'.file? (.tmp, file) = w.files.file? (.tmp, file) :=
    Files.rename_file?_of_ne renamed (by simp) (by simp)
  have tmp_content : fs'.content? (.tmp, file) = w.files.content? (.tmp, file) :=
    Files.rename_content?_of_ne renamed (by simp) (by simp)
  refine settled.kept rfl (settled.sound.rename renamed) (fun name => ?_) distinct fun name listed => ?_
  · by_cases same : name = file
    · subst same
      refine ⟨fun before => absurd before.new present, fun contents held => ?_, tmp_file, tmp_content⟩
      cases held with
      | inNew new old collected handed =>
        refine .moved ?_ ?_ (decide_eq_false fresh) ?_ handed
        · exact Files.content?_eq_none.mpr (Files.rename_file?_source renamed (by simp))
        · exact (Files.rename_content?_target renamed).trans new
        · simpa [World.view, reading, Reader.result] using collected
      | moved new => exact absurd new present
      | handed new => exact absurd new present
    · exact .of_eq (frame name same)
  · exact (setOld_mem_new moved).mpr ⟨settled.listed name (by simp [todo, show name ∈ rest from listed]),
      fun same => fresh (same ▸ listed)⟩

theorem finish (settled : w.Settled) {result : List Bytes} (reading : w.reader = .reading [] result) :
    World.Settled { w with reader := .idle, reads := w.reads ++ [result] } := by
  have collected (name : Bytes) : (w.view name).collected = result.count name := by
    simp [World.view, reading, Reader.result]
  have handed (name : Bytes) : (World.view { w with reader := .idle, reads := w.reads ++ [result] }
      name).handed = (w.view name).handed + (w.view name).collected := by
    simp [World.view, reading, Reader.result]
  refine settled.kept rfl settled.sound (fun name =>
    ⟨fun before => ?_, fun contents held => ?_, rfl, rfl⟩) .nil
    fun name listed => by cases listed
  · exact ⟨before.new, before.old, rfl, rfl, by rw [handed, before.handed, before.collected]⟩
  · cases held with
    | inNew new old none_collected none_handed =>
      exact .inNew new old rfl (by rw [handed, none_collected, none_handed])
    | moved new old _ one none_handed =>
      exact .handed new rfl rfl (by rw [handed, one, none_handed]) (.inl old)
    | handed new _ none_collected one old =>
      exact .handed new rfl rfl (by rw [handed, none_collected, one]) old

theorem remove (settled : w.Settled) {file : Bytes} (returned : file ∈ w.reads.flatten) :
    World.Settled { w with files := w.files.unlink (.old, file), removed := file :: w.removed } := by
  have once : (w.view file).handed ≠ 0 := by
    simpa [World.view, count_eq_zero] using returned
  have frame (name : Bytes) (other : name ≠ file) : World.view
      { w with files := w.files.unlink (.old, file), removed := file :: w.removed } name =
        w.view name := by
    refine view_eq (fun d => ?_) (fun d => ?_) .rfl rfl rfl ?_
    · exact Files.unlink_file?_of_ne (by simp [other])
    · exact Files.unlink_content?_of_ne (by simp [other])
    · simp [other]
  have kept (d : Dir) (other : d ≠ .old) :
      (w.files.unlink (.old, file)).content? (d, file) = w.files.content? (d, file) :=
    Files.unlink_content?_of_ne (by simp [other])
  refine settled.kept rfl settled.sound.unlink (fun name => ?_) settled.todo fun name listed => ?_
  · by_cases same : name = file
    · subst same
      refine ⟨fun before => absurd before.handed once, fun contents held => ?_,
        Files.unlink_file?_of_ne (by simp), kept .tmp (by simp)⟩
      cases held with
      | inNew _ _ _ none_handed => exact absurd none_handed once
      | moved _ _ _ _ none_handed => exact absurd none_handed once
      | handed new unlisted collected one old =>
        exact .handed ((kept .new (by simp)).trans new) unlisted collected one
          (.inr (decide_eq_true (mem_cons_self ..)))
    · exact .of_eq (frame name same)
  · rw [Files.mem_paths, Files.unlink_file?_of_ne (by simp), ← Files.mem_paths]
    exact settled.listed name listed

theorem step {w' : World} (settled : w.Settled) {a : Action} (met : Undisturbed w a)
    (taken : JobDir.step w a = some w') : w'.Settled := by
  cases a with
  | deliver job =>
    cases taken
    exact settled.deliver met
  | advance n fault =>
    simp only [JobDir.step, Option.bind_eq_bind, Option.bind_eq_some_iff] at taken
    obtain ⟨c, at_index, ⟨c', fs'⟩, moved, shape⟩ := taken
    cases shape
    exact settled.advance at_index moved
  | newEntries =>
    simp only [JobDir.step] at taken
    split at taken
    · rename_i idle
      cases taken
      exact settled.list idle
    · cases taken
  | setOld errno =>
    cases (met : errno = none)
    simp only [JobDir.step] at taken
    split at taken
    · rename_i file rest result reading
      split at taken
      · rename_i fs' moved
        cases taken
        exact settled.setOld reading moved
      · rename_i e failed
        -- the file to be moved is there, so its rename succeeds
        have held := settled.listed file (by simp [reading, Reader.todo])
        obtain ⟨fs', moved, -⟩ := moveFile_of_held (.old, file) held
        rw [JobDir.setOld, moved] at failed
        cases failed
    · cases taken
  | finish =>
    simp only [JobDir.step] at taken
    split at taken
    · rename_i result reading
      cases taken
      exact settled.finish reading
    · cases taken
  | remove file =>
    simp only [JobDir.step] at taken
    split at taken
    · rename_i returned
      cases taken
      exact settled.remove returned
    · cases taken

end World.Settled

def remaining (names : Nat) : List Action := List.replicate names (.setOld none) ++ [.finish]

/-- Nothing a delivery does can stop a read from returning all it has listed. -/
theorem World.Settled.read_returns {w : World} (settled : w.Settled) {todo result : List Bytes}
    (reading : w.reader = .reading todo result) :
    ∃ w', execute JobDir.step Undisturbed w (remaining todo.length) = some w' ∧
      w'.reads = w.reads ++ [result ++ todo] := by
  induction todo generalizing w result with
  | nil =>
    refine ⟨{ w with reader := .idle, reads := w.reads ++ [result] }, ?_, by simp⟩
    simp [remaining, execute, Undisturbed, JobDir.step, reading]
  | cons file rest ih =>
    have held := settled.listed file (by simp [reading, Reader.todo])
    obtain ⟨fs', moved, -⟩ := moveFile_of_held (.old, file) held
    obtain ⟨w', done, reads⟩ := ih (settled.setOld reading moved) rfl
    refine ⟨w', ?_, by simpa using reads⟩
    have taken : JobDir.step w (.setOld none) =
        some { w with files := fs', reader := .reading rest (result ++ [file]) } := by
      simp [JobDir.step, reading, JobDir.setOld, moved]
    have met : Undisturbed w (.setOld none) := rfl
    simpa [remaining, replicate_succ, execute, met, taken] using done

def NullFree (w : World) : Prop := ∀ c ∈ w.calls, '\x00' ∉ c.job.contents

/-- Besides, no content has a null byte. -/
def Whole (w : World) : Action → Prop
  | .deliver job => Undisturbed w (.deliver job) ∧ '\x00' ∉ job.contents
  | a => Undisturbed w a

instance (w : World) (a : Action) : Decidable (Whole w a) := by
  cases a <;> unfold Whole <;> infer_instance

theorem Whole.undisturbed {w : World} {a : Action} (whole : Whole w a) : Undisturbed w a := by
  cases a with
  | deliver job => exact whole.1
  | _ => exact whole

theorem NullFree.step {w w' : World} {a : Action} (free : NullFree w) (whole : Whole w a)
    (taken : step w a = some w') : NullFree w' := by
  have same (calls : w'.calls = w.calls) : NullFree w' := by
    unfold NullFree
    rwa [calls]
  cases a with
  | deliver job =>
    cases taken
    exact forall_mem_append.mpr ⟨free, forall_mem_singleton.mpr whole.2⟩
  | advance n fault =>
    obtain ⟨c, found, taken⟩ := Option.bind_eq_some_iff.mp taken
    obtain ⟨⟨c', files⟩, moved, taken⟩ := Option.bind_eq_some_iff.mp taken
    cases taken
    intro d member
    rcases mem_or_eq_of_mem_set member with member | rfl
    · exact free d member
    · rw [advance_job moved]
      exact free c (mem_of_getElem? found)
  | newEntries | setOld | finish | remove =>
    simp only [JobDir.step] at taken
    repeat' split at taken
    all_goals cases taken
    all_goals exact same rfl

theorem value_of_content {fs : Files Path} {file contents : Bytes}
    (there : fs.content? (.old, file) = some contents)
    (free : '\x00' ∉ contents) : JobDirItem.value fs file = some contents := by
  have whole : contents.takeWhile (· ≠ '\x00') = contents :=
    takeWhile_eq_self_iff.mpr fun c member => decide_eq_true fun same => free (same ▸ member)
  rw [JobDirItem.value, there, Option.map_some, whole]

/-- In every run with distinct deliveries, no null bytes and no failing rename of the reader: a
content whose delivery has returned is under its name in exactly one place, and its item has
exactly these bytes until its owner removes it; no delivery opens or replaces a file of another
one; a read under way can always be completed and returns all that it has listed, and a read that
starts lists all that is in `new`. -/
theorem deliveries_exchanged_once {w : World} (run : Runs step World.start Whole w) :
    (∀ c ∈ w.calls, c.stage = .returned → (w.view c.job.name).Held c.job.contents ∧
      (c.job.name ∈ w.reader.result ++ w.reads.flatten → c.job.name ∉ w.removed →
        JobDirItem.value w.files c.job.name = some c.job.contents)) ∧
    (∀ c ∈ w.calls, (c.stage = .named → w.files.content? (.tmp, c.job.name) = none) ∧
      (c.stage = .written → w.files.content? (.new, c.job.name) = none)) ∧
    (∀ todo result, w.reader = .reading todo result →
      ∃ w', execute step Undisturbed w (remaining todo.length) = some w' ∧
        w'.reads = w.reads ++ [result ++ todo]) ∧
    (w.reader = .idle → ∃ w', execute step Undisturbed w
        (.newEntries :: remaining (newEntries w.files).length) = some w' ∧
        w'.reads = w.reads ++ [newEntries w.files]) := by
  have settled : w.Settled :=
    run.invariant .start fun _ _ _ settled met taken => settled.step met.undisturbed taken
  have free : NullFree w :=
    run.invariant (fun _ member => absurd member not_mem_nil) fun _ _ _ free met taken =>
      free.step met taken
  refine ⟨fun c member stage => ?_, fun c member => ⟨fun stage => ?_, fun stage => ?_⟩,
    fun todo result reading => settled.read_returns reading, fun idle => ?_⟩
  · have held : (w.view c.job.name).Held c.job.contents := by
      have placed := settled.placed c member
      simpa only [Call.Placed, stage] using placed
    refine ⟨held, fun taken kept => ?_⟩
    cases held with
    | inNew _ _ collected handed =>
      rcases mem_append.mp taken with taken | taken
      · exact absurd taken (count_eq_zero.mp collected)
      · exact absurd taken (count_eq_zero.mp handed)
    | moved _ there => exact value_of_content there (free c member)
    | handed _ _ _ _ there =>
      exact value_of_content (there.resolve_right fun removed => kept (of_decide_eq_true removed))
        (free c member)
  · have placed := settled.placed c member
    simp only [Call.Placed, stage] at placed
    exact placed.2
  · have placed := settled.placed c member
    simp only [Call.Placed, stage] at placed
    exact placed.1.new
  · obtain ⟨w', done, reads⟩ := (settled.list idle).read_returns rfl
    have taken : step w .newEntries =
        some { w with reader := .reading (newEntries w.files) [] } := by simp [step, idle]
    have met : Undisturbed w .newEntries := trivial
    exact ⟨w', by simpa [execute, met, taken] using done, by simpa using reads⟩

/-- Nothing is to be seen under the name, or the whole contents of a delivery that has returned. -/
def World.SeenWhole (w : World) (name : Bytes) : Prop :=
  (w.view name).Unpublished ∨
    ∃ c ∈ w.calls, c.job.name = name ∧ c.stage = .returned ∧ (w.view name).Held c.job.contents

/-- In such a run no reader meets a request before its delivery has returned, or part of one. -/
theorem requests_seen_whole {w : World} (run : Runs step World.start Undisturbed w) (name : Bytes) :
    w.SeenWhole name := by
  have settled : w.Settled :=
    run.invariant .start fun _ _ _ settled met taken => settled.step met taken
  by_cases owned : name ∈ w.calls.map fun c => c.job.name
  · obtain ⟨c, member, rfl⟩ := mem_map.mp owned
    have placed := settled.placed c member
    unfold Call.Placed at placed
    cases stage : c.stage with
    | named | opened | written =>
      simp only [stage] at placed
      exact .inl placed.1
    | failed => exact .inl (by simpa only [stage] using placed)
    | returned => exact .inr ⟨c, member, rfl, stage, by simpa only [stage] using placed⟩
  · exact .inl (settled.unowned name owned).1

def noon : Ptime := ⟨2010, 4, 7, 12, 0, 0, 0⟩

/-- One delivery, then a read. -/
theorem deliveries_exchanged_once_one : ∃ w c, Runs step World.start Whole w ∧ c ∈ w.calls ∧
    c.stage = .returned ∧
    (w.view c.job.name).Held c.job.contents ∧
      JobDirItem.value w.files c.job.name = some c.job.contents := by
  have reads : ∃ w, execute step Whole World.start
      [.deliver ⟨noon, 7, [], ['A']⟩, .advance 0 none, .advance 0 none,
      .advance 0 none, .newEntries, .setOld none, .finish] = some w ∧
        ⟨⟨noon, 7, [], ['A']⟩, .returned⟩ ∈ w.calls ∧
      fileName noon 7 [] ∈ w.reader.result ++ w.reads.flatten ∧ fileName noon 7 [] ∉ w.removed :=
    ⟨_, rfl, by decide⟩
  obtain ⟨w, done, returned, taken, kept⟩ := reads
  have run : Runs step World.start Whole w := Runs.start.execute done
  obtain ⟨held, value⟩ := (deliveries_exchanged_once run).1 _ returned rfl
  exact ⟨w, _, run, returned, rfl, held, value taken kept⟩

/-- A write that fails after one byte. -/
theorem cut_request_seen_whole : ∃ w, Runs step World.start Undisturbed w ∧ ∀ name, w.SeenWhole name := by
  obtain ⟨w, done⟩ : ∃ w, execute step Undisturbed World.start
      [.deliver ⟨noon, 7, [], ['A', 'B']⟩, .advance 0 none, .advance 0 (some ⟨28, 1⟩)] = some w := ⟨_, rfl⟩
  have run : Runs step World.start Undisturbed w := Runs.start.execute done
  exact ⟨w, run, requests_seen_whole run⟩

/-- Two threads deliver through one `JobDir` object in the same microsecond: both calls return, and
the content of the first is nowhere. A content with a null byte is handed out as what comes before
that byte. -/
theorem delivery_overwritten : (∃ w : World, Runs step World.start Free w ∧
      ∃ c ∈ w.calls, c.stage = .returned ∧ c.job.contents = ['A'] ∧
        w.files.content? (.tmp, c.job.name) = none ∧
        w.files.content? (.new, c.job.name) = some ['B'] ∧
        w.files.content? (.old, c.job.name) = none ∧ w.reads = []) ∧
    ∃ w : World, Runs step World.start Free w ∧ ∃ c ∈ w.calls, c.stage = .returned ∧
      c.job.contents = ['A', '\x00', 'B'] ∧
      w.reads = [[c.job.name]] ∧ JobDirItem.value w.files c.job.name = some ['A'] := by
  constructor
  · obtain ⟨w, done, facts⟩ : ∃ w, execute step Free World.start
        [.deliver ⟨noon, 7, [], ['A']⟩, .deliver ⟨noon, 7, [], ['B']⟩,
          .advance 0 none, .advance 0 none, .advance 0 none,
          .advance 1 none, .advance 1 none, .advance 1 none] = some w ∧
        ∃ c ∈ w.calls, c.stage = .returned ∧ c.job.contents = ['A'] ∧
          w.files.content? (.tmp, c.job.name) = none ∧
          w.files.content? (.new, c.job.name) = some ['B'] ∧
          w.files.content? (.old, c.job.name) = none ∧ w.reads = [] := ⟨_, rfl, by decide⟩
    exact ⟨w, Runs.start.execute done, facts⟩
  · obtain ⟨w, done, facts⟩ : ∃ w, execute step Free World.start
        [.deliver ⟨noon, 7, [], ['A', '\x00', 'B']⟩, .advance 0 none, .advance 0 none,
          .advance 0 none, .newEntries,
          .setOld none, .finish] = some w ∧
        ∃ c ∈ w.calls, c.stage = .returned ∧ c.job.contents = ['A', '\x00', 'B'] ∧
          w.reads = [[c.job.name]] ∧
          JobDirItem.value w.files c.job.name = some ['A'] := ⟨_, rfl, by decide⟩
    exact ⟨w, Runs.start.execute done, facts⟩

end Wms.JobDir
