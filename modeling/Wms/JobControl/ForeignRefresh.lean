import Wms.FileContainer.Failure
import Wms.JobControl.IdIndexes

/-! `IdContainer::refresh` after another process has changed the file.

The container answers to a synchronisation with the status that it was modified. The sequence
around it throws for every status that is not good.
-/

set_option autoImplicit false

namespace Wms.JobControl

open Lib Lib.FileProg

/-- `refresh` over the file list; `list` gives the records that the list shows for a file. -/
def IdContainer.refreshFile (list : Bytes → Arena Record) (c : IdContainer) :
    FileContainer.Method IdContainer := do
  if ← FileContainer.modified then
    FileContainer.sync
    let object ← Prog.get
    return c.rebuild (list object.stream.file)
  else return c

def SameIndexes (c d : IdContainer) : Prop :=
  (∀ edgId, c.byEdgId edgId = d.byEdgId edgId) ∧ ∀ condorId, c.byCondorId condorId = d.byCondorId condorId

/-- `refresh` returns, with the indexes that the constructor makes of the file. -/
def Refreshes (list : Bytes → Arena Record) (e : FileContainer.Env) (c : IdContainer)
    (object : FileContainer.Container) : Prop :=
  ∃ c' object', c.refreshFile list e object = .ok c' object' ∧
    SameIndexes c' (.construct (list object.stream.file))

section

variable (e : FileContainer.Env) {k : FileContainer.Cache} {img : FileContainer.Image} (pos : Nat)

theorem modified_ends (initialized : k.initialized = true) (clean : img.scar = []) :
    Ends Unchecked FileContainer.modified e ⟨k, img⟩ pos (.ok (img.stamp.gt k.stamp))
      ⟨{ k with ticks := k.ticks + 1 }, img⟩ 26 :=
  .bind (.bind .cache (.on_false (by simp [initialized]) (.pure _))) (FileContainer.checkStamp_ends clean)

/-- The second look at the stamp finds the change again. -/
theorem sync_modified_fails (initialized : k.initialized = true) (clean : img.scar = [])
    (closed : img.status = .closed) (newer : img.stamp.gt k.stamp = true) : ∃ t stop,
      Ends Unchecked FileContainer.sync e ⟨k, img⟩ pos (.error .containerModified) t stop := by
  have checked : Ends Unchecked FileContainer.initOrCheck e ⟨k, img⟩ pos (.error .containerModified)
      ⟨{ k with ticks := k.ticks + 1 }, img⟩ 26 :=
    .bind .cache (.on_false (by simp [initialized])
      (FileContainer.checkStreamAndStamp_ends clean closed (if_pos newer).symm))
  exact ⟨_, _, .bind (.attempt checked) (.bind (.attempt (FileContainer.syncData_ends clean true))
    (.throw _))⟩

theorem refreshFile_newer_fails (list : Bytes → Arena Record) (c : IdContainer)
    (initialized : k.initialized = true)
    (clean : img.scar = []) (closed : img.status = .closed) (newer : img.stamp.gt k.stamp = true) :
    ∃ t stop,
      Ends Unchecked (c.refreshFile list) e ⟨k, img⟩ pos (.error .containerModified) t stop := by
  obtain ⟨t, stop, fails⟩ := sync_modified_fails e 26
    (k := { k with ticks := k.ticks + 1 }) initialized clean closed newer
  exact ⟨t, stop, .bind (modified_ends e pos initialized clean) (.on_true newer (.bind_error fails))⟩

theorem refreshFile_same_ends (list : Bytes → Arena Record) (c : IdContainer)
    (initialized : k.initialized = true)
    (clean : img.scar = []) (same : img.stamp.gt k.stamp = false) :
    Ends Unchecked (c.refreshFile list) e ⟨k, img⟩ pos (.ok c) ⟨{ k with ticks := k.ticks + 1 }, img⟩ 26 :=
  .bind (modified_ends e pos initialized clean) (.on_false (by simp [same]) (.pure c))

end

/-- For a closed file that another process may have left, the refresh is right
iff it sees no change and there is none. -/
theorem refreshes_iff (list : Bytes → Arena Record) (e : FileContainer.Env) (c : IdContainer)
    {k : FileContainer.Cache} {img : FileContainer.Image} (pos : Nat) (writes : List Write)
    (initialized : k.initialized = true) (fits : img.Fits) (clean : img.scar = [])
      (closed : img.status = .closed) :
    Refreshes list e c (Snapshot.at ⟨k, img⟩ pos writes) ↔
      img.stamp.gt k.stamp = false ∧ SameIndexes c (.construct (list (encode img))) := by
  cases newer : img.stamp.gt k.stamp with
  | false =>
    obtain ⟨made, run, -⟩ := (refreshFile_same_ends e pos list c initialized clean newer fits).2 writes
    constructor
    · rintro ⟨c', object, returned, rightly⟩
      cases run.symm.trans returned
      exact ⟨rfl, rightly⟩
    · rintro ⟨-, rightly⟩
      exact ⟨c, _, run, rightly⟩
  | true =>
    obtain ⟨t, stop, fails⟩ := refreshFile_newer_fails e pos list c initialized clean closed newer
    obtain ⟨made, failed, -⟩ := (fails fits).2 writes
    refine iff_of_false ?_ fun wrong => Bool.noConfusion wrong.1
    rintro ⟨c', object, returned, -⟩
    cases failed.symm.trans returned

def emptyCache : FileContainer.Cache := { FileContainer.Container.empty.cache with initialized := true }

theorem refreshes_unchanged : Refreshes (fun _ => .empty) (.still 1) (.construct .empty)
    (Snapshot.at ⟨emptyCache, FileContainer.Image.empty ⟨0, 0⟩ .closed⟩ 0 []) :=
  (refreshes_iff _ _ _ 0 [] rfl FileContainer.empty_serving.fits rfl rfl).mpr ⟨rfl, fun _ => rfl,
    fun _ => rfl⟩

/-- The file has a later stamp. -/
theorem refresh_fails_after_change : ¬ Refreshes (fun _ => .empty) (.still 1) (.construct .empty)
    (Snapshot.at ⟨emptyCache, FileContainer.Image.empty ⟨1, 0⟩ .closed⟩ 0 []) := by
  have fits : (FileContainer.Image.empty ⟨1, 0⟩ .closed).Fits :=
    FileContainer.Image.fits_empty _ (by decide) (by decide)
  obtain ⟨t, stop, fails⟩ := refreshFile_newer_fails (.still 1) 0 (fun _ => .empty) (.construct .empty)
    (show emptyCache.initialized = true from rfl)
    (show (FileContainer.Image.empty ⟨1, 0⟩ .closed).scar = [] from rfl) rfl rfl
  obtain ⟨made, failed, -⟩ := (fails fits).2 []
  rintro ⟨c, object, returned, -⟩
  cases failed.symm.trans returned

end Wms.JobControl
