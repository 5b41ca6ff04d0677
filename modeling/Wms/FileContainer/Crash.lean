import Wms.FileContainer.Refinement

/-! What the next process finds when a call is cut short.

A process may stop after any of its writes. The file it leaves is that of a prefix of the
trace of the call, and the next process to open the file initialises itself from it.
-/

set_option autoImplicit false

namespace Wms.FileContainer

open Lib Lib.FileProg Lib.Links Image Listing List

inductive Call where
  | add (data : Bytes) (offset : Nat)
  | remove (offset : Nat)
  deriving DecidableEq, Repr

namespace Call

def run : Call → Method Unit
  | .add data offset => do
    let _ ← addData data offset
    return ()
  | .remove offset => removeData offset

/-- The offset is one that the interface documents; a file never grows beyond what
`streamoff` can address. -/
def Valid (file : Bytes) (l : Listing) : Call → Prop
  | .add data offset => (offset = file.length ∨ offset ∈ keys l) ∧
      file.length + calculateDataSize data.length < offBound
  | .remove offset => offset ∈ keys l

def listing (file : Bytes) (l : Listing) : Call → Listing
  | .add data offset => insertAt offset (file.length, data) l
  | .remove offset => removeAt offset l

def shortest : Call → Nat
  | .add .. => 1
  | .remove _ => 2

def committing : Call → FileStatus
  | .add .. => .adEmpty
  | .remove _ => .rdEmpty

end Call

/-- The next process to open the file initialises itself and leaves a closed container
that holds the list. -/
def Restores (e : Env) (file : Bytes) (l : Listing) : Prop :=
  ∀ stamp, ∃ c, initContainer e (Container.openFile file stamp) = .ok () c ∧ WellFormed c.stream.file l

def blanking : Write := .put (statusPosition + 2) emptyBackup

variable {c : Container} {e : Env} {l : Listing} {base img : Image} {file : Bytes} {call : Call}

theorem restores_of_ends (fits : img.Fits)
    (ends : ∀ k pos, ∃ k' new stop, Ends Unchecked initContainer e ⟨k, img⟩ pos (.ok ()) ⟨k', new⟩ stop ∧
      new.Holds l ∧ new.status = .closed) : Restores e (encode img) l := by
  intro stamp
  obtain ⟨k', new, stop, run, holds, closed⟩ := ends (Container.openFile (encode img) stamp).cache 0
  obtain ⟨fitsEnd, runs⟩ := run fits
  obtain ⟨made, same, -⟩ := runs []
  exact ⟨_, same, new, rfl, fitsEnd, closed, holds⟩

/-! Before the backups are blanked. -/

/-- A file in which what has changed is what the backups hold. -/
def Undoable (base : Image) (file : Bytes) : Prop :=
  ∃ img : Image, img.Fits ∧ Covered base img ∧ file = encode img

theorem Undoable.restores (undoable : Undoable base file) (list : Restorable e base l) :
    Restores e file l := by
  obtain ⟨img, fits, covered, rfl⟩ := undoable
  exact restores_of_ends fits fun k pos => initContainer_covered list covered

def waiting : List FileStatus := [.aeWritten, .abLast, .amLast, .rdMark1, .rdMark2]

/-- A call that goes on with the four writes of its commit when the file is that of an image. -/
structure Commits (call : Call) (e : Env) (c : Container) (l : Listing) (before : List Write)
    (img : Image) : Prop where
  run : ∃ c', call.run e c = .ok () c' ∧ c'.stream.writes =
    c.stream.writes ++ (before ++ commitWrites call.committing (call.listing c.stream.file l).length)
  text : applyWrites c.stream.file before = encode img
  fits : img.Fits
  size : img.size = l.length

structure Waits (call : Call) (e : Env) (c : Container) (l : Listing) (before : List Write)
    (img : Image) : Prop
    extends Commits call e c l before img where
  linked : img.Linked (call.listing c.stream.file l)
  status : img.status ∈ waiting

section

variable {k : Cache} {pos stop offset : Nat} {writes before : List Write} {t : Snapshot Cache Image}
  {statuses : List FileStatus}

theorem Staged.waits_addition {data : Bytes} {it : FileIterator} (fits : img.Fits) (holds : img.Holds l)
    (staged : Staged img statuses (insertAt offset (img.fileEnd, data) l) t) (known : statuses ⊆ waiting)
    (fitsEnd : t.image.Fits) (text : applyWrites (encode img) before = encode t.image)
    (run : stageAddition data offset e (Snapshot.at ⟨k, img⟩ pos writes) =
      .ok it (t.at stop (writes ++ before))) :
    Waits (.add data offset) e (Snapshot.at ⟨k, img⟩ pos writes) l before t.image := by
  have counted : t.cache.size + 1 = (insertAt offset (img.fileEnd, data) l).length := by
    rw [staged.counted, holds.size, length_insertAt]
  have commits := addData_commits fitsEnd staged.linked.clean (staged.linked.length_lt fitsEnd) counted run
  have list : (Call.add data offset).listing (encode img) l = insertAt offset (img.fileEnd, data) l := by
    rw [Call.listing, length_encode fits]
  refine {
    run := ⟨_, Prog.bind_ok commits, ?_⟩
    text
    fits := fitsEnd
    size := staged.size.trans holds.size
    linked := list ▸ staged.linked
    status := known staged.status }
  exact congrArg (fun l : Listing => writes ++ (before ++ commitWrites .adEmpty l.length)) list.symm

theorem Staged.waits_removal (holds : img.Holds l) (member : offset ∈ keys l)
    (staged : Staged img statuses (removeAt offset l) t) (known : statuses ⊆ waiting)
    (fitsEnd : t.image.Fits) (text : applyWrites (encode img) before = encode t.image)
    (run : stageRemoval offset e (Snapshot.at ⟨k, img⟩ pos writes) =
      .ok () (t.at stop (writes ++ before))) :
    Waits (.remove offset) e (Snapshot.at ⟨k, img⟩ pos writes) l before t.image := by
  have counted : t.cache.size = (removeAt offset l).length + 1 := by
    rw [staged.counted, holds.size, length_removeAt holds.nodup member]
  exact {
    run := ⟨_, removeData_commits fitsEnd staged.linked.clean (staged.linked.length_lt fitsEnd)
      counted run, rfl⟩
    text
    fits := fitsEnd
    size := staged.size.trans holds.size
    linked := staged.linked
    status := known staged.status }

end

/-- Every file that a call leaves before its commit can be undone. -/
theorem call_undoable (ready : Ready c l) (valid : call.Valid c.stream.file l)
    (long : call.shortest ≤ l.length) :
    ∃ base before, base.Holds l ∧ Undoable base c.stream.file ∧
      Survives (Undoable base) c.stream.file before ∧
      ((∃ code c', call.run e c = .error code c' ∧ c'.stream.writes = c.stream.writes ++ before) ∨
        ∃ img, Waits call e c l before img) := by
  obtain ⟨k, img, pos, writes, rfl, fits, closed, holds, coherent⟩ := ready
  have untouched : Undoable (img.started e (k.prepared img false)) (encode img) :=
    ⟨img, fits, .untouched ⟨holds.clean, rfl⟩ (closed ▸ .head _) (.of_same rfl) rfl rfl, rfl⟩
  have covers (X : Image) (covered : Covered (img.started e (k.prepared img false)) X) :
      Leaves (Undoable (img.started e (k.prepared img false))) X :=
    fun fits => ⟨X, fits, covered, rfl⟩
  refine ⟨img.started e (k.prepared img false), ?_⟩
  cases call with
  | add data offset =>
    obtain ⟨place, bound⟩ := valid
    rw [ready_length fits] at place bound
    have nonempty : l ≠ [] := length_pos_iff.mp long
    have reaches : Reaches _ (stageAddition data offset) e ⟨k, img⟩ pos _ :=
      stageAddition_opened (opens_closed e false closed coherent holds) covers nonempty
        (fun _ => bound) place
    obtain ⟨r, t, stop, before, run, fitsEnd, text, safe, ends⟩ := reaches.run fits writes
    refine ⟨before, { holds with }, untouched, safe, ?_⟩
    rcases ends with ⟨-, rfl, -⟩ | ⟨-, it, here, rfl, staged, -⟩
    · exact .inl ⟨_, _, Prog.bind_error (Prog.bind_error run), rfl⟩
    · exact .inr ⟨_, staged.waits_addition fits holds (by decide) fitsEnd text run⟩
  | remove offset =>
    have reaches : Reaches _ (stageRemoval offset) e ⟨k, img⟩ pos _ :=
      stageRemoval_opened (opens_closed e false closed coherent holds) covers long valid
    obtain ⟨r, t, stop, before, run, fitsEnd, text, safe, rfl, staged, -⟩ := reaches.run fits writes
    exact ⟨before, { holds with }, untouched, safe,
      .inr ⟨_, staged.waits_removal holds valid (by decide) fitsEnd text run⟩⟩

theorem prefix_before_blanking {made before : List Write} {status : FileStatus} {size : Nat}
    (cut : made <+: before ++ commitWrites status size) (early : blanking ∉ made) : made <+: before := by
  rcases prefix_append_cases cut with inside | ⟨rest, inside, rfl⟩
  · exact inside
  · cases rest with
    | nil => simp
    | cons first rest =>
      obtain rfl : first = blanking := (cons_prefix_cons.mp inside).1
      exact absurd (by simp) early

/-- A call that is cut short before it blanks the backups is undone. -/
theorem call_cut_before_blanking_restores (ready : Ready c l) (valid : call.Valid c.stream.file l)
    (long : call.shortest ≤ l.length) :
    ∃ final new, (call.run e c).final? = some final ∧ final.stream.writes = c.stream.writes ++ new ∧
      ∀ made, made <+: new → blanking ∉ made → ∀ e' : Env, l.length ≤ e'.fuel →
        Restores e' (applyWrites c.stream.file made) l := by
  obtain ⟨base, before, holds, untouched, safe, traced⟩ := call_undoable (e := e) ready valid long
  have nonempty : l ≠ [] := by
    have positive : 0 < call.shortest := by cases call <;> exact Nat.succ_pos _
    exact length_pos_iff.mp (Nat.lt_of_lt_of_le positive long)
  have restores (made : List Write) (cut : made <+: before) (e' : Env) (enough : l.length ≤ e'.fuel) :
      Restores e' (applyWrites c.stream.file made) l :=
    (safe.cut untouched cut).restores ⟨holds, nonempty, enough, ready.length_lt⟩
  rcases traced with ⟨code, c', run, trace⟩ | ⟨img, ⟨⟨c', run, trace⟩, -⟩, -⟩
  · exact ⟨c', before, by rw [run]; rfl, trace, fun made cut _ => restores made cut⟩
  · exact ⟨c', _, by rw [run]; rfl, trace,
      fun made cut early => restores made (prefix_before_blanking cut early)⟩

def Image.single (value : Bytes) : Image :=
  { empty ⟨0, 0⟩ .closed with
    size := 1
    limits := ⟨headerSize, headerSize⟩
    records := [⟨⟨0, headerSize + calculateDataSize value.length⟩, false, value,
      ⟨headerSize, headerSize + calculateDataSize value.length⟩⟩] }

theorem Image.fits_single {value : Bytes}
    (bound : headerSize + calculateDataSize value.length < offBound) :
    (single value).Fits :=
  { fits_empty .closed offBound_pos (by exact Nat.zero_lt_succ _) with
    size := (by decide : 1 < sizeBound)
    limits := (by decide : headerSize < offBound ∧ headerSize < offBound)
    records := fun r member => by
      rw [mem_singleton.mp member]
      refine ⟨⟨offBound_pos, bound⟩, ?_, by exact Nat.lt_of_le_of_lt (Nat.le_add_right _ _) bound, bound⟩
      simp only [calculateDataSize, offBound, sizeBound] at bound ⊢
      omega }

theorem Image.holds_single (value : Bytes) : (single value).Holds [(headerSize, value)] where
  clean := rfl
  finished := rfl
  segment := by simp [Segment, live, at?, Layout.locate, single, Record.node?, fileEnd,
    recordsEnd, Layout.total, Record.size, empty, headKey]
  nodup := by simp
  first := rfl
  last := rfl
  bare nothing := nomatch nothing
  blank nothing := nomatch nothing
  size := rfl

theorem call_cut_before_blanking_restores_one :
    ∃ final new, ((Call.add ['b'] headerSize).run ⟨fun _ => ⟨0, offBound_pos⟩, 1⟩
        (Container.openFile (encode (single ['a'])) ⟨0, 0⟩)).final? = some final ∧
      final.stream.writes = new ∧ ∀ made, made <+: new → blanking ∉ made → ∀ e' : Env, 1 ≤ e'.fuel →
        Restores e' (applyWrites (encode (single ['a'])) made) [(headerSize, ['a'])] := by
  have fits : (single ['a']).Fits := fits_single (by decide)
  have valid : (Call.add ['b'] headerSize).Valid (encode (single ['a'])) [(headerSize, ['a'])] := by
    refine ⟨.inr (by simp), ?_⟩
    rw [length_encode fits]
    decide
  exact call_cut_before_blanking_restores
    (ready_openFile ⟨0, 0⟩ ⟨_, rfl, fits, rfl, holds_single ['a']⟩) valid (by decide)

end Wms.FileContainer
