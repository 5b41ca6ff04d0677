import Mathlib.Data.List.AList
import Wms.Lib.Pattern

/-! Files as the calls of an operating system see them.

A path leads to a file, and a file keeps its contents when its path changes. Opening a
path for writing empties the file it leads to, or makes a new one; a writer keeps the file
it opened even when the path has come to lead elsewhere. A rename takes the place of
whatever was at its target.
-/

set_option autoImplicit false

namespace Wms.Lib

open Function

structure Files (π : Type) where
  entry : AList fun _ : π => Nat
  data : Nat → Bytes
  /-- files from here on are not in use -/
  unused : Nat

namespace Files

def none (π : Type) : Files π := ⟨∅, fun _ => [], 0⟩

variable {π : Type} [DecidableEq π]

def file? (fs : Files π) (p : π) : Option Nat := fs.entry.lookup p

def content? (fs : Files π) (p : π) : Option Bytes := (fs.file? p).map fs.data

def paths (fs : Files π) : List π := fs.entry.keys

def create (p : π) (fs : Files π) : Nat × Files π :=
  match fs.file? p with
  | some i => (i, { fs with data := update fs.data i [] })
  | .none => (fs.unused, {
      entry := fs.entry.insert p fs.unused
      data := update fs.data fs.unused []
      unused := fs.unused + 1 })

def write (i : Nat) (bytes : Bytes) (fs : Files π) : Files π :=
  { fs with data := update fs.data i (bytes ++ (fs.data i).drop bytes.length) }

/-- Nothing happens when the source does not exist (`ENOENT`). -/
def rename (source target : π) (fs : Files π) : Option (Files π) :=
  (fs.file? source).map fun i => { fs with entry := (fs.entry.erase source).insert target i }

def unlink (p : π) (fs : Files π) : Files π := { fs with entry := fs.entry.erase p }

/-- No path leads to an unused file and no two paths lead to one file. -/
structure Sound (fs : Files π) : Prop where
  used : ∀ p i, fs.file? p = some i → i < fs.unused
  single : ∀ p q i, fs.file? p = some i → fs.file? q = some i → p = q

variable {fs fs' : Files π} {p q source target : π} {i : Nat} {bytes : Bytes}

theorem mem_paths : p ∈ fs.paths ↔ ∃ i, fs.file? p = some i := by
  rw [← Option.isSome_iff_exists]
  exact AList.lookup_isSome.symm

theorem file?_eq_none : fs.file? p = .none ↔ p ∉ fs.paths :=
  AList.lookup_eq_none

theorem content?_eq_none : fs.content? p = .none ↔ fs.file? p = .none := by
  simp [content?]

theorem content?_eq_some : fs.content? p = some bytes ↔ ∃ i, fs.file? p = some i ∧ fs.data i = bytes := by
  simp [content?]

/-! ### Opening -/

theorem create_file? : (fs.create p).2.file? p = some (fs.create p).1 := by
  unfold create
  split
  · rename_i i held
    exact held
  · simp [file?]

theorem create_file?_of_ne (other : q ≠ p) : (fs.create p).2.file? q = fs.file? q := by
  unfold create
  split
  · rfl
  · simp [file?, AList.lookup_insert_ne other]

theorem create_data : (fs.create p).2.data (fs.create p).1 = [] := by
  unfold create
  split <;> simp

theorem Sound.create_content?_of_ne (sound : fs.Sound) (other : q ≠ p) :
    (fs.create p).2.content? q = fs.content? q := by
  have same : (fs.create p).2.file? q = fs.file? q := create_file?_of_ne other
  unfold content?
  rw [same]
  cases held : fs.file? q with
  | none => rfl
  | some i =>
    have apart : i ≠ (fs.create p).1 := by
      rintro rfl
      unfold Files.create at held
      split at held
      · rename_i j at_path
        exact other (sound.single _ _ _ held at_path)
      · exact Nat.lt_irrefl _ (sound.used _ _ held)
    have kept : (fs.create p).2.data i = fs.data i := by
      unfold Files.create at apart ⊢
      split <;> rename_i at_path <;> simp only [at_path] at apart
      · exact update_of_ne apart _ _
      · exact update_of_ne apart _ _
    simp [kept]

theorem lookup_insert_iff {entry : AList fun _ : π => Nat} {j : Nat} :
    (entry.insert p i).lookup q = some j ↔
    q = p ∧ i = j ∨ q ≠ p ∧ entry.lookup q = some j := by
  by_cases same : q = p
  · subst same
    simp
  · simp [same, AList.lookup_insert_ne same]

/-- A path is made to lead to a file that no other path leads to. -/
theorem Sound.insert (sound : fs.Sound) {entry : AList fun _ : π => Nat} {n : Nat}
    (data : Nat → Bytes) (inside : i < n)
    (more : fs.unused ≤ n) (kept : ∀ q j, entry.lookup q = some j → fs.file? q = some j ∧ j ≠ i) :
    Sound ⟨entry.insert p i, data, n⟩ where
  used q j held := by
    rcases lookup_insert_iff.mp held with ⟨-, rfl⟩ | ⟨-, before⟩
    · exact inside
    · exact Nat.lt_of_lt_of_le (sound.used q j (kept q j before).1) more
  single q r j first second := by
    rcases lookup_insert_iff.mp first with ⟨rfl, rfl⟩ | ⟨-, before⟩ <;>
      rcases lookup_insert_iff.mp second with ⟨rfl, same⟩ | ⟨-, after⟩
    · rfl
    · exact absurd rfl (kept r _ after).2
    · exact absurd same.symm (kept q j before).2
    · exact sound.single q r j (kept q j before).1 (kept r j after).1

theorem Sound.create (sound : fs.Sound) : (fs.create p).2.Sound := by
  unfold Files.create
  split
  · exact ⟨sound.used, sound.single⟩
  · exact sound.insert _ (Nat.lt_succ_self _) (Nat.le_succ _) fun q j held =>
      ⟨held, Nat.ne_of_lt (sound.used q j held)⟩

/-! ### Writing -/

theorem write_file? : (fs.write i bytes).file? p = fs.file? p := rfl

theorem Sound.write (sound : fs.Sound) : (fs.write i bytes).Sound := ⟨sound.used, sound.single⟩

theorem Sound.write_content?_of_ne (sound : fs.Sound) (held : fs.file? p = some i) (other : q ≠ p) :
    (fs.write i bytes).content? q = fs.content? q := by
  unfold content?
  rw [write_file?]
  cases reached : fs.file? q with
  | none => rfl
  | some j =>
    have apart : j ≠ i := by
      rintro rfl
      exact other (sound.single _ _ _ reached held)
    simp [Files.write, update_of_ne apart]

omit [DecidableEq π] in
theorem write_data (empty : fs.data i = []) : (fs.write i bytes).data i = bytes := by
  simp [write, empty]

/-! ### Renaming and unlinking -/

theorem rename_eq_some (held : fs.file? source = some i) : fs.rename source target =
    some { fs with entry := (fs.entry.erase source).insert target i } := by
  simp [rename, held]

section

variable (moved : fs.rename source target = some fs')
include moved

theorem rename_file?_target : fs'.file? target = fs.file? source := by
  obtain ⟨i, held, rfl⟩ := Option.map_eq_some_iff.mp moved
  simp [file?] at held ⊢
  rw [held]

theorem rename_file?_source (other : source ≠ target) : fs'.file? source = .none := by
  obtain ⟨i, held, rfl⟩ := Option.map_eq_some_iff.mp moved
  simp [file?, AList.lookup_insert_ne other]

theorem rename_file?_of_ne (first : q ≠ source) (second : q ≠ target) : fs'.file? q = fs.file? q := by
  obtain ⟨i, held, rfl⟩ := Option.map_eq_some_iff.mp moved
  simp [file?, AList.lookup_insert_ne second, AList.lookup_erase_ne first]

theorem rename_data : fs'.data = fs.data := by
  obtain ⟨i, held, rfl⟩ := Option.map_eq_some_iff.mp moved
  rfl

theorem rename_content?_target : fs'.content? target = fs.content? source := by
  rw [content?, content?, rename_file?_target moved, rename_data moved]

theorem rename_content?_of_ne (first : q ≠ source) (second : q ≠ target) :
    fs'.content? q = fs.content? q := by
  rw [content?, content?, rename_file?_of_ne moved first second, rename_data moved]

end

theorem unlink_file?_of_ne (other : q ≠ p) : (fs.unlink p).file? q = fs.file? q :=
  AList.lookup_erase_ne other

theorem unlink_content?_of_ne (other : q ≠ p) : (fs.unlink p).content? q = fs.content? q := by
  rw [content?, content?, unlink_file?_of_ne other]
  rfl

theorem lookup_erase_iff {entry : AList fun _ : π => Nat} {j : Nat} : (entry.erase p).lookup q = some j ↔
    q ≠ p ∧ entry.lookup q = some j := by
  by_cases same : q = p
  · subst same
    simp
  · simp [same, AList.lookup_erase_ne same]

theorem Sound.unlink (sound : fs.Sound) : (fs.unlink p).Sound where
  used q i held := sound.used q i (lookup_erase_iff.mp held).2
  single q r i first second := sound.single q r i (lookup_erase_iff.mp first).2
    (lookup_erase_iff.mp second).2

theorem Sound.rename (sound : fs.Sound) (moved : fs.rename source target = some fs') : fs'.Sound := by
  obtain ⟨i, held, rfl⟩ := Option.map_eq_some_iff.mp moved
  refine sound.insert _ (sound.used _ _ held) (Nat.le_refl _) fun q j reached => ?_
  obtain ⟨away, earlier⟩ := lookup_erase_iff.mp reached
  exact ⟨earlier, fun same => away (sound.single _ _ _ earlier (same ▸ held))⟩

end Files

end Wms.Lib
