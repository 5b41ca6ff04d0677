import Wms.Lib.FileProg

/-! Programs that only read their file.

Such a program returns, does not look at its environment, and leaves the memory and the
file as they are. When the stream is still good in the end, only its position has changed.
-/

set_option autoImplicit false

namespace Wms.Lib

open Prog FileStream List

variable {ρ κ ε α β : Type} {m : FileProg ρ κ ε α} {f : α → FileProg ρ κ ε β} {e : ρ} {a : α}

namespace Store

structure Same (c d : Store κ) : Prop where
  cache : d.cache = c.cache
  file : d.stream.file = c.stream.file
  writes : d.stream.writes = c.stream.writes

theorem Same.refl (c : Store κ) : c.Same c := ⟨rfl, rfl, rfl⟩

theorem Same.trans {c d f : Store κ} (first : c.Same d) (second : d.Same f) : c.Same f :=
  ⟨second.cache.trans first.cache, second.file.trans first.file, second.writes.trans first.writes⟩

def moved (c : Store κ) (pos : Nat) : Store κ := { c with stream := { c.stream with pos } }

theorem Same.eq_moved {c d : Store κ} (same : c.Same d) (before : c.stream.good = true)
    (after : d.stream.good = true) :
    d = c.moved d.stream.pos := by
  obtain ⟨k, ⟨file, pos, eof, fail, writes⟩⟩ := c
  obtain ⟨k', ⟨file', pos', eof', fail', writes'⟩⟩ := d
  obtain ⟨rfl, rfl, rfl⟩ := same
  obtain ⟨rfl, rfl⟩ := FileStream.eof_of_good before
  obtain ⟨rfl, rfl⟩ := FileStream.eof_of_good after
  rfl

end Store

structure Reader (m : FileProg ρ κ ε α) : Prop where
  blind : ∀ e e' c, m e c = m e' c
  returns : ∀ e c, m e c ≠ .hang
  keeps : ∀ e c d, (m e c).final? = some d → c.Same d

namespace Reader

variable {m : FileProg ρ κ ε α} {f : α → FileProg ρ κ ε β}

theorem pure (a : α) : Reader (Pure.pure a : FileProg ρ κ ε α) where
  blind _ _ _ := rfl
  returns _ _ := nofun
  keeps _ c _ run := Option.some.inj run ▸ Store.Same.refl c

theorem throw (code : ε) : Reader (throw code : FileProg ρ κ ε α) where
  blind _ _ _ := rfl
  returns _ _ := nofun
  keeps _ c _ run := Option.some.inj run ▸ Store.Same.refl c

theorem bind (first : Reader m) (second : ∀ a, Reader (f a)) : Reader (m >>= f) where
  blind e e' c := by
    cases run : m e c with
    | ok a d => rw [bind_ok run, bind_ok ((first.blind e' e c).trans run), (second a).blind e e' d]
    | error code d => rw [bind_error run, bind_error ((first.blind e' e c).trans run)]
    | hang => exact absurd run (first.returns e c)
  returns e c := bind_ne_hang (first.returns e c) fun a => (second a).returns
  keeps e c d ends := by
    cases run : m e c with
    | ok a mid =>
      rw [bind_ok run] at ends
      exact (first.keeps e c mid (by rw [run]; rfl)).trans ((second a).keeps e mid d ends)
    | error code mid =>
      rw [bind_error run] at ends
      exact Option.some.inj ends ▸ first.keeps e c mid (by rw [run]; rfl)
    | hang => exact absurd run (first.returns e c)

theorem attempt (run : Reader m) : Reader (attempt m) where
  blind e e' c := by rw [Prog.attempt, Prog.attempt, run.blind e e' c]
  returns e c := by
    rw [Prog.attempt]
    cases ends : m e c with
    | ok | error =>
      intro hung
      cases hung
    | hang => exact absurd ends (run.returns e c)
  keeps e c d ends := by
    rw [Prog.attempt] at ends
    refine run.keeps e c d ?_
    cases same : m e c with
    | ok | error => rw [same] at ends; exact ends
    | hang => exact absurd same (run.returns e c)

theorem branch {c : Prop} [Decidable c] {m other : FileProg ρ κ ε α} (yes : Reader m) (no : Reader other) :
    Reader (if c then m else other) := by
  split
  · exact yes
  · exact no

theorem onStream {f : FileStream → α × FileStream}
    (quiet : ∀ s, (f s).2.file = s.file ∧ (f s).2.writes = s.writes) :
    Reader (FileProg.onStream f : FileProg ρ κ ε α) where
  blind _ _ _ := rfl
  returns _ _ := nofun
  keeps _ _ _ run := Option.some.inj run ▸ ⟨rfl, (quiet _).1, (quiet _).2⟩

theorem seek (n : Nat) : Reader (FileProg.seek n : FileProg ρ κ ε Unit) :=
  onStream fun s => by simp only [FileStream.seek]; split <;> exact ⟨rfl, rfl⟩

theorem tell : Reader (FileProg.tell : FileProg ρ κ ε Nat) := onStream fun _ => ⟨rfl, rfl⟩

theorem isGood : Reader (FileProg.isGood : FileProg ρ κ ε Bool) := onStream fun _ => ⟨rfl, rfl⟩

theorem getEnd : Reader (FileProg.getEnd : FileProg ρ κ ε Nat) := by
  refine bind (onStream fun s => ?_) fun _ => tell
  simp only [FileStream.seekEnd, FileStream.seek]
  split <;> exact ⟨rfl, rfl⟩

theorem getline : Reader (FileProg.getline : FileProg ρ κ ε Bytes) := by
  refine onStream fun s => ?_
  simp only [FileStream.getline]
  split
  · split <;> exact ⟨rfl, rfl⟩
  · exact ⟨rfl, rfl⟩

theorem getChar : Reader (FileProg.getChar : FileProg ρ κ ε (Option Char)) := by
  refine onStream fun s => ?_
  simp only [FileStream.get]
  split
  · split <;> exact ⟨rfl, rfl⟩
  · exact ⟨rfl, rfl⟩

theorem extract (base bound : Nat) : Reader
    (FileProg.extract base bound : FileProg ρ κ ε (Option Nat)) := by
  refine onStream fun s => ?_
  simp only [FileStream.extract]
  split
  · split
    · exact ⟨rfl, rfl⟩
    · split <;> exact ⟨rfl, rfl⟩
  · exact ⟨rfl, rfl⟩

theorem extractChar : Reader (FileProg.extractChar : FileProg ρ κ ε (Option Char)) := by
  refine onStream fun s => ?_
  simp only [FileStream.extractChar]
  split
  · split <;> exact ⟨rfl, rfl⟩
  · exact ⟨rfl, rfl⟩

end Reader

end Wms.Lib
