import Wms.Lib.Prog

/-! Programs over one file, and what they leave behind when they are cut short.

The state of a program is what it keeps in memory and the stream of its file. A file
that follows a format is the text of an image. `Ends` says how a run ends from one image
in another, and that every file the run leaves on its way meets a crash condition. Only
writes have to meet the condition, so a run is proved to end by the same steps whatever
the condition is.
-/

set_option autoImplicit false

namespace Wms.Lib

open Prog FileStream List

structure Store (κ : Type) where
  cache : κ
  stream : FileStream
  deriving DecidableEq, Repr

abbrev FileProg (ρ κ ε : Type) := Prog ρ (Store κ) ε

namespace FileProg

variable {ρ κ ε α β : Type}

def cache : FileProg ρ κ ε κ := fun _ c => .ok c.cache c

def update (f : κ → κ) : FileProg ρ κ ε Unit := fun _ c => .ok () { c with cache := f c.cache }

def onStream (f : FileStream → α × FileStream) : FileProg ρ κ ε α := fun _ c =>
  .ok (f c.stream).1 { c with stream := (f c.stream).2 }

def seek (n : Nat) : FileProg ρ κ ε Unit := onStream fun s => ((), s.seek n)

/-- The position. A failed stream answers -1, which like 0 lies before every field. -/
def tell : FileProg ρ κ ε Nat := onStream fun s => (s.tell.getD 0, s)

def put (bytes : Bytes) : FileProg ρ κ ε Unit := onStream fun s => ((), s.put bytes)

def cut (size : Nat) : FileProg ρ κ ε Unit := onStream fun s => ((), s.truncate size)

def getline : FileProg ρ κ ε Bytes := onStream FileStream.getline

def getChar : FileProg ρ κ ε (Option Char) := onStream get

def readChars (n : Nat) : FileProg ρ κ ε Bytes := onStream fun s => s.read n

def extract (base bound : Nat) : FileProg ρ κ ε (Option Nat) :=
  onStream (FileStream.extract base bound)

def extractChar : FileProg ρ κ ε (Option Char) := onStream FileStream.extractChar

def isGood : FileProg ρ κ ε Bool := onStream fun s => (s.good, s)

def seekEnd : FileProg ρ κ ε Unit := onStream fun s => ((), s.seekEnd)

def getEnd : FileProg ρ κ ε Nat := do
  seekEnd
  tell

end FileProg

/-- A file format: the text of an image, and the images whose parts fit their fields. -/
class Format (ι : Type) where
  encode : ι → Bytes
  Fits : ι → Prop

export Format (encode Fits)

structure Snapshot (κ ι : Type) where
  cache : κ
  image : ι

variable {ρ κ ε α β ι : Type} [Format ι]

def Snapshot.at (s : Snapshot κ ι) (pos : Nat) (writes : List Write) : Store κ :=
  ⟨s.cache, ⟨encode s.image, pos, false, false, writes⟩⟩

def Survives (crash : Bytes → Prop) (file : Bytes) (writes : List Write) : Prop :=
  ∀ made, made <+: writes → made ≠ [] → crash (applyWrites file made)

def Leaves (crash : Bytes → Prop) (image : ι) : Prop := Fits image → crash (encode image)

def Outcome.of {σ : Type} : Except ε α → σ → Outcome σ ε α
  | .ok a, s => .ok a s
  | .error c, s => .error c s

def Ends (crash : Bytes → Prop) (m : FileProg ρ κ ε α) (e : ρ) (s : Snapshot κ ι) (pos : Nat)
    (r : Except ε α) (t : Snapshot κ ι) (stop : Nat) : Prop :=
  Fits s.image → Fits t.image ∧ ∀ writes, ∃ made,
    m e (s.at pos writes) = .of r (t.at stop (writes ++ made)) ∧
      applyWrites (encode s.image) made = encode t.image ∧
      Survives crash (encode s.image) made

/-- Any text is the image of itself; a file that does not follow a format is described by it. -/
instance : Format Bytes where
  encode := id
  Fits _ := True

theorem Snapshot.at_text (k : κ) (image : ι) (pos : Nat) (writes : List Write) :
    (⟨k, encode image⟩ : Snapshot κ Bytes).at pos writes = (⟨k, image⟩ : Snapshot κ ι).at pos writes := rfl

def Unchecked : Bytes → Prop := fun _ => True

def Fails (m : FileProg ρ κ ε α) (e : ρ) (s : Snapshot κ ι) (pos : Nat) (code : ε) : Prop :=
  Fits s.image → ∀ writes, ∃ c, m e (s.at pos writes) = .error code c

def Stops (m : FileProg ρ κ ε α) (e : ρ) (s : Snapshot κ ι) (pos : Nat) (code : ε)
    (remains : Store κ → Prop) : Prop :=
  Fits s.image → ∀ writes, ∃ c, m e (s.at pos writes) = .error code c ∧ remains c

variable {crash : Bytes → Prop} {m : FileProg ρ κ ε α} {f : α → FileProg ρ κ ε β} {e : ρ}
  {s t u : Snapshot κ ι} {pos mid stop : Nat} {a : α} {b : β} {r : Except ε β} {code : ε}

theorem applyWrites_append (file : Bytes) (first second : List Write) :
    applyWrites file (first ++ second) = applyWrites (applyWrites file first) second := by
  simp [applyWrites]

theorem prefix_append_cases {made first second : List Write} (cut : made <+: first ++ second) :
    made <+: first ∨ ∃ rest, rest <+: second ∧ made = first ++ rest := by
  rcases prefix_or_prefix_of_prefix cut (prefix_append first second) with inside | ⟨rest, rfl⟩
  · exact .inl inside
  · exact .inr ⟨rest, (prefix_append_right_inj first).mp cut, rfl⟩

theorem Leaves.unchecked {image : ι} : Leaves Unchecked image := fun _ => trivial

theorem Survives.append {file : Bytes} {first second : List Write}
    (before : Survives crash file first) (after : Survives crash (applyWrites file first) second) :
    Survives crash file (first ++ second) := by
  intro made cut nonempty
  rcases prefix_append_cases cut with inside | ⟨rest, inside, rfl⟩
  · exact before made inside nonempty
  · by_cases empty : rest = []
    · subst empty
      rw [append_nil] at nonempty ⊢
      exact before first (prefix_refl _) nonempty
    · rw [applyWrites_append]
      exact after rest inside empty

theorem Survives.nil (file : Bytes) : Survives crash file [] := by
  intro made cut nonempty
  exact absurd (prefix_nil.mp cut) nonempty

theorem Survives.one {file : Bytes} {write : Write} (meets : crash (write.apply file)) :
    Survives crash file [write] := by
  intro made cut nonempty
  rcases prefix_cons_iff.mp cut with nothing | ⟨rest, rfl, tail⟩
  · exact absurd nothing nonempty
  · rw [prefix_nil.mp tail]
    exact meets

theorem Survives.cut {file : Bytes} {made writes : List Write} (safe : Survives crash file writes)
    (start : crash file) (cut : made <+: writes) : crash (applyWrites file made) := by
  by_cases empty : made = []
  · subst empty
    exact start
  · exact safe made cut empty

namespace Ends

theorem of_quiet {r : Except ε α} {s t : Snapshot κ ι} (same : t.image = s.image)
    (run : Fits s.image → ∀ writes, m e (s.at pos writes) = .of r (t.at stop writes)) :
    Ends crash m e s pos r t stop := by
  intro fits
  refine ⟨same ▸ fits, fun writes => ⟨[], ?_, ?_, Survives.nil _⟩⟩
  · rw [run fits, append_nil]
  · rw [same]
    rfl

theorem of_fits {r : Except ε α} {k : κ} {old : ι}
    (run : Fits old → Ends crash m e ⟨k, old⟩ pos r t stop) : Ends crash m e ⟨k, old⟩ pos r t stop :=
  fun fits => run fits fits

theorem at_stop {other : Nat} {r : Except ε α} {s t : Snapshot κ ι} (run : Ends crash m e s pos r t stop)
    (same : stop = other) : Ends crash m e s pos r t other :=
  same ▸ run

theorem bind (first : Ends crash m e s pos (.ok a) t mid)
    (second : Ends crash (f a) e t mid r u stop) : Ends crash (m >>= f) e s pos r u stop := by
  intro fits
  obtain ⟨fitsMid, runFirst⟩ := first fits
  obtain ⟨fitsEnd, runSecond⟩ := second fitsMid
  refine ⟨fitsEnd, fun writes => ?_⟩
  obtain ⟨made, run, text, safe⟩ := runFirst writes
  obtain ⟨more, runMore, textMore, safeMore⟩ := runSecond (writes ++ made)
  refine ⟨made ++ more, ?_, ?_, ?_⟩
  · rw [bind_ok run, runMore, append_assoc]
  · rw [applyWrites_append, text, textMore]
  · exact safe.append (text.symm ▸ safeMore)

theorem bind_error (first : Ends crash m e s pos (.error code) t stop) :
    Ends crash (m >>= f) e s pos (.error code) t stop := by
  intro fits
  obtain ⟨fitsEnd, run⟩ := first fits
  refine ⟨fitsEnd, fun writes => ?_⟩
  obtain ⟨made, same, rest⟩ := run writes
  exact ⟨made, Prog.bind_error same, rest⟩

theorem on_true {c : Prop} [Decidable c] {m other : FileProg ρ κ ε α} {r : Except ε α} (holds : c)
    (run : Ends crash m e s pos r t stop) : Ends crash (if c then m else other) e s pos r t stop := by
  rwa [if_pos holds]

theorem on_false {c : Prop} [Decidable c] {m other : FileProg ρ κ ε α} {r : Except ε α} (fails : ¬ c)
    (run : Ends crash m e s pos r t stop) : Ends crash (if c then other else m) e s pos r t stop := by
  rwa [if_neg fails]

theorem attempt {r : Except ε α} (run : Ends crash m e s pos r t stop) :
    Ends crash (attempt m) e s pos (.ok r) t stop := by
  intro fits
  obtain ⟨fitsEnd, runs⟩ := run fits
  refine ⟨fitsEnd, fun writes => ?_⟩
  obtain ⟨made, same, rest⟩ := runs writes
  refine ⟨made, ?_, rest⟩
  cases r with
  | ok a => exact attempt_ok same
  | error code => exact attempt_error same

theorem of_text {r : Except ε α} {k l : κ} {old new : ι} (fits : Fits new)
    (run : Ends crash m e ⟨k, encode old⟩ pos r ⟨l, encode new⟩ stop) :
    Ends crash m e ⟨k, old⟩ pos r ⟨l, new⟩ stop :=
  fun _ => ⟨fits, (run trivial).2⟩

theorem result {writes : List Write} {c : Store κ} {other : α} (run : Ends crash m e s pos (.ok a) t stop)
    (fits : Fits s.image) (same : m e (s.at pos writes) = .ok other c) :
    other = a ∧ c.stream.file = encode t.image := by
  obtain ⟨made, returns, -⟩ := (run fits).2 writes
  obtain ⟨rfl, rfl⟩ := Outcome.ok.inj (returns.symm.trans same)
  exact ⟨rfl, rfl⟩

variable {k : κ} {old image : ι}

theorem pure (a : α) : Ends crash (Pure.pure a : FileProg ρ κ ε α) e s pos (.ok a) s pos :=
  of_quiet rfl fun _ _ => rfl

theorem throw (code : ε) : Ends crash (throw code : FileProg ρ κ ε α) e s pos (.error code) s pos :=
  of_quiet rfl fun _ _ => rfl

theorem ask : Ends crash ask e s pos (.ok e : Except ε ρ) s pos :=
  of_quiet rfl fun _ _ => rfl

theorem ofExcept (r : Except ε α) : Ends crash (ofExcept r) e s pos r s pos :=
  of_quiet rfl fun _ _ => by cases r <;> rfl

theorem cache : Ends crash FileProg.cache e ⟨k, old⟩ pos (.ok k : Except ε κ) ⟨k, old⟩ pos :=
  of_quiet rfl fun _ _ => rfl

theorem update (g : κ → κ) : Ends crash (FileProg.update g) e ⟨k, old⟩ pos
    (.ok () : Except ε Unit) ⟨g k, old⟩ pos :=
  of_quiet rfl fun _ _ => rfl

theorem seek (n : Nat) : Ends crash (FileProg.seek n) e s pos (.ok () : Except ε Unit) s n :=
  of_quiet rfl fun _ _ => rfl

theorem tell : Ends crash FileProg.tell e s pos (.ok pos : Except ε Nat) s pos :=
  of_quiet rfl fun _ _ => rfl

theorem isGood : Ends crash FileProg.isGood e s pos (.ok true : Except ε Bool) s pos :=
  of_quiet rfl fun _ _ => rfl

theorem seekEnd : Ends crash FileProg.seekEnd e ⟨k, old⟩ pos (.ok () : Except ε Unit) ⟨k, old⟩
    (encode old).length :=
  of_quiet rfl fun _ _ => rfl

theorem getEnd : Ends crash FileProg.getEnd e ⟨k, old⟩ pos
    (.ok (encode old).length : Except ε Nat) ⟨k, old⟩
    (encode old).length :=
  of_quiet rfl fun _ _ => rfl

/-! A reader finds what stands at the position. -/

variable {line block space tail : Bytes} {char stopChar : Char}

theorem onStream {f : FileStream → α × FileStream} (reads : ∀ st : FileStream, st.good = true →
    st.pos = pos →
      st.rest = (encode old).drop pos → f st = (a, { st with pos := stop })) :
    Ends crash (FileProg.onStream f) e ⟨k, old⟩ pos (.ok a : Except ε α) ⟨k, old⟩ stop :=
  of_quiet rfl fun _ writes => by
    have read := reads ⟨encode old, pos, false, false, writes⟩ rfl rfl rfl
    simp only [FileProg.onStream, Snapshot.at, read]
    rfl

theorem getline (inside : ∀ c ∈ line, (c != '\n') = true)
    (rest : (encode old).drop pos = line ++ '\n' :: tail) :
    Ends crash FileProg.getline e ⟨k, old⟩ pos (.ok line : Except ε Bytes) ⟨k, old⟩
      (pos + line.length + 1) :=
  onStream fun st good here text => by
    rw [getline_of_rest good inside (text.trans rest), here]

theorem getChar (rest : (encode old).drop pos = char :: tail) :
    Ends crash FileProg.getChar e ⟨k, old⟩ pos (.ok (some char) : Except ε (Option Char)) ⟨k, old⟩
      (pos + 1) :=
  onStream fun st good here text => by
    rw [get_of_rest good (text.trans rest), here]

theorem readChars (rest : (encode old).drop pos = block ++ tail) :
    Ends crash (FileProg.readChars block.length) e ⟨k, old⟩ pos (.ok block : Except ε Bytes) ⟨k, old⟩
      (pos + block.length) :=
  onStream fun st good here text => by
    rw [read_of_rest good (text.trans rest), here]

theorem extract {base bound width n : Nat} (low : 1 < base) (high : base ≤ 16) (small : n < bound)
    (blank : ∀ c ∈ space, isSpace c = true) (ends : isDigitOf base stopChar = false)
    (rest : (encode old).drop pos = space ++ (numeral base width n ++ stopChar :: tail)) :
    Ends crash (FileProg.extract base bound) e ⟨k, old⟩ pos (.ok (some n) : Except ε (Option Nat)) ⟨k, old⟩
      (pos + (space.length + (numeral base width n).length)) :=
  onStream fun st good here text => by
    rw [extract_of_rest low high good small blank ends (text.trans rest), here]

theorem extractChar (visible : isSpace char = false) (rest : (encode old).drop pos = ' ' :: char :: tail) :
    Ends crash FileProg.extractChar e ⟨k, old⟩ pos
      (.ok (some char) : Except ε (Option Char)) ⟨k, old⟩ (pos + 2) :=
  onStream fun st good here text => by
    rw [extractChar_of_rest good visible (text.trans rest), here]

/-! A writer changes the image, which has to meet the crash condition from then on. -/

theorem put {bytes : Bytes} (fits : Fits image)
    (same : overwrite (encode old) pos bytes = encode image) (meets : Leaves crash image) :
    Ends crash (FileProg.put bytes) e ⟨k, old⟩ pos (.ok () : Except ε Unit) ⟨k, image⟩
      (pos + bytes.length) := by
  intro _
  refine ⟨fits, fun writes => ⟨[.put pos bytes], ?_, same, .one ?_⟩⟩
  · simp only [FileProg.put, FileProg.onStream, Snapshot.at, ← same]
    rfl
  · exact cast (congrArg crash same.symm) (meets fits)

theorem cut {size : Nat} (fits : Fits image)
    (same : (encode old).takeD size nul = encode image) (meets : Leaves crash image) :
    Ends crash (FileProg.cut size) e ⟨k, old⟩ pos (.ok () : Except ε Unit) ⟨k, image⟩ pos := by
  intro _
  refine ⟨fits, fun writes => ⟨[.truncate size], ?_, same, .one ?_⟩⟩
  · simp only [FileProg.cut, FileProg.onStream, Snapshot.at, truncate, ← same]
    rfl
  · exact cast (congrArg crash same.symm) (meets fits)

end Ends

def Reaches (crash : Bytes → Prop) (m : FileProg ρ κ ε α) (e : ρ) (s : Snapshot κ ι) (pos : Nat)
    (post : Except ε α → Snapshot κ ι → Prop) : Prop :=
  Fits s.image → ∃ r t stop, Ends crash m e s pos r t stop ∧ post r t

namespace Reaches

variable {post : Except ε β → Snapshot κ ι → Prop} {k : κ} {old : ι}

theorem of_ends {m : FileProg ρ κ ε β} (run : Ends crash m e s pos r t stop) (holds : post r t) :
    Reaches crash m e s pos post :=
  fun _ => ⟨r, t, stop, run, holds⟩

theorem of_fits {m : FileProg ρ κ ε β} (run : Fits old → Reaches crash m e ⟨k, old⟩ pos post) :
    Reaches crash m e ⟨k, old⟩ pos post :=
  fun fits => run fits fits

theorem bind (first : Ends crash m e s pos (.ok a) t mid) (rest : Reaches crash (f a) e t mid post) :
    Reaches crash (m >>= f) e s pos post := by
  intro fits
  obtain ⟨r, u, stop, second, holds⟩ := rest (first fits).1
  exact ⟨r, u, stop, first.bind second, holds⟩

theorem bind_reaches {between : Except ε α → Snapshot κ ι → Prop} (first : Reaches crash m e s pos between)
    (rest : ∀ r t mid, between r t → ∃ a, r = .ok a ∧ Reaches crash (f a) e t mid post) :
    Reaches crash (m >>= f) e s pos post := by
  intro fits
  obtain ⟨r, t, mid, run, holds⟩ := first fits
  obtain ⟨a, rfl, second⟩ := rest r t mid holds
  exact Reaches.bind run second fits

theorem on_true {c : Prop} [Decidable c] {m other : FileProg ρ κ ε β} (holds : c)
    (run : Reaches crash m e s pos post) : Reaches crash (if c then m else other) e s pos post := by
  rwa [if_pos holds]

theorem on_false {c : Prop} [Decidable c] {m other : FileProg ρ κ ε β} (fails : ¬ c)
    (run : Reaches crash m e s pos post) : Reaches crash (if c then other else m) e s pos post := by
  rwa [if_neg fails]

theorem run {m : FileProg ρ κ ε β} (reaches : Reaches crash m e s pos post) (fits : Fits s.image)
    (writes : List Write) : ∃ r t stop made, m e (s.at pos writes) = .of r (t.at stop (writes ++ made)) ∧
      Fits t.image ∧ applyWrites (encode s.image) made = encode t.image ∧
        Survives crash (encode s.image) made ∧
      post r t := by
  obtain ⟨r, t, stop, ends, holds⟩ := reaches fits
  obtain ⟨fitsEnd, runs⟩ := ends fits
  obtain ⟨made, same, text, safe⟩ := runs writes
  exact ⟨r, t, stop, made, same, fitsEnd, text, safe, holds⟩

theorem mono {m : FileProg ρ κ ε β} {weaker : Except ε β → Snapshot κ ι → Prop}
    (run : Reaches crash m e s pos post) (implies : ∀ r t, post r t → weaker r t) :
    Reaches crash m e s pos weaker := by
  intro fits
  obtain ⟨r, t, stop, ends, holds⟩ := run fits
  exact ⟨r, t, stop, ends, implies r t holds⟩

end Reaches

namespace Stops

variable {remains : Store κ → Prop}

theorem of_ends (ends : Ends Unchecked m e s pos (.error code) t stop) :
    Stops m e s pos code fun c => c.stream.good = true := by
  intro fits writes
  obtain ⟨made, run, -⟩ := (ends fits).2 writes
  exact ⟨_, run, rfl⟩

theorem bind (first : Stops m e s pos code remains) : Stops (m >>= f) e s pos code remains := by
  intro fits writes
  obtain ⟨c, run, holds⟩ := first fits writes
  exact ⟨c, bind_error run, holds⟩

theorem after (first : Ends Unchecked m e s pos (.ok a) t mid)
    (second : Stops (f a) e t mid code remains) :
    Stops (m >>= f) e s pos code remains := by
  intro fits writes
  obtain ⟨fitsMid, runs⟩ := first fits
  obtain ⟨made, run, -⟩ := runs writes
  obtain ⟨c, failed, holds⟩ := second fitsMid (writes ++ made)
  exact ⟨c, (bind_ok run).trans failed, holds⟩

theorem fails (stops : Stops m e s pos code remains) : Fails m e s pos code := by
  intro fits writes
  obtain ⟨c, run, -⟩ := stops fits writes
  exact ⟨c, run⟩

end Stops

namespace Fails

theorem of_fits {k : κ} {old : ι} (run : Fits old → Fails m e ⟨k, old⟩ pos code) :
    Fails m e ⟨k, old⟩ pos code :=
  fun fits => run fits fits

theorem iff_stops : Fails m e s pos code ↔ Stops m e s pos code fun _ => True := by
  simp [Fails, Stops]

theorem bind (first : Fails m e s pos code) : Fails (m >>= f) e s pos code :=
  (iff_stops.mp first).bind.fails

theorem after (first : Ends Unchecked m e s pos (.ok a) t mid) (second : Fails (f a) e t mid code) :
    Fails (m >>= f) e s pos code :=
  (Stops.after first (iff_stops.mp second)).fails

end Fails

end Wms.Lib
