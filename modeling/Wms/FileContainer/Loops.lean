import Wms.FileContainer.RecoverySpec
import Wms.Lib.Follow

/-! When the loops over offsets and sizes of the file come to an end.

The consistency check follows the next pointers, and the reader of data takes blocks until it
has as many characters as the size field says. Neither counts its turns, so what the file
holds decides whether they return.
-/

set_option autoImplicit false

namespace Wms.FileContainer

open Lib Lib.FileProg Prog FileStream List

/-- The call comes to an end, with or without an error. -/
def Returns {α : Type} (m : Method α) (c : Container) : Prop :=
  ∀ clock, ∃ enough, ∀ fuel, enough ≤ fuel → m ⟨clock, fuel⟩ c ≠ .hang

def idle : Env := ⟨fun _ => ⟨0, offBound_pos⟩, 0⟩

def Inside (file : Bytes) (offset : Nat) : Prop := headerSize ≤ offset ∧ offset < file.length

instance (file : Bytes) (offset : Nat) : Decidable (Inside file offset) :=
  inferInstanceAs (Decidable (_ ∧ _))

/-- Where the consistency check goes on from the record at an offset. It ends at a record that
cannot be read, at the last element, and at a pointer that leaves the records. -/
def nextRecord? (c : Container) (offset : Nat) : Option Nat :=
  if Inside c.stream.file offset then
    match readIterator offset false idle c with
    | .ok it c' =>
      let next := if Inside c.stream.file it.next then some it.next else none
      match readSizeAndState idle c' with
      | .ok _ _ => if offset = c.cache.limits.next then none else next
      | .error _ c' => if c'.stream.good then next else none
      | .hang => none
    | _ => none
  else none

def sized (c : Container) : Container := ((do let _ ← getEnd; readSize : Method Unit) idle c).final?.getD c

/-- The record at the position ends short of the data that its size field announces, at the end
of a block. -/
def Starved (force : Bool) (c : Container) : Prop :=
  ∃ it c₁ size state c₂, readIteratorHere ⟨0, 0, 0⟩ idle c = .ok it c₁ ∧
    readSizeAndState idle c₁ = .ok (size, state) c₂ ∧ (state = 'g' ∨ (force = true ∧ state = 'i')) ∧
    c₂.stream.rest.length < size ∧ bufsiz ∣ c₂.stream.rest.length

variable {c d : Container} {e : Env} {it : FileIterator} {offset : Nat}

theorem readIteratorHere_good {old : FileIterator} (run : readIteratorHere old e c = .ok it d) :
    d.stream.good = true ∧ it.current = c.stream.tell.getD 0 := by
  obtain ⟨here, c₁, told, run⟩ := bind_eq_ok run
  obtain ⟨found, c₂, -, run⟩ := bind_eq_ok run
  obtain ⟨char, c₃, -, run⟩ := bind_eq_ok run
  split at run
  · cases run
  · obtain ⟨good, c₄, asked, run⟩ := bind_eq_ok run
    cases told
    cases asked
    split at run
    · cases run
      exact ⟨‹_›, rfl⟩
    · cases run

theorem get_good {s : FileStream} {char : Char} (found : s.get.1 = some char) : s.get.2.good = true := by
  unfold FileStream.get at found ⊢
  split at found
  · rename_i good
    rw [if_pos good]
    cases rest : s.rest with
    | nil => rw [rest] at found; cases found
    | cons first tail => exact good
  · cases found

theorem readSizeAndState_good {found : Nat × Char} (run : readSizeAndState e c = .ok found d) :
    d.stream.good = true := by
  obtain ⟨here, c₁, -, run⟩ := bind_eq_ok run
  obtain ⟨line, c₂, -, run⟩ := bind_eq_ok run
  split at run
  · obtain ⟨-, c₃, -, run⟩ := bind_eq_ok run
    obtain ⟨size, c₄, -, run⟩ := bind_eq_ok run
    obtain ⟨state, c₅, -, run⟩ := bind_eq_ok run
    obtain ⟨char, c₆, got, run⟩ := bind_eq_ok run
    split at run
    · cases run
    · rename_i newline
      cases run
      cases got
      exact get_good (show _ = some '\n' by simpa using newline)
  · cases run

theorem getEnd_run (working : c.stream.fail = false) :
    (getEnd : Method Nat) e c = .ok c.stream.file.length (c.moved c.stream.file.length) := by
  obtain ⟨k, ⟨file, old, eof, fail, writes⟩⟩ := c
  subst working
  rfl

theorem readIterator_moved (working : c.stream.fail = false) (pos : Nat) :
    readIterator offset false e (c.moved pos) = readIterator offset false e c := by
  have before : (getEnd : Method Nat) e (c.moved pos) = _ := getEnd_run working
  rw [readIterator, bind_ok before, bind_ok (getEnd_run working)]
  rfl

theorem readIterator_inside (good : c.stream.good = true) (inside : Inside c.stream.file offset)
    (run : readIterator offset false e c = .ok it d) : d.stream.good = true ∧ it.current = offset := by
  obtain ⟨-, working⟩ := eof_of_good good
  obtain ⟨low, high⟩ := inside
  rw [readIterator, bind_ok (getEnd_run working), if_pos ⟨low, high⟩] at run
  obtain ⟨_, c₁, moved, run⟩ := bind_eq_ok run
  cases moved
  obtain ⟨found, c₂, read, run⟩ := bind_eq_ok run
  cases run
  obtain ⟨goodEnd, current⟩ := readIteratorHere_good read
  refine ⟨goodEnd, current.trans ?_⟩
  simp [FileStream.tell, FileStream.seek, Store.moved, working]

theorem readIterator_bad (bad : c.stream.good = false) (inside : Inside c.stream.file offset) :
    ∃ code d, readIterator offset false e c = .error code d := by
  obtain ⟨k, ⟨file, pos, eof, fail, writes⟩⟩ := c
  cases fail with
  | true =>
    have large : 0 < headerSize := by decide
    have positive : offset ≠ 0 := Nat.ne_of_gt (Nat.lt_of_lt_of_le large inside.1)
    let c : Container := ⟨k, ⟨file, pos, eof, true, writes⟩⟩
    refine ⟨.unavailablePosition, c, ?_⟩
    rw [readIterator, bind_ok (show (getEnd : Method Nat) e c = .ok 0 c from rfl),
      if_neg (fun both => Nat.not_lt_zero _ both.2), if_neg positive, if_neg positive]
    rfl
  | false =>
    obtain rfl : eof = true := by simpa [good] using bad
    obtain ⟨low, high⟩ := inside
    refine ⟨.syntaxError, ⟨k, ⟨file, offset, true, true, writes⟩⟩, ?_⟩
    rw [readIterator, bind_ok (getEnd_run rfl), if_pos ⟨low, high⟩]
    rfl

/-! The check of what is found at the last element has no loop. -/

theorem onStream_prompt {α : Type} (f : FileStream → α × FileStream) : Prompt (onStream f : Method α) :=
  fun _ _ => nofun

theorem cache_prompt : Prompt (cache : Method Cache) := fun _ _ => nofun

theorem pure_prompt {α : Type} (a : α) : Prompt (pure a : Method α) := fun _ _ => nofun

theorem throw_prompt {α : Type} (code : IOStatus) : Prompt (throw code : Method α) := fun _ _ => nofun

theorem writeFileStatus_prompt (status : FileStatus) : Prompt (writeFileStatus status) := fun _ _ => nofun

theorem writeAndSetSize_prompt (size : Nat) : Prompt (writeAndSetSize size) := fun _ _ => nofun

theorem createEmptyFile_prompt : Prompt createEmptyFile := fun _ _ => nofun

theorem truncateFile_prompt (size : Nat) : Prompt (truncateFile size) :=
  .bind (onStream_prompt _) fun _ => .bind (onStream_prompt _) fun _ => .branch
    (.bind (onStream_prompt _) fun _ => .branch
      (.bind createEmptyFile_prompt fun _ => writeFileStatus_prompt _) (writeFileStatus_prompt _))
    (throw_prompt _)

theorem getEnd_prompt : Prompt (getEnd : Method Nat) := fun _ _ => nofun

theorem writeIterator_prompt (offset : Nat) (it : FileIterator) : Prompt (writeIterator offset it) := by
  have body (inside : Bool) : Prompt (if inside then do seek offset; put it.line
      else throw .unavailablePosition : Method Unit) :=
    .branch (.bind (onStream_prompt _) fun _ => onStream_prompt _) (throw_prompt _)
  exact .branch (.bind (pure_prompt _) body) (.bind getEnd_prompt fun _ => .bind (pure_prompt _) body)

theorem checkLast_prompt (allowable : Int) (fileEnd : Nat) (maxReached current : Int) (detected : Nat)
    (it : FileIterator) : Prompt (checkLast allowable fileEnd maxReached current detected it) :=
  .bind (.bind cache_prompt fun _ => .branch (.branch (writeAndSetSize_prompt _) (pure_prompt _))
    (pure_prompt _))
    fun _ => .branch
      (.bind (truncateFile_prompt _) fun _ => .bind getEnd_prompt fun _ =>
        .branch (writeIterator_prompt _ _) (pure_prompt _))
      (pure_prompt _)

/-! The walk of the consistency check. -/

variable {allowable reached : Int} {fuel detected : Nat}

def goOn (allowable : Int) (fileEnd fuel next : Nat) (reached : Int) (detected : Nat) : Method Unit :=
  if next < headerSize ∨ next ≥ fileEnd then throw .unavailablePosition
  else do
    let it ← readIterator next false
    checkRecords allowable fileEnd fuel it reached detected

theorem checkRecords_read (allowable reached : Int) (fuel detected : Nat) (it : FileIterator)
    {found : Nat × Char} (good : c.stream.good = true) (run : readSizeAndState e c = .ok found d) :
    ∃ reached' current : Int, checkRecords allowable c.stream.file.length
      (fuel + 1) it reached detected e c =
      (if it.current = c.cache.limits.next then
        checkLast allowable c.stream.file.length reached' current (detected + 1) it
      else goOn allowable c.stream.file.length fuel it.next reached' (detected + 1)) e d := by
  have same := (readSizeAndState_reader.keeps e c d (by rw [run]; rfl)).cache
  let current := toOff (it.current + calculateDataSize found.1)
  refine ⟨if current > reached then current else reached, current, ?_⟩
  rw [checkRecords, bind_ok (show isGood e c = .ok true c by simp [isGood, onStream, good]), if_pos rfl,
    bind_ok (attempt_ok run), ← same]
  rfl

theorem checkRecords_unread (allowable reached : Int) (fuel detected : Nat) (it : FileIterator)
    {code : IOStatus} (good : c.stream.good = true) (run : readSizeAndState e c = .error code d) :
    checkRecords allowable c.stream.file.length (fuel + 1) it reached detected e c =
      goOn allowable c.stream.file.length fuel it.next reached detected e d := by
  rw [checkRecords, bind_ok (show isGood e c = .ok true c by simp [isGood, onStream, good]), if_pos rfl,
    bind_ok (attempt_error run)]
  rfl

def pointer? (file : Bytes) (next : Nat) : Option Nat := if Inside file next then some next else none

section

variable {f : Container} (inside : Inside c.stream.file offset)
  (read : readIterator offset false e c = .ok it d)
include inside read

theorem nextRecord?_read {found : Nat × Char} (run : readSizeAndState e d = .ok found f) :
    nextRecord? c offset = if offset = c.cache.limits.next then none
      else pointer? c.stream.file it.next := by
  rw [(readIterator_reader offset).blind e idle c] at read
  rw [readSizeAndState_reader.blind e idle d] at run
  simp only [nextRecord?, if_pos inside, read, run]
  rfl

theorem nextRecord?_unread {code : IOStatus} (run : readSizeAndState e d = .error code f) :
    nextRecord? c offset = if f.stream.good then pointer? c.stream.file it.next else none := by
  rw [(readIterator_reader offset).blind e idle c] at read
  rw [readSizeAndState_reader.blind e idle d] at run
  simp only [nextRecord?, if_pos inside, read, run]
  rfl

end

theorem nextRecord?_failed {code : IOStatus} (read : readIterator offset false e c = .error code d) :
    nextRecord? c offset = none := by
  rw [(readIterator_reader offset).blind e idle c] at read
  simp only [nextRecord?, read, ite_self]

theorem inside_of_next {next : Nat} (leads : nextRecord? c offset = some next) :
    Inside c.stream.file next := by
  unfold nextRecord? at leads
  split at leads
  · cases read : readIterator offset false idle c with
    | ok it d =>
      simp only [read] at leads
      cases size : readSizeAndState idle d <;> simp only [size] at leads
      all_goals grind
    | _ => simp [read] at leads
  · cases leads

def Hangs (e : Env) (c : Container) (allowable : Int) (fuel : Nat) : Prop :=
  ∀ offset it d reached detected, Inside c.stream.file offset → readIterator offset false e c = .ok it d →
    (checkRecords allowable c.stream.file.length fuel it reached detected e d = .hang →
      (follow (nextRecord? c) fuel offset).isSome) ∧
    ((follow (nextRecord? c) (fuel + 1) offset).isSome →
      checkRecords allowable c.stream.file.length fuel it reached detected e d = .hang)

theorem goOn_hangs {f : Container} (reached : Int) (detected next : Nat) (good : c.stream.good = true)
    (same : c.Same f) (hangs : Hangs e c allowable fuel) :
    (goOn allowable c.stream.file.length fuel next reached detected e f = .hang → f.stream.good = true ∧
      ((pointer? c.stream.file next).bind (follow (nextRecord? c) fuel)).isSome) ∧
    (f.stream.good = true → ((pointer? c.stream.file next).bind
      (follow (nextRecord? c) (fuel + 1))).isSome →
      goOn allowable c.stream.file.length fuel next reached detected e f = .hang) := by
  by_cases inside : Inside c.stream.file next
  · have stays : ¬ (next < headerSize ∨ next ≥ c.stream.file.length) := by
      obtain ⟨low, high⟩ := inside
      omega
    rw [goOn, if_neg stays, pointer?, if_pos inside]
    by_cases goodEnd : f.stream.good = true
    · have back : readIterator next false e f = readIterator next false e c := by
        rw [same.eq_moved good goodEnd]
        exact readIterator_moved (eof_of_good good).2 _
      cases read : readIterator next false e c with
      | ok it d =>
        rw [bind_ok (back.trans read)]
        obtain ⟨first, second⟩ := hangs next it d reached detected inside read
        exact ⟨fun stuck => ⟨goodEnd, first stuck⟩, fun _ => second⟩
      | error code d =>
        rw [bind_error (back.trans read), Option.bind_some, Option.bind_some, follow,
          nextRecord?_failed read]
        exact ⟨fun stuck => (by cases stuck), fun _ more => absurd more Bool.false_ne_true⟩
      | hang => exact absurd read ((readIterator_reader next).returns _ _)
    · obtain ⟨code, d, read⟩ := readIterator_bad (e := e) (by simpa using goodEnd) (same.file ▸ inside)
      rw [bind_error read]
      exact ⟨fun stuck => (by cases stuck), fun wrong => absurd wrong goodEnd⟩
  · have leaves : next < headerSize ∨ next ≥ c.stream.file.length := by
      by_contra inner
      exact inside ⟨by omega, by omega⟩
    rw [goOn, if_pos leaves, pointer?, if_neg inside]
    exact ⟨fun stuck => (by cases stuck), fun _ more => absurd more Bool.false_ne_true⟩

theorem checkRecords_hangs (good : c.stream.good = true) (fuel : Nat) : Hangs e c allowable fuel := by
  induction fuel with
  | zero =>
    intro offset it d reached detected inside read
    exact ⟨fun _ => rfl, fun _ => rfl⟩
  | succ fuel ih =>
    intro offset it d reached detected inside read
    obtain ⟨goodRead, rfl⟩ := readIterator_inside good inside read
    have same := (readIterator_reader it.current).keeps e c d (by rw [read]; rfl)
    have length : c.stream.file.length = d.stream.file.length := by rw [same.file]
    rw [follow, follow]
    cases size : readSizeAndState e d with
    | ok found f =>
      obtain ⟨reached', current, step⟩ :=
        checkRecords_read allowable reached fuel detected it goodRead size
      have later := same.trans (readSizeAndState_reader.keeps e d f (by rw [size]; rfl))
      rw [length, step, nextRecord?_read inside read size, same.cache, ← length]
      by_cases last : it.current = c.cache.limits.next
      · rw [if_pos last, if_pos last]
        exact ⟨fun stuck => absurd stuck (checkLast_prompt _ _ _ _ _ _ _ _),
          fun more => absurd more Bool.false_ne_true⟩
      · rw [if_neg last, if_neg last]
        obtain ⟨first, second⟩ := goOn_hangs reached' (detected + 1) it.next good later ih
        exact ⟨fun stuck => (first stuck).2, second (readSizeAndState_good size)⟩
    | error code f =>
      have later := same.trans (readSizeAndState_reader.keeps e d f (by rw [size]; rfl))
      obtain ⟨first, second⟩ := goOn_hangs reached detected it.next good later ih
      rw [length, checkRecords_unread allowable reached fuel detected it goodRead size, ← length,
        nextRecord?_unread inside read size]
      by_cases goodEnd : f.stream.good = true
      · rw [if_pos goodEnd]
        exact ⟨fun stuck => (first stuck).2, second goodEnd⟩
      · rw [if_neg goodEnd]
        exact ⟨fun stuck => absurd (first stuck).1 goodEnd, fun more => absurd more Bool.false_ne_true⟩
    | hang => exact absurd size (readSizeAndState_reader.returns _ _)

/-! The whole check. -/

theorem checkConsistency_started (allowable : Int) (e : Env) (c : Container) :
    checkConsistency allowable e c = (do
      let it ← readIterator c.cache.limits.prev false
      checkRecords allowable (c.stream.seekEnd.tell.getD 0) e.fuel it 0 0) e (sized c) := rfl

def skipSize : Method Unit := do
  let _ ← getEnd
  let old ← tell
  seek stampSize
  let _ ← extract 10 sizeBound
  seek old

theorem skipSize_reader : Reader skipSize :=
  .bind .getEnd fun _ => .bind .tell fun _ => .bind (.seek _) fun _ => .bind
    (.extract _ _) fun _ => .seek _

theorem sized_file (c : Container) : (sized c).stream.file = c.stream.file :=
  (skipSize_reader.keeps idle c ⟨c.cache, (sized c).stream⟩ rfl).file

theorem sized_working (good : (sized c).stream.good = true) : c.stream.fail = false := by
  obtain ⟨k, ⟨file, pos, eof, fail, writes⟩⟩ := c
  cases fail with
  | false => rfl
  | true => cases eof <;> cases good

/-- Outside of the records the reader answers with a pointer that leads nowhere, and has gone to
the end of the file. -/
theorem readIterator_outside (run : readIterator offset false e c = .ok it d)
    (outside : ¬ (c.stream.good = true ∧ Inside c.stream.file offset)) :
    it.next = 0 ∧ (d.stream.good = true → d.stream.pos = d.stream.file.length) := by
  by_cases inside : Inside c.stream.file offset
  · have bad : c.stream.good = false := by simpa [inside] using outside
    obtain ⟨code, f, failed⟩ := readIterator_bad (e := e) bad inside
    cases failed.symm.trans run
  · obtain ⟨fileEnd, f, ends, run⟩ := bind_eq_ok run
    have state : ¬ (offset ≥ headerSize ∧ offset < fileEnd) ∧
        (f.stream.good = true → f.stream.pos = f.stream.file.length) := by
      cases failed : c.stream.fail with
      | false =>
        cases (getEnd_run failed).symm.trans ends
        exact ⟨inside, fun _ => rfl⟩
      | true =>
        obtain ⟨k, ⟨file, pos, eof, fail, writes⟩⟩ := c
        cases failed
        cases ends
        exact ⟨fun both => Nat.not_lt_zero _ both.2, fun good => by cases (eof_of_good good).2⟩
    obtain ⟨beyond, there⟩ := state
    rw [if_neg beyond] at run
    split at run
    · cases run
      exact ⟨rfl, there⟩
    · split at run
      · cases run
        exact ⟨rfl, there⟩
      · cases run

theorem checkRecords_prompt (allowable reached : Int) (fileEnd fuel detected : Nat)
    (nowhere : it.next < headerSize) :
    Prompt (checkRecords allowable fileEnd (fuel + 1) it reached detected) := by
  have leaves : it.next < headerSize ∨ it.next ≥ fileEnd := .inl nowhere
  unfold checkRecords
  simp only [if_pos leaves]
  refine .bind (onStream_prompt _) fun good => .branch
    (.bind (readSizeAndState_reader.attempt).returns fun found => ?_)
    (.bind (pure_prompt _) fun found => ?_)
  all_goals
    refine .bind cache_prompt fun _ => ?_
    cases found with
    | ok found => exact .branch (checkLast_prompt _ _ _ _ _ _) (throw_prompt _)
    | error code => exact throw_prompt _

theorem nextRecord?_some {next : Nat} (leads : nextRecord? c offset = some next) :
    Inside c.stream.file offset ∧ ∃ it d, readIterator offset false e c = .ok it d := by
  rw [(readIterator_reader offset).blind e idle c]
  unfold nextRecord? at leads
  split at leads
  · refine ⟨‹_›, ?_⟩
    cases read : readIterator offset false idle c with
    | ok it d => exact ⟨it, d, rfl⟩
    | error | hang => rw [read] at leads; cases leads
  · cases leads

theorem fileEnd_of_good (good : (sized c).stream.good = true) :
    c.stream.seekEnd.tell.getD 0 = (sized c).stream.file.length := by
  have working := sized_working good
  rw [sized_file]
  simp [FileStream.tell, FileStream.seekEnd, FileStream.seek, working]

theorem checkConsistency_hangs (good : (sized c).stream.good = true)
    (goes : (follow (nextRecord? (sized c)) (e.fuel + 1) c.cache.limits.prev).isSome) :
    checkConsistency allowable e c = .hang := by
  obtain ⟨last, walked⟩ := Option.isSome_iff_exists.mp goes
  obtain ⟨next, leads, -⟩ := Option.bind_eq_some_iff.mp walked
  obtain ⟨inside, it, d, read⟩ := nextRecord?_some (e := e) leads
  rw [checkConsistency_started, bind_ok read, fileEnd_of_good good]
  exact (checkRecords_hangs good e.fuel _ it d 0 0 inside read).2 goes

theorem goes_of_hang {clock : Nat → Fin offBound}
    (stuck : checkConsistency allowable ⟨clock, fuel + 1⟩ c = .hang) :
    (sized c).stream.good = true ∧ (follow (nextRecord? (sized c)) (fuel +
      1) c.cache.limits.prev).isSome := by
  rw [checkConsistency_started] at stuck
  cases read : readIterator c.cache.limits.prev false ⟨clock, fuel + 1⟩ (sized c) with
  | ok it d =>
    rw [bind_ok read] at stuck
    by_cases inner : (sized c).stream.good = true ∧ Inside (sized c).stream.file c.cache.limits.prev
    · obtain ⟨good, inside⟩ := inner
      rw [fileEnd_of_good good] at stuck
      exact ⟨good, (checkRecords_hangs good (fuel + 1) _ it d 0 0 inside read).1 stuck⟩
    · have nowhere : it.next < headerSize := by
        rw [(readIterator_outside read inner).1]
        decide
      exact absurd stuck (checkRecords_prompt _ _ _ _ _ nowhere _ _)
  | error code d =>
    rw [bind_error read] at stuck
    cases stuck
  | hang => exact absurd read ((readIterator_reader _).returns _ _)

theorem checkConsistency_returns_iff (allowable : Int) (c : Container) :
    Returns (checkConsistency allowable) c ↔
    ((sized c).stream.good = true → Straight (nextRecord? (sized c)) c.cache.limits.prev) := by
  have finite (a b : Nat) (leads : nextRecord? (sized c) a = some b) :
      b ∈ Finset.range (sized c).stream.file.length :=
    Finset.mem_range.mpr (inside_of_next leads).2
  constructor
  · intro returns good
    rw [straight_iff_ends finite]
    by_contra goes
    obtain ⟨enough, done⟩ := returns idle.clock
    refine done enough (Nat.le_refl _) (checkConsistency_hangs good ?_)
    exact Option.isSome_iff_ne_none.mpr fun ends => goes ⟨_, ends⟩
  · intro straight clock
    by_cases good : (sized c).stream.good = true
    · obtain ⟨n, ends⟩ := (straight_iff_ends finite).mp (straight good)
      refine ⟨n + 1, fun fuel more stuck => ?_⟩
      obtain ⟨fuel, rfl⟩ := Nat.exists_eq_add_one.mpr (Nat.zero_lt_of_lt more)
      have goes := (goes_of_hang stuck).2
      rw [follow_none_of_le ends (by omega)] at goes
      cases goes
    · refine ⟨1, fun fuel more stuck => ?_⟩
      obtain ⟨fuel, rfl⟩ := Nat.exists_eq_add_one.mpr more
      exact good (goes_of_hang stuck).1

/-! The data of a record. -/

theorem readChars_run (good : c.stream.good = true) (n : Nat) :
    (readChars n : Method Bytes) e c = .ok (c.stream.rest.take n) ⟨c.cache, (c.stream.read n).2⟩ := by
  simp [readChars, onStream, FileStream.read, good]

variable {size : Nat} {force : Bool}

theorem readBlocks_bad (bad : c.stream.good = false) (unread : size ≠ 0) (fuel : Nat) (data : Bytes) :
    readBlocks fuel size data e c = .hang := by
  induction fuel generalizing c data with
  | zero => rfl
  | succ fuel ih =>
    have read (n : Nat) : (readChars n : Method Bytes) e c = .ok
        [] ⟨c.cache, { c.stream with fail := true }⟩ := by
      simp [readChars, onStream, FileStream.read, bad]
    have again : FileStream.good { c.stream with fail := true } = false := by simp [FileStream.good]
    have positive : 0 ≠ if size > bufsiz then bufsiz else size := by
      have : bufsiz ≠ 0 := by decide
      split <;> omega
    rw [readBlocks, if_neg unread, bind_ok (read _), length_nil, if_neg positive, if_neg (Nat.lt_irrefl 0)]
    exact ih again _

theorem readChars_full (good : c.stream.good = true) {n : Nat} (there : n ≤ c.stream.rest.length) :
    (readChars n : Method Bytes) e c = .ok (c.stream.rest.take n) (c.moved (c.stream.pos + n)) := by
  obtain ⟨k, ⟨file, pos, eof, fail, writes⟩⟩ := c
  obtain ⟨rfl, rfl⟩ := eof_of_good good
  have length : (List.take n (file.drop pos)).length = n := length_take_of_le there
  simp [readChars, onStream, FileStream.read, FileStream.rest, Store.moved, FileStream.good, length]

theorem readChars_short (good : c.stream.good = true) {n : Nat} (missing : c.stream.rest.length < n) :
    ∃ d, (readChars n : Method Bytes) e c = .ok c.stream.rest d ∧ d.stream.good = false := by
  refine ⟨⟨c.cache, (c.stream.read n).2⟩, ?_, ?_⟩
  · rw [readChars_run good, take_of_length_le (Nat.le_of_lt missing)]
  · rw [FileStream.read, if_pos good]
    simp [FileStream.good, missing]

theorem rest_moved (c : Container) (n : Nat) :
    (c.moved (c.stream.pos + n)).stream.rest.length = c.stream.rest.length - n := by
  simp only [rest, Store.moved, length_drop]
  omega

/-- The loop goes on for ever just when it is left with no data at the beginning of a block. -/
theorem readBlocks_hang_iff (good : c.stream.good = true) (enough : size < fuel) (data : Bytes) :
    readBlocks fuel size data e c = .hang ↔ c.stream.rest.length < size ∧
      bufsiz ∣ c.stream.rest.length := by
  induction fuel generalizing c size data with
  | zero => exact absurd enough (Nat.not_lt_zero _)
  | succ fuel ih =>
    have positive : 0 < bufsiz := by decide
    rw [readBlocks]
    by_cases done : size = 0
    · rw [if_pos done]
      exact iff_of_false nofun (by omega)
    rw [if_neg done]
    generalize block : (if size > bufsiz then bufsiz else size) = toread
    have wanted : 0 < toread ∧ toread ≤ size ∧ toread ≤ bufsiz ∧ (toread = bufsiz ∨ toread = size) := by
      rw [← block]
      split <;> omega
    by_cases there : toread ≤ c.stream.rest.length
    · rw [bind_ok (readChars_full good there), length_take_of_le there, if_pos rfl,
        ih (c := c.moved (c.stream.pos + toread)) good (by omega), rest_moved]
      rcases wanted.2.2.2 with rfl | rfl
      · rw [Nat.dvd_sub_iff_left there (Nat.dvd_refl _)]
        exact and_congr_left' (by omega)
      · exact iff_of_false (by omega) (by omega)
    · obtain ⟨d, read, bad⟩ := readChars_short (e := e) good (Nat.lt_of_not_le there)
      rw [bind_ok read, if_neg (by omega)]
      by_cases nothing : c.stream.rest.length = 0
      · rw [if_neg (by omega), nothing]
        exact iff_of_true (readBlocks_bad bad done _ _) ⟨by omega, Nat.dvd_zero _⟩
      · obtain ⟨fuel, rfl⟩ : ∃ more, fuel = more + 1 := ⟨fuel - 1, by omega⟩
        rw [if_pos (by omega), readBlocks, if_pos rfl]
        refine iff_of_false nofun fun short => ?_
        have := Nat.le_of_dvd (by omega) short.2
        omega

def closeData (it : FileIterator) (data : Bytes) : Method (FileIterator × FileIterator × Bytes) := do
  let c ← getChar
  if c != some '\n' then throw .syntaxError
  else
    let itList ← attempt (extractIterator ⟨0, 0, 0⟩)
    if ← isGood then
      let itList ← ofExcept itList
      return (it, itList, data)
    else throw .ioError

theorem closeData_prompt (it : FileIterator) (data : Bytes) : Prompt (closeData it data) := by
  refine .bind (onStream_prompt _) fun _ => .branch (throw_prompt _) ?_
  refine .bind ((extractIterator_reader _).attempt).returns fun itList => .bind
    (onStream_prompt _) fun _ => ?_
  refine .branch (.bind (fun _ _ => ?_) fun _ => pure_prompt _) (throw_prompt _)
  cases itList <;> exact nofun

def readBody (force : Bool) (it : FileIterator) : Method (FileIterator × FileIterator × Bytes) := do
  let (size, state) ← readSizeAndState
  if state = 'g' ∨ (force = true ∧ state = 'i') then do
    let env ← ask
    let data ← readBlocks env.fuel size []
    closeData it data
  else if state = 'i' then throw .unavailablePosition
  else throw .syntaxError

theorem readDataHere_pointed (pointers : readIteratorHere ⟨0, 0, 0⟩ e c = .ok it d) :
    readDataHere force e c = readBody force it e d := by
  rw [readDataHere, bind_ok (attempt_ok pointers)]
  rfl

theorem readBody_hang_iff {state : Char} (header : readSizeAndState e c = .ok (size, state) d)
    (enough : size < e.fuel) :
    readBody force it e c = .hang ↔ (state = 'g' ∨ (force = true ∧ state = 'i')) ∧
      d.stream.rest.length < size ∧ bufsiz ∣ d.stream.rest.length := by
  rw [readBody, bind_ok header]
  dsimp only
  split_ifs with opened other
  · change (readBlocks e.fuel size [] >>= closeData it) e d = .hang ↔ _
    rw [and_iff_right opened, ← readBlocks_hang_iff (readSizeAndState_good header) enough []]
    refine ⟨fun stuck => ?_, bind_hang⟩
    by_contra ends
    exact bind_ne_hang ends (closeData_prompt it) stuck
  · exact iff_of_false nofun fun both => opened both.1
  · exact iff_of_false nofun fun both => opened both.1

theorem readDataHere_returns_iff (force : Bool) (c : Container) :
    Returns (readDataHere force) c ↔ ¬ Starved force c := by
  constructor
  · rintro returns ⟨it, c₁, size, state, c₂, pointers, header, hungry⟩
    obtain ⟨enough, done⟩ := returns idle.clock
    let e : Env := ⟨idle.clock, enough + size + 1⟩
    rw [(readIteratorHere_reader _).blind idle e] at pointers
    rw [readSizeAndState_reader.blind idle e] at header
    refine done _ (by omega) ((readDataHere_pointed pointers).trans ?_)
    exact (readBody_hang_iff header (show size < enough + size + 1 by omega)).mpr hungry
  · intro fed clock
    cases pointers : readIteratorHere ⟨0, 0, 0⟩ idle c with
    | ok it d =>
      cases header : readSizeAndState idle d with
      | ok found f =>
        refine ⟨found.1 + 1, fun fuel more stuck => fed ⟨it, d, found.1, found.2, f, pointers, header, ?_⟩⟩
        rw [(readIteratorHere_reader _).blind idle ⟨clock, fuel⟩] at pointers
        rw [readSizeAndState_reader.blind idle ⟨clock, fuel⟩] at header
        exact (readBody_hang_iff header more).mp ((readDataHere_pointed pointers).symm.trans stuck)
      | error code f =>
        refine ⟨0, fun fuel _ => ?_⟩
        rw [(readIteratorHere_reader _).blind idle ⟨clock, fuel⟩] at pointers
        rw [readSizeAndState_reader.blind idle ⟨clock, fuel⟩] at header
        rw [readDataHere_pointed pointers, readBody, bind_error header]
        exact nofun
      | hang => exact absurd header (readSizeAndState_reader.returns _ _)
    | error code d =>
      refine ⟨0, fun fuel _ => ?_⟩
      rw [(readIteratorHere_reader _).blind idle ⟨clock, fuel⟩] at pointers
      rw [readDataHere, bind_ok (attempt_error pointers)]
      exact nofun
    | hang => exact absurd pointers ((readIteratorHere_reader _).returns _ _)

/-- The loops come to an end exactly when the walk meets no record twice, and when the data
does not stop at the end of a block before it is complete. -/
theorem loops_return_iff (c : Container) (allowable : Int) (force : Bool) :
    (Returns (checkConsistency allowable) c ∧ Returns (readDataHere force) c) ↔
      ((sized c).stream.good = true → Straight (nextRecord? (sized c)) c.cache.limits.prev) ∧
        ¬ Starved force c := by
  rw [checkConsistency_returns_iff, readDataHere_returns_iff]

/-- A record that points to itself and was cut short behind its header; the last element is said
to be elsewhere. The stream stands at the record. -/
def selfLinked : Container :=
  let img : Image := { Image.empty ⟨0, 0⟩ .closed with
    size := 1
    limits := ⟨headerSize, headerSize + 1⟩
    tail := Pointers.line ⟨0, headerSize⟩ ++ sizeLine 5 'g' }
  ⟨⟨true, 1, ⟨0, 0⟩, ⟨headerSize, headerSize + 1, 0⟩, ⟨unDead, unBeef, 0⟩, 0⟩,
    (ofFile (encode img)).seek headerSize⟩

def probe : Method (Nat × Char × Nat) := do
  let _ ← readIteratorHere ⟨0, 0, 0⟩
  let (size, state) ← readSizeAndState
  let c ← get
  return (size, state, c.stream.rest.length)

theorem starved_of_probe {more : Nat} {state : Char} (run : probe idle c = .ok (size, state, more) d)
    (opened : state = 'g' ∨ (force = true ∧ state = 'i')) (short : more < size) (full : bufsiz ∣ more) :
    Starved force c := by
  obtain ⟨it, c₁, pointers, run⟩ := bind_eq_ok run
  obtain ⟨found, c₂, header, run⟩ := bind_eq_ok run
  cases run
  exact ⟨it, c₁, found.1, found.2, _, pointers, header, opened, short, full⟩

/-- On this file neither loop comes to an end. -/
theorem loops_hang : ¬ Returns (checkConsistency 1) selfLinked ∧
    ¬ Returns (readDataHere false) selfLinked := by
  constructor
  · rw [checkConsistency_returns_iff]
    intro straight
    have leads : nextRecord? (sized selfLinked) headerSize = some headerSize := by decide +kernel
    have once : follow (nextRecord? (sized selfLinked)) 1 headerSize = some headerSize := by
      rw [follow, leads]; rfl
    exact absurd (straight (by decide +kernel) 0 1 headerSize rfl once) (by decide)
  · rw [readDataHere_returns_iff]
    intro fed
    have probed : (probe idle selfLinked).value? = some (5, 'g', 0) := by
      decide +kernel
    cases run : probe idle selfLinked with
    | ok v d =>
      rw [run] at probed
      cases Option.some.inj probed
      exact fed (starved_of_probe run (.inl rfl) (by decide) (Nat.dvd_zero _))
    | error | hang => rw [run] at probed; cases probed

end Wms.FileContainer
