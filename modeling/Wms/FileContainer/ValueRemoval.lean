import Wms.FileContainer.Failure
import Wms.FileContainer.Loops

/-! Removing a value from a file list.

The loop reads the element at its iterator before it has asked whether the list has one, and it
steps on from the record that it has just removed.
-/

set_option autoImplicit false

namespace Wms.FileContainer

open Lib Lib.FileProg Lib.Links Image Prog List

namespace FileSequence

def removeEqual (value data : Bytes) (iter : FileIterator) : Method Unit :=
  if data = value then FileContainer.removeData iter.current else pure ()

def removeNext (value : Bytes) (iter : FileIterator) : Method (FileIterator × Nat) := do
  let (iter, data) ← readData iter.current false
  removeEqual value data iter
  stepOn iter

def removeLoop (value : Bytes) : Nat → FileIterator → Method Unit
  | 0, _ => diverge
  | fuel + 1, iter => do
    let (iter, fileEnd) ← removeNext value iter
    if iter.current ≠ fileEnd then removeLoop value fuel iter else pure ()

def removeData (value : Bytes) : Method Unit := do
  let env ← ask
  let first ← readBegin
  let iter ← getIterator first
  removeLoop value env.fuel iter

end FileSequence

open FileSequence (removeEqual removeNext removeLoop)

variable {e : Env} {k : Cache} {img : Image} {pos key : Nat} {writes : List Write} {l a b : Listing}
  {iter : FileIterator} {value data : Bytes}

/-! Reading where there is no record. -/

theorem readDataHere_fails {force : Bool} {code : IOStatus}
    (pointers : Fails (readIteratorHere ⟨0, 0, 0⟩) e ⟨k, img⟩ pos code) :
    Fails (readDataHere force) e ⟨k, img⟩ pos .syntaxError := by
  intro fits writes
  obtain ⟨c, failed⟩ := pointers fits writes
  exact ⟨c, by rw [readDataHere, bind_ok (attempt_error failed)]; rfl⟩

theorem extractIterator_end_fails (old : FileIterator) :
    Fails (extractIterator old) e ⟨k, img⟩ img.fileEnd .syntaxError := by
  intro fits writes
  have ended : (encode img).drop img.fileEnd = [] := by rw [← length_encode fits, drop_length]
  let stream : FileStream := ⟨encode img, img.fileEnd, false, false, writes⟩
  have nothing : stream.getline.1 = [] := by
    simp [stream, FileStream.getline, FileStream.good, FileStream.rest, ended]
  refine ⟨⟨k, stream.getline.2⟩, ?_⟩
  change extractIterator old e ⟨k, stream⟩ = _
  rw [extractIterator, bind_ok (show tell e ⟨k, stream⟩ = .ok _ ⟨k, stream⟩ from rfl),
    bind_ok (show getline e ⟨k, stream⟩ = .ok _ ⟨k, stream.getline.2⟩ from rfl), nothing]
  rfl

theorem extractIterator_good {old it : FileIterator} {c d : Container}
    (run : extractIterator old e c = .ok it d)
    (good : c.stream.good = true) : ∃ next : FileStream, next = c.stream.getline.2.seek c.stream.pos ∧
      d = ⟨c.cache, ((next.extract 16 offBound).2.extract 16 offBound).2⟩ := by
  obtain ⟨position, c₁, told, run⟩ := bind_eq_ok run
  obtain ⟨line, c₂, got, run⟩ := bind_eq_ok run
  split at run
  · obtain ⟨⟨⟩, c₃, sought, run⟩ := bind_eq_ok run
    obtain ⟨prev, c₄, first, run⟩ := bind_eq_ok run
    obtain ⟨next, c₅, second, run⟩ := bind_eq_ok run
    cases told
    cases got
    cases sought
    cases first
    cases second
    cases run
    refine ⟨_, rfl, ?_⟩
    simp [FileStream.tell, (FileStream.eof_of_good good).2]
  · cases run

/-- The stamp at the start of the file has the form of the pointers of a record. -/
theorem readIteratorHere_start {c : Container} {it : FileIterator} (clean : img.scar = [])
    (fits : img.Fits)
    (run : readIteratorHere ⟨0, 0, 0⟩ e (Snapshot.at ⟨k, img⟩ 0 writes) = .ok it c) :
    c = Snapshot.at ⟨k, img⟩ 27 writes := by
  have good := (readIteratorHere_good run).1
  obtain ⟨here, c₁, told, run⟩ := bind_eq_ok run
  obtain ⟨found, c₂, extracted, run⟩ := bind_eq_ok run
  obtain ⟨char, c₃, got, run⟩ := bind_eq_ok run
  cases told
  cases got
  obtain ⟨next, same, rfl⟩ := extractIterator_good extracted rfl
  have last : c = ⟨k, ((next.extract 16 offBound).2.extract 16 offBound).2.get.2⟩ := by
    split at run
    · cases run
    · obtain ⟨flag, c₄, asked, run⟩ := bind_eq_ok run
      cases asked
      split at run
      · cases run
        rfl
      · cases run
  -- The decimal digits of the stamp are read as hexadecimal ones, and its length is known.
  have digits (width n : Nat) : ∀ c ∈ numeral 10 width n, isDigitOf 16 c = true := fun c member =>
    isDigitOf_mono (by decide) (isDigitOf_numeral (by decide) (by decide) width n c member)
  have epoch : (numeral 10 epochWidth img.stamp.epoch).length = 20 :=
    length_numeral (by decide) (by decide) (Nat.lt_trans fits.epoch (by decide))
  have counter : (numeral 10 counterWidth img.stamp.counter).length = 5 :=
    length_numeral (by decide) (by decide) (Nat.lt_trans fits.counter (by decide))
  have text : encode img = numeral 10 epochWidth img.stamp.epoch ++ ([' '] ++
      (numeral 10 counterWidth img.stamp.counter ++ '\n' :: (numberLine img.size ++ img.rest))) := by
    rw [encode_clean img clean]
    simp [TimeStamp.line, TimeStamp.text]
  have text₂ : (encode img).drop 20 = _ := drop_next _ ((drop_zero).trans text) (by rw [epoch])
  have text₃ : (encode img).drop 26 = _ :=
    drop_next _ (text₂.trans (append_assoc _ _ _).symm) (by simp [counter])
  have start : next = ⟨encode img, 0, false, false, writes⟩ := by
    let stream : FileStream := ⟨encode img, 0, false, false, writes⟩
    have line : stream.rest = img.stamp.text ++ '\n' :: (numberLine img.size ++ img.rest) := by
      simp [stream, FileStream.rest, text, TimeStamp.text]
    exact same.trans (congrArg (fun s =>
      s.2.seek 0) (FileStream.getline_of_rest rfl img.stamp.text_ne_newline line))
  rw [last] at good ⊢
  have good₂ := FileStream.good_of_get good
  have first := FileStream.extract_of_good [] ' ' (fun _ member => absurd member not_mem_nil)
      (digits _ _) (numeral_ne_nil _ _ _) (by decide)
    (s := next) (by rw [start]; exact text) (FileStream.good_of_extract good₂)
  rw [first] at good₂ ⊢
  have second := FileStream.extract_of_good [' '] '\n' FileStream.isSpace_blank
    (digits _ _) (numeral_ne_nil _ _ _) (by decide) (by rw [start, epoch]; exact text₂) good₂
  rw [second, FileStream.get_of_rest (second ▸ good₂) (by rw [start, epoch, counter]; exact text₃)]
  rw [start, epoch, counter]
  rfl

/-- What follows the stamp is a number, not the size of a record. -/
theorem readDataHere_start_fails (clean : img.scar = []) :
    Fails (readDataHere false) e ⟨k, img⟩ 0 .syntaxError := by
  intro fits writes
  cases pointers : readIteratorHere ⟨0, 0, 0⟩ e (Snapshot.at ⟨k, img⟩ 0 writes) with
  | hang => exact absurd pointers ((readIteratorHere_reader _).returns _ _)
  | error code c => exact ⟨c, by rw [readDataHere, bind_ok (attempt_error pointers)]; rfl⟩
  | ok it c =>
    have stamp : img.stamp.line.length = 27 := TimeStamp.length_line fits.epoch fits.counter
    have number : ∀ c ∈ numeral 10 numberSize img.size, isDigitOf 10 c = true :=
      isDigitOf_numeral (by decide) (by decide) _ _
    have text : (encode img).drop 27 = numeral 10 numberSize img.size ++ '\n' :: img.rest := by
      rw [encode_clean img clean, ← stamp, drop_left]
      simp [numberLine]
    obtain ⟨c', failed⟩ := readSizeAndState_fails (e := e) (k := k)
      (fun c member => FileStream.ne_newline_of_isDigitOf (number c member))
      (sizePattern_digits number (numeral_ne_nil _ _ _)) text fits writes
    refine ⟨c', ?_⟩
    rw [readDataHere_pointed pointers, readIteratorHere_start clean fits pointers]
    exact bind_error failed

theorem readData_nowhere_fails {offset : Nat} (e : Env) (pos : Nat) (writes : List Write)
    (serving : Serving k img l) (nowhere : offset = 0 ∨ offset = img.fileEnd) :
    ∃ c, readData offset false e (Snapshot.at ⟨k, img⟩ pos writes) = .error .syntaxError c := by
  obtain ⟨modified, mid, prepared⟩ :=
    (serving.opens e true).run img.fileEnd
  have inside : offset ≤ img.fileEnd := by omega
  have here : Fails (readDataHere false) e ⟨k.prepared img true, img⟩ offset .syntaxError := by
    rcases nowhere with rfl | rfl
    · exact readDataHere_start_fails serving.holds.clean
    · exact readDataHere_fails (.after .tell (.bind (extractIterator_end_fails _)))
  have fails : Fails (readData offset false) e ⟨k, img⟩ pos .syntaxError := by
    refine .after getEnd_ends (.after prepared (.after (endAfter_ends modified) ?_))
    rw [if_pos inside]
    exact .after (.seek _) (.bind here)
  exact fails serving.fits writes

/-! The rounds. -/

theorem removeNext_nowhere_fails (value : Bytes) (e : Env) (pos : Nat) (writes : List Write)
    (serving : Serving k img l) (nowhere : iter.current = 0 ∨ iter.current = img.fileEnd) :
    ∃ c, removeNext value iter e (Snapshot.at ⟨k, img⟩ pos writes) = .error .syntaxError c := by
  obtain ⟨c, failed⟩ := readData_nowhere_fails e pos writes serving nowhere
  exact ⟨c, bind_error failed⟩

theorem removeNext_run (value : Bytes) (pos : Nat) (writes : List Write)
    (serving : Serving k img (a ++ (key, data) :: b))
    (start : iter.current = key) (enough : data.length < e.fuel) : ∃ stop made,
      removeNext value iter e (Snapshot.at ⟨k, img⟩ pos writes) =
        (do removeEqual value data ⟨lastKey a 0, headKey b img.fileEnd, key⟩
            stepOn ⟨lastKey a 0, headKey b img.fileEnd, key⟩ : Method (FileIterator × Nat)) e
          (Snapshot.at ⟨k.prepared img true, img⟩ stop made) := by
  obtain ⟨stop, made, read⟩ := serving.reads writes
    (readData_opened pos (serving.opens e true) enough)
  refine ⟨stop, writes ++ made, ?_⟩
  rw [removeNext, start, bind_ok read]

theorem removeNext_step (value : Bytes) (pos : Nat) (writes : List Write)
    (serving : Serving k img (a ++ (key, data) :: b))
    (start : iter.current = key) (enough : data.length < e.fuel) (others : data ≠ value ∨ a ++ b ≠ []) :
    ∃ it k' new stop made, removeNext value iter e (Snapshot.at ⟨k, img⟩ pos writes) =
        .ok (it, img.fileEnd) (Snapshot.at ⟨k', new⟩ stop made) ∧
      Serving k' new (a ++ [(key, data)].filter (·.2 ≠ value) ++ b) ∧ new.fileEnd = img.fileEnd ∧
      it.current = headKey b img.fileEnd := by
  obtain ⟨mid, made, run⟩ := removeNext_run value pos writes serving start enough
  rw [run, removeEqual]
  by_cases equal : data = value
  · have gone : [(key, data)].filter (·.2 ≠ value) = [] := by simp [equal]
    rw [if_pos equal, gone, append_nil]
    exact removed_step e mid made serving.prepared (others.resolve_left (absurd equal))
  · have kept : a ++ [(key, data)].filter (·.2 ≠ value) ++ b = a ++ (key, data) :: b := by simp [equal]
    have served := serving.prepared
    obtain ⟨it, here, stepped⟩ :=
      incrementIterator_opened mid (served.opens e true)
    obtain ⟨k', stop, made, round, more⟩ := served.stepOn_run made stepped
    rw [if_neg equal, kept]
    exact ⟨it, k', img, stop, made, round, more, rfl, here⟩

theorem removeLoop_ends (fuel pos : Nat) (writes : List Write)
    (serving : Serving k img (a ++ (key, data) :: b))
    (start : iter.current = key) (long : ∀ x ∈ (key, data) :: b, x.2.length < e.fuel)
    (kept : ∃ x ∈ a ++ (key, data) :: b, x.2 ≠ value) (enough : b.length < fuel) :
    ∃ k' new stop made, removeLoop value fuel iter e (Snapshot.at ⟨k, img⟩ pos writes) =
        .ok () (Snapshot.at ⟨k', new⟩ stop made) ∧
          Serving k' new (a ++ ((key, data) :: b).filter (·.2 ≠ value)) := by
  induction fuel generalizing a b key data iter k img pos writes with
  | zero => exact absurd enough (Nat.not_lt_zero _)
  | succ fuel ih =>
    obtain ⟨x, member, other⟩ := kept
    -- The element that stays keeps the file from being cut in this round.
    have others : data ≠ value ∨ a ++ b ≠ [] := by
      by_contra! alone
      obtain ⟨rfl, rfl⟩ := append_eq_nil_iff.mp alone.2
      rw [nil_append, mem_singleton] at member
      exact other (member ▸ alone.1)
    obtain ⟨it, k₁, new₁, stop₁, made₁, round, remains, unmoved, here⟩ :=
      removeNext_step value pos writes serving start (long _ mem_cons_self) others
    rw [removeLoop, bind_ok round]
    cases b with
    | nil =>
      rw [append_nil] at remains
      exact ⟨k₁, new₁, stop₁, made₁, congrFun (congrFun (if_neg (not_not.mpr here)) _) _, remains⟩
    | cons second rest =>
      obtain ⟨next, w⟩ := second
      have inside : it.current ≠ img.fileEnd := by
        rw [here]
        exact (serving.holds.toLinked.key_ne (show next ∈ keys _ by simp)).2
      have stays : ∃ x ∈ a ++ [(key, data)].filter (·.2 ≠ value) ++ (next, w) :: rest, x.2 ≠ value := by
        refine ⟨x, ?_, other⟩
        grind
      obtain ⟨k', new, stop, made, more, result⟩ := ih stop₁ made₁ remains here
        (fun x member => long x (mem_cons_of_mem _ member)) stays (Nat.lt_of_succ_lt_succ enough)
      refine ⟨k', new, stop, made, (congrFun (congrFun (if_pos inside) _) _).trans more, ?_⟩
      rwa [append_assoc, ← filter_append] at result

/-- The loop over elements that all have the value comes to a record that has gone. -/
theorem removeLoop_all_fails (fuel pos : Nat) (writes : List Write)
    (serving : Serving k img ((key, data) :: b))
    (start : iter.current = key) (long : ∀ x ∈ (key, data) :: b, x.2.length < e.fuel)
    (all : ∀ x ∈ (key, data) :: b, x.2 = value) (enough : b.length + 1 < fuel) :
    ∃ code c, removeLoop value fuel iter e (Snapshot.at ⟨k, img⟩ pos writes) = .error code c := by
  induction b generalizing key data fuel iter k img pos writes with
  | nil =>
    obtain ⟨fuel, rfl⟩ : ∃ more, fuel = more + 2 := ⟨fuel - 2, by simp at enough; omega⟩
    obtain ⟨stop₁, made₁, run⟩ :=
      removeNext_run (a := []) value pos writes serving start (long _ mem_cons_self)
    rw [removeEqual, if_pos (all _ mem_cons_self)] at run
    -- The file is cut to its header. The step from the record that has gone fails or leads to the
    -- start of the file, where the next round finds no record.
    rcases removed_only e stop₁ made₁ serving.prepared rfl with
      ⟨code, c, failed⟩ | ⟨it, k', new, stop, made, round, remains, zero⟩
    · exact ⟨code, c, by rw [removeLoop, bind_error (run.trans failed)]⟩
    · obtain ⟨c, failed⟩ := removeNext_nowhere_fails value e stop made remains (.inl zero)
      have inside : it.current ≠ new.fileEnd := by
        rw [zero, remains.holds.fileEnd_of_nil]
        decide
      refine ⟨.syntaxError, c, ?_⟩
      rw [removeLoop, bind_ok (run.trans round)]
      refine (congrFun (congrFun (if_pos inside) _) _).trans ?_
      rw [removeLoop, bind_error failed]
  | cons second rest ih =>
    obtain ⟨next, w⟩ := second
    obtain ⟨fuel, rfl⟩ := Nat.exists_eq_add_one.mpr (Nat.zero_lt_of_lt enough)
    obtain ⟨it, k₁, new₁, stop₁, made₁, round, remains, unmoved, here⟩ :=
      removeNext_step (a := []) value pos writes serving start (long _ mem_cons_self) (.inr (by simp))
    have gone : [(key, data)].filter (·.2 ≠ value) = [] := by
      simp [show data = value from all _ mem_cons_self]
    rw [gone] at remains
    have inside : it.current ≠ img.fileEnd := by
      rw [here]
      exact (serving.holds.toLinked.key_ne (show next ∈ keys _ by simp)).2
    obtain ⟨code, c, failed⟩ := ih fuel stop₁ made₁ remains here
      (fun x member => long x (mem_cons_of_mem _ member))
      (fun x member => all x (mem_cons_of_mem _ member)) (Nat.lt_of_succ_lt_succ enough)
    refine ⟨code, c, ?_⟩
    rw [removeLoop, bind_ok round]
    exact (congrFun (congrFun (if_pos inside) _) _).trans failed

/-! The whole removal. -/

/-- The call returns, and the elements with other data are left in their order. -/
def RemovesValue (e : Env) (c : Container) (value : Bytes) (l : Listing) : Prop :=
  ∃ c', FileSequence.removeData value e c = .ok () c' ∧ Ready c' (l.filter (·.2 ≠ value))

theorem removeData_run (value : Bytes) (pos : Nat) (writes : List Write) (serving : Serving k img l) :
    ∃ (it : FileIterator) (k' : Cache) (stop : Nat) (made : List Write),
      it.current = headKey l img.fileEnd ∧ Serving k' img l ∧
      FileSequence.removeData value e (Snapshot.at ⟨k, img⟩ pos writes) =
        removeLoop value e.fuel it e (Snapshot.at ⟨k', img⟩ stop made) := by
  obtain ⟨stop, made, first⟩ := serving.reads writes
    (readBegin_opened pos (serving.opens e true))
  have served := serving.prepared
  have found : ∃ it : FileIterator, it.current = headKey l img.fileEnd ∧ ∃ after,
      Ends Unchecked (getIterator (headKey l img.fileEnd)) e ⟨k.prepared img true, img⟩ stop (.ok it)
        ⟨(k.prepared img true).prepared img true, img⟩ after := by
    cases l with
    | nil =>
      obtain ⟨modified, mid, prepared⟩ :=
        (served.opens e true).run stop
      exact ⟨⟨0, 0, img.fileEnd⟩, rfl, _, .bind prepared readIterator_end_ends⟩
    | cons x rest =>
      obtain ⟨r, found, -⟩ := served.holds.toLinked.record (a := [])
      exact ⟨r.list.at x.1, rfl, served.getIterator_ends e stop found⟩
  obtain ⟨it, here, ends⟩ := found
  obtain ⟨stop', made', got⟩ := served.reads (writes ++ made) ends
  refine ⟨it, _, stop', writes ++ made ++ made', here, served.prepared, ?_⟩
  rw [FileSequence.removeData, bind_ok (show ask e _ = .ok e _ from rfl), bind_ok first, bind_ok got]

section

variable {c : Container} (ready : Ready c l) (enough : l.length + 1 < e.fuel)
  (long : ∀ x ∈ l, x.2.length < e.fuel)
include ready enough long

theorem RemovesValue.other (removes : RemovesValue e c value l) : ∃ x ∈ l, x.2 ≠ value := by
  obtain ⟨k, img, pos, writes, rfl, serving⟩ := ready.serving
  obtain ⟨it, k', stop, made, here, serving, run⟩ := removeData_run (e := e) value pos writes serving
  obtain ⟨c', ended, -⟩ := removes
  rw [run] at ended
  by_contra! all
  cases l with
  | nil =>
    obtain ⟨fuel, more⟩ := Nat.exists_eq_add_one.mpr (Nat.zero_lt_of_lt enough)
    obtain ⟨c, failed⟩ := removeNext_nowhere_fails value e stop made serving (.inr here)
    rw [more, removeLoop, bind_error failed] at ended
    cases ended
  | cons x rest =>
    obtain ⟨code, c, failed⟩ := removeLoop_all_fails e.fuel stop made serving here long all
      (Nat.lt_of_succ_lt enough)
    exact nomatch failed.symm.trans ended

/-- A value is removed rightly iff another one is left. -/
theorem removeData_right_iff : RemovesValue e c value l ↔ ∃ x ∈ l, x.2 ≠ value := by
  refine ⟨RemovesValue.other ready enough long, fun kept => ?_⟩
  obtain ⟨k, img, pos, writes, rfl, serving⟩ := ready.serving
  obtain ⟨it, k', stop, made, here, serving, run⟩ := removeData_run (e := e) value pos writes serving
  have nonempty : l ≠ [] := ne_nil_of_mem kept.choose_spec.1
  obtain ⟨first, rest, rfl⟩ := exists_cons_of_ne_nil nonempty
  obtain ⟨k'', new, stop', made', loop, more⟩ :=
    removeLoop_ends (a := []) e.fuel stop made serving here long kept (by simp at enough; omega)
  exact ⟨_, run.trans loop, more.ready⟩

end

/-- The one of two elements that has the value. -/
theorem removeData_right_first : ∃ c second, Ready c [(headerSize, ['a']), (second, ['b'])] ∧
      RemovesValue (.still 4) c ['a'] [(headerSize, ['a']), (second, ['b'])] := by
  obtain ⟨c, two⟩ := two_ready
  exact ⟨c, headerSize + calculateDataSize 1, two,
    (removeData_right_iff two (by decide) (by simp [Env.still])).mpr
    ⟨_, mem_cons_of_mem _ mem_cons_self, by decide⟩⟩

/-- The only element is not removed without an error, and neither is a value that the empty list
does not have. -/
theorem removeData_wrong : ¬ RemovesValue (.still 3) (.single ['a']) ['a'] [(headerSize, ['a'])] ∧
    ¬ RemovesValue (.still 2) .empty ['a'] [] := by
  refine ⟨fun removes => ?_, fun removes => ?_⟩
  · obtain ⟨x, member, other⟩ := removes.other single_ready (by decide) (by simp [Env.still])
    exact other (by rw [mem_singleton.mp member])
  · obtain ⟨x, member, -⟩ := removes.other empty_serving.ready (by decide) nofun
    cases member

end Wms.FileContainer
