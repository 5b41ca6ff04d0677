import Wms.FileContainer.Header

/-! The methods that read and write records and relink them. -/

set_option autoImplicit false

namespace Wms.FileContainer

open Lib Lib.FileProg

/-! Reading. -/

def readIteratorHere (old : FileIterator) : Method FileIterator := do
  let here ← tell
  let it ← extractIterator old
  let c ← getChar
  if c != some '\n' then Prog.throw .syntaxError
  else if ← isGood then return { it with current := here }
  else Prog.throw .ioError

def readSizeAndState : Method (Nat × Char) := do
  let position ← tell
  let buffer ← getline
  if matchRuns sizePattern buffer then
    seek position
    let size ← extract 10 sizeBound
    let state ← extractChar
    let c ← getChar
    if c != some '\n' then Prog.throw .syntaxError
    else return (size.getD 0, state.getD ' ')
  else Prog.throw .syntaxError

/-- The pointers of the record at an offset; the end of the file and 0 stand for the
positions after the last element and before the first. In file order the pointers are
those behind the data. -/
def readIterator (offset : Nat) (fileorder : Bool) : Method FileIterator := do
  let fileEnd ← getEnd
  if offset ≥ headerSize ∧ offset < fileEnd then
    seek offset
    let it ← readIteratorHere ⟨0, 0, 0⟩
    if fileorder then
      let (size, _) ← readSizeAndState
      let here ← tell
      seek (here + size + 1)
      let it ← readIteratorHere it
      return { it with current := offset }
    else return it
  else if offset = fileEnd then return ⟨0, 0, fileEnd⟩
  else if offset = 0 then return ⟨0, 0, 0⟩
  else Prog.throw .unavailablePosition

/-- Data is read in blocks of `BUFSIZ`; the loop goes on while a block comes back empty. -/
def readBlocks : Nat → Nat → Bytes → Method Bytes
  | 0, _, _ => Prog.diverge
  | fuel + 1, size, data =>
    if size = 0 then pure data
    else do
      let toread := if size > bufsiz then bufsiz else size
      let block ← readChars toread
      let data := data ++ block
      if block.length = toread then readBlocks fuel (size - toread) data
      else if block.length > 0 then readBlocks fuel 0 data
      else readBlocks fuel size data

/-- The list pointers, the file order pointers and the data of the record at the position.
An erased record is read only by force. -/
def readDataHere (force : Bool) : Method (FileIterator × FileIterator × Bytes) := do
  let it ← match ← Prog.attempt (readIteratorHere ⟨0, 0, 0⟩) with
    | .ok it => pure it
    | .error _ => Prog.throw .syntaxError
  let (size, state) ← readSizeAndState
  if state = 'g' ∨ (force = true ∧ state = 'i') then
    let env ← Prog.ask
    let data ← readBlocks env.fuel size []
    let c ← getChar
    if c != some '\n' then Prog.throw .syntaxError
    else
      let itList ← Prog.attempt (extractIterator ⟨0, 0, 0⟩)
      if ← isGood then
        let itList ← Prog.ofExcept itList
        return (it, itList, data)
      else Prog.throw .ioError
  else if state = 'i' then Prog.throw .unavailablePosition
  else Prog.throw .syntaxError

/-! Writing. -/

/-- The two bounds are joined by `||`, as in the source: every offset passes one of them,
unless the file ends before its header does. -/
def writeIterator (offset : Nat) (it : FileIterator) : Method Unit := do
  let inside ← if offset ≥ headerSize then pure true else do
    let fileEnd ← getEnd
    pure (decide (offset < fileEnd))
  if inside then
    seek offset
    put it.line
  else Prog.throw .unavailablePosition

def resetNextOfLast (status : FileStatus) : Method Unit := do
  let c ← cache
  let iter ← readIterator c.limits.next false
  writeIteratorBackup 2 iter status
  let fileEnd ← getEnd
  writeIterator c.limits.next { iter with next := fileEnd }

def writeDataHeader (it : FileIterator) (size : Nat) (state : Char) : Method Unit := do
  put it.line
  put (sizeLine size state)

/-- A record is appended in four writes: the pointers, the size, the data, and the
pointers of the file order. A large block of data goes to the file directly. -/
def writeDataHere (it lit : FileIterator) (data : Bytes) (status : FileStatus) : Method Unit := do
  if data.length > 0 then
    seekEnd
    writeFileStatus status
    writeDataHeader it data.length 'g'
    put data
    put ('\n' :: lit.line)
  else Prog.throw .dataError
  writeFileStatus status.succ

def markDataAsErased (iter : FileIterator) (size : Nat) (status : FileStatus) : Method Unit := do
  writeIteratorBackup 2 iter status
  seek iter.current
  if ← isGood then writeDataHeader iter size 'i'
  else Prog.throw .ioError

def markDataAsUnerased (it : FileIterator) : Method Unit := do
  seek (it.current + (2 * iteratorWidth + 2))
  if ← isGood then
    let (size, _) ← readSizeAndState
    seek it.current
    if ← isGood then writeDataHeader it size 'g'
    else Prog.throw .ioError
  else Prog.throw .ioError

/-! Insertion. -/

def addDataAtBegin (data : Bytes) (fileEnd : Nat) : Method FileIterator := do
  let c ← cache
  let next := c.limits.prev
  let previous := c.limits.next
  let last := fileEnd + calculateDataSize data.length
  let temp ← readIterator next false
  writeIteratorBackup 0 temp .abIterator
  writeIterator next { temp with prev := fileEnd }
  writeLimitsBackup .abLimits c.limits
  update fun c => { c with limits := { c.limits with prev := fileEnd } }
  writeInitialPosition { c.limits with prev := fileEnd } false
  writeDataHere ⟨0, next, fileEnd⟩ ⟨previous, last, fileEnd⟩ data .abWriting
  resetNextOfLast .abLast
  return ⟨0, next, fileEnd⟩

def linkLast (fileEnd : Nat) : Method Nat := do
  let c ← cache
  if c.limits.next = fileEnd then return 0
  else
    let temp ← readIterator c.limits.next false
    writeIteratorBackup 0 temp .aeIterator
    writeIterator c.limits.next { temp with next := fileEnd }
    return c.limits.next

def addDataAtEnd (data : Bytes) (fileEnd : Nat) : Method FileIterator := do
  let c ← cache
  let next := fileEnd + calculateDataSize data.length
  let previous := c.limits.next
  let prev ← linkLast fileEnd
  writeLimitsBackup .aeLimits c.limits
  update fun c => { c with limits := { c.limits with next := fileEnd } }
  writeInitialPosition { c.limits with next := fileEnd } false
  writeDataHere ⟨prev, next, fileEnd⟩ ⟨previous, next, fileEnd⟩ data .aeWriting
  return ⟨prev, next, fileEnd⟩

def addDataInMiddle (data : Bytes) (offset fileEnd : Nat) : Method FileIterator := do
  let c ← cache
  let previous := c.limits.next
  let last := fileEnd + calculateDataSize data.length
  let temp1 ← readIterator offset false
  let temp2 ← readIterator temp1.prev false
  writeIteratorBackup 0 temp1 .amIterator1
  writeIteratorBackup 1 temp2 .amIterator2
  writeIterator offset { temp1 with prev := fileEnd }
  writeIterator temp2.current { temp2 with next := fileEnd }
  writeDataHere ⟨temp1.prev, offset, fileEnd⟩ ⟨previous, last, fileEnd⟩ data .amWriting
  resetNextOfLast .amLast
  return ⟨temp1.prev, offset, fileEnd⟩

/-! The readers leave the file as it is. -/

theorem extractIterator_reader (old : FileIterator) : Reader (extractIterator old) :=
  .bind .tell fun _ => .bind .getline fun _ => .branch
    (.bind (.seek _) fun _ => .bind (.extract _ _) fun _ => .bind (.extract _ _) fun _ => .pure _)
      (.throw _)

theorem readIteratorHere_reader (old : FileIterator) : Reader (readIteratorHere old) :=
  .bind .tell fun _ => .bind (extractIterator_reader old) fun _ => .bind .getChar fun _ =>
    .branch (.throw _) (.bind .isGood fun _ => .branch (.pure _) (.throw _))

theorem readSizeAndState_reader : Reader readSizeAndState :=
  .bind .tell fun _ => .bind .getline fun _ => .branch
    (.bind (.seek _) fun _ => .bind (.extract _ _) fun _ => .bind .extractChar fun _ =>
      .bind .getChar fun _ =>
      .branch (.throw _) (.pure _))
    (.throw _)

theorem readIterator_reader (offset : Nat) : Reader (readIterator offset false) :=
  .bind .getEnd fun _ => .branch (.bind (.seek _) fun _ =>
    .bind (readIteratorHere_reader _) fun _ => .pure _)
    (.branch (.pure _) (.branch (.pure _) (.throw _)))

end Wms.FileContainer
