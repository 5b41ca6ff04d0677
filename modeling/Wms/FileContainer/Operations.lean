import Wms.FileContainer.Recovery

/-! The public methods of the container. -/

set_option autoImplicit false

namespace Wms.FileContainer

open Lib Lib.FileProg

/-! Removal. -/

def checkOnly : Method Unit := do
  let c ← cache
  if c.size ≠ 1 then
    -- the debugging code copies the file and prints the state
    backupFile
    let _ ← getEnd
    match ← Prog.attempt (checkConsistency (toInt (1 - (c.size : Int)))) with
    | .ok _ => pure ()
    | .error _ => Prog.throw .notRemovingLast

def removeOnlyData : Method Unit := do
  checkOnly
  eraseFile headerSize
  update fun c =>
    { c with limits := ⟨headerSize, headerSize, 0⟩, removed := ⟨unDead, unBeef, 0⟩ }
  writeInitialPosition ⟨headerSize, headerSize, 0⟩ false
  writeInitialPosition ⟨unDead, unBeef, 0⟩ true

def removeLastData (iter : FileIterator) (size fileEnd : Nat) : Method Unit := do
  let c ← cache
  writeLimitsBackup .rdLimits c.limits
  update fun c => { c with limits := { c.limits with next := iter.prev } }
  writeInitialPosition { c.limits with next := iter.prev } false
  let temp ← readIterator iter.prev false
  writeIteratorBackup 0 temp .rdIterator
  writeIterator temp.current { temp with next := fileEnd }
  markDataAsErased iter size .rdMark1

def removeFirstData (iter : FileIterator) (size : Nat) : Method Unit := do
  let c ← cache
  writeLimitsBackup .rdLimits c.limits
  update fun c => { c with limits := { c.limits with prev := iter.next } }
  writeInitialPosition { c.limits with prev := iter.next } false
  let temp ← readIterator iter.next false
  writeIteratorBackup 0 temp .rdIterator
  writeIterator temp.current { temp with prev := 0 }
  markDataAsErased iter size .rdMark1

def removeMiddleData (iter : FileIterator) (size : Nat) : Method Unit := do
  let next ← readIterator iter.next false
  let prev ← readIterator iter.prev false
  writeIteratorBackup 0 next .rdIterator2
  writeIteratorBackup 1 prev .rdIterator3
  writeIterator next.current { next with prev := prev.current }
  writeIterator prev.current { prev with next := next.current }
  markDataAsErased iter size .rdMark2

def removeDataPointer (iter : FileIterator) (size : Nat) : Method Unit := do
  let fileEnd ← getEnd
  if iter.next = fileEnd ∧ iter.prev = 0 then removeOnlyData
  else if iter.next = fileEnd then removeLastData iter size fileEnd
  else if iter.prev = 0 then removeFirstData iter size
  else removeMiddleData iter size

/-- The start of every operation: the first one initialises the object, a later one checks
the stream and reads the header again when another process changed it. -/
def prepare (stamp : Bool) : Method Bool := do
  let c ← cache
  if !c.initialized then
    initContainer
    return false
  else
    match ← Prog.attempt checkStreamAndStamp with
    | .ok _ => return false
    | .error .containerModified =>
      syncData stamp
      return true
    | .error code => Prog.throw code

def endAfter (modified : Bool) (fileEnd : Nat) : Method Nat :=
  if modified then getEnd else pure fileEnd

def insertData (data : Bytes) (offset fileEnd : Nat) : Method FileIterator := do
  let c ← cache
  if offset = fileEnd then addDataAtEnd data fileEnd
  else if offset = c.limits.prev then addDataAtBegin data fileEnd
  else addDataInMiddle data offset fileEnd

/-- `add_data` up to the blanking of the backups. -/
def stageAddition (data : Bytes) (offset : Nat) : Method FileIterator := do
  let fileEnd ← getEnd
  let modified ← prepare false
  let fileEnd ← endAfter modified fileEnd
  updateTimeStamp
  writeFileStatus .opened
  insertData data offset fileEnd

def commitAddition : Method Unit := do
  createEmptyBackup .adEmpty
  let c ← cache
  writeAndSetSize ((c.size + 1) % sizeBound)
  writeFileStatus .closed

def addData (data : Bytes) (offset : Nat) : Method FileIterator := do
  let it ← stageAddition data offset
  commitAddition
  return it

def readData (offset : Nat) (fileorder : Bool) : Method (FileIterator × Bytes) := do
  let fileEnd ← getEnd
  let modified ← prepare true
  let fileEnd ← endAfter modified fileEnd
  if offset ≤ fileEnd then
    seek offset
    let (it, fileIt, data) ← readDataHere fileorder
    if fileorder then return (⟨fileIt.prev, fileIt.next, offset⟩, data)
    else return (it, data)
  else Prog.throw .unavailablePosition

def eraseData (offset : Nat) : Method Unit := do
  let iter ← readIterator offset false
  let (size, state) ← readSizeAndState
  if state = 'g' then removeDataPointer iter size
  else Prog.throw .unavailablePosition

def stageRemoval (offset : Nat) : Method Unit := do
  let _ ← prepare false
  updateTimeStamp
  writeFileStatus .opened
  eraseData offset

/-- A size of zero is wrong here and is counted again. -/
def recountSize : Method Unit := do
  let c ← cache
  if c.size = 0 then
    match ← Prog.attempt (checkConsistency 0) with
    -- this number does not count the element just removed
    | .ok _ => update fun c => { c with size := c.size + 1 }
    | .error _ => Prog.throw .decrementingFromZero

def commitRemoval : Method Unit := do
  createEmptyBackup .rdEmpty
  recountSize
  let c ← cache
  writeAndSetSize (c.size - 1)
  writeFileStatus .closed

def removeData (offset : Nat) : Method Unit := do
  stageRemoval offset
  commitRemoval

/-- One step of an iterator: the position 0 lies before the first element. -/
def incrementWith (fileorder : Bool) (it : FileIterator) : Method FileIterator := do
  let fileEnd ← getEnd
  let modified ← prepare true
  let fileEnd ← endAfter modified fileEnd
  let c ← cache
  if it.current = 0 then readIterator c.limits.prev fileorder
  else if it.next = fileEnd then return ⟨0, 0, fileEnd⟩
  else
    let it ← readIterator it.current fileorder
    readIterator it.next fileorder

def incrementIterator (it : FileIterator) : Method FileIterator := incrementWith false it
def incrementFileorderIterator (it : FileIterator) : Method FileIterator := incrementWith true it

def decrementWith (fileorder : Bool) (it : FileIterator) : Method FileIterator := do
  let _ ← prepare true
  let c ← cache
  let fileEnd ← getEnd
  if it.current = fileEnd then readIterator c.limits.next fileorder
  else if it.prev = 0 then return ⟨0, 0, 0⟩
  else
    let it ← readIterator it.current fileorder
    readIterator it.prev fileorder

def decrementIterator (it : FileIterator) : Method FileIterator := decrementWith false it
def decrementFileorderIterator (it : FileIterator) : Method FileIterator := decrementWith true it

def initOrCheck : Method Unit := do
  let c ← cache
  if !c.initialized then initContainer else checkStreamAndStamp

def fillLoop (fileEnd : Nat) : Nat → Nat → List Bytes → Method (List Bytes)
  | 0, _, _ => Prog.diverge
  | fuel + 1, offset, vec => do
    if offset < fileEnd then
      seek offset
      let (it, _, data) ← readDataHere false
      fillLoop fileEnd fuel it.next (vec ++ [data])
    else return vec

def checkOrSync : Method Unit := do
  match ← Prog.attempt checkStreamAndStamp with
  | .ok _ => pure ()
  | .error .containerModified => syncData true
  | .error code => Prog.throw code

def fillVector : Method (List Bytes) := do
  let fileEnd ← getEnd
  checkOrSync
  let c ← cache
  let it ← readIterator c.limits.prev false
  let env ← Prog.ask
  fillLoop fileEnd env.fuel it.current []

def appendAll : List Bytes → Nat → Method Unit
  | [], _ => pure ()
  | data :: rest, fileEnd => do
    let it ← addDataAtEnd data fileEnd
    appendAll rest it.next

def ensureInit : Method Unit := do
  let c ← cache
  if !c.initialized then initContainer

def compactData : Method Unit := do
  ensureInit
  let copy ← fillVector
  backupFile
  eraseFile 0
  writeFileStatus .opened
  let fileEnd ← getEnd
  appendAll copy fileEnd
  createEmptyBackup .empty
  writeAndSetSize copy.length
  writeFileStatus .closed

/-- The answer tells a caller whose container was modified, after reading it again. -/
def sync : Method Unit := do
  match ← Prog.attempt initOrCheck with
  | .error .containerModified =>
    let _ ← Prog.attempt (syncData true)
    Prog.throw .containerModified
  | r => Prog.ofExcept r

def getIterator (offset : Nat) : Method FileIterator := do
  let _ ← prepare true
  readIterator offset false

def getFileorderIterator (offset : Nat) : Method FileIterator := do
  let _ ← prepare true
  readIterator offset true

def modified : Method Bool := do
  ensureInit
  checkStamp

def readBegin : Method Nat := do
  let _ ← prepare true
  let c ← cache
  return c.limits.prev

def readEnd : Method Nat := do
  let _ ← prepare true
  getEnd

def createFile : Method Unit := do
  createEmptyFile
  updateTimeStamp
  update fun c => { c with initialized := true }

end Wms.FileContainer
