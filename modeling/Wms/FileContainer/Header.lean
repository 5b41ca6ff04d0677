import Wms.FileContainer.Data

/-! The methods that read and write the header of a container.

Each output that the source ends with `endl`, `flush` or `sync` is one write to the
file. A method that fails leaves the state it had reached.
-/

set_option autoImplicit false

namespace Wms.FileContainer

open Lib Lib.FileProg

def time : Method Nat := do
  let env ← Prog.ask
  let c ← cache
  update fun c => { c with ticks := c.ticks + 1 }
  return (env.clock c.ticks).val

/-! The stamp. -/

def extractStamp (old : TimeStamp) : Method (Option TimeStamp) := do
  let position ← tell
  let line ← getline
  if matchRuns stampPattern line then
    seek position
    let epoch ← extract 10 offBound
    let counter ← extract 10 counterBound
    return some ⟨epoch.getD old.epoch, counter.getD old.counter⟩
  else return none

def writeStamp : Method Unit := do
  let c ← cache
  seek 0
  put c.stamp.line

def readStamp : Method Unit := do
  let c ← cache
  seek 0
  match ← extractStamp c.stamp with
  | some stamp => update fun c => { c with stamp }
  | none => return ()

def updateTimeStamp : Method Unit := do
  let now ← time
  seek 0
  match ← extractStamp ⟨now, 0⟩ with
  | some stamp =>
    let now ← time
    update fun c => { c with stamp := c.stamp.updateStamp now stamp }
    seek 0
    let c ← cache
    put c.stamp.line
  | none => Prog.throw .syntaxError

/-- Whether another process changed the file: its stamp is above the one of the object. -/
def checkStamp : Method Bool := do
  let now ← time
  seek 0
  match ← extractStamp ⟨now, 0⟩ with
  | some stamp =>
    if ← isGood then
      let c ← cache
      return stamp.gt c.stamp
    else Prog.throw .fileClosed
  | none => Prog.throw .syntaxError

/-! The status and the number of elements. -/

def writeFileStatus (status : FileStatus) : Method Unit := do
  let old ← tell
  seek statusPosition
  put [status.char, '\n']
  seek old

def readFileStatus : Method FileStatus := do
  let old ← tell
  seek statusPosition
  let buffer ← readChars 2
  seek old
  match FileStatus.ofBytes buffer with
  | some status => return status
  | none => Prog.throw .syntaxError

def readSize : Method Unit := do
  let old ← tell
  update fun c => { c with size := 0 }
  seek stampSize
  let size ← extract 10 sizeBound
  update fun c => { c with size := size.getD 0 }
  seek old

def writeAndSetSize (size : Nat) : Method Unit := do
  let old ← tell
  seek stampSize
  put (numberLine size)
  seek old
  update fun c => { c with size }

/-! The backups and the limits. -/

def extractIterator (old : FileIterator) : Method FileIterator := do
  let position ← tell
  let line ← getline
  if matchRuns iteratorPattern line then
    seek position
    let prev ← extract 16 offBound
    let next ← extract 16 offBound
    return ⟨prev.getD old.prev, next.getD old.next, old.current⟩
  else Prog.throw .syntaxError

def emptyBackup : Bytes :=
  let vuoto : FileIterator := ⟨0, 0, 0⟩
  vuoto.backupLine ++ vuoto.backupLine ++ vuoto.backupLine ++ vuoto.backupLine ++
    (vuoto.line ++ vuoto.line)

def createEmptyBackup (status : FileStatus) : Method Unit := do
  let old ← tell
  seek (statusPosition + 2)
  put emptyBackup
  seek old
  writeFileStatus status

def iteratorBackupPosition (what : Nat) : Nat :=
  statusPosition + 2 + what % iteratorBackupNumber * (3 * iteratorWidth + 3)

def writeIteratorBackup (what : Nat) (it : FileIterator) (status : FileStatus) : Method Unit := do
  let old ← tell
  seek (iteratorBackupPosition what)
  put it.backupLine
  seek old
  writeFileStatus status

def readIteratorBackup (what : Nat) : Method FileIterator := do
  let old ← tell
  seek (iteratorBackupPosition what)
  let buffer ← getline
  seek (iteratorBackupPosition what)
  if ← isGood then
    if matchRuns backupPattern buffer then
      let pointer ← extract 16 offBound
      let it ← extractIterator ⟨0, 0, 0⟩
      seek old
      if ← isGood then return { it with current := pointer.getD 0 }
      else Prog.throw .ioError
    else Prog.throw .syntaxError
  else Prog.throw .ioError

def limitsBackupPosition (isList : Bool) : Nat :=
  statusPosition + iteratorBackupSize + 2 + isList.toNat * limitsBackupSize

def writeLimitsBackup (status : FileStatus) (limits : FileIterator) : Method Unit := do
  let old ← tell
  seek (limitsBackupPosition false)
  put limits.line
  seek old
  writeFileStatus status

def readLimitsBackup : Method Unit := do
  let c ← cache
  let old ← tell
  seek (limitsBackupPosition false)
  let limits ← extractIterator c.limits
  update fun c => { c with limits }
  seek old

def initialPosition (isList : Bool) : Nat := if isList then listPosition else positionPosition

def writeInitialPosition (position : FileIterator) (isList : Bool) : Method Unit := do
  seek (initialPosition isList)
  put position.line

def readInitialPosition (old : FileIterator) (isList : Bool) : Method FileIterator := do
  seek (initialPosition isList)
  extractIterator old

def readLimits : Method Unit := do
  let c ← cache
  let limits ← readInitialPosition c.limits false
  update fun c => { c with limits }

def readRemoved : Method Unit := do
  let c ← cache
  let removed ← readInitialPosition c.removed true
  update fun c => { c with removed }

def syncData (stamp : Bool) : Method Unit := do
  readLimits
  readRemoved
  readSize
  if stamp then readStamp

/-! Truncation. -/

def createEmptyFile : Method Unit := do
  let now ← time
  update fun c => { c with stamp := ⟨now, 0⟩ }
  writeStamp
  writeAndSetSize 0
  writeFileStatus .opened
  update fun c =>
    { c with limits := ⟨headerSize, headerSize, 0⟩, removed := ⟨unDead, unBeef, 0⟩ }
  createEmptyBackup .empty
  writeInitialPosition ⟨headerSize, headerSize, 0⟩ false
  writeInitialPosition ⟨unDead, unBeef, 0⟩ true
  writeFileStatus .closed

def truncateFile (size : Nat) : Method Unit := do
  seek 0
  if ← isGood then
    cut size
    if size = 0 then createEmptyFile
    writeFileStatus .ftEnd
  else Prog.throw .ioError

def eraseFile (size : Nat) : Method Unit := do
  writeIteratorBackup 0 ⟨size, size, size⟩ .ftBegin
  truncateFile size

end Wms.FileContainer
