import Wms.FileContainer.Records

/-! Consistency check, recovery after a crash, and initialisation.

The cases of the recovery switch that fall through are one definition each, named by the
status that starts there; a case that comes earlier in the source ends by calling the next.
-/

set_option autoImplicit false

namespace Wms.FileContainer

open Lib Lib.FileProg

/-- A copy of the file is written beside it; on the stream this clears the flags. -/
def backupFile : Method Unit := onStream fun s => ((), s.clear.seek 0)

/-! The consistency check. -/

/-- The size is corrected when it is off in the allowed direction; an allowance of zero
accepts any difference. -/
def allowedOffset (allowable detected : Int) : Bool :=
  (decide (allowable > 0) && decide (detected > 0) && decide (detected ≤ allowable)) ||
    (decide (allowable < 0) && decide (detected < 0) && decide (detected ≥ allowable)) ||
    decide (allowable = 0)

def correctSize (allowable : Int) (detected : Nat) : Method Unit := do
  let c ← cache
  if detected ≠ c.size then
    if allowedOffset allowable (toInt (detected - c.size)) then writeAndSetSize detected

def cutUnreached (fileEnd : Nat) (maxReached current : Int) (it : FileIterator) : Method Unit := do
  if current ≤ maxReached ∧ maxReached < fileEnd then
    truncateFile maxReached.toNat
    let fileEnd ← getEnd
    if it.next ≠ fileEnd then writeIterator it.current { it with next := fileEnd }

def checkLast (allowable : Int) (fileEnd : Nat) (maxReached current : Int) (detected : Nat)
    (it : FileIterator) :
    Method Unit := do
  correctSize allowable detected
  cutUnreached fileEnd maxReached current it

/-- The main loop. An unreadable size is not an error as long as the next pointer stays
inside the file: the answer is overwritten by that of the next record. The end of a record
wraps when its size is too large for a `streamoff`. -/
def checkRecords (allowable : Int) (fileEnd : Nat) :
    Nat → FileIterator → Int → Nat → Method Unit
  | 0, _, _, _ => Prog.diverge
  | fuel + 1, it, maxReached, detected => do
    let found ← if ← isGood then Prog.attempt readSizeAndState else pure (.error .ioError)
    let c ← cache
    let nextRecord (maxReached : Int) (detected : Nat) : Method Unit := do
      if it.next < headerSize ∨ it.next ≥ fileEnd then Prog.throw .unavailablePosition
      else
        let it ← readIterator it.next false
        checkRecords allowable fileEnd fuel it maxReached detected
    match found with
    | .ok (size, _) =>
      let current := toOff (it.current + calculateDataSize size)
      let maxReached := if current > maxReached then current else maxReached
      let detected := detected + 1
      if it.current = c.limits.next then
        checkLast allowable fileEnd maxReached current detected it
      else nextRecord maxReached detected
    | .error _ => nextRecord maxReached detected

def checkConsistency (allowable : Int) : Method Unit := do
  let fileEnd ← getEnd
  readSize
  let c ← cache
  let it ← readIterator c.limits.prev false
  let env ← Prog.ask
  checkRecords allowable fileEnd env.fuel it 0 0

/-! Recovery. -/

def restoreIterator (what : Nat) : Method Unit := do
  let temp ← readIteratorBackup what
  writeIterator temp.current temp

def restoreLimits : Method Unit := do
  readLimitsBackup
  let c ← cache
  writeInitialPosition c.limits false

def restoreErased : Method Unit := do
  let temp ← readIteratorBackup 2
  markDataAsUnerased temp

def recoverAeIterator : Method Unit := do
  restoreIterator 0
  checkConsistency 1

def recoverAeLimits : Method Unit := do
  restoreLimits
  recoverAeIterator

def recoverAeWriting : Method Unit := do
  let limits ← readInitialPosition ⟨0, 0, 0⟩ false
  truncateFile limits.next
  recoverAeLimits

def recoverAbIterator : Method Unit := do
  restoreIterator 0
  checkConsistency 1

def recoverAbLimits : Method Unit := do
  restoreLimits
  recoverAbIterator

def recoverAbWriting : Method Unit := do
  let limits ← readInitialPosition ⟨0, 0, 0⟩ false
  truncateFile limits.prev
  recoverAbLimits

def recoverAbLast : Method Unit := do
  restoreIterator 2
  recoverAbWriting

def recoverAmIterator1 : Method Unit := do
  restoreIterator 0
  checkConsistency 1

def recoverAmIterator2 : Method Unit := do
  restoreIterator 1
  recoverAmIterator1

def recoverAmWriting : Method Unit := do
  let temp ← readIteratorBackup 0
  let temp ← readIterator temp.current false
  truncateFile temp.prev
  recoverAmIterator2

def recoverAmLast : Method Unit := do
  restoreIterator 2
  recoverAmWriting

def recoverRdLimits : Method Unit := do
  restoreLimits
  checkConsistency (-1)

def recoverRdIterator : Method Unit := do
  restoreIterator 0
  recoverRdLimits

def recoverRdMark1 : Method Unit := do
  restoreErased
  recoverRdIterator

def recoverRdIterator2 : Method Unit := do
  restoreIterator 0
  checkConsistency (-1)

def recoverRdIterator3 : Method Unit := do
  restoreIterator 1
  recoverRdIterator2

def recoverRdMark2 : Method Unit := do
  restoreErased
  recoverRdIterator3

def recoverEmpty : Method Unit := do
  writeFileStatus .closed
  syncData true
  let c ← cache
  if c.size = 0 then
    let fileEnd ← getEnd
    if c.limits.prev ≠ fileEnd then
      eraseFile 0
      update fun c => { c with size := 0 }

def recoverFtBegin : Method Unit := do
  let temp ← readIteratorBackup 0
  truncateFile temp.current

def recoverCase : FileStatus → Method Unit
  | .closed => pure ()
  | .empty => recoverEmpty
  | .opened | .ftEnd => writeFileStatus .closed
  | .aeWriting | .aeWritten => recoverAeWriting
  | .aeLimits => recoverAeLimits
  | .aeIterator => recoverAeIterator
  | .abLast => recoverAbLast
  | .abWriting | .abWritten => recoverAbWriting
  | .abLimits => recoverAbLimits
  | .abIterator => recoverAbIterator
  | .amLast => recoverAmLast
  | .amWriting | .amWritten => recoverAmWriting
  | .amIterator2 => recoverAmIterator2
  | .amIterator1 => recoverAmIterator1
  | .adEmpty => checkConsistency 1
  | .ftBegin => recoverFtBegin
  | .rdMark1 => recoverRdMark1
  | .rdIterator => recoverRdIterator
  | .rdLimits => recoverRdLimits
  | .rdMark2 => recoverRdMark2
  | .rdIterator3 => recoverRdIterator3
  | .rdIterator2 => recoverRdIterator2
  | .rdEmpty => checkConsistency (-1)
  | .other => Prog.throw .unrecoverableData

def statusOr (status : FileStatus) : Method FileStatus :=
  if status = .closed then readFileStatus else pure status

/-- `recover_data` from the backup of the file on; with `check` off this is all of it. -/
def recoverDataUnchecked (status : FileStatus) : Method Unit := do
  backupFile
  let status ← statusOr status
  recoverCase status
  if status ≠ .closed then writeFileStatus .closed

def initContainer : Method Unit := do
  readStamp
  readLimits
  readRemoved
  readSize
  let status ← readFileStatus
  if status ≠ .closed then recoverDataUnchecked status
  update fun c => { c with initialized := true }

def checkStreamAndStampOnly : Method Unit := do
  let _ ← readFileStatus
  if ← checkStamp then Prog.throw .containerModified

def refresh : Method Unit := do
  let c ← cache
  if !c.initialized then initContainer
  else
    match ← Prog.attempt checkStreamAndStampOnly with
    | .ok _ => pure ()
    | .error .containerModified => syncData true
    | .error code => Prog.throw code

def recoverData (status : FileStatus) : Method Unit := do
  refresh
  recoverDataUnchecked status

def checkStream : Method Unit := do
  let status ← readFileStatus
  if status ≠ .closed then recoverData status

def checkStreamAndStamp : Method Unit := do
  checkStream
  if ← checkStamp then Prog.throw .containerModified

end Wms.FileContainer
