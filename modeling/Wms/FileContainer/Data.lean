import Wms.Lib.ReadOnly

/-! The data of the file container of `jobsubmission/src/common/file_container.cpp`.

The file is text with fixed-width fields: a stamp, the number of elements, a status
character, four iterator backups, two limits backups, the limits of the list, the
limits of the removed list, and then the records. A record carries the pointers of the
list before its data and the pointers of the file order after it.
-/

set_option autoImplicit false

namespace Wms.FileContainer

open Lib Lib.FileProg

inductive IOStatus where
  | unknown | cannotOpen | fileClosed | syntaxError | ioError | dataError
  | unavailablePosition | containerModified | tryRecover | unrecoverableData
  | decrementingFromZero | notRemovingLast | cannotConvertFromString | cannotConvertToString
  deriving DecidableEq, Repr

inductive FileStatus where
  | empty | opened | closed
  | aeIterator | aeLimits | aeWriting | aeWritten
  | abIterator | abWriting | abWritten | abLast | abLimits
  | amIterator1 | amIterator2 | amWriting | amWritten | amLast
  | rdLimits | rdIterator | rdIterator2 | rdIterator3 | rdMark1 | rdMark2
  | ftBegin | ftEnd | adEmpty | rdEmpty
  | other
  deriving DecidableEq, Repr

namespace FileStatus

def char : FileStatus → Char
  | .empty => ' ' | .opened => '1' | .closed => '0'
  | .aeIterator => 'a' | .aeLimits => 'b' | .aeWriting => 'c' | .aeWritten => 'd'
  | .abIterator => 'e' | .abWriting => 'f' | .abWritten => 'g' | .abLast => 'h' | .abLimits => 'i'
  | .amIterator1 => 'j' | .amIterator2 => 'k' | .amWriting => 'l' | .amWritten => 'm' | .amLast => 'n'
  | .rdLimits => 'o' | .rdIterator => 'p' | .rdIterator2 => 'q' | .rdIterator3 => 'r'
  | .rdMark1 => 's' | .rdMark2 => 't'
  | .ftBegin => 'u' | .ftEnd => 'v' | .adEmpty => 'w' | .rdEmpty => 'x'
  | .other => 'y'

def all : List FileStatus :=
  [.empty, .opened, .closed, .aeIterator, .aeLimits, .aeWriting, .aeWritten, .abIterator, .abWriting,
    .abWritten, .abLast, .abLimits, .amIterator1, .amIterator2, .amWriting, .amWritten, .amLast,
    .rdLimits, .rdIterator, .rdIterator2, .rdIterator3, .rdMark1, .rdMark2, .ftBegin, .ftEnd,
    .adEmpty, .rdEmpty, .other]

def ofChar (c : Char) : Option FileStatus := all.find? fun status => status.char == c

/-- The accepted characters are ` `, `0`, `1` and `a` to `y`. -/
def ofBytes : Bytes → Option FileStatus
  | [c, '\n'] => ofChar c
  | _ => none

/-- The enumerator that follows, which the writer of a record stores when it is done. -/
def succ (status : FileStatus) : FileStatus :=
  (ofChar (Char.ofNat (status.char.toNat + 1))).getD .other

theorem ofBytes_char (status : FileStatus) : ofBytes [status.char, '\n'] = some status := by
  cases status <;> decide

end FileStatus

structure TimeStamp where
  epoch : Nat
  counter : Nat
  deriving DecidableEq, Repr

namespace TimeStamp

def gt (a b : TimeStamp) : Bool :=
  decide (a.epoch > b.epoch) || (decide (a.epoch = b.epoch) && decide (a.counter > b.counter))

/-- `update_stamp(ts)` with the clock at `now`; the counter is an `unsigned short`. -/
def updateStamp (self : TimeStamp) (now : Nat) (ts : TimeStamp) : TimeStamp :=
  let fresh : TimeStamp :=
    if self.epoch = now then ⟨self.epoch, (self.counter + 1) % 2 ^ 16⟩ else ⟨now, 0⟩
  if fresh.epoch < ts.epoch then ⟨ts.epoch, (ts.counter + 1) % 2 ^ 16⟩
  else if fresh.epoch = ts.epoch ∧ fresh.counter ≤ ts.counter then
    ⟨fresh.epoch, (ts.counter + 1) % 2 ^ 16⟩
  else fresh

end TimeStamp

structure FileIterator where
  prev : Nat
  next : Nat
  current : Nat
  deriving DecidableEq, Repr

/-! The widths are those of a platform with 64-bit `time_t`, `size_t` and `long long`. -/

def iteratorWidth : Nat := 16
def epochWidth : Nat := 20
def counterWidth : Nat := 5

def stampSize : Nat := epochWidth + counterWidth + 1 + 1
def sizeSize : Nat := 20 + 3
def numberSize : Nat := 20 + 1
def statusPosition : Nat := stampSize + numberSize + 1
def iteratorBackupNumber : Nat := 4
def iteratorBackupSize : Nat := iteratorBackupNumber * 3 * iteratorWidth + iteratorBackupNumber * 3
def limitsBackupSize : Nat := 2 * iteratorWidth + 2
def listBackupSize : Nat := limitsBackupSize
def backupSize : Nat := iteratorBackupSize + limitsBackupSize + listBackupSize + 3
def headerSize : Nat := stampSize + numberSize + backupSize + 4 * iteratorWidth + 4
def positionPosition : Nat := stampSize + numberSize + backupSize
def listPosition : Nat := positionPosition + limitsBackupSize

def calculateDataSize (size : Nat) : Nat := 4 * iteratorWidth + sizeSize + size + 8

def unDead : Nat := 0xdead
def unBeef : Nat := 0xbeef

/-- `streamoff` and `time_t` are below this, `size_t` below `sizeBound`. -/
def offBound : Nat := 2 ^ 63
def sizeBound : Nat := 2 ^ 64
def counterBound : Nat := 2 ^ 16

def bufsiz : Nat := 8192

def toInt (n : Int) : Int := n.bmod (2 ^ 32)

def toOff (n : Int) : Int := n.bmod (2 ^ 64)

/-! The text of the fields. -/

def hex (n : Nat) : Bytes := numeral 16 iteratorWidth n

def TimeStamp.text (stamp : TimeStamp) : Bytes :=
  numeral 10 epochWidth stamp.epoch ++ ' ' :: numeral 10 counterWidth stamp.counter

def TimeStamp.line (stamp : TimeStamp) : Bytes := stamp.text ++ ['\n']

def FileIterator.text (it : FileIterator) : Bytes := hex it.prev ++ ' ' :: hex it.next

def FileIterator.line (it : FileIterator) : Bytes := it.text ++ ['\n']

def FileIterator.backupLine (it : FileIterator) : Bytes := hex it.current ++ ' ' :: it.line

def numberLine (size : Nat) : Bytes := numeral 10 numberSize size ++ ['\n']

def sizeLine (size : Nat) (state : Char) : Bytes := numeral 10 sizeSize size ++ [' ', state, '\n']

/-- The patterns of the readers: `^\d+ +\d+$`, `^\s*[0-9a-fA-F]+ +[0-9a-fA-F]+`,
`^[0-9a-fA-F]+ [0-9a-fA-F]+ [0-9a-fA-F]+$` and `^[0-9]+ +(g|i)$`. -/
def stampPattern : List Run :=
  [.some (isDigitOf 10), .some (· == ' '), .some (isDigitOf 10)]

def iteratorPattern : List Run :=
  [.many FileStream.isSpace, .some (isDigitOf 16), .some (· == ' '), .some (isDigitOf 16)]

def backupPattern : List Run :=
  [.some (isDigitOf 16), .one (· == ' '), .some (isDigitOf 16), .one (· == ' '), .some (isDigitOf 16)]

def sizePattern : List Run :=
  [.some (isDigitOf 10), .some (· == ' '), .one fun c => c == 'g' || c == 'i']

/-! The text of a field has the form its reader asks for. -/

theorem not_blank {base : Nat} {rest : Bytes} (digit : ∀ c ∈ rest.head?, isDigitOf base c = true) :
    ∀ c ∈ rest.head?, (c == ' ') = false :=
  fun c member => beq_false_of_ne (FileStream.ne_of_isDigitOf (digit c member) rfl)

theorem not_digit {base : Nat} (rest : Bytes) : ∀ c ∈ (' ' :: rest).head?, isDigitOf base c = false := by
  simp [isDigitOf, digitVal]

theorem matchRuns_stamp (stamp : TimeStamp) : matchRuns stampPattern stamp.text = true := by
  have next := head_numeral (show 1 < 10 by decide) (by decide) counterWidth stamp.counter []
  rw [List.append_nil] at next
  rw [stampPattern, TimeStamp.text, matchRuns_numeral (by decide) (by decide) (not_digit _),
    matchRuns_blank (not_blank next), matchRuns_numeral_end (by decide) (by decide)]

theorem matchRuns_iterator {space : Bytes} (blank : ∀ c ∈ space, FileStream.isSpace c = true)
    (it : FileIterator) : matchRuns iteratorPattern (space ++ it.text) = true := by
  have first := head_numeral (show 1 < 16 by decide) (by decide) iteratorWidth it.prev
    (' ' :: numeral 16 iteratorWidth it.next)
  have next := head_numeral (show 1 < 16 by decide) (by decide) iteratorWidth it.next []
  rw [List.append_nil] at next
  rw [iteratorPattern, FileIterator.text, hex, hex,
    matchRuns_many blank fun c member => FileStream.isSpace_of_isDigitOf (first c member),
    matchRuns_numeral (by decide) (by decide) (not_digit _), matchRuns_blank (not_blank next),
      matchRuns_numeral_end (by decide) (by decide)]

theorem matchRuns_backup (it : FileIterator) :
    matchRuns backupPattern (hex it.current ++ ' ' :: it.text) = true := by
  rw [backupPattern, FileIterator.text, hex, hex, hex,
    matchRuns_numeral (by decide) (by decide) (not_digit _), matchRuns_one rfl,
    matchRuns_numeral (by decide) (by decide) (not_digit _), matchRuns_one rfl,
    matchRuns_numeral_end (by decide) (by decide)]

theorem matchRuns_size (size : Nat) {state : Char} (known : state = 'g' ∨ state = 'i') :
    matchRuns sizePattern (numeral 10 sizeSize size ++ [' ', state]) = true := by
  rw [sizePattern, matchRuns_numeral (by decide) (by decide) (not_digit _),
    matchRuns_blank (by rcases known with rfl | rfl <;> simp),
    matchRuns_one (by rcases known with rfl | rfl <;> rfl)]
  rfl

/-- What a `FileContainer` object keeps in memory. The clock readings a process makes are
numbered: `ticks` counts those made so far. -/
structure Cache where
  initialized : Bool
  size : Nat
  stamp : TimeStamp
  limits : FileIterator
  removed : FileIterator
  ticks : Nat
  deriving DecidableEq, Repr

abbrev Container := Store Cache

/-- What a run depends on: the clock, and how often a loop may go round before the run
counts as not returning. -/
structure Env where
  clock : Nat → Fin offBound
  fuel : Nat

abbrev Method := FileProg Env Cache IOStatus

def Container.openFile (file : Bytes) (stamp : TimeStamp) : Container :=
  ⟨⟨false, 0, stamp, ⟨0, 0, 0⟩, ⟨unDead, unBeef, 0⟩, 1⟩, .ofFile file⟩

end Wms.FileContainer
