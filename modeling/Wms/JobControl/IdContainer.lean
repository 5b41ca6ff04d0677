import Mathlib.Data.String.Basic
import Wms.Lib.Index
import Wms.Lib.Transition

/-! The correspondence between job identifiers and Condor clusters (`id_container.cpp`).

The records of a file list are held in memory as a list of pointers, and two sorted vectors of
iterators into that list give access by either identifier. The file list is taken as a list of
records reached by their positions, each of its operations being atomic.
-/

set_option autoImplicit false

namespace Wms.JobControl

open Lib

section

open SortedVector

def undefinedStatus : Int := -2

structure Record where
  condorId : Option String
  edgId : Option String
  sequenceCode : Option String
  condorStatus : Option Int
  lastStatus : Option Int
  retryCount : Option Int
  deriving DecidableEq, Repr

structure PointerId where
  position : Nat
  condorId : String
  edgId : String
  sequenceCode : String
  condorStatus : Int
  lastStatus : Int
  retryCount : Int
  deriving DecidableEq, Repr

namespace PointerId

/-- An attribute that is missing leaves the member as it is. -/
def evaluate (p : PointerId) (position : Nat) (r : Record) : PointerId where
  position := position
  condorId := r.condorId.getD p.condorId
  edgId := r.edgId.getD p.edgId
  sequenceCode := r.sequenceCode.getD p.sequenceCode
  condorStatus := r.condorStatus.getD p.condorStatus
  lastStatus := r.lastStatus.getD p.lastStatus
  retryCount := r.retryCount.getD p.retryCount

def ofIds (position : Nat) (condorId edgId seqcode : String) : PointerId :=
  ⟨position, condorId, edgId, seqcode, 0, undefinedStatus, 0⟩

def ofRecord (position : Nat) (r : Record) : PointerId := (ofIds position "" "" "").evaluate position r

def reset (p : PointerId) (position : Nat) (r : Record) : PointerId := p.evaluate position r

end PointerId

/-- The vectors hold copies of the identifiers and iterators into the list of pointers. -/
structure IdContainer where
  inserted : Nat
  container : Arena Record
  pointers : Arena PointerId
  edgs : List (String × Nat)
  condors : List (String × Nat)
  last : Nat

namespace IdContainer

variable (c : IdContainer)

def takeRecord (c : IdContainer) (e : Nat × Record) : IdContainer :=
  let p := PointerId.ofRecord e.1 e.2
  { c with
    pointers := c.pointers.pushBack p
    condors := c.condors ++ [(p.condorId, c.pointers.next)]
    edgs := c.edgs ++ [(p.edgId, c.pointers.next)] }

def onConstruct : IdContainer :=
  let filled := c.container.entries.foldl takeRecord c
  { filled with condors := sort filled.condors, edgs := sort filled.edgs }

def construct (file : Arena Record) : IdContainer :=
  let c : IdContainer := ⟨0, file, .empty, [], [], 0⟩
  if file.entries.isEmpty then c else c.onConstruct

/-! ### Looking up -/

def positionByEdgId (edgId : String) : Option Nat := find edgId c.edgs

def positionByCondorId (condorId : String) : Option Nat := find condorId c.condors

def byEdgId (edgId : String) : Option PointerId := (c.positionByEdgId edgId).bind c.pointers.get?

def byCondorId (condorId : String) : Option PointerId :=
  (c.positionByCondorId condorId).bind c.pointers.get?

/-- `condor_id`: empty for an identifier that is not there. -/
def condorId (edgId : String) : String := (c.byEdgId edgId).elim "" PointerId.condorId

def edgId (condorId : String) : String := (c.byCondorId condorId).elim "" PointerId.edgId

/-! ### Changing -/

def newRecord (edgId condorId sequenceCode : String) (status : Int) : Record :=
  ⟨some condorId, some edgId, some sequenceCode, some status, none, none⟩

/-- Nothing where the source reports an error. -/
def insert (edgId condorId sequenceCode : String) (status : Int) : Option IdContainer :=
  if (c.positionByEdgId edgId).isSome || (c.positionByCondorId condorId).isSome then none
  else
    some {
      inserted := c.inserted + 1
      container := c.container.pushBack (newRecord edgId condorId sequenceCode status)
      pointers := c.pointers.pushBack (.ofIds c.container.next condorId edgId sequenceCode)
      condors := SortedVector.insert condorId c.pointers.next c.condors
      edgs := SortedVector.insert edgId c.pointers.next c.edgs
      last := c.pointers.next }

/-- The record under a pointer is erased, and a changed copy is appended. Nothing stands for an
iterator that is not valid. -/
def replace (position : Nat) (change : PointerId → Record → Record) : Option IdContainer :=
  match c.pointers.get? position with
  | none => none
  | some p =>
    match c.container.get? p.position with
    | none => none
    | some r =>
      let erased := c.container.erase p.position
      some { c with
        container := erased.pushBack (change p r)
        pointers := c.pointers.set position (p.reset erased.next (change p r)) }

def updatedRecord (seqcode : String) (status laststatus : Int) (r : Record) : Record :=
  { r with
    sequenceCode := some seqcode
    condorStatus := some status
    lastStatus := if laststatus = undefinedStatus then r.lastStatus else some laststatus }

def updatePointer (position : Nat) (seqcode : String) (status laststatus : Int) : Option IdContainer :=
  c.replace position fun _ => updatedRecord seqcode status laststatus

def incrementPointerRetryCount (position : Nat) : Option IdContainer :=
  c.replace position fun p r => { r with retryCount := some (p.retryCount + 1) }

/-- The entries at two lower bounds are removed with the pointer of the first. -/
def removePointers (edgId condorId : String) (position : Nat) (p : PointerId) : IdContainer :=
  { c with
    container := c.container.erase p.position
    pointers := c.pointers.erase position
    edgs := erase edgId c.edgs
    condors := erase condorId c.condors }

def removeByEdgId (edgId : String) : Option IdContainer :=
  match c.positionByEdgId edgId with
  | none => none
  | some position =>
    match c.pointers.get? position with
    | none => none
    | some p =>
      if (c.positionByCondorId p.condorId).isSome then
        some (c.removePointers edgId p.condorId position p) else none

def removeByCondorId (condorId : String) : Option IdContainer :=
  match (c.positionByCondorId condorId).bind c.pointers.get? with
  | none => none
  | some p =>
    match c.positionByEdgId p.edgId with
    | none => none
    | some position =>
      match c.pointers.get? position with
      | none => none
      | some q => some (c.removePointers p.edgId condorId position q)

def rebuild (file : Arena Record) : IdContainer :=
  onConstruct { c with container := file, pointers := c.pointers.clear, edgs := [], condors := [] }

/-- Without foreign changes the file holds what it held. -/
def refresh (modified : Bool) : IdContainer := if modified then c.rebuild c.container else c

def compact : IdContainer := { c.rebuild c.container.renumber with inserted := 0 }

end IdContainer

end

end Wms.JobControl
