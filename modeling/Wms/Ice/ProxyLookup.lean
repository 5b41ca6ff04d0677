import Mathlib.Algebra.Group.Nat.Defs
import Mathlib.Algebra.Ring.Int.Defs
import Mathlib.Data.List.MinMax
import Wms.Ice.CreamJob
import Wms.Ice.Database

/-! Whether the proxy of a user is taken for expired.

The event query and the status poller look for a proxy of the user in the proxy table and abort all
jobs of the user when there is none, or when the one they are given is not valid: the event query
goes by the time in the table, the status poller by the file.
-/

set_option autoImplicit false

namespace Wms.Ice.ProxyLookup

structure ProxyRow where
  userDn : String
  myproxyUrl : String
  proxyFile : String
  expTime : Int
  counter : Int
  deriving DecidableEq, Repr

structure ProxyInfo where
  file : String
  expTime : Int
  counter : Int
  deriving DecidableEq, Repr

def atoi (n : Int) : Int := n.bmod (2 ^ 32)

/-- `SELECT … FROM proxy WHERE userdn=… ORDER BY exptime DESC LIMIT 1` -/
def selected (table : List ProxyRow) (dn : String) : Option ProxyRow :=
  @List.argmax _ _ Int.instLinearOrder.toPreorder Int.decLt ProxyRow.expTime
    (table.filter fun row => row.userDn = dn)

def getProxyInfoByDN (table : List ProxyRow) (dn : String) : Option ProxyInfo :=
  (selected table dn).map fun row => ⟨row.proxyFile, atoi row.expTime, row.counter⟩

/-- A database error would be caught and leave an empty answer, but none is ever thrown. -/
def getAnyBetterProxyByDN (table : List ProxyRow) (dn : String) (codes : List Code) : Executed ProxyInfo :=
  execute ((getProxyInfoByDN table dn).getD ⟨"", 0, 0⟩) 0 codes

def proxyExpired (job : CreamJob) : CreamJob :=
  { (job.setFailureReason "Job Aborted because proxy expired").setStatus .aborted with exitCode := 0 }

def abortAll (jobs : List CreamJob) (dn : String) : List CreamJob :=
  (jobs.filter fun job => job.userDn = dn).map proxyExpired

inductive Outcome where
  | exited
  | waiting
  | skipped
  | aborted (jobs : List CreamJob)
  | authenticated (file : String)
  deriving DecidableEq, Repr

structure Situation where
  table : List ProxyRow
  jobs : List CreamJob
  dn : String
  codes : List Code
  now : Int
  notAfter : String → Option Int
  toPoll : List CreamJob

def isValidProxy (x : Situation) (file : String) : Bool :=
  match x.notAfter file with
  | none => false
  | some time => x.now + 5 < time

def eventQuery (x : Situation) : Outcome :=
  match getAnyBetterProxyByDN x.table x.dn x.codes with
  | .exited => .exited
  | .waiting => .waiting
  | .returned info =>
    if info.file = "" then .aborted (abortAll x.jobs x.dn)
    else if info.expTime < x.now then .aborted (abortAll x.jobs x.dn)
    else .authenticated info.file

def statusPoller (x : Situation) : Outcome :=
  if x.toPoll = [] then .skipped
  else match getAnyBetterProxyByDN x.table x.dn x.codes with
    | .exited => .exited
    | .waiting => .waiting
    | .returned info =>
      if info.file = "" then .aborted (abortAll x.jobs x.dn)
      else if isValidProxy x info.file then .authenticated info.file
      else .aborted (abortAll x.jobs x.dn)

/-! ### The row that decides -/

variable {table : List ProxyRow} {dn : String} {row : ProxyRow}

def Unexpired (x : Situation) : Prop := ∃ row ∈ x.table, row.userDn = x.dn ∧ x.now ≤ row.expTime

def Read (x : Situation) : Prop := ∃ info, getAnyBetterProxyByDN x.table x.dn x.codes = .returned info

theorem returned_eq {x : Situation} {info : ProxyInfo}
    (returned : getAnyBetterProxyByDN x.table x.dn x.codes = .returned info) :
    info = (getProxyInfoByDN x.table x.dn).getD ⟨"", 0, 0⟩ :=
  execute_returned returned

/-- A command aborts the jobs of the user only if the table was read and holds no
proxy of the user that lasts. -/
def AbortsRightly (x : Situation) (outcome : Outcome) : Prop :=
  ∀ jobs, outcome = .aborted jobs → Read x ∧ ¬Unexpired x

def Accepts (x : Situation) (accepts : ProxyRow → Prop) : Prop :=
  ∃ row, selected x.table x.dn = some row ∧ row.proxyFile ≠ "" ∧ accepts row

theorem abortsRightly_iff {x : Situation} {outcome : Outcome} {accepts : ProxyRow → Prop}
    (aborts : (∃ jobs, outcome = .aborted jobs) ↔ Read x ∧ ¬Accepts x accepts) :
    AbortsRightly x outcome ↔ (Read x → Unexpired x → Accepts x accepts) := by
  constructor
  · intro rightly read unexpired
    by_contra refused
    obtain ⟨jobs, aborted⟩ := aborts.mpr ⟨read, refused⟩
    exact (rightly jobs aborted).2 unexpired
  · intro accepted jobs aborted
    obtain ⟨read, refused⟩ := aborts.mp ⟨jobs, aborted⟩
    exact ⟨read, fun unexpired => refused (accepted read unexpired)⟩

theorem accepts_iff (x : Situation) (accepts : ProxyRow → Prop) (judged : ProxyInfo → Prop)
    (agree : ∀ row, judged ⟨row.proxyFile, atoi row.expTime, row.counter⟩ ↔ accepts row) :
    Accepts x accepts ↔
      ((getProxyInfoByDN x.table x.dn).getD ⟨"", 0, 0⟩).file ≠ "" ∧
        judged ((getProxyInfoByDN x.table x.dn).getD ⟨"", 0, 0⟩) := by
  unfold Accepts getProxyInfoByDN
  cases selected x.table x.dn with
  | none => simp
  | some row => simp [agree]

theorem eventQuery_aborts (x : Situation) :
    (∃ jobs, eventQuery x = .aborted jobs) ↔ Read x ∧ ¬Accepts x fun row => x.now ≤ atoi row.expTime := by
  rw [accepts_iff x _ (fun info => x.now ≤ info.expTime) fun _ => Iff.rfl]
  unfold eventQuery Read
  cases asked : getAnyBetterProxyByDN x.table x.dn x.codes with
  | exited | waiting => simp
  | returned info =>
    rw [← returned_eq asked]
    by_cases empty : info.file = "" <;> by_cases expired : info.expTime < x.now <;> simp [empty, expired]

theorem statusPoller_aborts (x : Situation) (polls : x.toPoll ≠ []) :
    (∃ jobs, statusPoller x = .aborted jobs) ↔ Read x ∧
      ¬Accepts x fun row => isValidProxy x row.proxyFile = true := by
  rw [accepts_iff x _ (fun info => isValidProxy x info.file = true) fun _ => Iff.rfl]
  unfold statusPoller Read
  rw [if_neg polls]
  cases asked : getAnyBetterProxyByDN x.table x.dn x.codes with
  | exited | waiting => simp
  | returned info =>
    rw [← returned_eq asked]
    by_cases empty : info.file = "" <;> by_cases valid : isValidProxy x info.file = true <;>
      simp [empty, valid]

/-- The jobs are aborted rightly exactly if the proxy that lasts longest, where
one lasts at all, has a file and an expiration time in range for the event query,
and a valid file for the status poller. -/
theorem aborted_rightly_iff (x : Situation) :
    (AbortsRightly x (eventQuery x) ↔ (Read x → Unexpired x →
      Accepts x fun row => x.now ≤ atoi row.expTime)) ∧
      (AbortsRightly x (statusPoller x) ↔
        (x.toPoll ≠ [] → Read x → Unexpired x → Accepts x fun row => isValidProxy x row.proxyFile =
          true)) := by
  refine ⟨abortsRightly_iff (eventQuery_aborts x), ?_⟩
  by_cases idle : x.toPoll = []
  · have skipped : statusPoller x = .skipped := if_pos idle
    refine iff_of_true (fun jobs aborted => ?_) fun polls => absurd idle polls
    rw [skipped] at aborted
    cases aborted
  · rw [abortsRightly_iff (statusPoller_aborts x idle)]
    simp [idle]

def lasting (expTime : Int) : Situation where
  table := [⟨"/CN=user", "myproxy", "/var/ice/proxy", expTime, 1⟩]
  jobs := []
  dn := "/CN=user"
  codes := [.ok]
  now := 100
  notAfter _ := none
  toPoll := [⟨"", "", "", "", "", "", "", .idle, .idle, 0, "", "", false, false, "", 0, "", ""⟩]

/-- The status poller goes by the file alone, and the event query cannot read a time beyond 31 bits.
-/
theorem aborted_unexpired : ¬AbortsRightly (lasting 200) (statusPoller (lasting 200)) ∧
      ¬AbortsRightly (lasting (2 ^ 31)) (eventQuery (lasting (2 ^ 31))) := by
  refine ⟨fun rightly => ?_, fun rightly => ?_⟩
  · exact (rightly [] rfl).2 ⟨_, List.mem_cons_self .., rfl, by decide⟩
  · exact (rightly [] rfl).2 ⟨_, List.mem_cons_self .., rfl, by decide⟩

end Wms.Ice.ProxyLookup
