import Mathlib.Data.List.Perm.Subperm

/-! Which L&B servers a job or a dag is registered with (`regist`).

One loop serves a request that names its server and one that leaves the choice to the configuration.
After each attempt the server is searched among the candidates and erased; the search may fail, and
the erasure is then undefined.
-/

set_option autoImplicit false

namespace Wms.Interface.LbServers

open List

abbrev Server := String × Int

inductive Ending where
  | registered (server : Server)
  | failed (message : String)
  /-- An exception of the attempt itself. -/
  | raised
  | undefined
  deriving DecidableEq, Repr

structure Tried where
  servers : List Server
  ending : Ending
  deriving DecidableEq, Repr

/-- `selectLBServer`: the distribution has the range of the indices; there is
none in an empty vector. -/
def selectLbServer (draw : Nat) (lbaddresses : List Server) : Option Server :=
  lbaddresses[draw % lbaddresses.length]?

/-- The n-th round draws a number and attempts to register; an attempt without a
result has raised an exception. -/
def registLoop (message : String) (user : Option Server) (draw : Nat → Nat)
    (result : Nat → Option Bool) (n : Nat) (lbaddresses : List Server) : Tried :=
  match user.or (selectLbServer (draw n) lbaddresses) with
  | none => ⟨[], .undefined⟩
  | some server =>
    match result n with
    | none => ⟨[server], .raised⟩
    | some ret =>
      if server ∈ lbaddresses then
        if user.isNone && !ret && 0 < (lbaddresses.erase server).length then
          let rest := registLoop message user draw result (n + 1) (lbaddresses.erase server)
          { rest with servers := server :: rest.servers }
        else ⟨[server], if ret then .registered server else .failed message⟩
      else ⟨[server], .undefined⟩
termination_by lbaddresses.length
decreasing_by
  rename_i member _
  rw [length_erase_of_mem member]
  exact Nat.sub_one_lt_of_lt (length_pos_of_mem member)

inductive Kind where
  | job
  | dag

def Kind.message : Kind → String
  | .job => "job registration failed"
  | .dag => "DAG job registration failed"

def regist (kind : Kind) (user : Option Server) (draw : Nat → Nat) (result : Nat → Option Bool)
    (lbaddresses : List Server) : Tried :=
  registLoop kind.message user draw result 0 lbaddresses

/-- The attempts of a request that leaves the choice to the configuration: only the last one may not
have failed, and if it has, every server has been tried. -/
structure Orderly (servers : List Server) (result : Nat → Option Bool) (n : Nat)
    (tried : Tried) : Prop where
  defined : tried.ending ≠ .undefined
  among : tried.servers.Subperm servers
  failed : ∀ i, i + 1 < tried.servers.length → result (n + i) = some false
  all : (∀ i < tried.servers.length, result (n + i) = some false) → tried.servers.Perm servers

variable {message : String} {draw : Nat → Nat} {result : Nat → Option Bool} {servers : List Server}

theorem selectLbServer_mem (n : Nat) (nonempty : servers ≠ []) : ∃ server ∈ servers,
    selectLbServer n servers = .some server :=
  ⟨_, getElem_mem _, getElem?_eq_getElem (Nat.mod_lt n (length_pos_iff.mpr nonempty))⟩

theorem registLoop_orderly (n : Nat) (nonempty : servers ≠ []) :
    Orderly servers result n (registLoop message none draw result n servers) := by
  induction h : servers.length using Nat.strongRecOn generalizing servers n with
  | _ length ih =>
    obtain ⟨server, member, drawn⟩ := selectLbServer_mem (draw n) nonempty
    have single : [server].Subperm servers := singleton_subperm_iff.mpr member
    have parts : servers.Perm (server :: servers.erase server) := perm_cons_erase member
    rw [registLoop, Option.none_or, drawn]
    dsimp only
    split
    · rename_i raised
      exact ⟨by simp, single, by simp, fun all => by simpa [raised] using all 0⟩
    · rename_i ret told
      rw [if_pos member]
      split
      · rename_i again
        simp only [Option.isNone_none, Bool.true_and, Bool.and_eq_true, Bool.not_eq_true',
          decide_eq_true_eq] at again
        have rest := ih (servers.erase server).length (by rw [← h, parts.length_eq]; simp) (n + 1)
          (length_pos_iff.mp again.2) rfl
        refine ⟨rest.defined, ((subperm_cons server).mpr rest.among).trans parts.symm.subperm,
          fun i later => ?_,
          fun all => ((rest.all fun i later => ?_).cons server).trans parts.symm⟩
        · cases i with
          | zero => rw [Nat.add_zero, told, again.1]
          | succ i => simpa [Nat.add_assoc, Nat.add_comm 1] using rest.failed i (by simpa using later)
        · simpa [Nat.add_assoc, Nat.add_comm 1] using all (i + 1) (by simpa using later)
      · rename_i stops
        refine ⟨by split <;> simp, single, by simp, fun all => ?_⟩
        obtain rfl : ret = false := by simpa [told] using all 0
        have empty : servers.erase server = [] := by simpa using stops
        rw [empty] at parts
        exact parts.symm

/-- Whatever is drawn and whatever the attempts result in, nothing undefined happens; a named server
is the only one tried, and otherwise none is tried twice and the attempts are orderly. -/
def Sound (kind : Kind) (user : Option Server) (servers : List Server) : Prop := ∀ draw result,
  let tried := regist kind user draw result servers
  tried.ending ≠ .undefined ∧ match user with
    | some server => tried.servers = [server]
    | none => tried.servers.Nodup ∧ Orderly servers result 0 tried

variable {kind : Kind}

theorem sound_named_iff {server : Server} : Sound kind (some server) servers ↔ server ∈ servers := by
  constructor
  · intro sound
    by_contra foreign
    exact (sound (fun _ => 0) fun _ => some true).1 (by rw [regist, registLoop]; simp [foreign])
  · intro member draw result
    rw [regist, registLoop]
    cases result 0 with
    | none => simp
    | some ret => cases ret <;> simp [member]

theorem sound_chosen_iff : Sound kind none servers ↔ servers ≠ [] ∧ servers.Nodup := by
  constructor
  · intro sound
    obtain ⟨defined, nodup, orderly⟩ := sound (fun _ => 0) fun _ => some false
    have all := orderly.all fun _ _ => rfl
    refine ⟨?_, all.nodup_iff.mp nodup⟩
    rintro rfl
    exact defined (by rw [regist, registLoop]; simp [selectLbServer])
  · rintro ⟨nonempty, nodup⟩ draw result
    have orderly : Orderly servers result 0 (regist kind none draw result servers) :=
      registLoop_orderly 0 nonempty
    obtain ⟨_, perm, sublist⟩ := orderly.among
    exact ⟨orderly.defined, perm.nodup_iff.mp (sublist.nodup nodup), orderly⟩

/-- The registration of a request that names its server is sound if and only if that one is
configured, and of one that does not if and only if there are servers and no two are the same. -/
theorem regist_sound_iff (kind : Kind) (user : Option Server) (servers : List Server) :
    Sound kind user servers ↔
    user.elim (servers ≠ [] ∧ servers.Nodup) (· ∈ servers) := by
  cases user with
  | some server => exact sound_named_iff
  | none => exact sound_chosen_iff

/-- A server that is named and not configured, and one that is configured twice. -/
theorem foreign_server_undefined : ¬Sound .job (some ("lb.other.org", 9000)) [("lb.here.org", 9000)] ∧
    ¬Sound .dag none [("lb.here.org", 9000), ("lb.here.org", 9000)] := by
  rw [sound_named_iff, sound_chosen_iff]
  decide

end Wms.Interface.LbServers
