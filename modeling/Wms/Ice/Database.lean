import Mathlib.Data.List.Basic

/-! How ICE executes a statement on its database.

`do_query` executes it again after an error and gives up after the fifth one,
which ends the process; a locked database is reported to `Transaction::execute`,
which begins anew, for as long as it takes.
-/

set_option autoImplicit false

namespace Wms.Ice

inductive Code where
  | ok
  | busy
  | locked
  | error
  deriving DecidableEq, Repr

inductive Verdict where
  | returns
  | again (retry : Nat)
  | exits
  deriving DecidableEq, Repr

/-- The return code of an execution after so many errors since the database was last locked. -/
def judge (retry : Nat) : Code → Verdict
  | .ok => .returns
  | .busy | .locked => .again 0
  | .error => if 4 < retry + 1 then .exits else .again (retry + 1)

inductive Executed (ρ : Type) where
  | returned (answer : ρ)
  | exited
  | waiting
  deriving DecidableEq, Repr

/-- `Transaction::execute` of a statement with this answer, over the return codes it is given. -/
def execute {ρ : Type} (answer : ρ) (retry : Nat) : List Code → Executed ρ
  | [] => .waiting
  | code :: rest =>
    match judge retry code with
    | .returns => .returned answer
    | .again retry => execute answer retry rest
    | .exits => .exited

theorem execute_returned {ρ : Type} {answer given : ρ} {retry : Nat} {codes : List Code}
    (returned : execute answer retry codes = .returned given) : given = answer := by
  induction codes generalizing retry with
  | nil => cases returned
  | cons code rest ih =>
    unfold execute at returned
    split at returned
    · cases returned
      rfl
    · exact ih returned
    · cases returned

end Wms.Ice
