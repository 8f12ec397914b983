import EthExecutive.State.Rollback

/-! # Runs of the host interface

A VM run changes the state only through the host interface (`ExtVM`, not
under src/), which calls the logged mutators of `State.h`; a `CALL` or
`CREATE` opens a nested frame, which takes its own savepoint and, when it
fails, rolls back to it. `HostRun` records such a run: mutations and nested
frames, in order, each frame with its own run and whether it was reverted.
A refused debit (`NotEnoughCash`) changes nothing, as the spec requires of
`transferBalance`.
-/

namespace EthExecutive

open State

/-- A logged mutator of `State.h` with its arguments. -/
inductive Mutation
  | addBalance (a : Address) (v : Word)
  | subBalance (a : Address) (v : Word)
  | transferBalance (f t : Address) (v : Word)
  | incNonce (a : Address)
  | setStorage (a : Address) (k v : Word)
  | createContract (a : Address)
  | setNewCode (a : Address) (c : Bytes)
  deriving DecidableEq, Repr

namespace Mutation

/-- The state after the mutator; a refused debit leaves it as it was. -/
def apply : Mutation → State → State
  | addBalance a v, s => s.addBalance a v
  | subBalance a v, s => match s.subBalance a v with
      | .ok t => t
      | .error _ => s
  | transferBalance f t v, s => match s.transferBalance f t v with
      | .ok u => u
      | .error _ => s
  | incNonce a, s => s.incNonce a
  | setStorage a k v, s => s.setStorage a k v
  | createContract a, s => s.createContract a
  | setNewCode a c, s => s.setNewCode a c

theorem rollsBack (m : Mutation) (s : State) : RollsBack (m.apply s) s := by
  cases m with
  | addBalance => exact rollsBack_addBalance
  | subBalance a v =>
      simp only [apply]
      split
      · next h => exact rollsBack_subBalance h
      · exact .refl
  | transferBalance f t v =>
      simp only [apply]
      split
      · next h => exact rollsBack_transferBalance h
      · exact .refl
  | incNonce => exact rollsBack_incNonce
  | setStorage => exact rollsBack_setStorage
  | createContract => exact rollsBack_createContract
  | setNewCode => exact rollsBack_setNewCode

end Mutation

/-- What the host interface does to the state during one VM run: mutations
and nested frames, in order. A nested frame runs `body` from its own
savepoint and rolls back to it when `reverted`. -/
inductive HostRun
  | done
  | mutate (m : Mutation) (rest : HostRun)
  | frame (body : HostRun) (reverted : Bool) (rest : HostRun)
  deriving DecidableEq, Repr

namespace HostRun

/-- The state after the run. -/
def apply : HostRun → State → State
  | done, s => s
  | mutate m rest, s => rest.apply (m.apply s)
  | frame body reverted rest, s =>
      rest.apply (if reverted then (body.apply s).rollback s.savepoint else body.apply s)

/-- The run `r` followed by `r'`, at the same depth. -/
def append : HostRun → HostRun → HostRun
  | done, r' => r'
  | mutate m rest, r' => mutate m (rest.append r')
  | frame body reverted rest, r' => frame body reverted (rest.append r')

@[simp] theorem apply_append (r r' : HostRun) (s : State) :
    (r.append r').apply s = r'.apply (r.apply s) := by
  induction r generalizing s with
  | done => rfl
  | mutate m rest ih => exact ih _
  | frame body reverted rest _ ih => exact ih _

/-- A run rolls back to where it started. Nested frames need no condition: a
reverted one is already rolled back to a savepoint at or above the start. -/
theorem rollsBack (r : HostRun) (s : State) : RollsBack (r.apply s) s := by
  induction r generalizing s with
  | done => exact .refl
  | mutate m rest ih => exact (ih _).trans (m.rollsBack s)
  | frame body reverted rest ihb ihr =>
      have hb := ihb s
      have hframe : RollsBack (if reverted then (body.apply s).rollback s.savepoint
          else body.apply s) s := by
        split
        · exact ⟨(savepoint_rollback hb.1).ge, by rw [rollback_rollback le_rfl, hb.2]⟩
        · exact hb
      exact (ihr _).trans hframe

end HostRun

namespace State

end State

end EthExecutive
