import EthExecutive.Executive.Conservation

/-! # Nested frames

A `CALL` or `CREATE` of the VM re-enters the executive through the host
interface (`ExtVM`, not under src/; modelled from the spec, §4.5): a fresh
executive one level deeper runs `call()` or `create()`, then `go()`, and its
sub-state is merged into the caller's. The state such a frame leaves is one
`HostRun.frame` applied to the caller's state (for a creation, after the
creator's nonce increment, which no revert undoes), so a rollback of the
caller undoes it and it keeps the ether; a failed frame hands back no gas, no
sub-state and no address, and no frame hands back more gas than it was given:
the executive keeps the contract the model assumes of the VM.
-/

namespace EthExecutive

@[simp] theorem HostRun.movesEtherByTransfer_append (r r' : HostRun) :
    (r.append r').movesEtherByTransfer = (r.movesEtherByTransfer && r'.movesEtherByTransfer) := by
  induction r with
  | done => rfl
  | mutate m rest ih => simp [HostRun.append, HostRun.movesEtherByTransfer, ih, Bool.and_assoc]
  | frame body reverted rest _ ih =>
      simp [HostRun.append, HostRun.movesEtherByTransfer, ih, Bool.and_assoc]

theorem toTransactionException_ne_none (ex : VMException) : toTransactionException ex ≠ .none := by
  cases ex <;> decide

namespace Executive

/-! ## What go() does inside a frame -/

/-- The code the deposit of a creation leaves at the new address when the VM
returned `out` with `g` gas: the output when the deposit is paid, empty code
when it is not and a failed deposit is not exceptional, and none when `go()`
throws instead. -/
def depositCode (sched : EVMSchedule) (out : Bytes) (g : Word) : Option Bytes :=
  if sched.maxCodeSize.toNat < out.length then none
  else if depositCost sched out ≤ g.toNat then some out
  else if sched.exceptionalFailedCodeDeposit then none
  else some []

/-- Whether `go()` reverts a frame whose VM run ended with `result`. -/
def reverts (sched : EVMSchedule) (isCreation : Bool) : Except VMException (Bytes × Word) → Bool
  | .error _ => true
  | .ok (out, g) => isCreation && (depositCode sched out g).isNone

/-- What `go()` does inside a frame at `addr` whose VM reported `r`: the VM's
run, then, for a creation, the code its deposit installs. -/
def frameRun (sched : EVMSchedule) (addr : Address) (isCreation : Bool) (r : VMRun) : HostRun :=
  match r.result, isCreation with
  | .ok (out, g), true => r.run.append <|
      match depositCode sched out g with
      | some c => .mutate (.setNewCode addr c) .done
      | none => .done
  | _, _ => r.run

section Go

variable {se : SealEngine} {vm : VM} {e : Executive} {x : ExtVM}

/-- A frame that `go()` reverts is rolled back to its savepoint, with no gas,
no new address, an empty sub-state and an exception recorded. -/
theorem go_of_reverts (hx : e.ext = some x)
    (h : reverts (se.evmSchedule e.envInfo) e.isCreation (vm.exec x e.gas e.s).result) :
    (go se vm e).s = ((frameRun (se.evmSchedule e.envInfo) x.myAddress e.isCreation
        (vm.exec x e.gas e.s)).apply e.s).rollback e.savepoint ∧
      (go se vm e).gas = 0 ∧ (go se vm e).newAddress = 0 ∧
      (go se vm e).ext = some { x with sub := {} } ∧ (go se vm e).excepted ≠ .none := by
  cases hr : (vm.exec x e.gas e.s).result with
  | error ex =>
      simp [go, hx, hr, frameRun, vmException, revert, toTransactionException_ne_none]
  | ok res =>
      obtain ⟨out, g⟩ := res
      cases hc : e.isCreation
      · simp [reverts, hr, hc] at h
      · rw [go_of_creation hx hc hr]
        simp only [reverts, hr, hc, Bool.true_and, Option.isNone_iff_eq_none] at h
        simp only [frameRun, hr, h, depositCode] at h ⊢
        unfold codeDeposit
        split_ifs at h ⊢ <;> simp_all [vmException, revert, toTransactionException, HostRun.apply]

/-- A frame that `go()` does not revert ends with what the VM's run and, for a
creation, the deposit left, and the VM's sub-state. -/
theorem go_of_not_reverts (hx : e.ext = some x)
    (h : reverts (se.evmSchedule e.envInfo) e.isCreation (vm.exec x e.gas e.s).result = false) :
    (go se vm e).s = (frameRun (se.evmSchedule e.envInfo) x.myAddress e.isCreation
        (vm.exec x e.gas e.s)).apply e.s ∧
      (go se vm e).ext = some { x with sub := (vm.exec x e.gas e.s).sub } ∧
      (go se vm e).newAddress = e.newAddress ∧ (go se vm e).excepted = e.excepted := by
  cases hr : (vm.exec x e.gas e.s).result with
  | error ex => simp [reverts, hr] at h
  | ok res =>
      obtain ⟨out, g⟩ := res
      cases hc : e.isCreation
      · simp [go, hx, hr, hc, frameRun]
      · rw [go_of_creation hx hc hr]
        simp only [reverts, hr, hc, Bool.true_and, Option.isNone_eq_false_iff] at h
        simp only [frameRun, hr, depositCode] at h ⊢
        unfold codeDeposit
        split_ifs at h ⊢ <;> simp_all [installCode, HostRun.apply, Mutation.apply]

end Go

/-! ## Nested frames -/

/-- What a nested frame gives back to the VM that opened it: the state, the
caller's sub-state, the gas left, the output, whether it succeeded
(`!excepted()`), and the address it created. -/
structure FrameResult where
  s : State
  sub : SubState
  gas : Word
  output : Bytes
  success : Bool
  newAddress : Address

/-- What a nested executive gives back, its sub-state merged into the
caller's by `accrueSubState`. -/
def frameResult (e : Executive) (sub : SubState) : FrameResult :=
  ⟨e.s, e.accrueSubState sub, e.gas, e.output, e.excepted == .none, e.newAddress⟩

section Reentry

variable (se : SealEngine) (dc : DevCore) (vm : VM)

/-- The end of a nested frame: `go()` when `call()` or `create()` left a VM
frame, then the frame's result; a throw of `call()` or `create()` propagates. -/
def returnFrame (sub : SubState) : Result Bool → Except TransactionException FrameResult
  | .ok done e => .ok (frameResult (if done then e else go se vm e) sub)
  | .error x _ => .error x

/-- `ExtVM::call`: a fresh executive one level deeper runs the call. -/
def extCall (env : EnvInfo) (depth : Nat) (p : CallParameters) (gasPrice : Word)
    (origin : Address) (s : State) (sub : SubState) : Except TransactionException FrameResult :=
  returnFrame se vm sub (call se dc p gasPrice origin (fresh s env (depth + 1)))

/-- `ExtVM::create`: a fresh executive one level deeper runs the creation. -/
def extCreate (env : EnvInfo) (depth : Nat) (sender : Address) (endowment gasPrice gas : Word)
    (init : Bytes) (origin : Address) (s : State) (sub : SubState) :
    Except TransactionException FrameResult :=
  returnFrame se vm sub
    (create se dc sender endowment gasPrice gas init origin (fresh s env (depth + 1)))

/-- The VM's run of a callee with code in a nested call: the frame `call()`
gives it, from the state the value's transfer left. -/
def calleeRun (depth : Nat) (p : CallParameters) (gasPrice : Word) (origin : Address)
    (s : State) : VMRun :=
  vm.exec ⟨p.receiveAddress, p.senderAddress, origin, p.apparentValue, gasPrice, p.data,
      s.code p.codeAddress, dc.sha3 (s.code p.codeAddress), depth + 1, {}⟩ p.gas
    ((Mutation.transferBalance p.senderAddress p.receiveAddress p.valueTransfer).apply s)

/-- The frame of the host model a nested call is: the touch of a precompile
whose base cost is not met, or the value's transfer, followed, when the
callee has code, by what `go()` runs from the state the transfer left; the
frame is reverted when `go()` reverts the callee. -/
def callRun (env : EnvInfo) (depth : Nat) (p : CallParameters) (gasPrice : Word)
    (origin : Address) (s : State) : HostRun :=
  let transfer := Mutation.transferBalance p.senderAddress p.receiveAddress p.valueTransfer
  if se.isPrecompiled p.codeAddress env.number then
    if p.gas.toNat < se.costOfPrecompiled p.codeAddress p.data env.number then
      .frame (if se.eip158ForkBlock ≤ env.number then .mutate (.addBalance p.codeAddress 0) .done
        else .done) false .done
    else .frame (.mutate transfer .done) false .done
  else if s.addressHasCode p.codeAddress then
    let r := calleeRun dc vm depth p gasPrice origin s
    .frame (.mutate transfer (frameRun (se.evmSchedule env) p.receiveAddress false r))
      (reverts (se.evmSchedule env) false r.result) .done
  else .frame (.mutate transfer .done) false .done

/-- Whether a nested call fails (`excepted()` set): a precompile whose base
cost is not met or whose run fails, or a callee whose VM throws. -/
def callFails (env : EnvInfo) (depth : Nat) (p : CallParameters) (gasPrice : Word)
    (origin : Address) (s : State) : Bool :=
  if se.isPrecompiled p.codeAddress env.number then
    decide (p.gas.toNat < se.costOfPrecompiled p.codeAddress p.data env.number) ||
      !(se.executePrecompiled p.codeAddress p.data env.number).1
  else if s.addressHasCode p.codeAddress then
    reverts (se.evmSchedule env) false (calleeRun dc vm depth p gasPrice origin s).result
  else false

/-- The VM's run of the init code in a nested creation, on the state after the
creator's nonce increment, the endowment's transfer and, past EIP-158, the new
account's nonce increment. -/
def initRun (env : EnvInfo) (depth : Nat) (sender : Address) (endowment gasPrice gas : Word)
    (init : Bytes) (origin : Address) (s : State) : VMRun :=
  let a := right160 (dc.sha3 (dc.rlpList sender (s.getNonce sender)))
  let bump : HostRun :=
    if se.eip158ForkBlock ≤ env.number then .mutate (.incNonce a) .done else .done
  vm.exec ⟨a, sender, origin, endowment, gasPrice, [], init, dc.sha3 init, depth + 1, {}⟩ gas
    (bump.apply ((Mutation.transferBalance sender a endowment).apply (s.incNonce sender)))

/-- The host run a nested creation is: the creator's nonce increment, then one
frame holding the endowment's transfer to the new address, that account's
nonce increment after the EIP-158 fork, and what `go()` runs for the init
code, or, with no init code, the emptying of code already there; the frame is
reverted when `go()` reverts the init frame. -/
def createRun (env : EnvInfo) (depth : Nat) (sender : Address) (endowment gasPrice gas : Word)
    (init : Bytes) (origin : Address) (s : State) : HostRun :=
  let a := right160 (dc.sha3 (dc.rlpList sender (s.getNonce sender)))
  let transfer := Mutation.transferBalance sender a endowment
  let bump : HostRun :=
    if se.eip158ForkBlock ≤ env.number then .mutate (.incNonce a) .done else .done
  let s₁ := bump.apply (transfer.apply (s.incNonce sender))
  let r := initRun se dc vm env depth sender endowment gasPrice gas init origin s
  let body : HostRun :=
    if !init.isEmpty then frameRun (se.evmSchedule env) a true r
    else if s₁.addressHasCode a then .mutate (.setNewCode a []) .done
    else .done
  .mutate (.incNonce sender) <|
    .frame (.mutate transfer (bump.append body))
      (!init.isEmpty && reverts (se.evmSchedule env) true r.result) .done

/-- Whether a nested creation fails: its init code's VM throws, or `go()`
refuses the deposit. -/
def createFails (env : EnvInfo) (depth : Nat) (sender : Address) (endowment gasPrice gas : Word)
    (init : Bytes) (origin : Address) (s : State) : Bool :=
  !init.isEmpty && reverts (se.evmSchedule env) true
    (initRun se dc vm env depth sender endowment gasPrice gas init origin s).result

end Reentry

/-! ## What a nested frame hands back -/

section Spec

variable {se : SealEngine} {dc : DevCore} {vm : VM} {env : EnvInfo} {depth : Nat} {gp : Word}
  {o : Address} {p : CallParameters} {s s₀ : State} {sub : SubState} {out : FrameResult}
  {e : Executive} {x : ExtVM}

/-- The tail of `call()` returned: the value was transferred, and the frame
ends with `go()`, which leaves a frame with no VM run as it is. -/
theorem returnFrame_callTransfer (h : returnFrame se vm sub (callTransfer p e) = .ok out) :
    ∃ s', e.s.transferBalance p.senderAddress p.receiveAddress p.valueTransfer = .ok s' ∧
      out = frameResult (go se vm { e with
        deleteAddresses := if e.s.addressInUse p.receiveAddress then e.deleteAddresses
          else insert p.receiveAddress e.deleteAddresses
        s := s' }) sub := by
  unfold callTransfer at h
  cases ht : e.s.transferBalance p.senderAddress p.receiveAddress p.valueTransfer with
  | error x => simp [ht, returnFrame] at h
  | ok s' =>
      simp only [ht, returnFrame, Except.ok.injEq] at h
      refine ⟨s', rfl, h.symm.trans ?_⟩
      cases hx : e.ext <;> simp [hx, go_of_ext_none]

/-- A nested executive with a VM frame, entered from `s₀` through the
mutations `pre` and holding no exception: what `go()` leaves is one frame of
the host model holding `pre` and what `go()` runs, reverted when `go()`
reverts it. It hands back at most the gas it held, fails exactly when `go()`
reverts it, and then hands back no gas, no sub-state and no address. -/
theorem frameResult_go (pre : HostRun) (s₀ : State) (hx : e.ext = some x) (hexc : e.excepted = .none)
    (hs : pre.apply s₀ = e.s) (hsp : e.savepoint = s₀.savepoint) :
    (frameResult (go se vm e) sub).s =
        (HostRun.frame (pre.append (frameRun (se.evmSchedule e.envInfo) x.myAddress e.isCreation
            (vm.exec x e.gas (pre.apply s₀))))
          (reverts (se.evmSchedule e.envInfo) e.isCreation (vm.exec x e.gas (pre.apply s₀)).result)
          .done).apply s₀ ∧
      (frameResult (go se vm e) sub).gas.toNat ≤ e.gas.toNat ∧
      (frameResult (go se vm e) sub).success =
        !reverts (se.evmSchedule e.envInfo) e.isCreation (vm.exec x e.gas (pre.apply s₀)).result ∧
      ((frameResult (go se vm e) sub).success = false →
        (frameResult (go se vm e) sub).gas = 0 ∧ (frameResult (go se vm e) sub).sub = sub ∧
        (frameResult (go se vm e) sub).newAddress = 0) := by
  rw [hs]
  refine ⟨?_, gas_go_le se vm e, ?_, fun hf => ?_⟩ <;>
    cases hrv : reverts (se.evmSchedule e.envInfo) e.isCreation (vm.exec x e.gas e.s).result
  · simp [HostRun.apply, frameResult, (go_of_not_reverts hx hrv).1, hs]
  · simp [HostRun.apply, frameResult, (go_of_reverts hx hrv).1, hs, hsp]
  · simp [frameResult, (go_of_not_reverts hx hrv).2.2.2, hexc]
  · simp [frameResult, (go_of_reverts hx hrv).2.2.2.2]
  · simp [frameResult, (go_of_not_reverts hx hrv).2.2.2, hexc] at hf
  · obtain ⟨-, hg, hn, hext, -⟩ := go_of_reverts hx hrv
    simp [frameResult, hg, hn, hext, accrueSubState, SubState.merge]

/-- A nested call that returns leaves the state as `callRun` does, hands back
at most the call's gas, fails exactly as `callFails` says, and when it fails,
hands back no gas, no sub-state and no address. -/
theorem extCall_spec (h : extCall se dc vm env depth p gp o s sub = .ok out) :
    out.s = (callRun se dc vm env depth p gp o s).apply s ∧ out.gas.toNat ≤ p.gas.toNat ∧
      out.success = !callFails se dc vm env depth p gp o s ∧
      (out.success = false → out.gas = 0 ∧ out.sub = sub ∧ out.newAddress = 0) := by
  simp only [extCall, call, beginCall, fresh, Option.isSome_none, Bool.false_eq_true, ↓reduceIte] at h
  unfold callRun callFails
  split_ifs at h ⊢
  -- a precompile whose base cost is not met: touched, or not, and no gas
  · cases h; simp [frameResult, accrueSubState, HostRun.apply, Mutation.apply, *]
  · cases h; simp [frameResult, accrueSubState, HostRun.apply, Mutation.apply, *]
  all_goals obtain ⟨s', ht, rfl⟩ := returnFrame_callTransfer h
  -- a precompile that ran, with the gas its cost left, or failed
  · simp [frameResult, go, accrueSubState, HostRun.apply, Mutation.apply, ht, *]
    exact (Nat.mod_le _ _).trans (Nat.sub_le _ _)
  · simp [frameResult, go, accrueSubState, HostRun.apply, Mutation.apply, ht, *]
  -- the callee's code runs
  · exact frameResult_go (.mutate _ .done) _ rfl rfl (by simp [HostRun.apply, Mutation.apply, ht]) rfl
  -- no code: the transfer only
  · simp [frameResult, go, accrueSubState, HostRun.apply, Mutation.apply, ht]

/-- A nested creation that returns leaves the state as `createRun` does,
hands back at most the creation's gas, fails exactly as `createFails` says,
and when it fails, hands back no gas, no sub-state and no address. -/
theorem extCreate_spec {sender : Address} {endowment gas : Word} {init : Bytes}
    (h : extCreate se dc vm env depth sender endowment gp gas init o s sub = .ok out) :
    out.s = (createRun se dc vm env depth sender endowment gp gas init o s).apply s ∧
      out.gas.toNat ≤ gas.toNat ∧
      out.success = !createFails se dc vm env depth sender endowment gp gas init o s ∧
      (out.success = false → out.gas = 0 ∧ out.sub = sub ∧ out.newAddress = 0) := by
  simp only [extCreate, create, beginCreate, fresh] at h
  unfold createRun createFails
  cases ht : (s.incNonce sender).transferBalance sender
      (right160 (dc.sha3 (dc.rlpList sender (s.getNonce sender)))) endowment with
  | error x => simp [ht, returnFrame] at h
  | ok s₁ =>
      simp only [ht] at h
      cases hinit : init.isEmpty
      · -- the init code runs
        simp only [hinit, Bool.not_false, ↓reduceIte] at h
        cases h
        simp only [hinit, Bool.not_false, Bool.true_and, Bool.false_eq_true, ↓reduceIte]
        refine frameResult_go (.mutate _ _) (s.incNonce sender) rfl rfl ?_ rfl
        simp only [HostRun.apply, Mutation.apply, ht]
        split <;> rfl
      · -- no init code: code already at the address is emptied
        simp only [hinit, Bool.not_true, Bool.false_eq_true, ↓reduceIte] at h
        split_ifs at h <;> cases h <;>
          simp [frameResult, accrueSubState, HostRun.apply, Mutation.apply, ht, *]

end Spec

/-! ## The re-entries of the VM -/

/-- The two re-entries of the VM into the executive: a message call, and a
creation by `sender` with an endowment, gas and init code. -/
inductive Reentry
  | call (p : CallParameters)
  | create (sender : Address) (endowment gas : Word) (init : Bytes)

namespace Reentry

/-- The gas the nested frame is given. -/
def gas : Reentry → Word
  | call p => p.gas
  | create _ _ gas _ => gas

section Defs

variable (se : SealEngine) (dc : DevCore) (vm : VM) (env : EnvInfo) (depth : Nat)
  (gasPrice : Word) (origin : Address)

/-- The nested frame the executive runs for the re-entry. -/
def exec : Reentry → State → SubState → Except TransactionException FrameResult
  | call p => extCall se dc vm env depth p gasPrice origin
  | create sender endowment gas init =>
      extCreate se dc vm env depth sender endowment gasPrice gas init origin

/-- The frame of the host model the re-entry is. -/
def run : Reentry → State → HostRun
  | call p => callRun se dc vm env depth p gasPrice origin
  | create sender endowment gas init =>
      createRun se dc vm env depth sender endowment gasPrice gas init origin

/-- Whether the nested frame of the re-entry fails. -/
def fails : Reentry → State → Bool
  | call p => callFails se dc vm env depth p gasPrice origin
  | create sender endowment gas init =>
      createFails se dc vm env depth sender endowment gasPrice gas init origin

end Defs

variable {se : SealEngine} {dc : DevCore} {vm : VM} {env : EnvInfo} {depth : Nat}
  {gasPrice : Word} {origin : Address} {re : Reentry} {s : State} {sub : SubState}
  {out : FrameResult}

theorem exec_spec (h : re.exec se dc vm env depth gasPrice origin s sub = .ok out) :
    out.s = (re.run se dc vm env depth gasPrice origin s).apply s ∧ out.gas.toNat ≤ re.gas.toNat ∧
      out.success = !re.fails se dc vm env depth gasPrice origin s ∧
      (out.success = false → out.gas = 0 ∧ out.sub = sub ∧ out.newAddress = 0) := by
  cases re with
  | call p => exact extCall_spec h
  | create sender endowment gas init => exact extCreate_spec h

theorem frameRun_movesEtherByTransfer {sched : EVMSchedule} {a : Address} {c : Bool} {r : VMRun}
    (h : r.run.movesEtherByTransfer) : (frameRun sched a c r).movesEtherByTransfer := by
  unfold frameRun
  split
  · simp only [HostRun.movesEtherByTransfer_append, h, Bool.true_and]
    split <;> rfl
  · exact h

/-- The frame of a re-entry moves ether only by transfers when the VM does:
the value's transfer, a precompile's zero credit, nonce increments and new
code move none. -/
theorem run_movesEtherByTransfer (hvm : ∀ x g s, (vm.exec x g s).run.movesEtherByTransfer) :
    (re.run se dc vm env depth gasPrice origin s).movesEtherByTransfer := by
  cases re <;> simp only [run, callRun, createRun, calleeRun, initRun] <;> split_ifs <;>
    simp [HostRun.movesEtherByTransfer, Mutation.movesEtherByTransfer,
      frameRun_movesEtherByTransfer (hvm _ _ _)]

/-- Spec scenario S5: account 1 holds 1000 wei and calls contract 2, whose
code stores 42 at slot 7, emits a log and executes `REVERT`. -/
def calleeState : State :=
  ⟨fun a => if a = 1 then some ⟨0, 1000, fun _ => 0, []⟩
    else if a = 2 then some ⟨0, 0, fun _ => 0, [0x60]⟩ else none, fun _ => false, [], 0⟩

def sstoreRevertVM : VM :=
  ⟨fun x _ _ => ⟨.mutate (.setStorage x.myAddress 7 42) .done, { logs := [⟨x.myAddress, [], []⟩] },
    .error .revertInstruction⟩, fun _ _ _ _ _ h => by cases h⟩

/-- The call of S5, with 300 wei and 100 gas. -/
def revertingCall : Reentry := .call ⟨1, 2, 2, 300, 300, 100, []⟩

/-- A nested frame keeps the ether when the VM moves ether only by transfers
and the balances sum to less than `2^256`; a reverted one restores the
balances it started from. -/
theorem exec_keeps_totalBalance (hvm : ∀ x g s, (vm.exec x g s).run.movesEtherByTransfer)
    (hs : s.totalBalance < 2 ^ 256) (h : re.exec se dc vm env depth gasPrice origin s sub = .ok out) :
    out.s.totalBalance = s.totalBalance := by
  rw [(exec_spec h).1]
  exact HostRun.totalBalance_apply _ (run_movesEtherByTransfer hvm) hs

theorem calleeState_totalBalance : calleeState.totalBalance = 1000 :=
  (Finset.sum_eq_single_of_mem 1 (Finset.mem_univ _) fun b _ hb => by
    by_cases h2 : b = 2
    · subst h2; rfl
    · simp only [calleeState, State.balance, if_neg hb, if_neg h2]; rfl).trans rfl

/-- The 300 wei of the S5 call come back with the revert: the state still
holds 1000 wei. -/
theorem revertingCall_keeps_totalBalance :
    ∃ out, revertingCall.exec (plainEngine ⟨false, 24576, 200, 24000⟩) nullCore sstoreRevertVM
        ⟨0, 0, 0, 0⟩ 0 0 1 calleeState {} = .ok out ∧ out.s.totalBalance = 1000 := by
  have h : revertingCall.exec (plainEngine ⟨false, 24576, 200, 24000⟩) nullCore sstoreRevertVM
      ⟨0, 0, 0, 0⟩ 0 0 1 calleeState {} = .ok _ := rfl
  have hvm : ∀ x g s, (sstoreRevertVM.exec x g s).run.movesEtherByTransfer := fun _ _ _ => rfl
  exact ⟨_, h, (exec_keeps_totalBalance hvm
    (by rw [calleeState_totalBalance]; decide) h).trans calleeState_totalBalance⟩

/-- A nested frame never hands back more gas than it was given; it fails
exactly when its VM throws (`REVERT` included), `go()` refuses its deposit, or
its precompile fails or is not paid for, and then hands back nothing. -/
theorem exec_returns (h : re.exec se dc vm env depth gasPrice origin s sub = .ok out) :
    out.gas.toNat ≤ re.gas.toNat ∧
      (out.success = false → out.gas = 0 ∧ out.sub = sub ∧ out.newAddress = 0) ∧
      (out.success = false ↔ re.fails se dc vm env depth gasPrice origin s = true) := by
  obtain ⟨-, hg, hsucc, hfail⟩ := exec_spec h
  exact ⟨hg, hfail, by rw [hsucc]; cases re.fails se dc vm env depth gasPrice origin s <;> decide⟩

/-- The S5 call fails, and hands back none of its 100 gas, although the
callee ended with `REVERT`; its log is not added to the caller's sub-state. -/
theorem revertingCall_returns :
    ∃ out, revertingCall.exec (plainEngine ⟨false, 24576, 200, 24000⟩) nullCore sstoreRevertVM
        ⟨0, 0, 0, 0⟩ 0 0 1 calleeState {} = .ok out ∧ out.success = false ∧
      (out.gas.toNat ≤ revertingCall.gas.toNat ∧
        (out.success = false → out.gas = 0 ∧ out.sub = {} ∧ out.newAddress = 0) ∧
        (out.success = false ↔ revertingCall.fails (plainEngine ⟨false, 24576, 200, 24000⟩) nullCore
          sstoreRevertVM ⟨0, 0, 0, 0⟩ 0 0 1 calleeState = true)) := by
  have h : revertingCall.exec (plainEngine ⟨false, 24576, 200, 24000⟩) nullCore sstoreRevertVM
      ⟨0, 0, 0, 0⟩ 0 0 1 calleeState {} = .ok _ := rfl
  exact ⟨_, h, rfl, exec_returns h⟩

end Reentry

end Executive

end EthExecutive
