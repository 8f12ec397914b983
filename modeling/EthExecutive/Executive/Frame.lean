import EthExecutive.Executive.Steps

/-! # A frame's run: go(), revert() and the code deposit

`call()` or `create()` sets up a VM frame and takes its savepoint; `go()`
runs the VM on it. When the run raises, or when `go()` itself throws
`OutOfGas` over a creation's output, the handler zeroes the gas and
`revert()` clears the sub-state, nulls the new address and rolls the state
back to the savepoint, exactly. For a creation that returns, the output is
deployed when it is short enough and its deposit is paid; this module derives
the four outcomes of the deposit rule, and that the `size_t` product it
compares cannot overflow.
-/

namespace EthExecutive.Executive

open State

variable {se : SealEngine} {dc : DevCore} {vm : VM} {e e₁ : Executive} {x : ExtVM} {sp : State}

/-- `e₁` is `e` after `call()` or `create()` set up a VM frame, and `sp` the
state at the frame's savepoint. An executive runs one frame, so `e` has none
yet. -/
inductive FrameStart (se : SealEngine) (dc : DevCore) (e : Executive) : Executive → State → Prop
  | call {p : CallParameters} {gp : Word} {o : Address} {e₁ : Executive} :
      e.ext = none → call se dc p gp o e = .ok false e₁ → FrameStart se dc e e₁ (beginCall p e).s
  | create {sender : Address} {endowment gp gas : Word} {init : Bytes} {o : Address}
      {e₁ : Executive} : e.ext = none →
      create se dc sender endowment gp gas init o e = .ok false e₁ →
      FrameStart se dc e e₁ (beginCreate dc sender gas e).s

/-- Between its savepoint and its return, `call()` only touched a precompile
or transferred the value: all of it rolls back exactly. -/
theorem call_rollsBack {p : CallParameters} {gp : Word} {o : Address} {b : Bool}
    (h : call se dc p gp o e = .ok b e₁) :
    e₁.savepoint = (beginCall p e).s.savepoint ∧ RollsBack e₁.s (beginCall p e).s := by
  obtain ⟨hsp, -, -, -, -, -, -, -, hcases⟩ := call_ok h
  refine ⟨hsp, ?_⟩
  rcases hcases with ⟨-, -, -, -, -, -, hs⟩ | ⟨htr, -⟩
  · rw [hs]
    split
    · exact rollsBack_addBalance
    · exact .refl
  · exact rollsBack_transferBalance htr

/-- The endowment's transfer and the EIP-158 nonce increment of `create()`
roll back exactly. -/
theorem rollsBack_createTransfer (se : SealEngine) {sender a : Address} {endowment gas : Word}
    {s₁ : State} (htr : (beginCreate dc sender gas e).s.transferBalance sender a endowment = .ok s₁) :
    RollsBack (if se.eip158ForkBlock ≤ e.envInfo.number then s₁.incNonce a else s₁)
      (beginCreate dc sender gas e).s := by
  split
  · exact rollsBack_incNonce.trans (rollsBack_transferBalance htr)
  · exact rollsBack_transferBalance htr

/-- Between its savepoint and its return, `create()` made only changes that
roll back exactly, emptying code already at the new address included. -/
theorem create_rollsBack {sender o : Address} {endowment gp gas : Word} {init : Bytes} {b : Bool}
    (h : create se dc sender endowment gp gas init o e = .ok b e₁) :
    e₁.savepoint = (beginCreate dc sender gas e).s.savepoint ∧
      RollsBack e₁.s (beginCreate dc sender gas e).s := by
  obtain ⟨hsp, -, -, -, -, -, -, -, -, s₁, htr, hcases⟩ := create_ok h
  have h₂ := rollsBack_createTransfer se htr
  refine ⟨hsp, ?_⟩
  generalize (if se.eip158ForkBlock ≤ e.envInfo.number then s₁.incNonce e₁.newAddress
    else s₁) = s₂ at h₂ hcases
  rcases hcases with ⟨-, hs, -⟩ | ⟨-, -, -, hs⟩
  · exact hs ▸ h₂
  · rw [hs]
    split
    · exact rollsBack_setNewCode.trans h₂
    · exact h₂

/-- Between its savepoint and the VM's run, a frame only transferred the
value and, for a creation, incremented the new account's nonce: all of it
rolls back exactly. -/
theorem FrameStart.rollsBack (h : FrameStart se dc e e₁ sp) :
    e₁.savepoint = sp.savepoint ∧ RollsBack e₁.s sp := by
  cases h with
  | call he hc => exact call_rollsBack hc
  | create he hc =>
      obtain ⟨hsp, -, -, -, -, -, -, -, -, s₁, htr, hcases⟩ := create_ok hc
      rcases hcases with ⟨-, hs, -⟩ | ⟨-, -, hb, -⟩
      · exact ⟨hsp, hs ▸ rollsBack_createTransfer se htr⟩
      · simp [he] at hb

/-- How `go()` ends in its `VMException` handler: the VM raised, or, for a
creation, `go()` threw `OutOfGas` over output longer than `maxCodeSize` or,
under `exceptionalFailedCodeDeposit`, whose deposit the gas left cannot pay. -/
inductive Throws (sched : EVMSchedule) (isCreation : Bool) :
    Except VMException (Bytes × Word) → Prop
  | vm (ex : VMException) : Throws sched isCreation (.error ex)
  | codeSize {out : Bytes} {g : Word} : isCreation → sched.maxCodeSize.toNat < out.length →
      Throws sched isCreation (.ok (out, g))
  | deposit {out : Bytes} {g : Word} : isCreation → out.length ≤ sched.maxCodeSize.toNat →
      sched.exceptionalFailedCodeDeposit → g.toNat < depositCost sched out →
      Throws sched isCreation (.ok (out, g))

theorem go_of_ext_none (h : e.ext = none) : go se vm e = e := by simp [go, h]

/-- A frame whose run throws is reverted: rolled back to its savepoint, with
no gas, the null new address and an empty sub-state. -/
theorem go_of_throws (hx : e.ext = some x)
    (h : Throws (se.evmSchedule e.envInfo) e.isCreation (vm.exec x e.gas e.s).result) :
    (go se vm e).s = ((vm.exec x e.gas e.s).run.apply e.s).rollback e.savepoint ∧
      (go se vm e).gas = 0 ∧ (go se vm e).newAddress = 0 ∧
      (go se vm e).ext = some { x with sub := {} } ∧ (go se vm e).t = e.t ∧
      (go se vm e).envInfo = e.envInfo := by
  generalize hr : (vm.exec x e.gas e.s).result = r at h
  cases h with
  | vm ex => simp [go, hx, hr, vmException, revert]
  | codeSize hc hlen => simp [go, hx, hr, hc, codeDeposit, hlen, vmException, revert]
  | deposit hc hlen hex hg =>
      simp [go, hx, hr, hc, codeDeposit, not_lt.mpr hlen, not_le.mpr hg, hex, vmException, revert]

@[simp] theorem minWord_zero (a : Word) : minWord a (BitVec.ofNat 256 0) = BitVec.ofNat 256 0 := by
  unfold minWord; split <;> bv_omega

/-- An engine with no precompiles and the given schedule, past the EIP-158 fork. -/
def plainEngine (sched : EVMSchedule) : SealEngine :=
  ⟨fun _ => sched, 0, fun _ _ => false, fun _ _ _ => 0, fun _ _ _ => (true, [])⟩

/-- Keccak and RLP stubbed to constants. -/
def nullCore : DevCore := ⟨fun _ => 0, fun _ _ => []⟩

/-- A state whose account 1 holds the code `0x60`. -/
def collisionState : State :=
  ⟨fun a => if a = 1 then some ⟨0, 0, fun _ => 0, [0x60]⟩ else none, fun _ => false, [], 0⟩

/-- A nested executive on `collisionState`, and the frame `call()` sets up for
`collisionCall`. -/
def collisionExecutive : Executive := fresh collisionState ⟨0, 0, 0, 0⟩ 1

/-- For an output no longer than `maxCodeSize`, both factors of the `size_t`
product fit in 32 bits, so it does not overflow. -/
theorem depositCost_eq {sched : EVMSchedule} {out : Bytes}
    (h : out.length ≤ sched.maxCodeSize.toNat) :
    depositCost sched out = out.length * sched.createDataGas.toNat := by
  have hlen : out.length < 2 ^ 32 := lt_of_le_of_lt h sched.maxCodeSize.isLt
  have hprod : out.length * sched.createDataGas.toNat < 2 ^ 64 :=
    calc out.length * sched.createDataGas.toNat
        < 2 ^ 32 * 2 ^ 32 := Nat.mul_lt_mul_of_lt_of_lt hlen sched.createDataGas.isLt
      _ = 2 ^ 64 := (Nat.pow_add 2 32 32).symm
  exact Nat.mod_eq_of_lt hprod

/-- The outcomes of the deposit rule: output too long, or unpaid under
`exceptionalFailedCodeDeposit`, throws `OutOfGas` and reverts; paid output is
deployed and its deposit deducted without underflow; unpaid output otherwise
deploys empty code and keeps the gas. -/
theorem codeDeposit_spec (sched : EVMSchedule) (addr : Address) (out : Bytes) (g : Word)
    (e : Executive) :
    (sched.maxCodeSize.toNat < out.length →
      (codeDeposit sched addr out g e).s = e.s.rollback e.savepoint ∧
        (codeDeposit sched addr out g e).gas = 0 ∧
        (codeDeposit sched addr out g e).excepted = .outOfGas) ∧
    (out.length ≤ sched.maxCodeSize.toNat → depositCost sched out ≤ g.toNat →
      (codeDeposit sched addr out g e).s = e.s.setNewCode addr out ∧
        (codeDeposit sched addr out g e).gas.toNat = g.toNat - depositCost sched out) ∧
    (out.length ≤ sched.maxCodeSize.toNat → g.toNat < depositCost sched out →
      (sched.exceptionalFailedCodeDeposit →
        (codeDeposit sched addr out g e).s = e.s.rollback e.savepoint ∧
          (codeDeposit sched addr out g e).gas = 0 ∧
          (codeDeposit sched addr out g e).excepted = .outOfGas) ∧
      (sched.exceptionalFailedCodeDeposit = false →
        (codeDeposit sched addr out g e).s = e.s.setNewCode addr [] ∧
          (codeDeposit sched addr out g e).gas = g)) := by
  refine ⟨fun hlen => by simp [codeDeposit, hlen, vmException, revert, toTransactionException],
    fun hlen hpaid => ?_,
    fun hlen hunpaid => ⟨fun hex => ?_, fun hex => ?_⟩⟩
  · have hcost : (BitVec.ofNat 256 (depositCost sched out)).toNat = depositCost sched out :=
      Nat.mod_eq_of_lt (lt_of_le_of_lt hpaid g.isLt)
    simp only [codeDeposit, gt_iff_lt, not_lt.mpr hlen, hpaid, if_true, if_false, installCode]
    exact ⟨trivial, by rw [BitVec.toNat_sub_of_le (by rw [BitVec.le_def, hcost]; exact hpaid), hcost]⟩
  · simp [codeDeposit, not_lt.mpr hlen, not_le.mpr hunpaid, hex, vmException, revert,
      toTransactionException]
  · simp [codeDeposit, not_lt.mpr hlen, not_le.mpr hunpaid, hex, installCode]

/-- The frame a returning `create()` sets up when it has init code: a creation
whose VM runs at the new address, which exists. -/
theorem create_frame {sender o : Address} {endowment gp gas : Word} {init : Bytes}
    (he : e.ext = none) (hc : create se dc sender endowment gp gas init o e = .ok false e₁) :
    e₁.isCreation ∧ e₁.envInfo = e.envInfo ∧ e₁.s.addressInUse e₁.newAddress ∧
      ∃ x, e₁.ext = some x ∧ x.myAddress = e₁.newAddress := by
  obtain ⟨-, -, henv, hcr, -, -, -, -, -, s₁, htr, hcases⟩ := create_ok hc
  rcases hcases with ⟨-, hs, -, x, hx, hmy, -⟩ | ⟨-, -, hb, -⟩
  · obtain ⟨s₀, -, rfl⟩ := transferBalance_ok htr
    refine ⟨hcr, henv, ?_, x, hx, hmy⟩
    rw [hs]
    split <;> simp
  · simp [he] at hb

/-- `go()` on a creation whose VM returned: the code deposit, on the state the
run left. -/
theorem go_of_creation {out : Bytes} {g : Word} (hx : e.ext = some x) (hc : e.isCreation)
    (hr : (vm.exec x e.gas e.s).result = .ok (out, g)) :
    go se vm e = codeDeposit (se.evmSchedule e.envInfo) x.myAddress out g { e with
      s := (vm.exec x e.gas e.s).run.apply e.s
      ext := some { x with sub := (vm.exec x e.gas e.s).sub } } := by
  simp [go, hx, hr, hc]

/-- The deposit rule of a creation frame: oversized output reverts it, paid
output becomes the new code at its exact cost, and unpaid output reverts it or
leaves empty code, as `exceptionalFailedCodeDeposit` says. -/
theorem go_codeDeposit (vm : VM) {sender o : Address} {endowment gp gas : Word} {init out : Bytes}
    {g : Word} (he : e.ext = none) (hc : create se dc sender endowment gp gas init o e = .ok false e₁)
    (hx : e₁.ext = some x) (hr : (vm.exec x e₁.gas e₁.s).result = .ok (out, g)) :
    let sched := se.evmSchedule e.envInfo
    let s₁ := (vm.exec x e₁.gas e₁.s).run.apply e₁.s
    ((sched.maxCodeSize.toNat < out.length →
      (go se vm e₁).s = s₁.rollback e₁.savepoint ∧ (go se vm e₁).gas = 0 ∧
        (go se vm e₁).excepted = .outOfGas) ∧
    (out.length ≤ sched.maxCodeSize.toNat →
      depositCost sched out = out.length * sched.createDataGas.toNat ∧
      (out.length * sched.createDataGas.toNat ≤ g.toNat →
        (go se vm e₁).s.code e₁.newAddress = out ∧
          (go se vm e₁).gas.toNat = g.toNat - out.length * sched.createDataGas.toNat) ∧
      (g.toNat < out.length * sched.createDataGas.toNat →
        (sched.exceptionalFailedCodeDeposit →
          (go se vm e₁).s = s₁.rollback e₁.savepoint ∧ (go se vm e₁).gas = 0 ∧
            (go se vm e₁).excepted = .outOfGas) ∧
        (sched.exceptionalFailedCodeDeposit = false →
          (go se vm e₁).s.code e₁.newAddress = [] ∧ (go se vm e₁).gas = g)))) := by
  intro sched s₁
  obtain ⟨hcr, henv, hin, x', hx', hmy⟩ := create_frame he hc
  cases hx.symm.trans hx'
  have hin₁ : s₁.addressInUse e₁.newAddress := HostRun.addressInUse_apply _ hin
  have hd := codeDeposit_spec (se.evmSchedule e₁.envInfo) x.myAddress out g { e₁ with
      s := (vm.exec x e₁.gas e₁.s).run.apply e₁.s
      ext := some { x with sub := (vm.exec x e₁.gas e₁.s).sub } }
  rw [← go_of_creation hx hcr hr, hmy, henv] at hd
  refine ⟨hd.1, fun hlen => ?_⟩
  rw [← depositCost_eq hlen]
  refine ⟨rfl, fun hpaid => ?_, fun hunpaid => ?_⟩
  · obtain ⟨hs, hg⟩ := hd.2.1 hlen hpaid
    exact ⟨by rw [hs, code_setNewCode hin₁, if_pos rfl], hg⟩
  · obtain ⟨hthrow, hkeep⟩ := hd.2.2 hlen hunpaid
    refine ⟨hthrow, fun hex => ?_⟩
    obtain ⟨hs, hg⟩ := hkeep hex
    exact ⟨by rw [hs, code_setNewCode hin₁, if_pos rfl], hg⟩

/-- A VM whose run changes nothing and returns `out` with all its gas. -/
def returningVM (out : Bytes) : VM :=
  ⟨fun _ g _ => ⟨.done, {}, .ok (out, g)⟩, fun _ _ _ _ _ h => by cases h; exact BitVec.le_refl _⟩

/-- The frame `create()` sets up for init code `0x60` with 1000 gas, from
account 2 of `collisionState`. -/
def creationFrame : Executive :=
  match create (plainEngine ⟨false, 24576, 200, 24000⟩) nullCore 2 0 0 1000 [0x60] 2
      collisionExecutive with
  | .ok _ e => e
  | .error _ e => e

/-- Two bytes of output cost 400 of the 1000 gas: they are deployed and 600
gas is left. -/
theorem creationFrame_deposit :
    (go (plainEngine ⟨false, 24576, 200, 24000⟩) (returningVM [1, 2]) creationFrame).s.code
        creationFrame.newAddress = [1, 2] ∧
      (go (plainEngine ⟨false, 24576, 200, 24000⟩) (returningVM [1, 2]) creationFrame).gas.toNat =
        1000 - 2 * 200 :=
  ((go_codeDeposit (returningVM [1, 2]) (rfl : collisionExecutive.ext = none)
    (rfl : create (plainEngine ⟨false, 24576, 200, 24000⟩) nullCore 2 0 0 1000 [0x60] 2
      collisionExecutive = .ok false creationFrame) rfl rfl).2 (by decide)).2.1 (by decide)

end EthExecutive.Executive
