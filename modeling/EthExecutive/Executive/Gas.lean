import EthExecutive.Executive.Frame
import EthExecutive.Executive.Initialize

/-! # Gas accounting

The frame receives the transaction's gas less its base gas; `call()`,
`create()` and `go()` only ever lower what the frame holds, since a VM run
never reports more gas than it was given. `finalize()` refunds at most half
the gas used, so the gas left stays at most the transaction's gas, and the
sender's and the author's credits are exact products that add up to the gas
cost `initialize()` recorded.
-/

namespace EthExecutive.Executive

open State

variable {se : SealEngine} {dc : DevCore} {vm : VM} {tx : Transaction} {e e₀ e₁ : Executive}
  {b : Bool}

/-! ## What go() leaves -/

theorem gas_codeDeposit_le (sched : EVMSchedule) (addr : Address) (out : Bytes) (g : Word)
    (e : Executive) : (codeDeposit sched addr out g e).gas.toNat ≤ g.toNat := by
  unfold codeDeposit
  split_ifs with _ hpaid
  · simp [vmException, revert]
  · have hcost : (BitVec.ofNat 256 (depositCost sched out)).toNat ≤ g.toNat := by
      rw [BitVec.toNat_ofNat, Nat.mod_eq_of_lt (lt_of_le_of_lt hpaid g.isLt)]; exact hpaid
    simp only [installCode]
    rw [BitVec.toNat_sub_of_le (BitVec.le_def.mpr hcost)]
    exact Nat.sub_le _ _
  · simp [vmException, revert]
  · simp [installCode]

/-- `go()` leaves the frame at most the gas it had. -/
theorem gas_go_le (se : SealEngine) (vm : VM) (e : Executive) : (go se vm e).gas.toNat ≤ e.gas.toNat := by
  cases hx : e.ext with
  | none => rw [go_of_ext_none hx]
  | some x =>
      cases hr : (vm.exec x e.gas e.s).result with
      | error ex => simp [go, hx, hr, vmException, revert]
      | ok res =>
          obtain ⟨out, g⟩ := res
          have hg : g.toNat ≤ e.gas.toNat := vm.gas_le x e.gas e.s out g hr
          by_cases hc : e.isCreation
          · rw [go_of_creation hx hc hr]
            exact (gas_codeDeposit_le _ _ _ _ _).trans hg
          · simpa [go, hx, hr, hc] using hg

/-- `go()` keeps the transaction and the block it runs in. -/
theorem go_keeps (se : SealEngine) (vm : VM) (e : Executive) : (go se vm e).t = e.t ∧ (go se vm e).envInfo = e.envInfo := by
  cases hx : e.ext with
  | none => rw [go_of_ext_none hx]; exact ⟨rfl, rfl⟩
  | some x =>
      cases hr : (vm.exec x e.gas e.s).result with
      | error ex => simp [go, hx, hr, vmException, revert]
      | ok res =>
          obtain ⟨out, g⟩ := res
          by_cases hc : e.isCreation
          · rw [go_of_creation hx hc hr]
            unfold codeDeposit
            split_ifs <;> exact ⟨rfl, rfl⟩
          · simp [go, hx, hr, hc]

/-! ## What execute() leaves -/

/-- A returning `execute()` on an executive holding no gas keeps the
transaction, the block and the gas cost, and leaves the frame at most the
transaction's gas less its base gas. -/
theorem execute_keeps (h : execute se dc e = .ok b e₁) (hg : e.gas = 0) :
    e₁.t = e.t ∧ e₁.envInfo = e.envInfo ∧ e₁.gasCost = e.gasCost ∧
      e₁.gas.toNat ≤ (e.tx.gas - BitVec.ofNat 256 e.baseGasRequired).toNat := by
  obtain ⟨s₀, -, hcases⟩ := execute_ok h
  rcases hcases with ⟨-, hc⟩ | ⟨d, -, hc⟩
  · obtain ⟨-, ht, henv, -, -, -, -, hcost, hgas, -⟩ := create_ok hc
    exact ⟨ht, henv, hcost, hgas ▸ le_rfl⟩
  · obtain ⟨-, ht, henv, -, -, -, -, hcost, hpaths⟩ := call_ok hc
    refine ⟨ht, henv, hcost, ?_⟩
    rcases hpaths with ⟨-, -, -, -, hgas, -⟩ | ⟨-, -, hgas, -⟩
    · rw [hgas, hg]; exact Nat.zero_le _
    · exact hgas

/-! ## What finalize() pays -/

@[simp] theorem minWord_le_left (a b : Word) : (minWord a b).toNat ≤ a.toNat := by
  unfold minWord; split <;> bv_omega

theorem payFees_refunded : (payFees se e).refunded = match e.ext with
    | some x => minWord ((e.tx.gas - e.gas) / 2)
        (x.sub.refunds + suicideRefunds (se.evmSchedule e.envInfo) x.sub)
    | none => 0 := by
  unfold payFees; cases e.ext <;> rfl

/-- What `payFees` pays: the gas left to the sender and the gas used to the
author, each at the gas price, on a top-level executive. -/
theorem payFees_s : (payFees se e).s = if e.t.isSome then
    (e.s.addBalance e.tx.from ((payFees se e).gas * e.tx.gasPrice)).addBalance e.envInfo.author
      ((e.tx.gas - (payFees se e).gas) * e.tx.gasPrice)
    else e.s := rfl

/-- With no more gas left than the transaction had, the refund is at most
half the gas used, and adding it keeps the gas within the transaction's, with
no wrap. -/
theorem payFees_gas_le (se : SealEngine) (hg : e.gas.toNat ≤ e.tx.gas.toNat) :
    (payFees se e).refunded.toNat ≤ (e.tx.gas.toNat - e.gas.toNat) / 2 ∧
      (payFees se e).gas.toNat = e.gas.toNat + (payFees se e).refunded.toNat ∧
      (payFees se e).gas.toNat ≤ e.tx.gas.toNat := by
  have hr : (payFees se e).refunded.toNat ≤ (e.tx.gas.toNat - e.gas.toNat) / 2 := by
    rw [payFees_refunded]
    split
    · refine (minWord_le_left _ _).trans (le_of_eq ?_)
      rw [BitVec.toNat_udiv, BitVec.toNat_sub_of_le (BitVec.le_def.mpr hg)]
      rfl
    · exact Nat.zero_le _
  have hsum : (payFees se e).gas.toNat = e.gas.toNat + (payFees se e).refunded.toNat := by
    show (e.gas + (payFees se e).refunded).toNat = _
    rw [BitVec.toNat_add_of_lt (by have := e.tx.gas.isLt; omega)]
  exact ⟨hr, hsum, by omega⟩

/-- The credits `finalize()` pays, when the frame holds no more gas than the
transaction and the gas cost fits in a word: exact products that add up to
the gas cost. -/
theorem payFees_credits (se : SealEngine) (hg : e.gas.toNat ≤ e.tx.gas.toNat)
    (hcost : e.tx.gas.toNat * e.tx.gasPrice.toNat < 2 ^ 256) :
    ((payFees se e).gas * e.tx.gasPrice).toNat = (payFees se e).gas.toNat * e.tx.gasPrice.toNat ∧
      ((e.tx.gas - (payFees se e).gas) * e.tx.gasPrice).toNat =
        (e.tx.gas.toNat - (payFees se e).gas.toNat) * e.tx.gasPrice.toNat ∧
      (payFees se e).gas.toNat * e.tx.gasPrice.toNat +
          (e.tx.gas.toNat - (payFees se e).gas.toNat) * e.tx.gasPrice.toNat =
        e.tx.gas.toNat * e.tx.gasPrice.toNat := by
  have hle := (payFees_gas_le se hg).2.2
  have hsub : (e.tx.gas - (payFees se e).gas).toNat = e.tx.gas.toNat - (payFees se e).gas.toNat :=
    BitVec.toNat_sub_of_le (BitVec.le_def.mpr hle)
  have hauthor : (e.tx.gas.toNat - (payFees se e).gas.toNat) * e.tx.gasPrice.toNat < 2 ^ 256 :=
    lt_of_le_of_lt (Nat.mul_le_mul_right _ (Nat.sub_le _ _)) hcost
  refine ⟨BitVec.toNat_mul_of_lt (lt_of_le_of_lt (Nat.mul_le_mul_right _ hle) hcost), ?_, ?_⟩
  · rw [BitVec.toNat_mul_of_lt (by rw [hsub]; exact hauthor), hsub]
  · rw [← Nat.add_mul, Nat.add_sub_cancel' hle]

/-! ## A whole transaction -/

theorem suicides_payFees (se : SealEngine) (e : Executive) : (payFees se e).suicides = e.suicides := by
  unfold payFees suicides; cases e.ext <;> rfl

/-- `finalize()` leaves a balance its kills do not reach as `payFees` left it. -/
theorem balance_finalize (se : SealEngine) {e : Executive} {a : Address} (ha : a ∉ e.suicides) :
    (finalize se e).s.balance a = (payFees se e).s.balance a := by
  show ((payFees se e).suicides.foldl kill _).balance a = _
  rw [balance_foldl_kill, suicides_payFees, if_neg ha]

/-- After a returning `initialize()` and `execute()` on a fresh executive,
`go()` leaves the frame the transaction and the block, and at most the
transaction's gas less its base gas, a difference that does not underflow. -/
theorem go_frame (vm : VM) {s : State} {env : EnvInfo} {depth : Nat}
    (h₀ : Executive.initialize se tx (fresh s env depth) = .ok () e₀)
    (h₁ : execute se dc e₀ = .ok b e₁) :
    (go se vm e₁).t = some tx ∧ (go se vm e₁).envInfo = env ∧
      (tx.gas - BitVec.ofNat 256 (tx.baseGasRequired (se.evmSchedule env))).toNat =
        tx.gas.toNat - tx.baseGasRequired (se.evmSchedule env) ∧
      (go se vm e₁).gas.toNat ≤ tx.gas.toNat - tx.baseGasRequired (se.evmSchedule env) := by
  obtain ⟨hadm, rfl⟩ := initialize_ok h₀
  have hbase : tx.baseGasRequired (se.evmSchedule env) ≤ tx.gas.toNat := hadm.paysBaseGas
  have hb : (BitVec.ofNat 256 (tx.baseGasRequired (se.evmSchedule env))).toNat =
      tx.baseGasRequired (se.evmSchedule env) :=
    Nat.mod_eq_of_lt (lt_of_le_of_lt hbase tx.gas.isLt)
  have hG : (tx.gas - BitVec.ofNat 256 (tx.baseGasRequired (se.evmSchedule env))).toNat =
      tx.gas.toNat - tx.baseGasRequired (se.evmSchedule env) := by
    rw [BitVec.toNat_sub_of_le (BitVec.le_def.mpr (by rw [hb]; exact hbase)), hb]
  obtain ⟨ht₁, henv₁, -, hgas₁⟩ := execute_keeps h₁ rfl
  obtain ⟨ht₂, henv₂⟩ := go_keeps se vm e₁
  exact ⟨ht₂.trans ht₁, henv₂.trans henv₁, hG, (gas_go_le se vm e₁).trans (le_of_le_of_eq hgas₁ hG)⟩

/-- Spec scenario S1: account 10 holds 1 000 000 wei and sends 1000 wei to
account 11 with 21 000 gas at price 1, all of it base gas. -/
def transferState : State :=
  ⟨fun a => if a = 10 then some ⟨0, 1000000, fun _ => 0, []⟩ else none, fun _ => false, [], 0⟩

def transferTx : Transaction := ⟨0, 1, 21000, some 11, 1000, [], some 10, fun _ => 21000⟩

/-- `initialize()` accepts the S1 transfer, with a gas cost of 21 000 wei, and
`execute()` then returns. -/
theorem transferTx_accepted :
    ∃ e₀, Executive.initialize (plainEngine ⟨false, 24576, 200, 24000⟩) transferTx
        (fresh transferState ⟨0, 20, 1000000, 0⟩ 0) = .ok () e₀ ∧ e₀.gasCost.toNat = 21000 ∧
      ∃ b e₁, execute (plainEngine ⟨false, 24576, 200, 24000⟩) nullCore e₀ = .ok b e₁ :=
  have h := initialize_sound (plainEngine ⟨false, 24576, 200, 24000⟩) nullCore transferTx
    (fresh transferState ⟨0, 20, 1000000, 0⟩ 0)
  match h.1.2 ⟨by unfold FitsBlock; decide, by unfold PaysBaseGas; decide, rfl, by decide,
      by unfold Affordable; decide⟩ with
  | ⟨e₀, h₀⟩ => ⟨e₀, h₀, h.2.2 e₀ h₀⟩

end EthExecutive.Executive
