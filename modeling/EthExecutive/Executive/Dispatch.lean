import EthExecutive.Executive.Frame
import EthExecutive.Executive.Initialize

/-! # Dispatch: the nonce, the savepoint and precompiles

Where `call()` and `create()` increment a nonce relative to the savepoint
they take, and what a precompile that runs and fails leaves behind. The
increment comes first, so no revert of the frame undoes it. A failing
precompile records `OutOfGas` and zeroes the gas, but `call()` goes on to
transfer the value: the ether moves although the frame failed.
-/

namespace EthExecutive.Executive

open State

variable {se : SealEngine} {dc : DevCore} {tx : Transaction} {e e₀ e₁ : Executive} {b : Bool}
  {p : CallParameters} {gp : Word} {o : Address}

/-- After its savepoint `call()` changes no nonce: it only touches a
precompile or transfers the value. -/
theorem getNonce_call (h : call se dc p gp o e = .ok b e₁) (a : Address) :
    e₁.s.getNonce a = (beginCall p e).s.getNonce a := by
  obtain ⟨-, -, -, -, -, -, -, -, hcases⟩ := call_ok h
  rcases hcases with ⟨-, -, -, -, -, -, hs⟩ | ⟨htr, -⟩
  · rw [hs]; split <;> simp
  · exact (transferBalance_spec htr).2.2 a

/-- After its savepoint `create()` changes the nonce of the new account only. -/
theorem getNonce_create {sender : Address} {endowment gas : Word} {init : Bytes} {a : Address}
    (h : create se dc sender endowment gp gas init o e = .ok b e₁) (ha : a ≠ e₁.newAddress) :
    e₁.s.getNonce a = (beginCreate dc sender gas e).s.getNonce a := by
  obtain ⟨-, -, -, -, -, -, -, -, -, s₁, htr, hcases⟩ := create_ok h
  generalize hs₂ : (if se.eip158ForkBlock ≤ e.envInfo.number then s₁.incNonce e₁.newAddress
    else s₁) = s₂ at hcases
  have h₂ : s₂.getNonce a = (beginCreate dc sender gas e).s.getNonce a := by
    rw [← hs₂, ← (transferBalance_spec htr).2.2 a]; split <;> simp [ha]
  rcases hcases with ⟨-, hs, -⟩ | ⟨-, -, -, hs⟩
  · rw [hs, h₂]
  · rw [hs]; split <;> simp [h₂]

/-- After a returning `initialize()` and `execute()`, the sender has paid the
gas cost, `call()` or `create()` has incremented the sender's nonce and taken
the savepoint there, and every change since rolls back. A creation's address
is derived from the nonce `initialize()` checked, and unless it is the
sender's own, the sender's nonce is still one past that nonce when `call()`
or `create()` returns. -/
theorem execute_frame (hi : Executive.initialize se tx e = .ok () e₀)
    (hx : execute se dc e₀ = .ok b e₁) :
    ∃ s₀, e.s.subBalance tx.from e₀.gasCost = .ok s₀ ∧
      e₁.savepoint = (s₀.incNonce tx.from).savepoint ∧ RollsBack e₁.s (s₀.incNonce tx.from) ∧
      s₀.getNonce tx.from = tx.nonce ∧
      (tx.receiveAddress = none → e₁.newAddress = right160 (dc.sha3 (dc.rlpList tx.from tx.nonce))) ∧
      ((tx.receiveAddress = none → e₁.newAddress ≠ tx.from) →
        e₁.s.getNonce tx.from = tx.nonce + 1) := by
  obtain ⟨hadm, rfl⟩ := initialize_ok hi
  obtain ⟨s₀, hs₀, hcases⟩ := execute_ok hx
  have hn : s₀.getNonce tx.from = tx.nonce := by rw [getNonce_subBalance hs₀, hadm.nonce]
  rcases hcases with ⟨hr, hc⟩ | ⟨d, hr, hc⟩
  · obtain ⟨hsp, hrb⟩ := create_rollsBack hc
    obtain ⟨-, -, -, -, hna, -⟩ := create_ok hc
    refine ⟨s₀, hs₀, hsp, hrb, hn, fun _ => by rw [hna]; simp [beginCreate, Executive.tx, ← hn],
      fun hne => ?_⟩
    rw [getNonce_create hc (Ne.symm (hne hr))]
    simp [beginCreate, Executive.tx, hn]
  · obtain ⟨hsp, hrb⟩ := call_rollsBack hc
    refine ⟨s₀, hs₀, hsp, hrb, hn, fun h => Option.noConfusion (hr.symm.trans h), fun _ => ?_⟩
    rw [getNonce_call hc]
    simp [beginCall, Executive.tx, hn]

/-- Nonce discipline: the sender's, or a nested creator's, nonce goes up by
one before the savepoint and stays there through `call()`, `create()` and a
throwing frame; a nested `call()` changes no nonce. -/
theorem nonce_discipline (se : SealEngine) (dc : DevCore) :
    (∀ (s : State) (env : EnvInfo) (depth : Nat) (tx : Transaction) (e₀ e₁ : Executive) (b : Bool),
      Executive.initialize se tx (fresh s env depth) = .ok () e₀ → execute se dc e₀ = .ok b e₁ →
      s.getNonce tx.from = tx.nonce ∧
      (e₁.s.rollback e₁.savepoint).getNonce tx.from = tx.nonce + 1 ∧
      ((tx.receiveAddress = none → e₁.newAddress ≠ tx.from) →
        e₁.s.getNonce tx.from = tx.nonce + 1) ∧
      (tx.receiveAddress = none →
        e₁.newAddress = right160 (dc.sha3 (dc.rlpList tx.from tx.nonce))) ∧
      ∀ (vm : VM) (x : ExtVM), e₁.ext = some x →
        Throws (se.evmSchedule e₁.envInfo) e₁.isCreation (vm.exec x e₁.gas e₁.s).result →
        (go se vm e₁).s.getNonce tx.from = tx.nonce + 1) ∧
    (∀ (sender o : Address) (endowment gp gas : Word) (init : Bytes) (e e₁ : Executive) (b : Bool),
      create se dc sender endowment gp gas init o e = .ok b e₁ →
      e₁.savepoint = (beginCreate dc sender gas e).s.savepoint ∧
      (beginCreate dc sender gas e).s.getNonce sender = e.s.getNonce sender + 1 ∧
      (e₁.newAddress ≠ sender → e₁.s.getNonce sender = e.s.getNonce sender + 1) ∧
      e₁.newAddress = right160 (dc.sha3 (dc.rlpList sender (e.s.getNonce sender)))) ∧
    (∀ (p : CallParameters) (gp : Word) (o : Address) (e e₁ : Executive) (b : Bool),
      e.t = none → call se dc p gp o e = .ok b e₁ → ∀ a, e₁.s.getNonce a = e.s.getNonce a) := by
  refine ⟨fun s env depth tx e₀ e₁ b hi hx => ?_, fun sender o endowment gp gas init e e₁ b hc => ?_,
    fun p gp o e e₁ b ht hc a => ?_⟩
  · obtain ⟨s₀, hs₀, hsp, hrb, hn, hna, hret⟩ := execute_frame hi hx
    have hsp₀ : (s₀.incNonce tx.from).getNonce tx.from = tx.nonce + 1 := by simp [hn]
    refine ⟨(getNonce_subBalance hs₀).symm.trans hn, by rw [hsp, hrb.2, hsp₀], hret, hna,
      fun vm x hext hthrow => ?_⟩
    rw [(go_of_throws hext hthrow).1, hsp, ((HostRun.rollsBack _ _).trans hrb).2, hsp₀]
  · obtain ⟨hsp, -⟩ := create_rollsBack hc
    obtain ⟨-, -, -, -, hna, -⟩ := create_ok hc
    refine ⟨hsp, by simp [beginCreate], fun hne => ?_, hna⟩
    rw [getNonce_create hc (Ne.symm hne)]
    simp [beginCreate]
  · rw [getNonce_call hc]
    simp [beginCall, ht]

/-- A state where account 2 holds 10 wei, and a nested executive on it. -/
def payerState : State :=
  ⟨fun a => if a = 2 then some ⟨0, 10, fun _ => 0, []⟩ else none, fun _ => false, [], 0⟩

def payerExecutive : Executive := fresh payerState ⟨0, 0, 0, 0⟩ 1

/-- Account 2 of `payerState` sends 5 wei to account 1 at gas price 0. -/
def payerTx : Transaction := ⟨0, 0, 21000, some 1, 5, [], some 2, fun _ => 21000⟩

/-- In that transfer account 2's nonce is 1 at the savepoint and still 1 when
`call()` returns. -/
theorem payerTx_nonce :
    ∃ e₀ b e₁, Executive.initialize (plainEngine ⟨false, 0, 0, 0⟩) payerTx
        (fresh payerState ⟨0, 0, 1000000, 0⟩ 0) = .ok () e₀ ∧
      execute (plainEngine ⟨false, 0, 0, 0⟩) nullCore e₀ = .ok b e₁ ∧
      (e₁.s.rollback e₁.savepoint).getNonce 2 = 0 + 1 ∧ e₁.s.getNonce 2 = 0 + 1 := by
  have h₀ := initialize_of_admissible (⟨by unfold FitsBlock; decide, by unfold PaysBaseGas; decide,
    rfl, by decide, by unfold Affordable; decide⟩ : Admissible (plainEngine ⟨false, 0, 0, 0⟩)
      payerTx (fresh payerState ⟨0, 0, 1000000, 0⟩ 0))
  obtain ⟨b, e₁, h₁⟩ := execute_isOk nullCore h₀
  obtain ⟨-, hsp, hret, -⟩ :=
    (nonce_discipline (plainEngine ⟨false, 0, 0, 0⟩) nullCore).1 _ _ _ _ _ _ _ h₀ h₁
  exact ⟨_, b, e₁, h₀, h₁, hsp, hret fun h => by cases h⟩

/-! ## A precompile that fails -/

/-- A precompile that runs and fails still lets `call()` transfer the value:
the frame ends with `OutOfGas` and no gas, yet the sender has paid the value
and the receiver holds it, against the balances at the savepoint. -/
theorem call_failedPrecompile_transfers {out : Bytes}
    (hp : se.isPrecompiled p.codeAddress e.envInfo.number)
    (hg : se.costOfPrecompiled p.codeAddress p.data e.envInfo.number ≤ p.gas.toNat)
    (hf : se.executePrecompiled p.codeAddress p.data e.envInfo.number = (false, out))
    (hv : p.valueTransfer ≤ e.s.balance p.senderAddress) (hne : p.senderAddress ≠ p.receiveAddress) :
    ∃ e₁, call se dc p gp o e = .ok e.ext.isNone e₁ ∧ e₁.excepted = .outOfGas ∧ e₁.gas = 0 ∧
      e₁.savepoint = (beginCall p e).s.savepoint ∧
      e₁.s.balance p.senderAddress = (beginCall p e).s.balance p.senderAddress - p.valueTransfer ∧
      e₁.s.balance p.receiveAddress = (beginCall p e).s.balance p.receiveAddress + p.valueTransfer := by
  have hb : p.valueTransfer ≤ (beginCall p e).s.balance p.senderAddress := by simpa using hv
  have hcall : call se dc p gp o e = callTransfer p
      { beginCall p e with gas := 0, excepted := .outOfGas, output := out } := by
    simp only [call, envInfo_beginCall, hp, hf, if_true, if_neg (not_lt.mpr hg), Bool.false_eq_true,
      ↓reduceIte]
  obtain ⟨e₁, he₁⟩ := callTransfer_isOk
    (e := { beginCall p e with gas := 0, excepted := .outOfGas, output := out }) hb
  obtain ⟨htr, -, hsp, -, -, -, -, -, -, -, hgas, -, hexc⟩ := callTransfer_ok he₁
  exact ⟨e₁, hcall.trans he₁, hexc, hgas, hsp, (transferBalance_spec htr).1 hne⟩

/-- An engine whose only precompile, at address 1, costs nothing and always
fails. -/
def failingEngine : SealEngine :=
  ⟨fun _ => ⟨false, 0, 0, 0⟩, 0, fun a _ => decide (a = 1), fun _ _ _ => 0,
    fun _ _ _ => (false, [])⟩

/-- Account 2 calls the failing precompile with 5 wei: the call fails with
`OutOfGas`, yet account 2 is left with 5 wei and account 1 holds 5. -/
theorem failedPrecompile_moves_value :
    ∃ e₁, call failingEngine nullCore ⟨2, 1, 1, 5, 5, 100, []⟩ 0 2 payerExecutive = .ok true e₁ ∧
      e₁.excepted = .outOfGas ∧ e₁.gas = 0 ∧ e₁.savepoint = 0 ∧ e₁.s.balance 2 = 10 - 5 ∧
      e₁.s.balance 1 = 0 + 5 :=
  call_failedPrecompile_transfers rfl (by decide) rfl (by decide) (by decide)

end EthExecutive.Executive
