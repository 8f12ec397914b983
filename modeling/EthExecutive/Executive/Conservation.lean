import EthExecutive.Executive.Dispatch
import EthExecutive.Executive.Gas
import Mathlib.Algebra.BigOperators.Group.Finset
import Mathlib.Algebra.Order.BigOperators.Group.Finset

/-! # Conservation of ether

The ether of a state is the sum of all its balances, as an unbounded integer.
A transfer keeps it, provided it is below `2^256`: the receiver's balance plus
the value is then at most the sum, so the credit does not wrap. The executive
moves ether only by the gas debit, the value's transfer, a VM run that
transfers, rollbacks that restore the balances of a savepoint, the two credits
of `finalize()`, which give the gas cost back exactly, and the kills.
-/

namespace EthExecutive

open State Executive

/-- The ether of the state: the sum of all balances. -/
def State.totalBalance (s : State) : Nat := ∑ a : Address, (s.balance a).toNat

/-- The mutator moves ether only by a transfer, or touches with a zero credit. -/
def Mutation.movesEtherByTransfer : Mutation → Bool
  | .addBalance _ v => v == 0
  | .subBalance _ _ => false
  | _ => true

/-- Every mutation of the run, nested frames included, moves ether only by
transfers. -/
def HostRun.movesEtherByTransfer : HostRun → Bool
  | .done => true
  | .mutate m rest => m.movesEtherByTransfer && rest.movesEtherByTransfer
  | .frame body _ rest => body.movesEtherByTransfer && rest.movesEtherByTransfer

namespace State

variable {s t : State} {a f : Address} {v : Word}

/-! ## The sum of the balances -/

theorem totalBalance_congr (h : ∀ b, t.balance b = s.balance b) :
    t.totalBalance = s.totalBalance :=
  Finset.sum_congr rfl fun b _ => by rw [h b]

/-- Changing one balance changes the sum by the difference. -/
theorem totalBalance_update (h : ∀ b, b ≠ a → t.balance b = s.balance b) :
    t.totalBalance + (s.balance a).toNat = s.totalBalance + (t.balance a).toNat := by
  unfold totalBalance
  rw [← Finset.add_sum_erase _ _ (Finset.mem_univ a), ← Finset.add_sum_erase _ _ (Finset.mem_univ a),
    Finset.sum_congr rfl fun b hb => by rw [h b (Finset.ne_of_mem_erase hb)]]
  omega

theorem balance_le_totalBalance : (s.balance a).toNat ≤ s.totalBalance :=
  Finset.single_le_sum (fun b _ => Nat.zero_le ((s.balance b).toNat)) (Finset.mem_univ a)

/-- A credit that does not wrap adds its value to the sum. -/
theorem totalBalance_addBalance (h : (s.balance a).toNat + v.toNat < 2 ^ 256) :
    (s.addBalance a v).totalBalance = s.totalBalance + v.toNat := by
  have hu := totalBalance_update (a := a) (s := s) (t := s.addBalance a v)
    fun b hb => by rw [balance_addBalance, if_neg hb]
  rw [balance_addBalance, if_pos rfl, BitVec.toNat_add_of_lt h] at hu
  omega

/-- A debit that goes through takes its value from the sum. -/
theorem totalBalance_subBalance (h : s.subBalance a v = .ok t) :
    t.totalBalance + v.toNat = s.totalBalance := by
  have hu := totalBalance_update (a := a) (s := s) (t := t)
    fun b hb => balance_subBalance_of_ne h hb
  have hv := (subBalance_ok h).1
  rw [toNat_balance_subBalance h] at hu
  rw [BitVec.le_def] at hv
  omega

/-- A transfer keeps the sum, while it is below `2^256`. -/
theorem totalBalance_transferBalance (h : s.transferBalance f a v = .ok t)
    (hs : s.totalBalance < 2 ^ 256) : t.totalBalance = s.totalBalance := by
  obtain ⟨s₁, hs₁, rfl⟩ := transferBalance_ok h
  have hsub := totalBalance_subBalance hs₁
  have hle : (s₁.balance a).toNat ≤ s₁.totalBalance := balance_le_totalBalance
  rw [totalBalance_addBalance (by omega)]
  omega

@[simp] theorem balance_createContract : (s.createContract a).balance f = s.balance f := by
  unfold createContract
  split
  · rfl
  · next h =>
      by_cases hf : f = a
      · subst hf
        simp [balance, createAccount, Account.empty, Option.not_isSome_iff_eq_none.mp
          (by simpa [addressInUse] using h)]
      · simp [balance, createAccount, hf]

/-- Killing accounts removes exactly their balances, each once. -/
theorem totalBalance_kills (as : List Address) :
    (as.foldl kill s).totalBalance + ∑ a ∈ as.toFinset, (s.balance a).toNat = s.totalBalance := by
  have hkill : ∀ b, (as.foldl kill s).balance b = if b ∈ as.toFinset then 0 else s.balance b := by
    induction as generalizing s with
    | nil => simp
    | cons a as ih =>
        intro b
        rw [List.foldl_cons, ih]
        by_cases hb : b = a <;> simp [kill, balance, hb]
  unfold totalBalance
  rw [← Fintype.sum_ite_mem as.toFinset, ← Finset.sum_add_distrib]
  exact Finset.sum_congr rfl fun b _ => by rw [hkill b]; split <;> simp

end State

/-! ## Runs of the host interface -/

theorem Mutation.totalBalance_apply {s : State} (m : Mutation) (hm : m.movesEtherByTransfer)
    (hs : s.totalBalance < 2 ^ 256) : (m.apply s).totalBalance = s.totalBalance := by
  cases m with
  | addBalance a v =>
      have hv : v = 0 := by simpa [movesEtherByTransfer] using hm
      subst hv
      exact totalBalance_congr fun b => by by_cases hb : b = a <;> simp [apply, hb]
  | subBalance => simp [movesEtherByTransfer] at hm
  | transferBalance f a v =>
      simp only [apply]
      split
      · next t ht => exact totalBalance_transferBalance ht hs
      · rfl
  | _ => exact totalBalance_congr fun b => by simp [apply]

/-- A run that moves ether only by transfers keeps the sum: a nested frame
that reverts restores the balances it started from. -/
theorem HostRun.totalBalance_apply {s : State} (r : HostRun) (hr : r.movesEtherByTransfer)
    (hs : s.totalBalance < 2 ^ 256) : (r.apply s).totalBalance = s.totalBalance := by
  induction r generalizing s with
  | done => rfl
  | mutate m rest ih =>
      simp only [movesEtherByTransfer, Bool.and_eq_true] at hr
      have hm := m.totalBalance_apply hr.1 hs
      exact (ih hr.2 (by rwa [hm])).trans hm
  | frame body reverted rest ihb ihr =>
      simp only [movesEtherByTransfer, Bool.and_eq_true] at hr
      have hframe : (if reverted then (body.apply s).rollback s.savepoint else body.apply s).totalBalance =
          s.totalBalance := by
        split
        · rw [(body.rollsBack s).2]
        · exact ihb hr.1 hs
      exact (ihr hr.2 (by rwa [hframe])).trans hframe

/-! ## A frame -/

namespace Executive

variable {se : SealEngine} {dc : DevCore} {tx : Transaction} {e e₀ e₁ : Executive} {b : Bool}
  {x : ExtVM}

/-- `call()` keeps the ether: it touches a precompile with a zero credit or
transfers the value. -/
theorem totalBalance_call {p : CallParameters} {gp : Word} {o : Address}
    (hc : call se dc p gp o e = .ok b e₁) (hlt : e.s.totalBalance < 2 ^ 256) :
    e₁.s.totalBalance = e.s.totalBalance := by
  obtain ⟨-, -, -, -, -, -, -, -, hpaths⟩ := call_ok hc
  have hsp : ∀ a, (beginCall p e).s.balance a = e.s.balance a := balance_beginCall
  rcases hpaths with ⟨-, -, -, -, -, -, hs⟩ | ⟨htr, -⟩
  · exact totalBalance_congr fun a => by
      rw [hs]; split <;> by_cases ha : a = p.codeAddress <;> simp [ha]
  · rw [totalBalance_transferBalance htr (by rw [totalBalance_congr hsp]; exact hlt)]
    exact totalBalance_congr hsp

/-- `create()` keeps the ether: it transfers the endowment, and increments
nonces and empties code, which move none. -/
theorem totalBalance_create {sender o : Address} {endowment gp gas : Word} {init : Bytes}
    (hc : create se dc sender endowment gp gas init o e = .ok b e₁)
    (hlt : e.s.totalBalance < 2 ^ 256) : e₁.s.totalBalance = e.s.totalBalance := by
  obtain ⟨-, -, -, -, -, -, -, -, -, s₁, htr, hcases⟩ := create_ok hc
  have hsp : ∀ a, (beginCreate dc sender gas e).s.balance a = e.s.balance a :=
    fun _ => balance_beginCreate
  have h₁ : s₁.totalBalance = e.s.totalBalance :=
    (totalBalance_transferBalance htr (by rw [totalBalance_congr hsp]; exact hlt)).trans
      (totalBalance_congr hsp)
  have h₂ : ∀ a, e₁.s.balance a = s₁.balance a := by
    intro a
    rcases hcases with ⟨-, hs, -⟩ | ⟨-, -, -, hs⟩ <;> rw [hs] <;> split_ifs <;> simp
  rw [totalBalance_congr h₂, h₁]

/-- What `go()` leaves of the state: the run's state, the same with new code
at the frame's address, or the run's state rolled back to the savepoint. -/
theorem go_state (se : SealEngine) (vm : VM) (hx : e.ext = some x) :
    (go se vm e).s = (vm.exec x e.gas e.s).run.apply e.s ∨
      (∃ c, (go se vm e).s = ((vm.exec x e.gas e.s).run.apply e.s).setNewCode x.myAddress c) ∨
      (go se vm e).s = ((vm.exec x e.gas e.s).run.apply e.s).rollback e.savepoint := by
  cases hr : (vm.exec x e.gas e.s).result with
  | error ex => exact .inr (.inr (go_of_throws hx (hr ▸ .vm ex)).1)
  | ok res =>
      obtain ⟨out, g⟩ := res
      by_cases hc : e.isCreation
      · rw [go_of_creation hx hc hr]
        -- each outcome of the deposit rule either reverts or sets the code
        unfold codeDeposit
        split_ifs <;> first | exact .inr (.inr rfl) | exact .inr (.inl ⟨_, rfl⟩)
      · exact .inl (by simp [go, hx, hr, hc])

/-- The top-level frame keeps the ether of the state the gas debit left: the
value's transfer and the run keep it, and a rollback restores the balances of
the savepoint, where only the sender's nonce has changed since the debit. -/
theorem totalBalance_go (vm : VM) (hvm : ∀ x g s, (vm.exec x g s).run.movesEtherByTransfer)
    (hi : Executive.initialize se tx e = .ok () e₀) (hx : execute se dc e₀ = .ok b e₁)
    (hlt : e.s.totalBalance < 2 ^ 256) :
    ∃ s₀, e.s.subBalance tx.from e₀.gasCost = .ok s₀ ∧
      (go se vm e₁).s.totalBalance = s₀.totalBalance := by
  obtain ⟨s₀, hs₀, hsp, hrb, -, -, -⟩ := execute_frame hi hx
  obtain ⟨-, rfl⟩ := initialize_ok hi
  obtain ⟨s₀', hs₀', hcases⟩ := execute_ok hx
  obtain rfl : s₀ = s₀' := Except.ok.inj (hs₀.symm.trans hs₀')
  have hlt₀ : s₀.totalBalance < 2 ^ 256 := by have := totalBalance_subBalance hs₀; omega
  have h₁ : e₁.s.totalBalance = s₀.totalBalance := by
    rcases hcases with ⟨-, hc⟩ | ⟨d, -, hc⟩
    · exact (totalBalance_create hc hlt₀ :)
    · exact (totalBalance_call hc hlt₀ :)
  have hlt₁ : e₁.s.totalBalance < 2 ^ 256 := by rwa [h₁]
  refine ⟨s₀, hs₀, ?_⟩
  cases hext : e₁.ext with
  | none => rw [go_of_ext_none hext, h₁]
  | some x =>
      rcases go_state se vm hext with h | ⟨c, h⟩ | h
      · rw [h, HostRun.totalBalance_apply _ (hvm _ _ _) hlt₁, h₁]
      · rw [h, totalBalance_congr fun _ => balance_setNewCode,
          HostRun.totalBalance_apply _ (hvm _ _ _) hlt₁, h₁]
      · rw [h, hsp, ((HostRun.rollsBack _ _).trans hrb).2]
        exact totalBalance_congr fun _ => balance_incNonce

/-- The credits of `finalize()` to the sender and the author give the gas cost
back exactly, with no wrap, on a top-level frame holding no more gas than the
transaction, while the sum of the balances and the gas cost stay below `2^256`. -/
theorem totalBalance_payFees (se : SealEngine) (ht : e.t = some tx) (hg : e.gas.toNat ≤ tx.gas.toNat)
    (hlt : e.s.totalBalance + tx.gas.toNat * tx.gasPrice.toNat < 2 ^ 256) :
    (payFees se e).s.totalBalance = e.s.totalBalance + tx.gas.toNat * tx.gasPrice.toNat := by
  have htx : e.tx = tx := by simp [Executive.tx, ht]
  obtain ⟨hsender, hauthor, hsum⟩ :=
    payFees_credits se (by rwa [htx]) (by rw [htx]; omega)
  rw [htx] at hsender hauthor hsum
  have hsend : (e.s.addBalance tx.from ((payFees se e).gas * tx.gasPrice)).totalBalance =
      e.s.totalBalance + (payFees se e).gas.toNat * tx.gasPrice.toNat := by
    have := balance_le_totalBalance (s := e.s) (a := tx.from)
    rw [totalBalance_addBalance (by omega), hsender]
  have hauth := balance_le_totalBalance (a := e.envInfo.author)
    (s := e.s.addBalance tx.from ((payFees se e).gas * tx.gasPrice))
  rw [payFees_s, ht]
  simp only [Option.isSome_some, ↓reduceIte]
  rw [htx, totalBalance_addBalance (by omega), hsend, hauthor]
  omega

/-- Ether conservation over an accepted transaction whose VM moves ether only
by transfers: after `finalize()` the balances sum to what they did before,
less what the killed accounts held, and no credit wraps. -/
theorem transaction_conserves_ether (se : SealEngine) (dc : DevCore) (vm : VM)
    (hvm : ∀ x g s, (vm.exec x g s).run.movesEtherByTransfer) (s : State) (env : EnvInfo)
    (depth : Nat) (tx : Transaction) (hadm : Admissible se tx (fresh s env depth))
    (hs : s.totalBalance < 2 ^ 256) :
    ∃ e₀ b e₁, Executive.initialize se tx (fresh s env depth) = .ok () e₀ ∧
      execute se dc e₀ = .ok b e₁ ∧
      let e₂ := payFees se (go se vm e₁)
      (finalize se (go se vm e₁)).s.totalBalance +
          ∑ a ∈ e₂.suicides.toFinset, (e₂.s.balance a).toNat = s.totalBalance := by
  have h₀ := initialize_of_admissible hadm
  obtain ⟨b, e₁, h₁⟩ := execute_isOk dc h₀
  refine ⟨_, b, e₁, h₀, h₁, ?_⟩
  obtain ⟨s₀, hs₀, hgo⟩ := totalBalance_go vm hvm h₀ h₁ hs
  have hdebit : s₀.totalBalance + tx.gas.toNat * tx.gasPrice.toNat = s.totalBalance :=
    calc s₀.totalBalance + tx.gas.toNat * tx.gasPrice.toNat
        = s₀.totalBalance + (BitVec.ofNat 256 (tx.gas.toNat * tx.gasPrice.toNat)).toNat := by
          rw [hadm.affordable.toNat_gasCost]
      _ = s.totalBalance := totalBalance_subBalance hs₀
  obtain ⟨ht, -, -, hgas⟩ := go_frame vm h₀ h₁
  have hpay := totalBalance_payFees se ht (hgas.trans (Nat.sub_le _ _)) (by omega)
  have hkill := totalBalance_kills (s := (payFees se (go se vm e₁)).s) (payFees se (go se vm e₁)).suicides
  show ((payFees se (go se vm e₁)).suicides.foldl kill (payFees se (go se vm e₁)).s).totalBalance + _ = _
  omega

/-- The S1 state holds 1 000 000 wei in all. -/
theorem transferState_totalBalance : transferState.totalBalance = 1000000 :=
  (Finset.sum_eq_single_of_mem 10 (Finset.mem_univ _) fun b _ hb => by
    simp only [transferState, balance, if_neg hb]; rfl).trans rfl

/-- The S1 transfer, run by a VM that returns at once, keeps the 1 000 000
wei of its state; it kills no account. -/
theorem transferTx_keepsEther :
    ∃ e₀ b e₁, Executive.initialize (plainEngine ⟨false, 24576, 200, 24000⟩) transferTx
        (fresh transferState ⟨0, 20, 1000000, 0⟩ 0) = .ok () e₀ ∧
      execute (plainEngine ⟨false, 24576, 200, 24000⟩) nullCore e₀ = .ok b e₁ ∧
      let e₂ := payFees (plainEngine ⟨false, 24576, 200, 24000⟩)
        (go (plainEngine ⟨false, 24576, 200, 24000⟩) (returningVM []) e₁)
      (finalize (plainEngine ⟨false, 24576, 200, 24000⟩)
          (go (plainEngine ⟨false, 24576, 200, 24000⟩) (returningVM []) e₁)).s.totalBalance +
        ∑ a ∈ e₂.suicides.toFinset, (e₂.s.balance a).toNat = 1000000 := by
  have h := transaction_conserves_ether (plainEngine ⟨false, 24576, 200, 24000⟩) nullCore
    (returningVM []) (fun _ _ _ => rfl) transferState ⟨0, 20, 1000000, 0⟩ 0 transferTx
    ⟨by unfold FitsBlock; decide, by unfold PaysBaseGas; decide, rfl, by decide,
      by unfold Affordable; decide⟩ (by rw [transferState_totalBalance]; decide)
  rwa [transferState_totalBalance] at h

end Executive

end EthExecutive
