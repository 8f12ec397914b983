import EthExecutive.Executive.Nested

/-! # Who pays for a transaction

The balances a transaction moves, account by account. The gas debit of
`execute()` and the two credits of `finalize()` settle the fee: the block
author receives exactly `gasUsed() · gasPrice` and the sender pays it, and
the sender pays the value on top when the frame ends without an exception,
when the three parties are distinct accounts, the VM's runs neither move nor
kill the sender's or the author's ether, and the author's credit does not
wrap. Every other account keeps its balance unless the VM's runs move its
ether or kill it, where a run's footprint is the list of accounts its
mutations, at any depth, credit, debit or transfer between.
-/

namespace EthExecutive

open State

/-- The accounts whose balance the mutator may change. -/
def Mutation.balanceTargets : Mutation → List Address
  | .addBalance a _ => [a]
  | .subBalance a _ => [a]
  | .transferBalance f t _ => [f, t]
  | _ => []

/-- The accounts whose balance some mutation of the run, at any depth, may
change. -/
def HostRun.balanceTargets : HostRun → List Address
  | .done => []
  | .mutate m rest => m.balanceTargets ++ rest.balanceTargets
  | .frame body _ rest => body.balanceTargets ++ rest.balanceTargets

/-- The account a transaction's value goes to: its receiver, or the address
of the contract it creates. -/
def Transaction.recipient (dc : DevCore) (tx : Transaction) : Address :=
  tx.receiveAddress.getD (right160 (dc.sha3 (dc.rlpList tx.from tx.nonce)))

variable {s : State} {a : Address}

theorem Mutation.balance_apply (m : Mutation) (h : a ∉ m.balanceTargets) :
    (m.apply s).balance a = s.balance a := by
  cases m with
  | addBalance b v =>
      simp only [balanceTargets, List.mem_singleton] at h
      simp [apply, h]
  | subBalance b v =>
      simp only [balanceTargets, List.mem_singleton] at h
      simp only [apply]
      split
      · next t ht => exact balance_subBalance_of_ne ht h
      · rfl
  | transferBalance f t v =>
      simp only [balanceTargets, List.mem_cons, List.mem_singleton, not_or] at h
      simp only [apply]
      split
      · next u hu => exact (transferBalance_spec hu).2.1 a h.1 h.2.1
      · rfl
  | _ => simp [apply]

/-- A run changes no balance outside its footprint: a reverted frame restores
the balances it started from. -/
theorem HostRun.balance_apply (r : HostRun) (h : a ∉ r.balanceTargets) :
    (r.apply s).balance a = s.balance a := by
  induction r generalizing s with
  | done => rfl
  | mutate m rest ih =>
      simp only [balanceTargets, List.mem_append, not_or] at h
      exact (ih h.2).trans (m.balance_apply h.1)
  | frame body reverted rest ihb ihr =>
      simp only [balanceTargets, List.mem_append, not_or] at h
      refine (ihr h.2).trans ?_
      split
      · rw [(body.rollsBack s).2]
      · exact ihb h.1

@[simp] theorem HostRun.balanceTargets_append (r r' : HostRun) :
    (r.append r').balanceTargets = r.balanceTargets ++ r'.balanceTargets := by
  induction r with
  | done => rfl
  | mutate m rest ih => simp [append, balanceTargets, ih]
  | frame body reverted rest _ ih => simp [append, balanceTargets, ih]

namespace Executive

/-- A deposit moves no ether: `go()` inside a frame has the VM run's footprint. -/
theorem balanceTargets_frameRun {sched : EVMSchedule} {addr : Address} {c : Bool} {r : VMRun} :
    (frameRun sched addr c r).balanceTargets = r.run.balanceTargets := by
  unfold frameRun
  split
  · simp only [HostRun.balanceTargets_append, List.append_right_eq_self]
    split <;> rfl
  · rfl

/-- The credits of `finalize()` go to the sender and the author only. -/
theorem balance_payFees_of_ne (se : SealEngine) {e : Executive} (hf : a ≠ e.tx.from)
    (hau : a ≠ e.envInfo.author) : (payFees se e).s.balance a = e.s.balance a := by
  rw [payFees_s]; split <;> simp [hf, hau]

section Credits

variable (se : SealEngine) {e : Executive} {tx : Transaction}

/-- `gasUsed()` after `finalize()` and the gas `payFees` leaves add up to the
transaction's gas. -/
theorem gasUsed_finalize (ht : e.t = some tx) (hg : e.gas.toNat ≤ tx.gas.toNat) :
    (finalize se e).gasUsed.toNat + (payFees se e).gas.toNat = tx.gas.toNat := by
  have htx : e.tx = tx := by simp [Executive.tx, ht]
  have hle := (payFees_gas_le se (htx ▸ hg)).2.2
  rw [htx] at hle
  show ((finalize se e).tx.gas - (payFees se e).gas).toNat + _ = _
  rw [show (finalize se e).tx = tx from htx, BitVec.toNat_sub_of_le (BitVec.le_def.mpr hle)]
  omega

/-- The author's credit in `finalize()`: the price of the gas used, when the
kills miss the author and the credit cannot wrap. -/
theorem balance_finalize_author (ht : e.t = some tx) (hg : e.gas.toNat ≤ tx.gas.toNat)
    (hfa : e.envInfo.author ≠ tx.from) (ha : e.envInfo.author ∉ e.suicides)
    (hwrap : (e.s.balance e.envInfo.author).toNat + tx.gas.toNat * tx.gasPrice.toNat < 2 ^ 256) :
    ((finalize se e).s.balance e.envInfo.author).toNat =
      (e.s.balance e.envInfo.author).toNat + (finalize se e).gasUsed.toNat * tx.gasPrice.toNat := by
  have htx : e.tx = tx := by simp [Executive.tx, ht]
  obtain ⟨-, hauthor, hsum⟩ := payFees_credits se (htx ▸ hg) (by rw [htx]; omega)
  rw [htx] at hauthor hsum
  have hused := gasUsed_finalize se ht hg
  rw [balance_finalize se ha, payFees_s, if_pos (by simp [ht]), htx, balance_addBalance, if_pos rfl,
    balance_addBalance, if_neg hfa, BitVec.toNat_add_of_lt (by rw [hauthor]; omega), hauthor,
    show tx.gas.toNat - (payFees se e).gas.toNat = (finalize se e).gasUsed.toNat by omega]

/-- The sender's credit in `finalize()`: the price of the gas left, so that
the sender's balance with the price of the gas used added back is its balance
with the whole gas cost added back, when the kills miss the sender and that
sum fits a word. -/
theorem balance_finalize_sender (ht : e.t = some tx) (hg : e.gas.toNat ≤ tx.gas.toNat)
    (hfa : e.envInfo.author ≠ tx.from) (hf : tx.from ∉ e.suicides)
    (hwrap : (e.s.balance tx.from).toNat + tx.gas.toNat * tx.gasPrice.toNat < 2 ^ 256) :
    ((finalize se e).s.balance tx.from).toNat + (finalize se e).gasUsed.toNat * tx.gasPrice.toNat =
      (e.s.balance tx.from).toNat + tx.gas.toNat * tx.gasPrice.toNat := by
  have htx : e.tx = tx := by simp [Executive.tx, ht]
  obtain ⟨hsender, -, hsum⟩ := payFees_credits se (htx ▸ hg) (by rw [htx]; omega)
  rw [htx] at hsender hsum
  have hused := gasUsed_finalize se ht hg
  rw [balance_finalize se hf, payFees_s, if_pos (by simp [ht]), htx, balance_addBalance,
    if_neg (Ne.symm hfa), balance_addBalance, if_pos rfl,
    BitVec.toNat_add_of_lt (by rw [hsender]; omega), hsender,
    show (finalize se e).gasUsed.toNat = tx.gas.toNat - (payFees se e).gas.toNat by omega]
  omega

end Credits

variable {se : SealEngine} {dc : DevCore} {vm : VM} {tx : Transaction} {env : EnvInfo}
  {depth : Nat} {e e₀ e₁ : Executive} {b : Bool}

/-- `go()` kills only what the VM's run marked for deletion, and nothing when
it reverts the frame. -/
theorem not_mem_suicides_go (hvm : ∀ x g s', a ∉ (vm.exec x g s').sub.suicides) :
    a ∉ (go se vm e).suicides := by
  cases hx : e.ext with
  | none => simp [go_of_ext_none hx, suicides, hx]
  | some x =>
      cases hrv : reverts (se.evmSchedule e.envInfo) e.isCreation (vm.exec x e.gas e.s).result
      · simp [suicides, (go_of_not_reverts hx hrv).2.1, hvm]
      · simp [suicides, (go_of_reverts hx hrv).2.2.2.1]

/-- After `initialize()` and `execute()`: the sender has paid the gas cost; no
balance but the sender's and the recipient's has changed; and unless the
frame holds an exception, the value has gone from the sender to the
recipient. -/
theorem execute_balances (h₀ : Executive.initialize se tx (fresh s env depth) = .ok () e₀)
    (h₁ : execute se dc e₀ = .ok b e₁) :
    ∃ s₀, s.subBalance tx.from e₀.gasCost = .ok s₀ ∧
      (∀ a, a ≠ tx.from → a ≠ tx.recipient dc → e₁.s.balance a = s.balance a) ∧
      (e₁.excepted = .none → tx.recipient dc ≠ tx.from →
        e₁.s.balance tx.from = s₀.balance tx.from - tx.value) := by
  obtain ⟨hadm, rfl⟩ := initialize_ok h₀
  obtain ⟨s₀, hs₀, hcases⟩ := execute_ok h₁
  simp only [Executive.tx, Option.getD_some] at hs₀ hcases
  refine ⟨s₀, hs₀, ?_⟩
  have hother : ∀ a, a ≠ tx.from → s₀.balance a = s.balance a :=
    fun a ha => balance_subBalance_of_ne hs₀ ha
  rcases hcases with ⟨hr, hc⟩ | ⟨d, hr, hc⟩
  · -- a creation: the endowment goes to the new address
    obtain ⟨-, -, -, -, hna, -, -, -, -, s₁, htr, hpaths⟩ := create_ok hc
    have hrec : tx.recipient dc = e₁.newAddress := by
      rw [hna]
      simp [Transaction.recipient, hr, beginCreate, getNonce_subBalance hs₀, hadm.nonce, fresh]
    have hs : ∀ a, e₁.s.balance a = s₁.balance a := by
      intro a
      rcases hpaths with ⟨-, hs, -⟩ | ⟨-, -, -, hs⟩ <;> rw [hs] <;> split_ifs <;> simp
    obtain ⟨hft, hrest, -⟩ := transferBalance_spec htr
    simp only [Executive.tx, Option.getD_some, balance_beginCreate] at hft hrest
    refine ⟨fun a hf hrcp => ?_, fun _ hne => ?_⟩
    · rw [hs, hrest a hf (hrec ▸ hrcp), hother a hf]
    · rw [hs, (hft (hrec ▸ hne.symm)).1]
  · -- a call: the value goes to the receiver, unless a precompile's base cost is not met
    obtain ⟨-, -, -, -, -, -, -, -, hpaths⟩ := call_ok hc
    have hrec : tx.recipient dc = d := by simp [Transaction.recipient, hr]
    rcases hpaths with ⟨-, -, -, -, -, hexc, hs⟩ | ⟨htr, -⟩
    · refine ⟨fun a hf hrcp => ?_, fun h => absurd (hexc.symm.trans h) (by decide)⟩
      have had : a ≠ d := hrec ▸ hrcp
      rw [hs]
      split <;> simp [had, hother a hf]
    · obtain ⟨hft, hrest, -⟩ := transferBalance_spec htr
      simp only [Executive.tx, Option.getD_some, balance_beginCall] at hft hrest
      refine ⟨fun a hf hrcp => ?_, fun _ hne => ?_⟩
      · rw [hrest a hf (hrec ▸ hrcp), hother a hf]
      · exact (hft (hrec ▸ hne.symm)).1

/-- What `go()` leaves of a balance the VM's runs never change: the balance
`execute()` left, or, when `go()` reverts the frame, the balance at the
savepoint, where the sender has only paid the gas cost. A frame that `go()`
leaves without an exception held none before and was not reverted. -/
theorem go_balance (hvm : ∀ x g s', a ∉ (vm.exec x g s').run.balanceTargets) {s₀ : State}
    (h₀ : Executive.initialize se tx (fresh s env depth) = .ok () e₀)
    (h₁ : execute se dc e₀ = .ok b e₁) (hs₀ : s.subBalance tx.from e₀.gasCost = .ok s₀) :
    ((go se vm e₁).s.balance a = e₁.s.balance a ∨ (go se vm e₁).s.balance a = s₀.balance a) ∧
      ((go se vm e₁).excepted = .none →
        e₁.excepted = .none ∧ (go se vm e₁).s.balance a = e₁.s.balance a) := by
  obtain ⟨s₀', hs₀', hsp, hrb, -, -, -⟩ := execute_frame h₀ h₁
  obtain rfl : s₀ = s₀' := Except.ok.inj (hs₀.symm.trans hs₀')
  cases hx : e₁.ext with
  | none => rw [go_of_ext_none hx]; exact ⟨.inl rfl, fun h => ⟨h, rfl⟩⟩
  | some x =>
      cases hrv : reverts (se.evmSchedule e₁.envInfo) e₁.isCreation (vm.exec x e₁.gas e₁.s).result
      · obtain ⟨hs, -, -, hexc⟩ := go_of_not_reverts hx hrv
        have hbal : (go se vm e₁).s.balance a = e₁.s.balance a := by
          rw [hs]; exact HostRun.balance_apply _ (by rw [balanceTargets_frameRun]; exact hvm _ _ _)
        exact ⟨.inl hbal, fun h => ⟨hexc ▸ h, hbal⟩⟩
      · obtain ⟨hs, -, -, -, hexc⟩ := go_of_reverts hx hrv
        refine ⟨.inr ?_, fun h => absurd h hexc⟩
        rw [hs, hsp, ((HostRun.rollsBack _ _).trans hrb).2, balance_incNonce]

/-- Who pays for a transaction `initialize()` accepts, when the sender, the
recipient and the block author are three accounts, the VM's runs never move
ether to or from the sender or the author nor kill them, and the author's
credit cannot wrap. After `execute()`, `go()` and `finalize()`, the author's
balance has grown by exactly `gasUsed() · gasPrice`, the fee; when the frame
ends without an exception, the sender's has shrunk by the fee and the value.
-/
theorem transaction_fees (se : SealEngine) (dc : DevCore) (vm : VM) (s : State) (env : EnvInfo)
    (depth : Nat) (tx : Transaction) (hadm : Admissible se tx (fresh s env depth))
    (hparties : env.author ≠ tx.from ∧ tx.recipient dc ≠ env.author ∧ tx.recipient dc ≠ tx.from)
    (hvm : ∀ x g s', env.author ∉ (vm.exec x g s').run.balanceTargets ∧
      tx.from ∉ (vm.exec x g s').run.balanceTargets ∧ env.author ∉ (vm.exec x g s').sub.suicides ∧
      tx.from ∉ (vm.exec x g s').sub.suicides)
    (hwrap : (s.balance env.author).toNat + tx.gas.toNat * tx.gasPrice.toNat < 2 ^ 256) :
    ∃ e₀ b e₁, Executive.initialize se tx (fresh s env depth) = .ok () e₀ ∧
      execute se dc e₀ = .ok b e₁ ∧
      let e₃ := finalize se (go se vm e₁)
      (e₃.s.balance env.author).toNat =
          (s.balance env.author).toNat + e₃.gasUsed.toNat * tx.gasPrice.toNat ∧
        (e₃.excepted = .none →
          (e₃.s.balance tx.from).toNat + e₃.gasUsed.toNat * tx.gasPrice.toNat + tx.value.toNat =
            (s.balance tx.from).toNat) := by
  obtain ⟨hfa, hra, hrf⟩ := hparties
  have h₀ := initialize_of_admissible hadm
  obtain ⟨b, e₁, h₁⟩ := execute_isOk dc h₀
  refine ⟨_, b, e₁, h₀, h₁, ?_⟩
  obtain ⟨s₀, hs₀, hother, hvalue⟩ := execute_balances h₀ h₁
  obtain ⟨hauth₂, -⟩ := go_balance (fun x g s' => (hvm x g s').1) h₀ h₁ hs₀
  obtain ⟨-, hfrom₂⟩ := go_balance (fun x g s' => (hvm x g s').2.1) h₀ h₁ hs₀
  have hauth : (go se vm e₁).s.balance env.author = s.balance env.author := by
    rcases hauth₂ with h | h <;> rw [h]
    · exact hother _ hfa hra.symm
    · exact balance_subBalance_of_ne hs₀ hfa
  obtain ⟨ht₂, henv₂, -, hgas₂⟩ := go_frame vm h₀ h₁
  have hg : (go se vm e₁).gas.toNat ≤ tx.gas.toNat := hgas₂.trans (Nat.sub_le _ _)
  have hfa₂ : (go se vm e₁).envInfo.author ≠ tx.from := by rwa [henv₂]
  dsimp only
  refine ⟨?_, fun hexc => ?_⟩
  · -- the author: the credit of `finalize()` on the balance it had
    have h := balance_finalize_author se ht₂ hg hfa₂
      (by rw [henv₂]; exact not_mem_suicides_go fun x g s' => (hvm x g s').2.2.1)
      (by rwa [henv₂, hauth])
    rwa [henv₂, hauth] at h
  · -- the sender: the gas cost and the value, less the credit for the gas left
    obtain ⟨hexc₁, hbal⟩ := hfrom₂ hexc
    have hB := toNat_balance_subBalance hs₀
    rw [hadm.affordable.toNat_gasCost] at hB
    have hA : tx.value.toNat + tx.gas.toNat * tx.gasPrice.toNat ≤ (s.balance tx.from).toNat :=
      hadm.affordable
    have hlt := (s.balance tx.from).isLt
    have hv : (s₀.balance tx.from - tx.value).toNat = (s₀.balance tx.from).toNat - tx.value.toNat :=
      BitVec.toNat_sub_of_le (BitVec.le_def.mpr (by omega))
    have h := balance_finalize_sender se ht₂ hg hfa₂
      (not_mem_suicides_go fun x g s' => (hvm x g s').2.2.2)
      (by rw [hbal, hvalue hexc₁ hrf, hv]; omega)
    rw [hbal, hvalue hexc₁ hrf, hv] at h
    omega

/-- The S1 transfer: the author, account 20, receives the fee, and the sender
pays the fee and the 1000 wei. -/
theorem transferTx_fees :
    ∃ e₀ b e₁, Executive.initialize (plainEngine ⟨false, 24576, 200, 24000⟩) transferTx
        (fresh transferState ⟨0, 20, 1000000, 0⟩ 0) = .ok () e₀ ∧
      execute (plainEngine ⟨false, 24576, 200, 24000⟩) nullCore e₀ = .ok b e₁ ∧
      let e₃ := finalize (plainEngine ⟨false, 24576, 200, 24000⟩)
        (go (plainEngine ⟨false, 24576, 200, 24000⟩) (returningVM []) e₁)
      (e₃.s.balance 20).toNat =
          (transferState.balance 20).toNat + e₃.gasUsed.toNat * transferTx.gasPrice.toNat ∧
        (e₃.excepted = .none →
          (e₃.s.balance transferTx.from).toNat + e₃.gasUsed.toNat * transferTx.gasPrice.toNat +
              transferTx.value.toNat = (transferState.balance transferTx.from).toNat) :=
  transaction_fees (plainEngine ⟨false, 24576, 200, 24000⟩) nullCore (returningVM []) transferState
    ⟨0, 20, 1000000, 0⟩ 0 transferTx
    ⟨by unfold FitsBlock; decide, by unfold PaysBaseGas; decide, rfl, by decide,
      by unfold Affordable; decide⟩
    (by decide) (fun _ _ _ => by simp [returningVM, HostRun.balanceTargets]) (by decide)

/-- A transaction moves no ether of an account outside it. After `execute()`,
`go()` and `finalize()` of a transaction `initialize()` accepts, an account
that is not the sender, the recipient or the block author, that the VM's runs
never credit, debit or transfer to or from, and that they never mark for
deletion, has the balance it had. -/
theorem transaction_balance_frame (se : SealEngine) (dc : DevCore) (vm : VM) (s : State)
    (env : EnvInfo) (depth : Nat) (tx : Transaction) (hadm : Admissible se tx (fresh s env depth))
    (a : Address) (ha : a ≠ tx.from ∧ a ≠ tx.recipient dc ∧ a ≠ env.author)
    (hvm : ∀ x g s', a ∉ (vm.exec x g s').run.balanceTargets ∧ a ∉ (vm.exec x g s').sub.suicides) :
    ∃ e₀ b e₁, Executive.initialize se tx (fresh s env depth) = .ok () e₀ ∧
      execute se dc e₀ = .ok b e₁ ∧ (finalize se (go se vm e₁)).s.balance a = s.balance a := by
  obtain ⟨haf, har, haa⟩ := ha
  have h₀ := initialize_of_admissible hadm
  obtain ⟨b, e₁, h₁⟩ := execute_isOk dc h₀
  refine ⟨_, b, e₁, h₀, h₁, ?_⟩
  obtain ⟨s₀, hs₀, hother, -⟩ := execute_balances h₀ h₁
  obtain ⟨hgo, -⟩ := go_balance (fun x g s' => (hvm x g s').1) h₀ h₁ hs₀
  obtain ⟨ht₂, henv₂, -, -⟩ := go_frame vm h₀ h₁
  have htx : (go se vm e₁).tx = tx := by simp [Executive.tx, ht₂]
  rw [balance_finalize se (not_mem_suicides_go fun x g s' => (hvm x g s').2),
    balance_payFees_of_ne se (by rwa [htx]) (by rwa [henv₂])]
  rcases hgo with h | h <;> rw [h]
  · exact hother a haf har
  · exact balance_subBalance_of_ne hs₀ haf

/-- In the S1 transfer, account 21, which takes no part in it, keeps its balance. -/
theorem transferTx_balance_frame :
    ∃ e₀ b e₁, Executive.initialize (plainEngine ⟨false, 24576, 200, 24000⟩) transferTx
        (fresh transferState ⟨0, 20, 1000000, 0⟩ 0) = .ok () e₀ ∧
      execute (plainEngine ⟨false, 24576, 200, 24000⟩) nullCore e₀ = .ok b e₁ ∧
      (finalize (plainEngine ⟨false, 24576, 200, 24000⟩)
        (go (plainEngine ⟨false, 24576, 200, 24000⟩) (returningVM []) e₁)).s.balance 21 =
          transferState.balance 21 :=
  transaction_balance_frame (plainEngine ⟨false, 24576, 200, 24000⟩) nullCore (returningVM [])
    transferState ⟨0, 20, 1000000, 0⟩ 0 transferTx
    ⟨by unfold FitsBlock; decide, by unfold PaysBaseGas; decide, rfl, by decide,
      by unfold Affordable; decide⟩ 21 (by decide)
    (fun _ _ _ => by simp [returningVM, HostRun.balanceTargets])

end Executive

end EthExecutive
