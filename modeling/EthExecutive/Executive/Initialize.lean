import EthExecutive.Executive.Steps

/-! # initialize()

The checks `initialize()` makes, compared as unbounded integers: the
transaction fits in the block, pays its base gas, is signed with the sender's
current nonce, and the sender can afford the value and the gas at its price.
`initialize` returns exactly when they hold; otherwise it throws the first
that fails and leaves the state as it was. When it returns, the gas cost fits
in a word, and `execute()` finds the funds it debits and transfers.
-/

namespace EthExecutive.Executive

open State

variable {se : SealEngine} {dc : DevCore} {tx : Transaction} {e e' : Executive}
  {x : TransactionException}

/-- The transaction fits in the gas the block has left. -/
def FitsBlock (tx : Transaction) (e : Executive) : Prop :=
  e.envInfo.gasUsed.toNat + tx.gas.toNat ≤ e.envInfo.gasLimit.toNat

/-- The transaction's gas pays its base gas. -/
def PaysBaseGas (se : SealEngine) (tx : Transaction) (e : Executive) : Prop :=
  tx.baseGasRequired (se.evmSchedule e.envInfo) ≤ tx.gas.toNat

/-- The sender can afford the value and all the gas at its price. -/
def Affordable (tx : Transaction) (e : Executive) : Prop :=
  tx.value.toNat + tx.gas.toNat * tx.gasPrice.toNat ≤ (e.s.balance tx.from).toNat

/-- What `initialize()` asks of a transaction, in the order it asks it. -/
structure Admissible (se : SealEngine) (tx : Transaction) (e : Executive) : Prop where
  fitsBlock : FitsBlock tx e
  paysBaseGas : PaysBaseGas se tx e
  signed : tx.sender.isSome
  nonce : tx.nonce = e.s.getNonce tx.from
  affordable : Affordable tx e

/-- `x` is the exception of the first check of `initialize()` that fails. -/
def FirstFailed (se : SealEngine) (tx : Transaction) (e : Executive) :
    TransactionException → Prop
  | .blockGasLimitReached => ¬ FitsBlock tx e
  | .outOfGasBase => FitsBlock tx e ∧ ¬ PaysBaseGas se tx e
  | .invalidSignature => FitsBlock tx e ∧ PaysBaseGas se tx e ∧ tx.sender = none
  | .invalidNonce => FitsBlock tx e ∧ PaysBaseGas se tx e ∧ tx.sender.isSome ∧
      tx.nonce ≠ e.s.getNonce tx.from
  | .notEnoughCash => FitsBlock tx e ∧ PaysBaseGas se tx e ∧ tx.sender.isSome ∧
      tx.nonce = e.s.getNonce tx.from ∧ ¬ Affordable tx e
  | _ => False

/-- The gas cost is below the sender's balance, so it fits in a word. -/
theorem Affordable.gasCost_lt (h : Affordable tx e) : tx.gas.toNat * tx.gasPrice.toNat < 2 ^ 256 := by
  have := (e.s.balance tx.from).isLt
  unfold Affordable at h
  omega

theorem Affordable.toNat_gasCost (h : Affordable tx e) :
    (BitVec.ofNat 256 (tx.gas.toNat * tx.gasPrice.toNat)).toNat = tx.gas.toNat * tx.gasPrice.toNat :=
  Nat.mod_eq_of_lt h.gasCost_lt

theorem initialize_of_admissible (h : Admissible se tx e) :
    Executive.initialize se tx e = .ok () { e with
      t := some tx
      baseGasRequired := tx.baseGasRequired (se.evmSchedule e.envInfo)
      gasCost := BitVec.ofNat 256 (tx.gas.toNat * tx.gasPrice.toNat) } := by
  obtain ⟨a, ha⟩ := Option.isSome_iff_exists.mp h.signed
  have hfrom : tx.from = a := by simp [Transaction.from, ha]
  have hn := h.nonce
  have hc := h.affordable
  rw [hfrom] at hn
  unfold Affordable at hc
  rw [hfrom] at hc
  simp only [ Executive.initialize, ha]
  rw [if_neg (not_lt.mpr h.fitsBlock), if_neg (not_lt.mpr h.paysBaseGas), if_neg (not_not.mpr hn),
    if_neg (not_lt.mpr hc)]

/-- A returning `initialize()` had every check pass, and recorded the
transaction, its base gas and its gas cost. -/
theorem initialize_ok (h : Executive.initialize se tx e = .ok () e') :
    Admissible se tx e ∧ e' = { e with
      t := some tx
      baseGasRequired := tx.baseGasRequired (se.evmSchedule e.envInfo)
      gasCost := BitVec.ofNat 256 (tx.gas.toNat * tx.gasPrice.toNat) } := by
  simp only [ Executive.initialize, fail] at h
  split at h
  · cases h
  rename_i hb
  split at h
  · cases h
  rename_i hg
  split at h
  · cases h
  next a ha =>
    have hfrom : tx.from = a := by simp [Transaction.from, ha]
    split at h
    · cases h
    rename_i hn
    split at h
    · cases h
    rename_i hc
    cases h
    refine ⟨⟨not_lt.mp hb, not_lt.mp hg, by simp [ha], by rw [hfrom]; exact not_not.mp hn, ?_⟩, rfl⟩
    unfold Affordable
    rw [hfrom]
    exact not_lt.mp hc

/-- A throwing `initialize()` throws the first check that fails, records it
in `m_excepted`, and leaves the state as it was. -/
theorem initialize_error (h : Executive.initialize se tx e = .error x e') :
    e'.s = e.s ∧ e'.excepted = x ∧ FirstFailed se tx e x := by
  simp only [ Executive.initialize, fail] at h
  split at h
  · next hb => cases h; exact ⟨rfl, rfl, not_le.mpr hb⟩
  rename_i hb
  split at h
  · next hg => cases h; exact ⟨rfl, rfl, not_lt.mp hb, not_le.mpr hg⟩
  rename_i hg
  split at h
  · next ha => cases h; exact ⟨rfl, rfl, not_lt.mp hb, not_lt.mp hg, ha⟩
  next a ha =>
    have hfrom : tx.from = a := by simp [Transaction.from, ha]
    split at h
    · next hn =>
      cases h
      exact ⟨rfl, rfl, not_lt.mp hb, not_lt.mp hg, by simp [ha], by rw [hfrom]; exact hn⟩
    rename_i hn
    split at h
    · next hc =>
      cases h
      refine ⟨rfl, rfl, not_lt.mp hb, not_lt.mp hg, by simp [ha], by rw [hfrom]; exact not_not.mp hn, ?_⟩
      unfold Affordable
      rw [hfrom]
      exact not_le.mpr hc
    · cases h

/-- After a returning `initialize()`, `execute()` returns: the gas debit and
the value's transfer in `call()` or `create()` both find the funds. -/
theorem execute_isOk (dc : DevCore) (h : Executive.initialize se tx e = .ok () e') :
    ∃ b e'', execute se dc e' = .ok b e'' := by
  obtain ⟨hadm, rfl⟩ := initialize_ok h
  have hc := hadm.affordable
  have hcost : BitVec.ofNat 256 (tx.gas.toNat * tx.gasPrice.toNat) ≤ e.s.balance tx.from := by
    rw [BitVec.le_def, hc.toNat_gasCost]; unfold Affordable at hc; omega
  obtain ⟨s₁, hs₁⟩ : ∃ s₁, e.s.subBalance tx.from
      (BitVec.ofNat 256 (tx.gas.toNat * tx.gasPrice.toNat)) = .ok s₁ := ⟨_, subBalance_eq hcost⟩
  have hval : tx.value ≤ s₁.balance tx.from := by
    rw [BitVec.le_def, toNat_balance_subBalance hs₁, hc.toNat_gasCost]; unfold Affordable at hc; omega
  simp only [execute, Executive.tx, Option.getD_some, hs₁]
  split
  · apply create_isOk; exact hval
  · apply call_isOk; exact hval

/-- `initialize()` returns exactly when the transaction is admissible, compared
as unbounded integers; when it throws, it throws the first check that failed
and leaves the state as it was; when it returns, the gas cost is recorded
exactly, and the `execute()` that follows cannot be refused for lack of funds. -/
theorem initialize_sound (se : SealEngine) (dc : DevCore) (tx : Transaction) (e : Executive) :
    ((∃ e', Executive.initialize se tx e = .ok () e') ↔ Admissible se tx e) ∧
    (∀ x e', Executive.initialize se tx e = .error x e' →
      e'.s = e.s ∧ e'.excepted = x ∧ FirstFailed se tx e x) ∧
    (∀ e', Executive.initialize se tx e = .ok () e' →
      e'.gasCost.toNat = tx.gas.toNat * tx.gasPrice.toNat ∧
        ∃ b e'', execute se dc e' = .ok b e'') :=
  ⟨⟨fun ⟨_, h⟩ => (initialize_ok h).1, fun h => ⟨_, initialize_of_admissible h⟩⟩,
    fun _ _ => initialize_error,
    fun _ h => ⟨by rw [(initialize_ok h).2]; exact (initialize_ok h).1.affordable.toNat_gasCost,
      execute_isOk dc h⟩⟩

end EthExecutive.Executive
