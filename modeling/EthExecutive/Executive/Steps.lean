import EthExecutive.Executive.Defs
import EthExecutive.State.Queries

/-! # What each member of the executive does

One lemma per member that says everything a returning call of it can have
done, guards included; later proofs cite these and do not unfold the members.
-/

namespace EthExecutive.Executive

open State

variable {se : SealEngine} {dc : DevCore} {p : CallParameters} {e e' : Executive} {b : Bool}
  {gp : Word} {o : Address}

/-! ## call() -/

theorem callTransfer_ok (h : callTransfer p e = .ok b e') :
    e.s.transferBalance p.senderAddress p.receiveAddress p.valueTransfer = .ok e'.s ∧
      b = e.ext.isNone ∧ e'.savepoint = e.savepoint ∧ e'.t = e.t ∧ e'.envInfo = e.envInfo ∧
      e'.isCreation = e.isCreation ∧ e'.newAddress = e.newAddress ∧ e'.depth = e.depth ∧
      e'.baseGasRequired = e.baseGasRequired ∧ e'.gasCost = e.gasCost ∧ e'.gas = e.gas ∧
      e'.ext = e.ext ∧ e'.excepted = e.excepted := by
  unfold callTransfer at h
  cases ht : e.s.transferBalance p.senderAddress p.receiveAddress p.valueTransfer with
  | error x => simp only [ht] at h; cases h
  | ok s =>
      simp only [ht] at h
      cases h
      exact ⟨rfl, rfl, rfl, rfl, rfl, rfl, rfl, rfl, rfl, rfl, rfl, rfl, rfl⟩

theorem callTransfer_isOk (h : p.valueTransfer ≤ e.s.balance p.senderAddress) :
    ∃ e', callTransfer p e = .ok e.ext.isNone e' := by
  simp [callTransfer, transferBalance_eq h]

/-- A call() that returns took its savepoint after the sender's nonce
increment (top-level only); after it, a precompile that ran out of gas only
touched its address, and on every other path the value was transferred. The
frame then runs with at most the gas it was given. -/
theorem call_ok (h : call se dc p gp o e = .ok b e') :
    e'.savepoint = (beginCall p e).savepoint ∧ e'.t = e.t ∧ e'.envInfo = e.envInfo ∧
    e'.isCreation = e.isCreation ∧ e'.newAddress = e.newAddress ∧ e'.depth = e.depth ∧
    e'.baseGasRequired = e.baseGasRequired ∧ e'.gasCost = e.gasCost ∧
    ((se.isPrecompiled p.codeAddress e.envInfo.number ∧
        p.gas.toNat < se.costOfPrecompiled p.codeAddress p.data e.envInfo.number ∧
        b = true ∧ e'.ext = e.ext ∧ e'.gas = e.gas ∧ e'.excepted = .outOfGasBase ∧
        e'.s = if se.eip158ForkBlock ≤ e.envInfo.number
          then (beginCall p e).s.addBalance p.codeAddress 0 else (beginCall p e).s) ∨
      ((beginCall p e).s.transferBalance p.senderAddress p.receiveAddress p.valueTransfer =
          .ok e'.s ∧ b = e'.ext.isNone ∧ e'.gas.toNat ≤ p.gas.toNat ∧
        (e'.ext = e.ext ∨ e'.gas = p.gas ∧ ∃ x, e'.ext = some x ∧
          x.myAddress = p.receiveAddress ∧ x.sub = {}))) := by
  simp only [call] at h
  split at h
  · split at h
    · cases h
      exact ⟨rfl, rfl, rfl, rfl, rfl, rfl, rfl, rfl, .inl ⟨‹_›, ‹_›, rfl, rfl, rfl, rfl, rfl⟩⟩
    · -- the precompile ran: `m_gas` is what its cost left, or 0 when it failed
      split at h <;> obtain ⟨ht, rfl, h1, h2, h3, h4, h5, h6, h7, h8, hg, hx, -⟩ := callTransfer_ok h <;>
        refine ⟨h1, h2, h3, h4, h5, h6, h7, h8, .inr ⟨ht, by rw [hx], ?_, .inl hx⟩⟩ <;> rw [hg]
      · exact (Nat.mod_le _ _).trans (Nat.sub_le _ _)
      · exact Nat.zero_le _
  · -- code to run, or none: `m_gas` is the call's gas
    split at h <;> obtain ⟨ht, rfl, h1, h2, h3, h4, h5, h6, h7, h8, hg, hx, -⟩ := callTransfer_ok h
    · exact ⟨h1, h2, h3, h4, h5, h6, h7, h8, .inr ⟨ht, by rw [hx], by rw [hg],
        .inr ⟨hg, _, hx, rfl, rfl⟩⟩⟩
    · exact ⟨h1, h2, h3, h4, h5, h6, h7, h8, .inr ⟨ht, by rw [hx], by rw [hg], .inl hx⟩⟩

@[simp] theorem envInfo_beginCall : (beginCall p e).envInfo = e.envInfo := rfl

@[simp] theorem balance_beginCall (a : Address) :
    (beginCall p e).s.balance a = e.s.balance a := by
  unfold beginCall; split <;> simp

/-- A call whose sender can pay the value returns. -/
theorem call_isOk (h : p.valueTransfer ≤ e.s.balance p.senderAddress) :
    ∃ b e', call se dc p gp o e = .ok b e' := by
  have hb : p.valueTransfer ≤ (beginCall p e).s.balance p.senderAddress := by simpa using h
  simp only [call]
  -- every branch returns at once or ends in the value's transfer
  split_ifs <;> first | exact ⟨_, _, rfl⟩ | exact ⟨_, callTransfer_isOk hb⟩

/-! ## create() -/

/-- A create() that returns took its savepoint after the sender's nonce
increment, and after it transferred the endowment to the new address,
incremented that account's nonce after the EIP-158 fork, and either set up
the init frame or, with empty init code, emptied code already there. -/
theorem create_ok {sender : Address} {endowment gas : Word} {init : Bytes}
    (h : create se dc sender endowment gp gas init o e = .ok b e') :
    e'.savepoint = (beginCreate dc sender gas e).savepoint ∧ e'.t = e.t ∧
    e'.envInfo = e.envInfo ∧ e'.isCreation = true ∧
    e'.newAddress = (beginCreate dc sender gas e).newAddress ∧ e'.depth = e.depth ∧
    e'.baseGasRequired = e.baseGasRequired ∧ e'.gasCost = e.gasCost ∧ e'.gas = gas ∧
    ∃ s₁, (beginCreate dc sender gas e).s.transferBalance sender e'.newAddress endowment = .ok s₁ ∧
      let s₂ := if se.eip158ForkBlock ≤ e.envInfo.number then s₁.incNonce e'.newAddress else s₁
      ((init ≠ [] ∧ e'.s = s₂ ∧ b = false ∧
          ∃ x, e'.ext = some x ∧ x.myAddress = e'.newAddress ∧ x.sub = {}) ∨
        (init = [] ∧ e'.ext = e.ext ∧ b = e.ext.isNone ∧
          e'.s = if s₂.addressHasCode e'.newAddress then s₂.setNewCode e'.newAddress [] else s₂)) := by
  simp only [create] at h
  cases ht : (beginCreate dc sender gas e).s.transferBalance sender
      (beginCreate dc sender gas e).newAddress endowment with
  | error x => simp only [ht] at h; cases h
  | ok s₁ =>
      simp only [ht] at h
      generalize hs₂ : (if se.eip158ForkBlock ≤ (beginCreate dc sender gas e).envInfo.number then
        s₁.incNonce (beginCreate dc sender gas e).newAddress else s₁) = s₂ at h
      by_cases hinit : init.isEmpty
      · simp only [hinit, Bool.not_true, Bool.false_eq_true, ↓reduceIte] at h
        split at h
        · cases h; subst hs₂
          exact ⟨rfl, rfl, rfl, rfl, rfl, rfl, rfl, rfl, rfl, s₁, ht,
            .inr ⟨List.isEmpty_iff.mp hinit, rfl, rfl, (if_pos ‹_›).symm⟩⟩
        · cases h; subst hs₂
          exact ⟨rfl, rfl, rfl, rfl, rfl, rfl, rfl, rfl, rfl, s₁, ht,
            .inr ⟨List.isEmpty_iff.mp hinit, rfl, rfl, (if_neg ‹_›).symm⟩⟩
      · simp only [Bool.eq_false_iff.mpr hinit, Bool.not_false, ↓reduceIte] at h
        cases h
        exact ⟨rfl, rfl, rfl, rfl, rfl, rfl, rfl, rfl, rfl, s₁, ht,
          .inl ⟨by simpa using hinit, hs₂.symm, rfl, _, rfl, rfl, rfl⟩⟩

@[simp] theorem balance_beginCreate {sender a : Address} {gas : Word} :
    (beginCreate dc sender gas e).s.balance a = e.s.balance a := by
  simp [beginCreate]

/-- A create whose sender can pay the endowment returns. -/
theorem create_isOk {sender : Address} {endowment gas : Word} {init : Bytes}
    (h : endowment ≤ e.s.balance sender) : ∃ b e', create se dc sender endowment gp gas init o e = .ok b e' := by
  have hb : endowment ≤ (beginCreate dc sender gas e).s.balance sender := by simpa using h
  simp only [create, transferBalance_eq hb]
  split_ifs <;> exact ⟨_, _, rfl⟩

/-! ## execute() -/

/-- A returning `execute()` debited the gas cost from the sender, then created
or called with the gas left after the base gas. -/
theorem execute_ok (h : execute se dc e = .ok b e') :
    ∃ s₀, e.s.subBalance e.tx.from e.gasCost = .ok s₀ ∧
      ((e.tx.receiveAddress = none ∧
          create se dc e.tx.from e.tx.value e.tx.gasPrice
            (e.tx.gas - BitVec.ofNat 256 e.baseGasRequired) e.tx.data e.tx.from { e with s := s₀ } =
            .ok b e') ∨
        ∃ dest, e.tx.receiveAddress = some dest ∧
          call se dc ⟨e.tx.from, dest, dest, e.tx.value, e.tx.value,
            e.tx.gas - BitVec.ofNat 256 e.baseGasRequired, e.tx.data⟩ e.tx.gasPrice e.tx.from
            { e with s := s₀ } = .ok b e') := by
  unfold execute at h
  cases hs : e.s.subBalance e.tx.from e.gasCost with
  | error x => simp only [hs] at h; cases h
  | ok s₀ =>
      simp only [hs] at h
      refine ⟨s₀, rfl, ?_⟩
      split at h
      · next hr => exact .inl ⟨hr, h⟩
      · next dest hr => exact .inr ⟨dest, hr, h⟩

end EthExecutive.Executive
