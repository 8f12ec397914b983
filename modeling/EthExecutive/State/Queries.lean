import EthExecutive.State.Run

/-! # What the mutators do to the queries

Balance, nonce, code and existence after each mutator: the frame lemmas the
executive's proofs cite instead of unfolding the mutators.
-/

namespace EthExecutive.State

variable {s t : State} {a b : Address} {v : Word}

theorem accounts_touch : (s.touch a).accounts = s.accounts := by
  unfold touch; split <;> rfl

@[simp] theorem accountStartNonce_touch : (s.touch a).accountStartNonce = s.accountStartNonce := by
  unfold touch; split <;> rfl

theorem accounts_ensureAccount {n : Word} :
    (s.ensureAccount a n).accounts =
      Function.update s.accounts a (some ((s.accounts a).getD (Account.empty n))) := by
  unfold ensureAccount addressInUse
  cases h : s.accounts a
  · simp [createAccount]
  · simp only [Option.isSome_some, if_true, Option.getD_some]
    rw [← h, Function.update_eq_self]

theorem accounts_addBalance : (s.addBalance a v).accounts = Function.update s.accounts a
    (some (let acc := (s.accounts a).getD (Account.empty s.accountStartNonce)
      { acc with balance := acc.balance + v })) := by
  unfold addBalance credit
  split <;> simp [modify, accounts_ensureAccount, accounts_touch]

theorem accounts_incNonce : (s.incNonce a).accounts = Function.update s.accounts a
    (some (match s.accounts a with
      | some acc => { acc with nonce := acc.nonce + 1 }
      | none => Account.empty (s.accountStartNonce + 1))) := by
  unfold incNonce addressInUse
  cases h : s.accounts a <;> simp [modify, createAccount, h]

@[simp] theorem accountStartNonce_incNonce :
    (s.incNonce a).accountStartNonce = s.accountStartNonce := by
  unfold incNonce; split <;> rfl

@[simp] theorem accountStartNonce_addBalance :
    (s.addBalance a v).accountStartNonce = s.accountStartNonce := by
  unfold addBalance credit ensureAccount; split <;> split <;> simp [createAccount]

@[simp] theorem balance_addBalance :
    (s.addBalance a v).balance b = if b = a then s.balance a + v else s.balance b := by
  by_cases hb : b = a
  · subst hb; cases h : s.accounts b <;> simp [balance, accounts_addBalance, h, Account.empty]
  · simp [balance, accounts_addBalance, hb]

@[simp] theorem getNonce_addBalance : (s.addBalance a v).getNonce b = s.getNonce b := by
  by_cases hb : b = a
  · subst hb; cases h : s.accounts b <;> simp [getNonce, accounts_addBalance, h, Account.empty]
  · simp [getNonce, accounts_addBalance, hb]

@[simp] theorem addressInUse_addBalance :
    (s.addBalance a v).addressInUse b = (b = a || s.addressInUse b) := by
  by_cases hb : b = a <;> simp [addressInUse, accounts_addBalance, hb]

@[simp] theorem code_addBalance : (s.addBalance a v).code b = s.code b := by
  by_cases hb : b = a
  · subst hb; cases h : s.accounts b <;> simp [code, accounts_addBalance, h, Account.empty]
  · simp [code, accounts_addBalance, hb]

@[simp] theorem balance_incNonce : (s.incNonce a).balance b = s.balance b := by
  by_cases hb : b = a
  · subst hb; cases h : s.accounts b <;> simp [balance, accounts_incNonce, h, Account.empty]
  · simp [balance, accounts_incNonce, hb]

@[simp] theorem getNonce_incNonce :
    (s.incNonce a).getNonce b = if b = a then s.getNonce a + 1 else s.getNonce b := by
  by_cases hb : b = a
  · subst hb; cases h : s.accounts b <;> simp [getNonce, accounts_incNonce, h, Account.empty]
  · simp [getNonce, accounts_incNonce, hb]

@[simp] theorem addressInUse_incNonce :
    (s.incNonce a).addressInUse b = (b = a || s.addressInUse b) := by
  by_cases hb : b = a <;> simp [addressInUse, accounts_incNonce, hb]

@[simp] theorem code_incNonce : (s.incNonce a).code b = s.code b := by
  by_cases hb : b = a
  · subst hb; cases h : s.accounts b <;> simp [code, accounts_incNonce, h, Account.empty]
  · simp [code, accounts_incNonce, hb]

@[simp] theorem balance_setNewCode {c : Bytes} : (s.setNewCode a c).balance b = s.balance b := by
  by_cases hb : b = a
  · subst hb; cases h : s.accounts b <;> simp [balance, setNewCode, modify, h]
  · simp [balance, setNewCode, modify, hb]

@[simp] theorem getNonce_setNewCode {c : Bytes} : (s.setNewCode a c).getNonce b = s.getNonce b := by
  by_cases hb : b = a
  · subst hb; cases h : s.accounts b <;> simp [getNonce, setNewCode, modify, h]
  · simp [getNonce, setNewCode, modify, hb]

theorem code_setNewCode {c : Bytes} (ha : s.addressInUse a) :
    (s.setNewCode a c).code b = if b = a then c else s.code b := by
  by_cases hb : b = a
  · subst hb
    obtain ⟨acc, h⟩ := Option.isSome_iff_exists.mp ha
    simp [code, setNewCode, modify, h]
  · simp [code, setNewCode, modify, hb]

/-- A debit that goes through lowers the balance by exactly the amount. -/
theorem subBalance_eq (h : v ≤ s.balance a) :
    s.subBalance a v = .ok (if v = 0 then s else s.addBalance a (0 - v)) := by
  unfold subBalance
  split
  · rfl
  · rw [if_neg (BitVec.not_lt.mpr h)]

theorem subBalance_ok (h : s.subBalance a v = .ok t) : v ≤ s.balance a ∧
    t = if v = 0 then s else s.addBalance a (0 - v) := by
  by_cases hv : v ≤ s.balance a
  · rw [subBalance_eq hv] at h
    exact ⟨hv, (Except.ok.inj h).symm⟩
  · unfold subBalance at h
    split at h
    · next h0 => subst h0; exact absurd (by simp [BitVec.le_def]) hv
    · rw [if_pos (BitVec.not_le.mp hv)] at h; cases h

/-- A debit that goes through lowers the debited balance by the amount, with
no wrap, and leaves every other balance as it was. -/
theorem toNat_balance_subBalance (h : s.subBalance a v = .ok t) :
    (t.balance a).toNat = (s.balance a).toNat - v.toNat := by
  obtain ⟨hv, rfl⟩ := subBalance_ok h
  split
  · next h0 => simp [h0]
  · rw [balance_addBalance, if_pos rfl, show s.balance a + (0 - v) = s.balance a - v by bv_omega,
      BitVec.toNat_sub_of_le hv]

theorem balance_subBalance_of_ne (h : s.subBalance a v = .ok t) (hb : b ≠ a) :
    t.balance b = s.balance b := by
  obtain ⟨-, rfl⟩ := subBalance_ok h
  split <;> simp [hb]

theorem balance_subBalance (h : s.subBalance a v = .ok t) : t.balance a = s.balance a - v := by
  obtain ⟨-, rfl⟩ := subBalance_ok h
  split
  · next h0 => simp [h0]
  · rw [balance_addBalance, if_pos rfl]; bv_omega

theorem getNonce_subBalance (h : s.subBalance a v = .ok t) : t.getNonce b = s.getNonce b := by
  obtain ⟨-, rfl⟩ := subBalance_ok h
  split <;> simp

/-- A transfer the sender can pay goes through. -/
theorem transferBalance_eq {f : Address} (h : v ≤ s.balance f) :
    s.transferBalance f a v = .ok ((if v = 0 then s else s.addBalance f (0 - v)).addBalance a v) := by
  simp [transferBalance, subBalance_eq h, Except.map]

/-- A transfer that goes through is the debit, then the credit. -/
theorem transferBalance_ok {f : Address} (h : s.transferBalance f a v = .ok t) :
    ∃ s₁, s.subBalance f v = .ok s₁ ∧ t = s₁.addBalance a v := by
  unfold transferBalance at h
  cases hs : s.subBalance f v with
  | error x => simp [hs, Except.map] at h
  | ok s₁ => simp only [hs, Except.map, Except.ok.injEq] at h; exact ⟨s₁, rfl, h.symm⟩

/-- A transfer between two accounts moves the value from the one to the
other; no other balance and no nonce changes. -/
theorem transferBalance_spec {f : Address} (h : s.transferBalance f a v = .ok t) :
    (f ≠ a → t.balance f = s.balance f - v ∧ t.balance a = s.balance a + v) ∧
      (∀ b, b ≠ f → b ≠ a → t.balance b = s.balance b) ∧ ∀ b, t.getNonce b = s.getNonce b := by
  obtain ⟨s₁, hs₁, rfl⟩ := transferBalance_ok h
  refine ⟨fun hfa => ?_, fun b hbf hba => ?_, fun b => ?_⟩
  · rw [balance_addBalance, balance_addBalance, if_neg hfa, if_pos rfl, balance_subBalance hs₁,
      balance_subBalance_of_ne hs₁ (Ne.symm hfa)]
    exact ⟨rfl, rfl⟩
  · rw [balance_addBalance, if_neg hba, balance_subBalance_of_ne hs₁ hbf]
  · rw [getNonce_addBalance, getNonce_subBalance hs₁]

/-! ## Edits that keep the account -/

section Modify

variable {f : Account → Account}

theorem balance_modify (hf : ∀ acc, (f acc).balance = acc.balance) :
    (s.modify a f).balance b = s.balance b := by
  by_cases hb : b = a
  · subst hb; cases h : s.accounts b <;> simp [balance, modify, h, hf]
  · simp [balance, modify, hb]

theorem getNonce_modify (hf : ∀ acc, (f acc).nonce = acc.nonce) :
    (s.modify a f).getNonce b = s.getNonce b := by
  by_cases hb : b = a
  · subst hb; cases h : s.accounts b <;> simp [getNonce, modify, h, hf]
  · simp [getNonce, modify, hb]

@[simp] theorem addressInUse_modify : (s.modify a f).addressInUse b = s.addressInUse b := by
  by_cases hb : b = a
  · subst hb; cases h : s.accounts b <;> simp [addressInUse, modify, h]
  · simp [addressInUse, modify, hb]

end Modify

@[simp] theorem addressInUse_log {c : Change} : (s.log c).addressInUse b = s.addressInUse b := rfl

@[simp] theorem balance_log {c : Change} : (s.log c).balance b = s.balance b := rfl

@[simp] theorem getNonce_log {c : Change} : (s.log c).getNonce b = s.getNonce b := rfl

@[simp] theorem balance_setStorage {k w : Word} : (s.setStorage a k w).balance b = s.balance b :=
  balance_modify fun _ => rfl

@[simp] theorem getNonce_setStorage {k w : Word} : (s.setStorage a k w).getNonce b = s.getNonce b :=
  getNonce_modify fun _ => rfl

@[simp] theorem addressInUse_createAccount {acc : Account} :
    (s.createAccount a acc).addressInUse b = (b = a || s.addressInUse b) := by
  by_cases hb : b = a <;> simp [createAccount, addressInUse, hb]

/-- Killing accounts empties exactly their balances. -/
theorem balance_foldl_kill (as : List Address) :
    (as.foldl kill s).balance b = if b ∈ as then 0 else s.balance b := by
  induction as generalizing s with
  | nil => simp
  | cons a as ih =>
      rw [List.foldl_cons, ih]
      by_cases hb : b = a <;> simp [kill, balance, hb]

end EthExecutive.State

namespace EthExecutive

open State

variable {s : State} {a : Address}

/-- No mutator removes an account; only `kill` in `finalize()` does. -/
theorem Mutation.addressInUse_apply (m : Mutation) (h : s.addressInUse a) :
    (m.apply s).addressInUse a := by
  cases m with
  | subBalance c v =>
      simp only [Mutation.apply]
      split
      · next t ht => obtain ⟨-, rfl⟩ := subBalance_ok ht; split <;> simp [h]
      · exact h
  | transferBalance f c v =>
      simp only [Mutation.apply]
      split
      · next t ht =>
          obtain ⟨s₁, hs₁, rfl⟩ := transferBalance_ok ht
          obtain ⟨-, rfl⟩ := subBalance_ok hs₁
          split <;> simp [h]
      · exact h
  | createContract c => simp only [Mutation.apply, State.createContract]; split <;> simp [h]
  | _ => simp [Mutation.apply, State.setStorage, State.setNewCode, h]

theorem HostRun.addressInUse_apply (r : HostRun) (h : s.addressInUse a) :
    (r.apply s).addressInUse a := by
  induction r generalizing s with
  | done => exact h
  | mutate m rest ih => exact ih (m.addressInUse_apply h)
  | frame body reverted rest ihb ihr =>
      apply ihr
      split
      · rwa [(body.rollsBack s).2]
      · exact ihb h

end EthExecutive
