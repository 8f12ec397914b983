import EthExecutive.State.Changelog

/-! # Rollback

Laws of `rollback(sp)` over the modelled changelog, and one rollback lemma
per mutator. Each entry records what its inverse needs, so rolling a state
back to an earlier savepoint gives the state at that savepoint exactly.
-/

namespace EthExecutive.State

variable {s t u : State} {sp sp' : Nat} {a : Address} {c : Change}

/-! ## The rollback loop -/

theorem undo_with_changeLog (l : List Change) :
    ({ s with changeLog := l } : State).undo c = { s.undo c with changeLog := l } := by
  unfold undo; split <;> rfl

/-- The loop reads only the entries it pops; the log the state carries is
replaced at the end. -/
theorem rollbackLog_with_changeLog (l L : List Change) :
    rollbackLog sp { s with changeLog := l } L = rollbackLog sp s L := by
  induction L generalizing s with
  | nil => rfl
  | cons c L ih =>
      simp only [rollbackLog, undo_with_changeLog]
      split
      · exact ih
      · rfl

theorem rollback_savepoint : s.rollback s.savepoint = s := by
  obtain ⟨accounts, touched, log, start⟩ := s
  cases log <;> simp [rollback, rollbackLog, savepoint]

/-- Rolling back past the newest entry undoes it first. -/
theorem rollback_log (h : sp ≤ s.savepoint) : (s.log c).rollback sp = (s.undo c).rollback sp := by
  simp only [rollback, log_changeLog, rollbackLog, undo_changeLog]
  rw [if_pos (show sp ≤ s.changeLog.length from h), log, undo_with_changeLog]
  exact rollbackLog_with_changeLog _ _

theorem rollbackLog_rollback (h : sp ≤ sp') (L : List Change) :
    (rollbackLog sp' s L).rollback sp = rollbackLog sp s L := by
  induction L generalizing s with
  | nil => rfl
  | cons c L ih =>
      by_cases h' : sp' ≤ L.length
      · simp only [rollbackLog, if_pos h', if_pos (h.trans h')]
        exact ih
      · rw [rollbackLog, if_neg h', rollback]
        exact rollbackLog_with_changeLog _ _

/-- Rolling back in two steps is rolling back once, to the lower savepoint. -/
theorem rollback_rollback (h : sp ≤ sp') : (s.rollback sp').rollback sp = s.rollback sp :=
  rollbackLog_rollback h _

theorem savepoint_rollback (h : sp ≤ s.savepoint) : (s.rollback sp).savepoint = sp := by
  unfold rollback savepoint at *
  generalize s.changeLog = L at h
  induction L generalizing s with
  | nil => simp [rollbackLog] at h ⊢; omega
  | cons c L ih =>
      simp only [rollbackLog]
      split
      · exact ih ‹_›
      · simp only [List.length_cons] at h ⊢; omega

/-! ## Rolling back to an earlier state -/

/-- `t` rolls back to `s`: `s`'s savepoint lies at or below `t`'s, and rolling
`t` back to it gives `s`. -/
def RollsBack (t s : State) : Prop :=
  s.savepoint ≤ t.savepoint ∧ t.rollback s.savepoint = s

theorem RollsBack.refl : RollsBack s s := ⟨le_refl _, rollback_savepoint⟩

theorem RollsBack.trans (hu : RollsBack u t) (ht : RollsBack t s) : RollsBack u s :=
  ⟨ht.1.trans hu.1, by rw [← rollback_rollback ht.1, hu.2, ht.2]⟩

/-- One logged entry whose inverse undoes the edit it records. -/
theorem RollsBack.log (hl : t.changeLog = s.changeLog) (h : t.undo c = s) :
    RollsBack (t.log c) s := by
  have hsp : s.savepoint ≤ t.savepoint := by simp [savepoint, hl]
  exact ⟨hsp.trans (Nat.le_succ _), by rw [rollback_log hsp, h, rollback_savepoint]⟩

theorem rollsBack_touch : RollsBack (s.touch a) s := by
  unfold touch
  split
  · exact .refl
  · next h =>
      refine .log rfl ?_
      simp only [undo_touch, Function.update_idem]
      rw [show false = s.touched a by simpa using h, Function.update_eq_self]

theorem rollsBack_createAccount {acc : Account} (h : s.accounts a = none) :
    RollsBack (s.createAccount a acc) s := by
  refine .log rfl ?_
  simp only [undo_create, kill, Function.update_idem]
  rw [← h, Function.update_eq_self]

theorem rollsBack_ensureAccount {n : Word} : RollsBack (s.ensureAccount a n) s := by
  unfold ensureAccount
  split
  · exact .refl
  · next h => exact rollsBack_createAccount (by simpa [addressInUse] using h)

theorem rollsBack_credit {v : Word} : RollsBack (s.credit a v) s := by
  unfold credit
  split
  · next hv => rw [modify_eq_self fun acc _ => by simp [hv]]; exact .refl
  · refine .log rfl ?_
    rw [undo_balance, modify_modify]
    exact modify_eq_self fun acc _ => by simp [BitVec.add_sub_cancel]

theorem rollsBack_addBalance {v : Word} : RollsBack (s.addBalance a v) s :=
  rollsBack_credit.trans (rollsBack_ensureAccount.trans rollsBack_touch)

theorem rollsBack_subBalance {v : Word} (h : s.subBalance a v = .ok t) : RollsBack t s := by
  unfold subBalance at h
  split at h
  · cases h; exact .refl
  · split at h
    · cases h
    · cases h; exact rollsBack_addBalance

theorem rollsBack_transferBalance {f g : Address} {v : Word} (h : s.transferBalance f g v = .ok t) :
    RollsBack t s := by
  unfold transferBalance at h
  cases hs : s.subBalance f v with
  | error e => simp [hs] at h; cases h
  | ok s' =>
      simp only [hs, Except.map] at h
      cases h
      exact rollsBack_addBalance.trans (rollsBack_subBalance hs)

theorem rollsBack_incNonce : RollsBack (s.incNonce a) s := by
  unfold incNonce
  split
  · refine .log rfl ?_
    rw [undo_nonce, modify_modify]
    exact modify_eq_self fun acc _ => by simp [BitVec.add_sub_cancel]
  · next h => exact rollsBack_createAccount (by simpa [addressInUse] using h)

theorem rollsBack_setStorage {k v : Word} : RollsBack (s.setStorage a k v) s := by
  refine .log rfl ?_
  rw [undo_storage, modify_modify]
  exact modify_eq_self fun acc hacc => by simp [storage, hacc]

theorem rollsBack_createContract : RollsBack (s.createContract a) s := by
  unfold createContract
  split
  · exact .refl
  · next h => exact rollsBack_createAccount (by simpa [addressInUse] using h)

/-- The entry of `setNewCode` holds the code it replaced, also on an address
collision, and its inverse puts that code back. -/
theorem rollsBack_setNewCode {code : Bytes} : RollsBack (s.setNewCode a code) s := by
  refine .log rfl ?_
  rw [undo_newCode, modify_modify]
  exact modify_eq_self fun acc hacc => by simp [State.code, hacc]

end EthExecutive.State
