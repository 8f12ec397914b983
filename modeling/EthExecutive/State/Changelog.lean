import EthExecutive.Basic
import Mathlib.Logic.Function.Basic

/-! # The state and its changelog

`State.h` declares the state's mutators, `savepoint()` and `rollback()`, and
the `detail::Change` record they log; their bodies are in `State.cpp`, which
is not under src/, and are modelled from the spec (§3, §4.1–§4.3): every
mutator appends the entries that undo it, and `rollback(sp)` pops entries
above `sp`, newest first, undoing each from what it records. The state is
seen through its queries (per address an account of nonce, balance, storage
with unset keys reading 0 and code, or none; and the touched set), and the
changelog is kept newest entry first, so a savepoint is its length.
-/

namespace EthExecutive

/-- An account as the state's queries present it (Account.h is not under
src/): storage is the overlay read over the trie. -/
structure Account where
  nonce : Word
  balance : Word
  storage : Word → Word
  code : Bytes

/-- The state: the accounts in use, the touched set, the changelog (newest
entry first) and the account start nonce. -/
structure State where
  accounts : Address → Option Account
  touched : Address → Bool
  changeLog : List Change
  accountStartNonce : Word

/-- A fresh account with the given nonce. -/
def Account.empty (nonce : Word) : Account := ⟨nonce, 0, fun _ => 0, []⟩

namespace State

/-! ## Queries -/

/-- Modelled from the spec: `savepoint()`, the index rollback returns to. -/
def savepoint (s : State) : Nat := s.changeLog.length

/-- Modelled from the spec: `addressInUse`. -/
def addressInUse (s : State) (a : Address) : Bool := (s.accounts a).isSome

/-- Modelled from the spec: `balance`, 0 when absent. -/
def balance (s : State) (a : Address) : Word := ((s.accounts a).map Account.balance).getD 0

/-- Modelled from the spec: `getNonce`, the account start nonce when absent. -/
def getNonce (s : State) (a : Address) : Word :=
  ((s.accounts a).map Account.nonce).getD s.accountStartNonce

/-- Modelled from the spec: `storage(a, k)`, 0 when absent. -/
def storage (s : State) (a : Address) (k : Word) : Word :=
  ((s.accounts a).map (·.storage k)).getD 0

/-- Modelled from the spec: `code`, empty when absent. -/
def code (s : State) (a : Address) : Bytes := ((s.accounts a).map Account.code).getD []

/-- Modelled from the spec: `addressHasCode`, the account exists and its code
is not empty. -/
def addressHasCode (s : State) (a : Address) : Bool := !(s.code a).isEmpty

/-! ## Edits the mutators are made of -/

/-- Append one changelog entry. -/
def log (s : State) (c : Change) : State := { s with changeLog := c :: s.changeLog }

/-- Apply `f` to the account at `a`, if there is one. -/
def modify (s : State) (a : Address) (f : Account → Account) : State :=
  { s with accounts := Function.update s.accounts a ((s.accounts a).map f) }

/-- Modelled from the spec: `touch`, which logs first touches (§4.2). -/
def touch (s : State) (a : Address) : State :=
  if s.touched a then s
  else { s with touched := Function.update s.touched a true }.log ⟨.touch, a, 0, 0, []⟩

/-- Modelled from the spec: `createAccount`, a new account, logged as created. -/
def createAccount (s : State) (a : Address) (acc : Account) : State :=
  { s with accounts := Function.update s.accounts a (some acc) }.log ⟨.create, a, 0, 0, []⟩

/-! ## Mutators -/

/-- The account at `a`, created with the given nonce if absent. -/
def ensureAccount (s : State) (a : Address) (nonce : Word) : State :=
  if s.addressInUse a then s else s.createAccount a (Account.empty nonce)

/-- Increase the balance at `a` by `v`, logging a nonzero increase. -/
def credit (s : State) (a : Address) (v : Word) : State :=
  let s := s.modify a fun acc => { acc with balance := acc.balance + v }
  if v = 0 then s else s.log ⟨.balance, a, v, 0, []⟩

/-- Modelled from the spec: `addBalance` touches the account, creates it if
absent, then credits it. A zero credit only touches. -/
def addBalance (s : State) (a : Address) (v : Word) : State :=
  ((s.touch a).ensureAccount a s.accountStartNonce).credit a v

/-- Modelled from the spec: `subBalance` does nothing for 0, fails with
`NotEnoughCash` when the balance is short (also when the account does not
exist), and otherwise adds `0 - v`. -/
def subBalance (s : State) (a : Address) (v : Word) : Except TransactionException State :=
  if v = 0 then .ok s
  else if s.balance a < v then .error .notEnoughCash
  else .ok (s.addBalance a (0 - v))

/-- `transferBalance` (State.h): `subBalance(_from, _value); addBalance(_to, _value);`. -/
def transferBalance (s : State) (f t : Address) (v : Word) : Except TransactionException State :=
  (s.subBalance f v).map (·.addBalance t v)

/-- Modelled from the spec: `incNonce` creates the account, with the start
nonce plus one, if absent. -/
def incNonce (s : State) (a : Address) : State :=
  if s.addressInUse a then
    (s.modify a fun acc => { acc with nonce := acc.nonce + 1 }).log ⟨.nonce, a, 0, 0, []⟩
  else s.createAccount a (Account.empty (s.accountStartNonce + 1))

/-- Modelled from the spec: `setStorage` logs the previous value, then writes. -/
def setStorage (s : State) (a : Address) (k v : Word) : State :=
  (s.modify a fun acc => { acc with storage := Function.update acc.storage k v }).log
    ⟨.storage, a, s.storage a k, k, []⟩

/-- Modelled from the spec: `createContract` requires the address not in use
and makes an account with zeroed fields. -/
def createContract (s : State) (a : Address) : State :=
  if s.addressInUse a then s else s.createAccount a (Account.empty 0)

/-- Modelled from the spec: `setNewCode` sets the code and logs `NewCode` with
the code it replaces (§3). -/
def setNewCode (s : State) (a : Address) (c : Bytes) : State :=
  (s.modify a fun acc => { acc with code := c }).log ⟨.newCode, a, 0, 0, s.code a⟩

/-- Modelled from the spec: `kill` ends the account. Not logged. -/
def kill (s : State) (a : Address) : State :=
  { s with accounts := Function.update s.accounts a none }

/-! ## Undo and rollback -/

/-- Modelled from the spec: the inverse of one entry (§4.1). -/
def undo (s : State) (c : Change) : State :=
  match c.kind with
  | .balance => s.modify c.address fun acc => { acc with balance := acc.balance - c.value }
  | .storage => s.modify c.address fun acc =>
      { acc with storage := Function.update acc.storage c.key c.value }
  | .nonce => s.modify c.address fun acc => { acc with nonce := acc.nonce - 1 }
  | .create => s.kill c.address
  | .newCode => s.modify c.address fun acc => { acc with code := c.prevCode }
  | .touch => { s with touched := Function.update s.touched c.address false }

/-- Modelled from the spec: the loop of `rollback`, which undoes and pops the
newest entry while the log is longer than `sp`. -/
def rollbackLog (sp : Nat) (s : State) : List Change → State
  | [] => { s with changeLog := [] }
  | c :: log => if sp ≤ log.length then rollbackLog sp (s.undo c) log
      else { s with changeLog := c :: log }

/-- Modelled from the spec: `rollback(sp)`. -/
def rollback (s : State) (sp : Nat) : State := rollbackLog sp s s.changeLog

end State

end EthExecutive

namespace EthExecutive.State

/-! ## Field lemmas -/

variable {s : State} {a b : Address} {c : Change} {f g : Account → Account}

@[simp] theorem log_changeLog : (s.log c).changeLog = c :: s.changeLog := rfl
@[simp] theorem log_accounts : (s.log c).accounts = s.accounts := rfl
@[simp] theorem log_touched : (s.log c).touched = s.touched := rfl
@[simp] theorem log_accountStartNonce : (s.log c).accountStartNonce = s.accountStartNonce := rfl
@[simp] theorem modify_changeLog : (s.modify a f).changeLog = s.changeLog := rfl
@[simp] theorem modify_touched : (s.modify a f).touched = s.touched := rfl
@[simp] theorem modify_accountStartNonce :
    (s.modify a f).accountStartNonce = s.accountStartNonce := rfl

@[simp] theorem undo_changeLog : (s.undo c).changeLog = s.changeLog := by
  unfold undo; split <;> rfl

@[simp] theorem undo_accountStartNonce : (s.undo c).accountStartNonce = s.accountStartNonce := by
  unfold undo; split <;> rfl

section Undo

variable {v k : Word} {p : Bytes}

@[simp] theorem undo_balance : s.undo ⟨.balance, a, v, k, p⟩ =
    s.modify a fun acc => { acc with balance := acc.balance - v } := rfl
@[simp] theorem undo_storage : s.undo ⟨.storage, a, v, k, p⟩ =
    s.modify a fun acc => { acc with storage := Function.update acc.storage k v } := rfl
@[simp] theorem undo_nonce : s.undo ⟨.nonce, a, v, k, p⟩ =
    s.modify a fun acc => { acc with nonce := acc.nonce - 1 } := rfl
@[simp] theorem undo_create : s.undo ⟨.create, a, v, k, p⟩ = s.kill a := rfl
@[simp] theorem undo_newCode : s.undo ⟨.newCode, a, v, k, p⟩ =
    s.modify a fun acc => { acc with code := p } := rfl
@[simp] theorem undo_touch : s.undo ⟨.touch, a, v, k, p⟩ =
    { s with touched := Function.update s.touched a false } := rfl

end Undo

theorem modify_accounts_self : (s.modify a f).accounts a = (s.accounts a).map f := by
  simp [modify]

theorem modify_accounts_of_ne (h : b ≠ a) : (s.modify a f).accounts b = s.accounts b := by
  simp [modify, h]

theorem modify_modify : (s.modify a f).modify a g = s.modify a (g ∘ f) := by
  simp [modify, Option.map_map]

/-- An edit that leaves the account at `a` (if any) as it is leaves the state as it is. -/
theorem modify_eq_self (h : ∀ acc, s.accounts a = some acc → f acc = acc) : s.modify a f = s := by
  have hupd : Function.update s.accounts a ((s.accounts a).map f) = s.accounts := by
    cases ha : s.accounts a with
    | none => rw [Option.map_none', ← ha, Function.update_eq_self]
    | some acc => rw [Option.map_some', h acc ha, ← ha, Function.update_eq_self]
  simp only [modify, hupd]

/-- Edits of one account by functions that commute can be made in either order. -/
theorem modify_comm (h : ∀ acc, f (g acc) = g (f acc)) :
    (s.modify a f).modify b g = (s.modify b g).modify a f := by
  by_cases hab : a = b
  · subst hab; simp only [modify_modify, Function.comp_def, h]
  · simp only [modify, Function.update_apply, hab, Ne.symm hab, if_false]
    rw [Function.update_comm (Ne.symm hab)]

end EthExecutive.State
