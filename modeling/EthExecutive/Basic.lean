import Mathlib.Data.Fintype.Basic

/-! # Words, addresses and the records the executive passes around

A `u256` is a `BitVec 256`, so its arithmetic wraps exactly as the source's
does; a `bigint` is a `Nat`. This module also holds the changelog entry
`detail::Change` of `State.h`, and the records of the collaborators that
`Executive.cpp` reads but does not define: the EVM schedule, the block
environment, the transaction, the sub-state a frame accumulates, and the
exceptions both layers raise.
-/

namespace EthExecutive

/-- A `u256`: balances, nonces, storage keys and values, gas. -/
abbrev Word := BitVec 256

/-- An `Address` (`h160`). -/
abbrev Address := BitVec 160

/-- An `h256` digest. -/
abbrev Hash := BitVec 256

/-- `bytes`. -/
abbrev Bytes := List UInt8

instance : Fintype Address :=
  Fintype.ofEquiv (Fin (2 ^ 160)) ⟨BitVec.ofFin, BitVec.toFin, fun _ => rfl, fun _ => rfl⟩

/-- `right160`: the right-most 20 bytes of a big-endian `h256`. -/
def right160 (h : Hash) : Address := h.setWidth 160

/-! ## The changelog entry of `State.h` -/

/-- `detail::Change::Kind`. -/
inductive ChangeKind
  /-- The balance was increased by `value`. -/
  | balance
  /-- The storage at `key` was modified; `value` is the storage value before. -/
  | storage
  /-- The nonce was increased by 1. -/
  | nonce
  /-- The account was created (it was not existing before). -/
  | create
  /-- New code was added to the account (by a "create" message execution). -/
  | newCode
  /-- The account was touched for the first time. -/
  | touch
  deriving DecidableEq, Repr

/-- `detail::Change`: an atomic state changelog entry. Besides State.h's four
fields, a `NewCode` entry holds the code it replaced, as spec §3 gives it
(`NewCode{addr, prevCodeHash, prevCode}`); the hash is a function of the code. -/
structure Change where
  kind : ChangeKind
  address : Address
  value : Word := 0
  key : Word := 0
  prevCode : Bytes := []
  deriving DecidableEq, Repr

/-! ## Exceptions -/

/-- `TransactionException`, the value `m_excepted` records. -/
inductive TransactionException
  | none
  | outOfGasBase
  | blockGasLimitReached
  | invalidSignature
  | invalidNonce
  | notEnoughCash
  | outOfGas
  | badJumpDestination
  | badInstruction
  | stackUnderflow
  | outOfStack
  | revertInstruction
  deriving DecidableEq, Repr

/-- The `VMException`s a VM run raises (libevm). -/
inductive VMException
  | outOfGas
  | badJumpDestination
  | badInstruction
  | stackUnderflow
  | outOfStack
  | revertInstruction
  deriving DecidableEq, Repr

/-- `toTransactionException`: each VM exception maps to the transaction
exception of the same name. -/
def toTransactionException : VMException → TransactionException
  | .outOfGas => .outOfGas
  | .badJumpDestination => .badJumpDestination
  | .badInstruction => .badInstruction
  | .stackUnderflow => .stackUnderflow
  | .outOfStack => .outOfStack
  | .revertInstruction => .revertInstruction

/-! ## Collaborators' records -/

/-- The fields of `EVMSchedule` the executive reads; each is an `unsigned`
(32 bits) but for the flag. -/
structure EVMSchedule where
  exceptionalFailedCodeDeposit : Bool
  maxCodeSize : BitVec 32
  createDataGas : BitVec 32
  suicideRefundGas : BitVec 32
  deriving DecidableEq, Repr

/-- The fields of `EnvInfo` the executive reads. -/
structure EnvInfo where
  number : Word
  author : Address
  gasLimit : Word
  gasUsed : Word
  deriving DecidableEq, Repr

/-- A signed transaction. `sender` is `none` when no sender can be recovered
from the signature; `receiveAddress` is `none` for a contract creation;
`baseGasRequired` is the intrinsic gas under a schedule. -/
structure Transaction where
  nonce : Word
  gasPrice : Word
  gas : Word
  receiveAddress : Option Address
  value : Word
  data : Bytes
  sender : Option Address
  baseGasRequired : EVMSchedule → Nat

/-- A null `Transaction`, as a default-constructed `m_t` reads: a message
call with every field zero. -/
def Transaction.null : Transaction :=
  ⟨0, 0, 0, some 0, 0, [], some 0, fun _ => 0⟩

/-- The sender as `execute()` and `finalize()` read it, once `initialize()`
has recovered it. -/
def Transaction.from (t : Transaction) : Address := t.sender.getD 0

/-- `LogEntry`. -/
structure LogEntry where
  address : Address
  topics : List Hash
  data : Bytes
  deriving DecidableEq, Repr

/-- `SubState`: what a frame accumulates for `finalize()`. The suicides are a
`set<Address>` (spec §4.5), kept as a list without repeats in the order they
were added. -/
structure SubState where
  suicides : List Address := []
  suicides_nodup : suicides.Nodup := by simp
  logs : List LogEntry := []
  refunds : Word := 0
  deriving DecidableEq, Repr

/-- `SubState::operator+=`: a frame's sub-state merged into its parent's
(modelled from the spec, §4.5: suicides are a set union, logs accumulate,
refunds add). -/
def SubState.merge (parent child : SubState) : SubState :=
  ⟨parent.suicides ++ child.suicides.filter (· ∉ parent.suicides),
    parent.suicides_nodup.append (child.suicides_nodup.filter _)
      fun _ ha hb => of_decide_eq_true (List.mem_filter.mp hb).2 ha,
    parent.logs ++ child.logs, parent.refunds + child.refunds⟩

/-- `CallParameters`. -/
structure CallParameters where
  senderAddress : Address
  codeAddress : Address
  receiveAddress : Address
  valueTransfer : Word
  apparentValue : Word
  gas : Word
  data : Bytes
  deriving DecidableEq, Repr

/-- The frame an `ExtVM` gives the VM: its own address, caller, origin,
apparent value, gas price, input, code, code hash, depth and sub-state. -/
structure ExtVM where
  myAddress : Address
  caller : Address
  origin : Address
  value : Word
  gasPrice : Word
  data : Bytes
  code : Bytes
  codeHash : Hash
  depth : Nat
  sub : SubState
  deriving DecidableEq, Repr

end EthExecutive
