import EthExecutive.State.Run

/-! # The executive

`Executive.cpp` as functions on an `Executive` record: `initialize`,
`execute`, `call`, `create`, `go`, `finalize` and `revert`. A member that may
throw returns an `EStateM.Result`: the record as the member returns, or as
the throw leaves it. The collaborators the executive consults are parameters:
the seal engine (schedule, fork block, precompiles), Keccak and RLP, and the
VM, whose run reports what the host interface did to the state (a `HostRun`),
the sub-state it accumulated, and its output and remaining gas or the
`VMException` it raised.
-/

namespace EthExecutive

/-- What the executive asks of `SealEngineFace`. -/
structure SealEngine where
  evmSchedule : EnvInfo → EVMSchedule
  /-- `chainParams().u256Param("EIP158ForkBlock")`. -/
  eip158ForkBlock : Word
  isPrecompiled : Address → Word → Bool
  costOfPrecompiled : Address → Bytes → Word → Nat
  executePrecompiled : Address → Bytes → Word → Bool × Bytes

/-- Keccak-256 and the RLP list of an address and a nonce (libdevcore). -/
structure DevCore where
  sha3 : Bytes → Hash
  rlpList : Address → Word → Bytes

/-- One run of the VM on a frame. -/
structure VMRun where
  run : HostRun
  sub : SubState
  result : Except VMException (Bytes × Word)

/-- The VM: `vm->exec(m_gas, *m_ext, _onOp)` from the state the frame starts
with. `exec` only lowers the gas it is handed by reference, so a run that
returns never reports more gas than it was given. -/
structure VM where
  exec : ExtVM → Word → State → VMRun
  gas_le : ∀ x g s out g', (exec x g s).result = .ok (out, g') → g' ≤ g

/-- `CodeDeposit`. -/
inductive CodeDeposit
  | none
  | failed
  | success
  deriving DecidableEq, Repr

/-- `ExecutionResult`, which `go()` and `finalize()` fill in when `m_res` is set. -/
structure ExecutionResult where
  gasUsed : Word := 0
  excepted : TransactionException := .none
  newAddress : Address := 0
  output : Bytes := []
  codeDeposit : CodeDeposit := .none
  gasRefunded : Word := 0
  depositSize : Nat := 0
  gasForDeposit : Word := 0
  deriving DecidableEq, Repr

/-- The members of `Executive` (Executive.h is not under src/; the defaults
are its member initialisers), with the seal engine's `deleteAddresses`, which
`call()` extends. -/
structure Executive where
  s : State
  envInfo : EnvInfo
  depth : Nat
  t : Option Transaction := none
  baseGasRequired : Nat := 0
  gasCost : Word := 0
  gas : Word := 0
  refunded : Word := 0
  savepoint : Nat := 0
  isCreation : Bool := false
  newAddress : Address := 0
  ext : Option ExtVM := none
  excepted : TransactionException := .none
  output : Bytes := []
  logs : List LogEntry := []
  res : Option ExecutionResult := none
  deleteAddresses : Finset Address := ∅

/-- What a member that may throw returns. -/
abbrev Result (α : Type) := EStateM.Result TransactionException Executive α

namespace Executive

/-- The constructors: a fresh executive on a state, at a depth. -/
def fresh (s : State) (envInfo : EnvInfo) (level : Nat) : Executive := ⟨s, envInfo, level,
  none, 0, 0, 0, 0, 0, false, 0, none, .none, [], [], none, ∅⟩

/-- `m_t` as the members read it: a null transaction when none is set. -/
def tx (e : Executive) : Transaction := e.t.getD Transaction.null

/-- `gasUsed()`. -/
def gasUsed (e : Executive) : Word := e.tx.gas - e.gas

/-- `accrueSubState`. -/
def accrueSubState (e : Executive) (parent : SubState) : SubState :=
  match e.ext with
  | some x => parent.merge x.sub
  | none => parent

/-- Record `x` in `m_excepted` and throw it. -/
def fail {α : Type} (x : TransactionException) (e : Executive) : Result α :=
  .error x { e with excepted := x }

end Executive

/-- `initialize`: the checks, in order, compared as `bigint`s. -/
def Executive.initialize (se : SealEngine) (tx : Transaction) (e : Executive) : Result Unit :=
  let e := { e with t := some tx }
  if e.envInfo.gasUsed.toNat + tx.gas.toNat > e.envInfo.gasLimit.toNat then
    fail .blockGasLimitReached e
  else
    let e := { e with baseGasRequired := tx.baseGasRequired (se.evmSchedule e.envInfo) }
    if e.baseGasRequired > tx.gas.toNat then fail .outOfGasBase e
    else match tx.sender with
      | none => fail .invalidSignature e
      | some sender =>
          if tx.nonce ≠ e.s.getNonce sender then fail .invalidNonce e
          else
            let gasCost := tx.gas.toNat * tx.gasPrice.toNat
            if (e.s.balance sender).toNat < tx.value.toNat + gasCost then fail .notEnoughCash e
            else .ok () { e with gasCost := BitVec.ofNat 256 gasCost }

namespace Executive

variable (se : SealEngine) (dc : DevCore)

/-- The tail of `call()`: note a receiver not in use for deletion, transfer
the value, and report whether no VM frame is left to run. -/
def callTransfer (p : CallParameters) (e : Executive) : Result Bool :=
  let e := { e with
    deleteAddresses := if e.s.addressInUse p.receiveAddress then e.deleteAddresses
      else insert p.receiveAddress e.deleteAddresses }
  match e.s.transferBalance p.senderAddress p.receiveAddress p.valueTransfer with
  | .ok s => .ok e.ext.isNone { e with s := s }
  | .error x => .error x e

/-- The start of `call()`: a top-level call increments the sender's nonce,
then the savepoint is taken. -/
def beginCall (p : CallParameters) (e : Executive) : Executive :=
  let s := if e.t.isSome then e.s.incNonce p.senderAddress else e.s
  { e with s := s, savepoint := s.savepoint }

/-- `call(CallParameters, gasPrice, origin)`. -/
def call (p : CallParameters) (gasPrice : Word) (origin : Address) (e : Executive) : Result Bool :=
  let e := beginCall p e
  let number := e.envInfo.number
  if se.isPrecompiled p.codeAddress number then
    let g := se.costOfPrecompiled p.codeAddress p.data number
    if p.gas.toNat < g then
      .ok true { e with
        excepted := .outOfGasBase
        s := if se.eip158ForkBlock ≤ number then e.s.addBalance p.codeAddress 0 else e.s }
    else
      let (success, output) := se.executePrecompiled p.codeAddress p.data number
      let e := { e with gas := BitVec.ofNat 256 (p.gas.toNat - g), output := output }
      callTransfer p (if success then e else { e with gas := 0, excepted := .outOfGas })
  else
    let e := { e with gas := p.gas }
    callTransfer p <| if e.s.addressHasCode p.codeAddress then
      { e with
        ext := some ⟨p.receiveAddress, p.senderAddress, origin, p.apparentValue, gasPrice,
          p.data, e.s.code p.codeAddress, dc.sha3 (e.s.code p.codeAddress), e.depth, {}⟩ }
    else e

/-- `call(receiveAddress, senderAddress, value, gasPrice, data, gas)`: a
message call whose code and receiving address coincide. -/
def callAddress (receiveAddress senderAddress : Address) (value gasPrice : Word) (data : Bytes)
    (gas : Word) (e : Executive) : Result Bool :=
  call se dc ⟨senderAddress, receiveAddress, receiveAddress, value, value, gas, data⟩ gasPrice
    senderAddress e

/-- The start of `create()`: read the sender's nonce, increment it, take the
savepoint, derive the new address from the nonce read. -/
def beginCreate (sender : Address) (gas : Word) (e : Executive) : Executive :=
  let nonce := e.s.getNonce sender
  let s := e.s.incNonce sender
  { e with
    s := s
    savepoint := s.savepoint
    isCreation := true
    newAddress := right160 (dc.sha3 (dc.rlpList sender nonce))
    gas := gas }

/-- `create`. -/
def create (sender : Address) (endowment gasPrice gas : Word) (init : Bytes) (origin : Address)
    (e : Executive) : Result Bool :=
  let e := beginCreate dc sender gas e
  match e.s.transferBalance sender e.newAddress endowment with
  | .error x => .error x e
  | .ok s =>
      let s := if se.eip158ForkBlock ≤ e.envInfo.number then s.incNonce e.newAddress else s
      let e := { e with s := s }
      if !init.isEmpty then
        .ok false { e with
          ext := some ⟨e.newAddress, sender, origin, endowment, gasPrice, [], init, dc.sha3 init,
            e.depth, {}⟩ }
      else if e.s.addressHasCode e.newAddress then
        .ok e.ext.isNone { e with s := e.s.setNewCode e.newAddress [] }
      else .ok e.ext.isNone e

/-- `execute`: debit the gas cost, then create or call. -/
def execute (e : Executive) : Result Bool :=
  match e.s.subBalance e.tx.from e.gasCost with
  | .error x => .error x e
  | .ok s =>
      let e := { e with s := s }
      let gas := e.tx.gas - BitVec.ofNat 256 e.baseGasRequired
      match e.tx.receiveAddress with
      | none => create se dc e.tx.from e.tx.value e.tx.gasPrice gas e.tx.data e.tx.from e
      | some dest => callAddress se dc dest e.tx.from e.tx.value e.tx.gasPrice e.tx.data gas e

/-- `revert`: clear the frame's sub-state, null the new address, roll back. -/
def revert (e : Executive) : Executive :=
  { e with
    ext := e.ext.map fun x => { x with sub := {} }
    newAddress := 0
    s := e.s.rollback e.savepoint }

/-- The `VMException` handler of `go()`. -/
def vmException (x : VMException) (e : Executive) : Executive :=
  revert { e with gas := 0, excepted := toTransactionException x }

/-- `out.size() * createDataGas`, a `size_t` product. -/
def depositCost (sched : EVMSchedule) (out : Bytes) : Nat :=
  out.length * sched.createDataGas.toNat % 2 ^ 64

/-- The end of the creation branch of `go()`: set the new code. -/
def installCode (addr : Address) (code : Bytes) (e : Executive) : Executive :=
  { e with
    res := e.res.map fun r => { r with output := code }
    s := e.s.setNewCode addr code }

/-- The creation branch of `go()` after the VM returned `out` with `g` gas. -/
def codeDeposit (sched : EVMSchedule) (addr : Address) (out : Bytes) (g : Word) (e : Executive) :
    Executive :=
  let e := { e with
    gas := g
    res := e.res.map fun r => { r with gasForDeposit := g, depositSize := out.length } }
  if out.length > sched.maxCodeSize.toNat then vmException .outOfGas e
  else if depositCost sched out ≤ g.toNat then
    installCode addr out { e with
      gas := g - BitVec.ofNat 256 (depositCost sched out)
      res := e.res.map fun r => { r with codeDeposit := .success } }
  else if sched.exceptionalFailedCodeDeposit then vmException .outOfGas e
  else installCode addr [] { e with res := e.res.map fun r => { r with codeDeposit := .failed } }

/-- `go`: run the VM on the frame, if there is one. -/
def go (vm : VM) (e : Executive) : Executive :=
  match e.ext with
  | none => e
  | some x =>
      let r := vm.exec x e.gas e.s
      let e := { e with s := r.run.apply e.s, ext := some { x with sub := r.sub } }
      match r.result with
      | .error ex => vmException ex e
      | .ok (out, g) =>
          if e.isCreation then codeDeposit (se.evmSchedule e.envInfo) x.myAddress out g e
          else { e with
            gas := g
            output := out
            res := e.res.map fun r => { r with output := out } }

/-- `std::min` on `u256`. -/
def minWord (a b : Word) : Word := if b < a then b else a

/-- `suicideRefundGas * suicides.size()`, a `size_t` product. -/
def suicideRefunds (sched : EVMSchedule) (sub : SubState) : Word :=
  BitVec.ofNat 256 (sched.suicideRefundGas.toNat * sub.suicides.length % 2 ^ 64)

/-- The first half of `finalize()`: add the suicide refunds to the frame's
refund counter, cap the refund at half the gas used, and pay the sender for
the gas left and the author for the gas used. -/
def payFees (e : Executive) : Executive :=
  let ext := e.ext.map fun x => { x with
    sub := { x.sub with refunds := x.sub.refunds + suicideRefunds (se.evmSchedule e.envInfo) x.sub } }
  let refunded := match ext with
    | some x => minWord ((e.tx.gas - e.gas) / 2) x.sub.refunds
    | none => 0
  let gas := e.gas + refunded
  { e with
    ext := ext
    refunded := refunded
    gas := gas
    s := if e.t.isSome then
        (e.s.addBalance e.tx.from (gas * e.tx.gasPrice)).addBalance e.envInfo.author
          ((e.tx.gas - gas) * e.tx.gasPrice)
      else e.s }

/-- The accounts the frame's sub-state marks for deletion; none without a
frame. -/
def suicides (e : Executive) : List Address :=
  match e.ext with
  | some x => x.sub.suicides
  | none => []

/-- `finalize`: `payFees`, then kill the suicides, publish the logs and fill in
`m_res`. -/
def finalize (e : Executive) : Executive :=
  let e := payFees se e
  let logs := match e.ext with
    | some x => x.sub.logs
    | none => e.logs
  let gasRefunded := match e.ext with
    | some x => x.sub.refunds
    | none => 0
  { e with
    s := e.suicides.foldl State.kill e.s
    logs := logs
    res := e.res.map fun r => { r with
      gasUsed := e.gasUsed
      excepted := e.excepted
      newAddress := e.newAddress
      gasRefunded := gasRefunded } }

end Executive

end EthExecutive
