import EthExecutive.Basic

/-! # The standard tracer

`StandardTrace::operator()` runs at every VM step and appends one record to
the trace. It keeps in `m_lastInst` one instruction per depth of the call
stack (a list here, its back first) and compares the stack's size with the
depth the host reports: equal starts a new context, one more continues the
context, two more is a return, which pops the returned frame and reads the
caller's entry but, unlike a continued context, does not replace it with the
current instruction, so the step after the first post-return step reads the
CALL again. The model follows the build without `Anomaly_BUILD`, and a record
holds the values the operator writes into it, without the JSON formatting.
-/

namespace EthExecutive

/-- An EVM `Instruction`, by its opcode. -/
structure Instruction where
  opcode : UInt8
  deriving DecidableEq, Repr

namespace Instruction

def stop : Instruction := ⟨0x00⟩
def add : Instruction := ⟨0x01⟩
def sha3 : Instruction := ⟨0x20⟩
def callDataCopy : Instruction := ⟨0x37⟩
def codeCopy : Instruction := ⟨0x39⟩
def extCodeCopy : Instruction := ⟨0x3c⟩
def mload : Instruction := ⟨0x51⟩
def mstore : Instruction := ⟨0x52⟩
def mstore8 : Instruction := ⟨0x53⟩
def sstore : Instruction := ⟨0x55⟩
def create : Instruction := ⟨0xf0⟩
def call : Instruction := ⟨0xf1⟩
def callCode : Instruction := ⟨0xf2⟩
def delegateCall : Instruction := ⟨0xf4⟩

end Instruction

/-- `changesMemory`. -/
def changesMemory (inst : Instruction) : Bool :=
  inst == .mstore || inst == .mstore8 || inst == .mload || inst == .create || inst == .call ||
    inst == .callCode || inst == .sha3 || inst == .callDataCopy || inst == .codeCopy ||
    inst == .extCodeCopy || inst == .delegateCall

/-- `changesStorage`. -/
def changesStorage (inst : Instruction) : Bool := inst == .sstore

/-- `StandardTrace::DebugOptions`. -/
structure DebugOptions where
  disableStorage : Bool := false
  disableMemory : Bool := false
  disableStack : Bool := false
  fullStorage : Bool := false
  deriving DecidableEq, Repr

/-- What the operator reads at a step: its arguments, the VM's stack and
memory, the host's depth, and the storage of the executing account. -/
structure TraceStep where
  pc : UInt64
  inst : Instruction
  newMemSize : Int
  gasCost : Int
  gas : Int
  depth : Nat
  stack : List Word
  memory : Bytes
  storage : List (Word × Word)

/-- The record a step appends to `m_trace`. -/
structure TraceRecord where
  stack : Option (List Word)
  memory : Option Bytes
  storage : Option (List (Word × Word))
  op : Option Instruction
  pc : UInt64
  gas : Int
  gasCost : Int
  memexpand : Option Int

/-- `StandardTrace`: its options, `m_showMnemonics`, `m_lastInst` (back
first) and `m_trace`. -/
structure StandardTrace where
  options : DebugOptions
  showMnemonics : Bool
  lastInst : List Instruction
  trace : List TraceRecord

/-- `resize(n)` of a vector kept back first: cut from the back, or grow at
the back with `STOP`, the value-initialised instruction. -/
def resizeStack (stack : List Instruction) (n : Nat) : List Instruction :=
  if n ≤ stack.length then stack.drop (stack.length - n)
  else List.replicate (n - stack.length) .stop ++ stack

/-- The operator's update of `m_lastInst` at a step at `depth`: the
instruction it takes as the last one (`STOP` when none), whether the step
starts a new context, and the stack after it. -/
def frameStep (stack : List Instruction) (depth : Nat) (inst : Instruction) :
    Instruction × Bool × List Instruction :=
  if stack.length = depth then (.stop, true, inst :: stack)
  else if stack.length = depth + 2 then (stack.tail.headD .stop, false, stack.tail)
  else if stack.length = depth + 1 then (stack.headD .stop, false, inst :: stack.tail)
  else (.stop, false, resizeStack stack (depth + 1))

/-- The record of a step, given the last instruction and whether the step
starts a new context. -/
def traceRecord (options : DebugOptions) (showMnemonics : Bool) (lastInst : Instruction)
    (newContext : Bool) (s : TraceStep) : TraceRecord where
  stack := if !options.disableStack then some s.stack else none
  memory := if !options.disableMemory && (changesMemory lastInst || newContext) then some s.memory
    else none
  storage := if !options.disableStorage &&
      (options.fullStorage || changesStorage lastInst || newContext) then some s.storage else none
  op := if showMnemonics then some s.inst else none
  pc := s.pc
  gas := s.gas
  gasCost := s.gasCost
  memexpand := if s.newMemSize ≠ 0 then some s.newMemSize else none

namespace StandardTrace

/-- `StandardTrace::operator()`. -/
def step (t : StandardTrace) (s : TraceStep) : StandardTrace :=
  { t with
    lastInst := (frameStep t.lastInst s.depth s.inst).2.2
    trace := t.trace ++ [traceRecord t.options t.showMnemonics (frameStep t.lastInst s.depth s.inst).1
      (frameStep t.lastInst s.depth s.inst).2.1 s] }

/-- The tracer fed a sequence of steps. -/
def run (t : StandardTrace) (steps : List TraceStep) : StandardTrace := steps.foldl step t

end StandardTrace

/-! ## The frame stack -/

/-- A return to `depth` reads the caller's entry and pops the returned frame,
leaving the caller's entry as it was. -/
theorem frameStep_return (x call : Instruction) (rest : List Instruction) (inst : Instruction) :
    frameStep (x :: call :: rest) rest.length inst = (call, false, call :: rest) := by
  simp [frameStep, show rest.length + 1 + 1 ≠ rest.length by omega]

/-- Continuing a context reads the top entry and replaces it with the
current instruction. -/
theorem frameStep_continue (top : Instruction) (rest : List Instruction) (inst : Instruction) :
    frameStep (top :: rest) rest.length inst = (top, false, inst :: rest) := by
  simp [frameStep]

/-- After a return from a child frame, the first step and also the step after
it take the CALL or CREATE of the caller as the last instruction, whatever the
first post-return instruction was: both records are made from it. -/
theorem step_after_return (t : StandardTrace) (x call : Instruction) (rest : List Instruction)
    (hl : t.lastInst = x :: call :: rest) (s₁ s₂ : TraceStep) (h₁ : s₁.depth = rest.length)
    (h₂ : s₂.depth = rest.length) :
    ((t.step s₁).step s₂).trace = t.trace ++
      [traceRecord t.options t.showMnemonics call false s₁,
        traceRecord t.options t.showMnemonics call false s₂] := by
  simp only [StandardTrace.step, hl, h₁, h₂, frameStep_return, frameStep_continue, List.append_assoc,
    List.singleton_append]

/-- A tracer with no options set, before the first step. -/
def freshTrace : StandardTrace := ⟨{}, false, [], []⟩

/-- A step at `depth` executing `inst`, with empty stack, memory and storage. -/
def stepAt (depth : Nat) (inst : Instruction) : TraceStep := ⟨0, inst, 0, 0, 0, depth, [], [], []⟩

/-- A CALL at depth 0, a STOP in the callee, then SSTORE and ADD back at depth
0: the record of the ADD step dumps memory, which the SSTORE did not change,
and does not dump the storage the SSTORE changed. -/
theorem sstore_after_return_not_dumped :
    let t := freshTrace.run [stepAt 0 .call, stepAt 1 .stop]
    ((t.step (stepAt 0 .sstore)).step (stepAt 0 .add)).trace = t.trace ++
        [traceRecord {} false .call false (stepAt 0 .sstore),
          traceRecord {} false .call false (stepAt 0 .add)] ∧
      (traceRecord {} false .call false (stepAt 0 .add)).storage = none ∧
      (traceRecord {} false .call false (stepAt 0 .add)).memory = some [] ∧
      changesStorage .sstore ∧ changesMemory .sstore = false :=
  ⟨step_after_return _ .stop .call [] rfl _ _ rfl rfl, rfl, rfl, rfl, rfl⟩

/-! ## The frame stack over a whole run

Over a run whose depths start at 0 and move by at most one per step, the
stack holds at each depth the instruction of the latest step at that depth
since the depth was last below it, skipping the steps that returned to it;
each record is made from the entry at the step's depth. Histories are kept
newest step first. -/

/-- The depths a run reports, newest step first: the first step at depth 0,
each later one at most one away from the one before. -/
def validDepths : List TraceStep → Bool
  | [] => true
  | [s] => s.depth == 0
  | s :: p :: h => decide (s.depth ≤ p.depth + 1) && decide (p.depth ≤ s.depth + 1) && validDepths (p :: h)

/-- The instruction the tracer keeps at depth `k` after the steps `h` (newest
first): that of the latest step at depth `k` since the depth was last below
`k`, skipping a step that returned to `k` from `k + 1`. -/
def lastKept : List TraceStep → Nat → Option Instruction
  | [], _ => none
  | s :: h, k =>
      if s.depth < k then none
      else if s.depth = k ∧ h.head?.map (·.depth) ≠ some (k + 1) then some s.inst
      else lastKept h k

/-- The kept instructions of depths `d` down to 0, innermost first. -/
def keptStack (h : List TraceStep) : Nat → List Instruction
  | 0 => [(lastKept h 0).getD .stop]
  | k + 1 => (lastKept h (k + 1)).getD .stop :: keptStack h k

/-- The stack the tracer holds after the steps `h` (newest first). -/
def frameStack : List TraceStep → List Instruction
  | [] => []
  | s :: h => keptStack (s :: h) s.depth

section Run

variable {s p : TraceStep} {h : List TraceStep} {k d : Nat}

theorem lastKept_cons_of_lt (hk : k < s.depth) : lastKept (s :: h) k = lastKept h k := by
  simp [lastKept, not_lt.mpr hk.le, hk.ne']

theorem lastKept_cons_self (hh : h.head?.map (·.depth) ≠ some (s.depth + 1)) :
    lastKept (s :: h) s.depth = some s.inst := by
  simp [lastKept, hh]

/-- A step that returned to its depth is skipped. -/
theorem lastKept_cons_return (hp : p.depth = s.depth + 1) :
    lastKept (s :: p :: h) s.depth = lastKept (p :: h) s.depth := by
  simp [lastKept, hp]

theorem keptStack_succ (h : List TraceStep) (d : Nat) :
    keptStack h (d + 1) = (lastKept h (d + 1)).getD .stop :: keptStack h d := rfl

theorem keptStack_eq_cons (h : List TraceStep) (d : Nat) :
    keptStack h d = (lastKept h d).getD .stop :: (keptStack h d).tail := by
  cases d <;> rfl

theorem headD_keptStack (h : List TraceStep) (d : Nat) :
    (keptStack h d).headD .stop = (lastKept h d).getD .stop := by
  cases d <;> rfl

theorem length_keptStack (h : List TraceStep) (d : Nat) : (keptStack h d).length = d + 1 := by
  induction d with
  | zero => rfl
  | succ d ih => simp [keptStack, ih]

theorem keptStack_congr {h₁ h₂ : List TraceStep} (H : ∀ k ≤ d, lastKept h₁ k = lastKept h₂ k) :
    keptStack h₁ d = keptStack h₂ d := by
  induction d with
  | zero => simp [keptStack, H 0 le_rfl]
  | succ d ih =>
      rw [keptStack_succ, keptStack_succ, H (d + 1) le_rfl, ih fun k hk => H k (Nat.le_succ_of_le hk)]

theorem tail_keptStack_congr {h₁ h₂ : List TraceStep} (H : ∀ k < d, lastKept h₁ k = lastKept h₂ k) :
    (keptStack h₁ d).tail = (keptStack h₂ d).tail := by
  cases d with
  | zero => rfl
  | succ d => exact keptStack_congr fun k hk => H k (Nat.lt_succ_of_le hk)

theorem validDepths_tail (hv : validDepths (s :: h)) : validDepths h := by
  cases h with
  | nil => rfl
  | cons p h => simp only [validDepths, Bool.and_eq_true] at hv; exact hv.2

/-- Every depth up to the latest step's has a kept instruction. -/
theorem lastKept_isSome (hv : validDepths (s :: h)) (hk : k ≤ s.depth) :
    (lastKept (s :: h) k).isSome := by
  induction h generalizing s with
  | nil =>
      have hs : s.depth = 0 := by simpa [validDepths] using hv
      obtain rfl : k = s.depth := by omega
      simp [lastKept_cons_self]
  | cons p h ih =>
      simp only [validDepths, Bool.and_eq_true, decide_eq_true_eq] at hv
      rcases Nat.lt_or_ge k s.depth with hlt | hge
      · rw [lastKept_cons_of_lt hlt]; exact ih hv.2 (by omega)
      · obtain rfl : k = s.depth := by omega
        by_cases hp : p.depth = s.depth + 1
        · rw [lastKept_cons_return hp]; exact ih hv.2 (by omega)
        · rw [lastKept_cons_self (by simpa using hp)]; rfl

/-- The step lemma: on the stack a valid history leaves, a step at a valid
depth takes the kept instruction of its depth as the last one, starts a new
context exactly when there is none, and leaves the stack of the longer
history. -/
theorem frameStep_frameStack (hv : validDepths (s :: h)) :
    frameStep (frameStack h) s.depth s.inst =
      ((lastKept h s.depth).getD .stop, (lastKept h s.depth).isNone, frameStack (s :: h)) := by
  cases h with
  | nil =>
      have hs : s.depth = 0 := by simpa [validDepths] using hv
      simp [frameStep, frameStack, keptStack, lastKept, hs]
  | cons p h =>
      simp only [validDepths, Bool.and_eq_true, decide_eq_true_eq] at hv
      have hlen := length_keptStack (p :: h) p.depth
      simp only [frameStack]
      rcases Nat.lt_trichotomy s.depth p.depth with hret | hcont | hnew
      · -- a return from the frame one deeper: the step is skipped at its depth
        have hp : p.depth = s.depth + 1 := by omega
        obtain ⟨i, hi⟩ := Option.isSome_iff_exists.mp (lastKept_isSome hv.2 (k := s.depth) (by omega))
        have hstack : keptStack (s :: p :: h) s.depth = keptStack (p :: h) s.depth :=
          keptStack_congr fun k hk => by
            rcases Nat.lt_or_ge k s.depth with hk' | hk'
            · exact lastKept_cons_of_lt hk'
            · obtain rfl : k = s.depth := by omega
              exact lastKept_cons_return hp
        rw [frameStep, if_neg (show (keptStack (p :: h) p.depth).length ≠ s.depth by omega),
          if_pos (show (keptStack (p :: h) p.depth).length = s.depth + 2 by omega), hp, keptStack_succ,
          List.tail_cons, headD_keptStack, hi, hstack]
        rfl
      · -- the same context: the step replaces the entry of its depth
        obtain ⟨i, hi⟩ := Option.isSome_iff_exists.mp (lastKept_isSome hv.2 (k := s.depth) (by omega))
        have hself : lastKept (s :: p :: h) s.depth = some s.inst := lastKept_cons_self (by simp [hcont])
        have htail : (keptStack (s :: p :: h) s.depth).tail = (keptStack (p :: h) s.depth).tail :=
          tail_keptStack_congr fun k hk => lastKept_cons_of_lt hk
        rw [frameStep, if_neg (show (keptStack (p :: h) p.depth).length ≠ s.depth by omega),
          if_neg (show (keptStack (p :: h) p.depth).length ≠ s.depth + 2 by omega),
          if_pos (show (keptStack (p :: h) p.depth).length = s.depth + 1 by omega), ← hcont,
          headD_keptStack, hi, keptStack_eq_cons (s :: p :: h), hself, htail]
        rfl
      · -- a new context, one deeper
        have hs : s.depth = p.depth + 1 := by omega
        have hnone : lastKept (p :: h) s.depth = none := by simp [lastKept, hs]
        have hself : lastKept (s :: p :: h) s.depth = some s.inst := lastKept_cons_self (by simp; omega)
        have hbelow : keptStack (s :: p :: h) p.depth = keptStack (p :: h) p.depth :=
          keptStack_congr fun k hk => lastKept_cons_of_lt (by omega)
        rw [frameStep, if_pos (show (keptStack (p :: h) p.depth).length = s.depth by omega), hnone, hs,
          keptStack_succ, ← hs, hself, hbelow]
        rfl

theorem run_concat (t : StandardTrace) (steps : List TraceStep) (s : TraceStep) :
    t.run (steps ++ [s]) = (t.run steps).step s := by
  simp [StandardTrace.run, List.foldl_append]

theorem run_options (t : StandardTrace) (steps : List TraceStep) :
    (t.run steps).options = t.options ∧ (t.run steps).showMnemonics = t.showMnemonics := by
  induction steps generalizing t with
  | nil => exact ⟨rfl, rfl⟩
  | cons s steps ih => exact ih (t.step s)

/-- The run lemma: from an empty stack, over a valid history, the tracer
holds the frame stack of the history. -/
theorem run_lastInst (t : StandardTrace) (ht : t.lastInst = []) (h : List TraceStep)
    (hv : validDepths h) : (t.run h.reverse).lastInst = frameStack h := by
  induction h with
  | nil => exact ht
  | cons s h ih =>
      rw [List.reverse_cons, run_concat]
      show (frameStep (t.run h.reverse).lastInst s.depth s.inst).2.2 = _
      rw [ih (validDepths_tail hv), frameStep_frameStack hv]

/-- The frame stack of the standard tracer over a run whose depths start at 0
and move by at most one per step, from an empty `m_lastInst`: the tracer
holds, at each depth up to the last step's, the instruction of the latest
step at that depth in the current context that did not return to it, and each
step appends the record made from the entry of its depth, as a new context
exactly when there is none. -/
theorem tracer_frameStack (t : StandardTrace) (ht : t.lastInst = []) (h : List TraceStep)
    (s : TraceStep) (hv : validDepths (s :: h)) :
    (t.run (s :: h).reverse).lastInst = keptStack (s :: h) s.depth ∧
      (t.run (s :: h).reverse).trace = (t.run h.reverse).trace ++
        [traceRecord t.options t.showMnemonics ((lastKept h s.depth).getD .stop)
          (lastKept h s.depth).isNone s] := by
  refine ⟨run_lastInst t ht _ hv, ?_⟩
  rw [List.reverse_cons, run_concat]
  show (t.run h.reverse).trace ++ [traceRecord (t.run h.reverse).options (t.run h.reverse).showMnemonics
    (frameStep (t.run h.reverse).lastInst s.depth s.inst).1
    (frameStep (t.run h.reverse).lastInst s.depth s.inst).2.1 s] = _
  rw [run_lastInst t ht _ (validDepths_tail hv), frameStep_frameStack hv, (run_options t _).1,
    (run_options t _).2]

/-- After CALL at depth 0, STOP at depth 1 and SSTORE back at depth 0, the
tracer keeps the CALL at depth 0, not the SSTORE. -/
theorem sstore_return_keeps_call :
    (freshTrace.run [stepAt 0 .call, stepAt 1 .stop, stepAt 0 .sstore]).lastInst = [.call] :=
  (tracer_frameStack freshTrace rfl [stepAt 1 .stop, stepAt 0 .call] (stepAt 0 .sstore) rfl).1

end Run

end EthExecutive
