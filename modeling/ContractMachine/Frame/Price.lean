import ContractMachine.Config
import ContractMachine.Frame
import ContractMachine.Ledger

/-!
The price of the next instruction. It is known from the frame and the ledger before anything is
done, and is told apart into the work, the growth of memory and the gas handed on to a callee.
-/

namespace ContractMachine

structure Price where
  work : Nat
  growth : Nat := 0
  forwarded : Nat := 0
  -- What the instruction adds to the refund pool.
  refund : Nat := 0
  deriving DecidableEq

def Price.total (price : Price) : Nat := price.work + price.growth + price.forwarded

namespace Frame

def growthFor (frame : Frame) (fees : Fees) (offset size : Word) : Except Fault Nat :=
  fees.growth frame.memory.size (memoryNeeded offset size)

def workAndGrowth (frame : Frame) (fees : Fees) (work : Nat) (offset size : Word) :
    Except Fault Price := do
  let growth ← frame.growthFor fees offset size
  .ok { work := work, growth := growth }

def copyPrice (frame : Frame) (fees : Fees) (fixed : Nat) (offset size : Word) :
    Except Fault Price := do
  let growth ← frame.growthFor fees offset size
  .ok { work := fixed + (fees.withCopy growth size.length - growth), growth := growth }

/-- A call looks at its own price first and hands on part of what is then left. -/
def callPrice (frame : Frame) (fees : Fees) (kind : CallKind) : Except Fault Price := do
  -- The operands are gas, address, then the value if the kind has one, then the two windows.
  let requested ← frame.stack.get 0
  let value ← if kind.hasValue then frame.stack.get 2 else .ok 0
  let first := if kind.hasValue then 3 else 2
  let input := memoryNeeded (← frame.stack.get first) (← frame.stack.get (first + 1))
  let output := memoryNeeded (← frame.stack.get (first + 2)) (← frame.stack.get (first + 3))
  let growth ← fees.growth frame.memory.size (max input output)
  let work := fees.call + (if value = 0 then 0 else fees.valueTransfer)
  let available := frame.gasLeft
  if available < work + growth then .error (.outOfGas kind.mnemonic (work + growth) available)
  else .ok { work, growth, forwarded := Gas.forwarded requested (available - (work + growth)) }

/-- The data of a log is looked at on its own before the rest of the price. -/
def logPrice (frame : Frame) (fees : Fees) (op : Opcode) (topics : Nat) : Except Fault Price := do
  let size ← frame.stack.get 1
  let dataPrice := size.toNat * fees.logByte
  let available := frame.gasLeft
  if Word.limit < dataPrice then .error (.outOfGas op.mnemonic Word.limit available)
  else if available < dataPrice then .error (.outOfGas op.mnemonic dataPrice available)
  else
    frame.workAndGrowth fees (fees.logPrice topics (size.setWidth 64).toNat)
      (← frame.stack.get 0) size

def price (frame : Frame) (fees : Fees) (ledger : Ledger) (op : Opcode) : Except Fault Price := do
  let stack := frame.stack
  match op with
  | .stop => .ok { work := 0 }
  | .suicide => .ok { work := fees.suicide }
  | .sstore =>
      let (work, refund) :=
        fees.slotPrice (ledger.slot? frame.owner (← stack.get 0)) (← stack.get 1)
      .ok { work, refund }
  | .sload => .ok { work := fees.sload }
  | .balance => .ok { work := fees.balance }
  | .mload | .mstore => frame.workAndGrowth fees op.tier.cost (← stack.get 0) 32
  | .mstore8 => frame.workAndGrowth fees op.tier.cost (← stack.get 0) 1
  | .returning | .revert => frame.workAndGrowth fees 0 (← stack.get 0) (← stack.get 1)
  | .sha3 =>
      let size ← stack.get 1
      frame.workAndGrowth fees (fees.sha3Price size.length) (← stack.get 0) size
  | .copy _ => frame.copyPrice fees op.tier.cost (← stack.get 0) (← stack.get 2)
  | .extCodeSize => .ok { work := fees.extCodeSize }
  | .extCodeCopy => frame.copyPrice fees fees.extCodeCopy (← stack.get 1) (← stack.get 3)
  | .call kind => frame.callPrice fees kind
  | .create => frame.workAndGrowth fees fees.create (← stack.get 1) (← stack.get 2)
  | .log topics => frame.logPrice fees op topics.val
  | .binary .exp => .ok { work := fees.expPrice (← stack.get 1) }
  | _ => .ok { work := op.tier.cost }

/-- The instruction at the position and its price, if it is one, the stack is fit for it and the gas
is there. -/
def quote (frame : Frame) (fees : Fees) (ledger : Ledger) : Except Fault (Opcode × Price) := do
  match Opcode.ofByte? frame.opByte with
  | none => .error (.invalidOpcode frame.opByte)
  | some op =>
      frame.stack.checkArity op.pops op.pushes
      let price ← frame.price fees ledger op
      if frame.gasLeft < price.total then .error (.outOfGas op.mnemonic price.total frame.gasLeft)
      else .ok (op, price)

def pay (frame : Frame) (price : Price) : Frame :=
  { frame with outcome := (frame.outcome.addRefund price.refund).spend price.total }

end Frame

end ContractMachine
