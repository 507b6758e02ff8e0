import ContractMachine.Code.JumpTable
import ContractMachine.Context
import ContractMachine.Memory
import ContractMachine.Outcome
import ContractMachine.Stack

/-!
A frame: one code at work, with its position, stack and memory, its context and its outcome so far.
An action changes a frame and gives a value or a fault; what was done before a fault stays done.
-/

namespace ContractMachine

structure Frame where
  code : Bytes
  jumps : JumpTable
  pc : Nat := 0
  stack : Stack
  memory : Memory := {}
  context : Context
  -- What the last call or creation returned.
  returned : Bytes := #[]
  outcome : Outcome := {}
  stopped : Bool

namespace Frame

def start (code : Bytes) (context : Context) (stackLimit : Nat) : Frame where
  code := code
  jumps := JumpTable.ofCode code
  stack := { limit := stackLimit }
  context := context
  stopped := code.isEmpty

def owner (frame : Frame) : Address := frame.context.address

def opByte (frame : Frame) : UInt8 := Code.opByte frame.code frame.pc

def stop (frame : Frame) : Frame := { frame with stopped := true }

/-- A frame that leaves its code stops. -/
def setPc (frame : Frame) (pc : Nat) : Frame :=
  { frame with pc := pc, stopped := frame.stopped || frame.code.size ≤ pc }

def advance (frame : Frame) : Frame := frame.setPc (frame.pc + 1)

def fetch (frame : Frame) (size : Nat) : Bytes × Frame :=
  (frame.code.window frame.pc size, frame.setPc (Quantity.clamp (frame.pc + size)))

/-- A destination has at most four bytes and is in the jump table. -/
def jumpTarget (frame : Frame) (destination : Word) : Except Fault Nat :=
  if 4 < destination.occupied then .error (.badJump none)
  else if frame.jumps.allows destination.toNat then .ok destination.toNat
  else .error (.badJump (some destination.toNat))

def gasLeft (frame : Frame) : Nat := frame.context.gas - frame.outcome.gasUsed

def spend (frame : Frame) (gas : Nat) (cause : String) : Except Fault Frame :=
  if frame.gasLeft < gas then .error (.outOfGas cause gas frame.gasLeft)
  else .ok { frame with outcome := frame.outcome.spend gas }

def spendAll (frame : Frame) : Frame :=
  { frame with outcome := frame.outcome.spend frame.gasLeft }

def giveBack (frame : Frame) (gas : Nat) : Frame :=
  { frame with outcome := frame.outcome.giveBack gas }

/-- The end by force: all gas is gone and so is what would have been refunded. -/
def halt (frame : Frame) (fault : Fault) : Frame :=
  let spent := frame.spendAll.stop
  { spent with outcome := spent.outcome.clearRefund.setFault fault }

def setReturned (frame : Frame) (data : Bytes) : Frame := { frame with returned := data }

def addRecord (frame : Frame) (kind : RecordKind) (source : Address) (target : Option Address)
    (nonce : UInt64) (value : Word) (data : Bytes) (gas : Nat) : Nat × Frame :=
  let index := frame.outcome.records.size
  let record :=
    Record.make frame.context.transactionHash frame.context.depth index kind source target
    nonce value data gas frame.context.gasPrice
  (index, { frame with outcome := frame.outcome.addRecord record })

end Frame

abbrev FrameAction := EStateM Fault Frame

namespace FrameAction

def update {α : Type} (change : Frame → α × Frame) : FrameAction α := fun frame =>
  match change frame with
  | (value, changed) => .ok value changed

def reads {α : Type} (view : Frame → α) : FrameAction α := fun frame => .ok (view frame) frame

def ofExcept {α : Type} : Except Fault α → FrameAction α
  | .ok value => pure value
  | .error fault => throw fault

def pop : FrameAction Word := fun frame =>
  match frame.stack.pop with
  | .ok (word, stack) => .ok word { frame with stack := stack }
  | .error fault => .error fault frame

def withStack (change : Stack → Except Fault Stack) : FrameAction Unit := fun frame =>
  match change frame.stack with
  | .ok stack => .ok () { frame with stack := stack }
  | .error fault => .error fault frame

def push (word : Word) : FrameAction Unit := withStack fun stack => stack.push word

def withMemory {α : Type} (change : Memory → α × Memory) : FrameAction α := fun frame =>
  match change frame.memory with
  | (value, memory) => .ok value { frame with memory := memory }

def readMemory (offset size : Nat) : FrameAction Bytes :=
  withMemory fun memory => memory.read offset size

def changeMemory (change : Memory → Memory) : FrameAction Unit :=
  withMemory fun memory => ((), change memory)

def changeOutcome (change : Outcome → Outcome) : FrameAction Unit :=
  modify fun frame => { frame with outcome := change frame.outcome }

def advance : FrameAction Unit := modify Frame.advance

def giveBack (gas : Nat) : FrameAction Unit := modify fun frame => frame.giveBack gas

def setReturned (data : Bytes) : FrameAction Unit := modify fun frame => frame.setReturned data

def spend (gas : Nat) (cause : String) : FrameAction Unit := fun frame =>
  match frame.spend gas cause with
  | .ok changed => .ok () changed
  | .error fault => .error fault frame

def ensureMutable : FrameAction Unit := do
  if ← reads fun frame => frame.context.isStatic then throw .staticViolation

end FrameAction

end ContractMachine
