import ContractMachine.Frame.Price

/-!
The instructions that concern one frame only. They may read the ledger and the hashes of earlier
blocks; an instruction that does not say where it goes on goes on behind itself.
-/

namespace ContractMachine

def Binary.apply : Binary → Word → Word → Word
  | .add => fun a b => a + b
  | .mul => fun a b => a * b
  | .sub => fun a b => a - b
  | .div => Word.div
  | .sdiv => Word.signedDiv
  | .mod => Word.mod
  | .smod => Word.signedMod
  | .exp => Word.exp
  | .lt => fun a b => Word.ofBool (a.ult b)
  | .gt => fun a b => Word.ofBool (b.ult a)
  | .slt => fun a b => Word.ofBool (Word.signedCompare a b == .lt)
  | .sgt => fun a b => Word.ofBool (Word.signedCompare a b == .gt)
  | .eq => fun a b => Word.ofBool (a == b)
  | .and => fun a b => a &&& b
  | .or => fun a b => a ||| b
  | .xor => fun a b => a ^^^ b
  | .byte => fun position word =>
      match position.index? with
      | some i => Word.ofNat (word.byte i).toNat
      | none => 0

def Unary.apply : Unary → Word → Word
  | .isZero => fun a => Word.ofBool (a == 0)
  | .not => fun a => ~~~a

def Ternary.apply : Ternary → Word → Word → Word → Word
  | .addMod => Word.addMod
  | .mulMod => Word.mulMod

def Reading.word (frame : Frame) : Reading → Word
  | .address => Word.ofAddress frame.owner
  | .origin => Word.ofAddress frame.context.origin
  | .caller => Word.ofAddress frame.context.caller
  | .callValue => frame.context.value
  | .callDataSize => frame.context.dataSize
  | .codeSize => Word.ofNat frame.code.size
  | .gasPrice => frame.context.gasPrice
  | .returnDataSize => Word.ofNat frame.returned.size
  | .coinbase => Word.ofAddress frame.context.block.coinbase
  | .timestamp => Word.ofNat frame.context.block.timestamp
  | .number => Word.ofNat frame.context.block.number
  | .difficulty => frame.context.block.difficulty
  | .gasLimit => Word.ofNat frame.context.block.gasLimit
  | .pc => Word.ofNat frame.pc
  | .memorySize => Word.ofNat frame.memory.size
  | .gas => Word.ofNat frame.gasLeft

def BlockHashes.recent (hashes : BlockHashes) (number : Nat) (asked : Word) : Word :=
  let n := asked.index
  if n < number ∧ max number 256 - 256 ≤ n then hashes.find n else 0

namespace FrameAction

def popMany : Nat → FrameAction (List Word)
  | 0 => pure []
  | n + 1 => do
      let word ← pop
      let rest ← popMany n
      pure (word :: rest)

def popWindow : FrameAction Bytes := do
  let offset ← pop
  let size ← pop
  readMemory offset.index size.index

def copyWindow (source : Frame → Bytes) : FrameAction Unit := do
  let target ← pop
  let offset ← pop
  let size ← pop
  let data ← reads fun frame => (source frame).window offset.index size.index
  changeMemory fun memory => memory.write target.index data size.index

def copyCallData : FrameAction Unit := do
  let target ← pop
  let offset ← pop
  let size ← pop
  let data ← reads fun frame => frame.context.dataCopy offset size.index
  changeMemory fun memory => memory.write target.index data size.index

/-- What was returned is not continued by zeros. -/
def copyReturned : FrameAction Unit := do
  let target ← pop
  let start ← pop
  let count ← pop
  let offset := start.index
  let size := count.index
  let available ← reads fun frame => frame.returned.size
  if available < offset + size then throw (.returnDataBounds offset size available)
  let data ← reads fun frame => frame.returned.extract offset (offset + size)
  changeMemory fun memory => memory.write target.index data size

def jumpTo (destination : Word) : FrameAction Unit := fun frame =>
  match frame.jumpTarget destination with
  | .ok pc => .ok () (frame.setPc pc)
  | .error fault => .error fault frame

def compute (environment : Environment) (ledger : Ledger) : Opcode → FrameAction Unit
  | .binary operation => do
      let a ← pop
      let b ← pop
      push (operation.apply a b)
  | .ternary operation => do
      let a ← pop
      let b ← pop
      let c ← pop
      push (operation.apply a b c)
  | .signExtend => do
      let k ← pop
      match k.index?.filter fun k => k < 32 with
      | some k =>
          let word ← pop
          push (word.signExtend k)
      | none => pure ()
  | .unary operation => do
      let a ← pop
      push (operation.apply a)
  | .sha3 => do
      let data ← popWindow
      push (Keccak.hash data)
  | .reading what => do
      let word ← reads fun frame => what.word frame
      push word
  | .balance => do
      let address ← pop
      push (ledger.balance address.toAddress)
  | .callDataLoad => do
      let offset ← pop
      let word ← reads fun frame => frame.context.dataWord offset
      push word
  | .copy .callData => copyCallData
  | .copy .code => copyWindow fun frame => frame.code
  | .copy .returnData => copyReturned
  | .extCodeSize => do
      let address ← pop
      push (Word.ofNat (ledger.code address.toAddress).size)
  | .extCodeCopy => do
      let address ← pop
      let code := ledger.code address.toAddress
      copyWindow fun _ => code
  | .blockHash => do
      let asked ← pop
      let number ← reads fun frame => frame.context.block.number
      push (environment.blockHashes.recent number asked)
  | .pop => do
      let _ ← pop
  | .mload => do
      let offset ← pop
      let word ← withMemory fun memory => memory.readWord offset.index
      push word
  | .mstore => do
      let offset ← pop
      let word ← pop
      changeMemory fun memory => memory.writeWord offset.index word
  | .mstore8 => do
      let offset ← pop
      let word ← pop
      changeMemory fun memory => memory.writeByte offset.index (word.byte 31)
  | .sload => do
      let key ← pop
      let owner ← reads Frame.owner
      push ((ledger.slot? owner key).getD 0)
  | .dup index => withStack fun stack => stack.dup index.val
  | .swap index => withStack fun stack => stack.swap 0 (index.val + 1)
  | .log topics => do
      ensureMutable
      let offset ← pop
      let size ← pop
      let words ← popMany topics.val
      let data ← readMemory offset.index size.index
      let owner ← reads Frame.owner
      changeOutcome fun outcome => outcome.addLog ⟨owner, words, data⟩
  | _ => pure ()

def perform (environment : Environment) (ledger : Ledger) : Opcode → FrameAction Unit
  | .stop => modify fun frame => { frame with outcome := frame.outcome.setReturnData #[] }.stop
  | .jump => do
      let destination ← pop
      jumpTo destination
  | .jumpi => do
      let destination ← pop
      let condition ← pop
      if condition = 0 then advance else jumpTo destination
  | .push index => do
      -- The immediate begins behind the instruction and ends where the next one starts.
      advance
      let data ← update fun frame => frame.fetch (index.val + 1)
      push (Word.ofBytes data)
  | .returning => do
      let data ← popWindow
      modify fun frame => { frame with outcome := frame.outcome.setReturnData data }.advance.stop
  | .revert => do
      let data ← popWindow
      modify fun frame =>
        { frame with outcome := (frame.outcome.setReturnData data).setReverted }.advance.stop
  | op => do
      compute environment ledger op
      advance

end FrameAction

end ContractMachine
