/-!
The instruction set: which bytes are instructions, how many operands each takes and leaves, and the
fixed part of its price. Instructions of one shape share a constructor.
-/

namespace ContractMachine

inductive Binary where
  | add | mul | sub | div | sdiv | mod | smod | exp
  | lt | gt | slt | sgt | eq | and | or | xor | byte
  deriving DecidableEq, Repr

inductive Unary where
  | isZero | not
  deriving DecidableEq, Repr

inductive Ternary where
  | addMod | mulMod
  deriving DecidableEq, Repr

inductive Reading where
  | address | origin | caller | callValue | callDataSize | codeSize | gasPrice | returnDataSize
  | coinbase | timestamp | number | difficulty | gasLimit | pc | memorySize | gas
  deriving DecidableEq, Repr

inductive Source where
  | callData | code | returnData
  deriving DecidableEq, Repr

inductive CallKind where
  | call | callCode | delegateCall | staticCall
  deriving DecidableEq, Repr

inductive Opcode where
  | stop
  | binary (operation : Binary)
  | ternary (operation : Ternary)
  | signExtend
  | unary (operation : Unary)
  | sha3
  | reading (what : Reading)
  | balance
  | callDataLoad
  | copy (source : Source)
  | extCodeSize
  | extCodeCopy
  | blockHash
  | pop
  | mload
  | mstore
  | mstore8
  | sload
  | sstore
  | jump
  | jumpi
  | jumpDest
  | push (index : Fin 32)
  | dup (index : Fin 16)
  | swap (index : Fin 16)
  | log (topics : Fin 5)
  | create
  | call (kind : CallKind)
  | returning
  | revert
  | suicide
  deriving DecidableEq, Repr

inductive Tier where
  | zero | base | veryLow | low | mid | high | ext | special
  deriving DecidableEq, Repr

/-- Instructions of the last class have a price of their own; those without one cost 1. -/
def Tier.cost : Tier → Nat
  | .zero => 0
  | .base => 2
  | .veryLow => 3
  | .low => 5
  | .mid => 8
  | .high => 10
  | .ext => 20
  | .special => 1

namespace CallKind

def hasValue : CallKind → Bool
  | .call | .callCode => true
  | .delegateCall | .staticCall => false

/-- The called code acts on the account of the caller. -/
def isStateless : CallKind → Bool
  | .callCode | .delegateCall => true
  | .call | .staticCall => false

/-- The called code sees the caller and the value of the calling frame. -/
def isDelegate : CallKind → Bool
  | .delegateCall => true
  | .call | .callCode | .staticCall => false

def isStatic : CallKind → Bool
  | .staticCall => true
  | .call | .callCode | .delegateCall => false

end CallKind

namespace Opcode

def byte : Opcode → UInt8
  | .stop => 0x00
  | .binary .add => 0x01
  | .binary .mul => 0x02
  | .binary .sub => 0x03
  | .binary .div => 0x04
  | .binary .sdiv => 0x05
  | .binary .mod => 0x06
  | .binary .smod => 0x07
  | .ternary .addMod => 0x08
  | .ternary .mulMod => 0x09
  | .binary .exp => 0x0a
  | .signExtend => 0x0b
  | .binary .lt => 0x10
  | .binary .gt => 0x11
  | .binary .slt => 0x12
  | .binary .sgt => 0x13
  | .binary .eq => 0x14
  | .unary .isZero => 0x15
  | .binary .and => 0x16
  | .binary .or => 0x17
  | .binary .xor => 0x18
  | .unary .not => 0x19
  | .binary .byte => 0x1a
  | .sha3 => 0x20
  | .reading .address => 0x30
  | .balance => 0x31
  | .reading .origin => 0x32
  | .reading .caller => 0x33
  | .reading .callValue => 0x34
  | .callDataLoad => 0x35
  | .reading .callDataSize => 0x36
  | .copy .callData => 0x37
  | .reading .codeSize => 0x38
  | .copy .code => 0x39
  | .reading .gasPrice => 0x3a
  | .extCodeSize => 0x3b
  | .extCodeCopy => 0x3c
  | .reading .returnDataSize => 0x3d
  | .copy .returnData => 0x3e
  | .blockHash => 0x40
  | .reading .coinbase => 0x41
  | .reading .timestamp => 0x42
  | .reading .number => 0x43
  | .reading .difficulty => 0x44
  | .reading .gasLimit => 0x45
  | .pop => 0x50
  | .mload => 0x51
  | .mstore => 0x52
  | .mstore8 => 0x53
  | .sload => 0x54
  | .sstore => 0x55
  | .jump => 0x56
  | .jumpi => 0x57
  | .reading .pc => 0x58
  | .reading .memorySize => 0x59
  | .reading .gas => 0x5a
  | .jumpDest => 0x5b
  | .push index => UInt8.ofNat (0x60 + index.val)
  | .dup index => UInt8.ofNat (0x80 + index.val)
  | .swap index => UInt8.ofNat (0x90 + index.val)
  | .log topics => UInt8.ofNat (0xa0 + topics.val)
  | .create => 0xf0
  | .call .call => 0xf1
  | .call .callCode => 0xf2
  | .returning => 0xf3
  | .call .delegateCall => 0xf4
  | .call .staticCall => 0xfa
  | .revert => 0xfd
  | .suicide => 0xff

def ofNat? : Nat → Option Opcode
  | 0x00 => some .stop
  | 0x01 => some (.binary .add)
  | 0x02 => some (.binary .mul)
  | 0x03 => some (.binary .sub)
  | 0x04 => some (.binary .div)
  | 0x05 => some (.binary .sdiv)
  | 0x06 => some (.binary .mod)
  | 0x07 => some (.binary .smod)
  | 0x08 => some (.ternary .addMod)
  | 0x09 => some (.ternary .mulMod)
  | 0x0a => some (.binary .exp)
  | 0x0b => some .signExtend
  | 0x10 => some (.binary .lt)
  | 0x11 => some (.binary .gt)
  | 0x12 => some (.binary .slt)
  | 0x13 => some (.binary .sgt)
  | 0x14 => some (.binary .eq)
  | 0x15 => some (.unary .isZero)
  | 0x16 => some (.binary .and)
  | 0x17 => some (.binary .or)
  | 0x18 => some (.binary .xor)
  | 0x19 => some (.unary .not)
  | 0x1a => some (.binary .byte)
  | 0x20 => some .sha3
  | 0x30 => some (.reading .address)
  | 0x31 => some .balance
  | 0x32 => some (.reading .origin)
  | 0x33 => some (.reading .caller)
  | 0x34 => some (.reading .callValue)
  | 0x35 => some .callDataLoad
  | 0x36 => some (.reading .callDataSize)
  | 0x37 => some (.copy .callData)
  | 0x38 => some (.reading .codeSize)
  | 0x39 => some (.copy .code)
  | 0x3a => some (.reading .gasPrice)
  | 0x3b => some .extCodeSize
  | 0x3c => some .extCodeCopy
  | 0x3d => some (.reading .returnDataSize)
  | 0x3e => some (.copy .returnData)
  | 0x40 => some .blockHash
  | 0x41 => some (.reading .coinbase)
  | 0x42 => some (.reading .timestamp)
  | 0x43 => some (.reading .number)
  | 0x44 => some (.reading .difficulty)
  | 0x45 => some (.reading .gasLimit)
  | 0x50 => some .pop
  | 0x51 => some .mload
  | 0x52 => some .mstore
  | 0x53 => some .mstore8
  | 0x54 => some .sload
  | 0x55 => some .sstore
  | 0x56 => some .jump
  | 0x57 => some .jumpi
  | 0x58 => some (.reading .pc)
  | 0x59 => some (.reading .memorySize)
  | 0x5a => some (.reading .gas)
  | 0x5b => some .jumpDest
  | 0xf0 => some .create
  | 0xf1 => some (.call .call)
  | 0xf2 => some (.call .callCode)
  | 0xf3 => some .returning
  | 0xf4 => some (.call .delegateCall)
  | 0xfa => some (.call .staticCall)
  | 0xfd => some .revert
  | 0xff => some .suicide
  | _ => none

def ofByte? (byte : UInt8) : Option Opcode :=
  let n := byte.toNat
  if push : 0x60 ≤ n ∧ n < 0x80 then some (.push ⟨n - 0x60, by omega⟩)
  else if dup : 0x80 ≤ n ∧ n < 0x90 then some (.dup ⟨n - 0x80, by omega⟩)
  else if swap : 0x90 ≤ n ∧ n < 0xa0 then some (.swap ⟨n - 0x90, by omega⟩)
  else if log : 0xa0 ≤ n ∧ n < 0xa5 then some (.log ⟨n - 0xa0, by omega⟩)
  else ofNat? n

def all : List Opcode :=
  (List.range 256).filterMap fun n => ofByte? (UInt8.ofNat n)

def pops : Opcode → Nat
  | .stop | .jumpDest | .reading _ | .push _ => 0
  | .unary _ | .balance | .callDataLoad | .extCodeSize | .blockHash | .pop | .mload | .sload | .jump
  | .suicide => 1
  | .binary
      _ | .signExtend | .sha3 | .mstore | .mstore8 | .sstore | .jumpi | .returning | .revert => 2
  | .ternary _ | .copy _ | .create => 3
  | .extCodeCopy => 4
  | .call .delegateCall | .call .staticCall => 6
  | .call .call | .call .callCode => 7
  | .dup index => index.val + 1
  | .swap index => index.val + 2
  | .log topics => topics.val + 2

def pushes : Opcode → Nat
  | .stop | .copy
      _ | .extCodeCopy | .pop | .mstore | .mstore8 | .sstore | .jump | .jumpi | .jumpDest
  | .log _ | .returning | .revert | .suicide => 0
  | .binary _ | .ternary _ | .signExtend | .unary _ | .sha3 | .reading _ | .balance | .callDataLoad
  | .extCodeSize | .blockHash | .mload | .sload | .push _ | .create | .call _ => 1
  | .dup index => index.val + 2
  | .swap index => index.val + 2

def tier : Opcode → Tier
  | .stop | .returning | .revert | .suicide => .zero
  | .reading _ | .pop => .base
  | .binary .mul | .binary .div | .binary .sdiv | .binary .mod | .binary .smod | .signExtend => .low
  | .ternary _ | .jump => .mid
  | .jumpi => .high
  | .balance | .extCodeSize | .extCodeCopy | .blockHash => .ext
  | .binary .exp | .sha3 | .sload | .sstore | .jumpDest | .create | .call _ | .log _ => .special
  | .binary _ | .unary _ | .callDataLoad | .copy _ | .mload | .mstore | .mstore8 | .push _ | .dup _
  | .swap _ => .veryLow

def immediate? : Opcode → Option Nat
  | .push index => some (index.val + 1)
  | _ => none

def immediate (op : Opcode) : Nat := op.immediate?.getD 0

def logTopics? : Opcode → Option Nat
  | .log topics => some topics.val
  | _ => none

def callKind? : Opcode → Option CallKind
  | .call kind => some kind
  | _ => none

theorem ofByte?_byte (op : Opcode) : ofByte? op.byte = some op := by
  cases op with
  | binary operation => cases operation <;> rfl
  | ternary operation => cases operation <;> rfl
  | unary operation => cases operation <;> rfl
  | reading what => cases what <;> rfl
  | copy source => cases source <;> rfl
  | call kind => cases kind <;> rfl
  | push index => revert index; decide
  | dup index => revert index; decide
  | swap index => revert index; decide
  | log topics => revert topics; decide
  | _ => rfl

theorem byte_of_ofByte? {byte : UInt8} {op : Opcode} (found : ofByte? byte = some op) :
    op.byte = byte := by
  have every : ∀ n : Fin 256, ∀ op ∈ ofByte? (UInt8.ofNat n.val), op.byte = UInt8.ofNat n.val := by
    decide +kernel
  have := every ⟨byte.toNat, byte.toNat_lt⟩ op
  simp only [UInt8.ofNat_toNat] at this
  exact this found

end Opcode

end ContractMachine
