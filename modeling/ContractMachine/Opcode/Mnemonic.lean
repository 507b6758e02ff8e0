import ContractMachine.Opcode

/-!
The names of instructions. A name is read back in either case.
-/

namespace ContractMachine

def Binary.mnemonic : Binary → String
  | .add => "ADD"
  | .mul => "MUL"
  | .sub => "SUB"
  | .div => "DIV"
  | .sdiv => "SDIV"
  | .mod => "MOD"
  | .smod => "SMOD"
  | .exp => "EXP"
  | .lt => "LT"
  | .gt => "GT"
  | .slt => "SLT"
  | .sgt => "SGT"
  | .eq => "EQ"
  | .and => "AND"
  | .or => "OR"
  | .xor => "XOR"
  | .byte => "BYTE"

def Reading.mnemonic : Reading → String
  | .address => "ADDRESS"
  | .origin => "ORIGIN"
  | .caller => "CALLER"
  | .callValue => "CALLVALUE"
  | .callDataSize => "CALLDATASIZE"
  | .codeSize => "CODESIZE"
  | .gasPrice => "GASPRICE"
  | .returnDataSize => "RETURNDATASIZE"
  | .coinbase => "COINBASE"
  | .timestamp => "TIMESTAMP"
  | .number => "NUMBER"
  | .difficulty => "DIFFICULTY"
  | .gasLimit => "GASLIMIT"
  | .pc => "PC"
  | .memorySize => "MSIZE"
  | .gas => "GAS"

def CallKind.mnemonic : CallKind → String
  | .call => "CALL"
  | .callCode => "CALLCODE"
  | .delegateCall => "DELEGATECALL"
  | .staticCall => "STATICCALL"

namespace Opcode

def mnemonic : Opcode → String
  | .stop => "STOP"
  | .binary operation => operation.mnemonic
  | .ternary .addMod => "ADDMOD"
  | .ternary .mulMod => "MULMOD"
  | .signExtend => "SIGNEXTEND"
  | .unary .isZero => "ISZERO"
  | .unary .not => "NOT"
  | .sha3 => "SHA3"
  | .reading what => what.mnemonic
  | .balance => "BALANCE"
  | .callDataLoad => "CALLDATALOAD"
  | .copy .callData => "CALLDATACOPY"
  | .copy .code => "CODECOPY"
  | .copy .returnData => "RETURNDATACOPY"
  | .extCodeSize => "EXTCODESIZE"
  | .extCodeCopy => "EXTCODECOPY"
  | .blockHash => "BLOCKHASH"
  | .pop => "POP"
  | .mload => "MLOAD"
  | .mstore => "MSTORE"
  | .mstore8 => "MSTORE8"
  | .sload => "SLOAD"
  | .sstore => "SSTORE"
  | .jump => "JUMP"
  | .jumpi => "JUMPI"
  | .jumpDest => "JUMPDEST"
  | .push index => "PUSH" ++ toString (index.val + 1)
  | .dup index => "DUP" ++ toString (index.val + 1)
  | .swap index => "SWAP" ++ toString (index.val + 1)
  | .log topics => "LOG" ++ toString topics.val
  | .create => "CREATE"
  | .call kind => kind.mnemonic
  | .returning => "RETURN"
  | .revert => "REVERT"
  | .suicide => "SUICIDE"

/-- The instruction of a name. Only the 26 letters have two cases. -/
def ofMnemonic? (name : List Char) : Option Opcode :=
  let upper := name.map Char.toUpper
  all.find? fun op => op.mnemonic.toList == upper

end Opcode

end ContractMachine
