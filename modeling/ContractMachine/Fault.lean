import ContractMachine.Bytes.Hex
import ContractMachine.Word

/-!
What ends a frame by force. A fault stays with the frame that raised it: the frame's gas is gone and
the caller goes on.
-/

namespace ContractMachine

inductive Fault where
  | invalidOpcode (byte : UInt8)
  | stackUnderflow (required actual : Nat)
  | stackOverflow (size limit : Nat)
  | outOfGas (cause : String) (required available : Nat)
  | memoryLimit (requested limit : Nat)
  | badJump (destination : Option Nat)
  | staticViolation
  | returnDataBounds (offset size available : Nat)
  | failure (reason : String)
  deriving DecidableEq, Repr

namespace Fault

/-- A destination too wide to be one is not named. -/
def destinationText : Option Nat → String
  | none => "None"
  | some destination => "Some(" ++ toString destination ++ ")"

def byteText (byte : UInt8) : String :=
  String.ofList ((Hex.digits byte).map Char.toUpper)

def message : Fault → String
  | .invalidOpcode byte => "invalid opcode: 0x" ++ byteText byte
  | .stackUnderflow required actual =>
      "stack underflow: required " ++ toString required ++ ", actual " ++ toString actual
  | .stackOverflow size limit => "stack overflow: " ++ toString size ++ " > " ++ toString limit
  | .outOfGas cause required available =>
      "out of gas: " ++ cause ++ " requires " ++ toString required ++ ", " ++ toString available ++
        " left"
  | .memoryLimit requested limit =>
      "gas overflow: memory size " ++ toString requested ++ " exceeds " ++ toString limit
  | .badJump destination => "bad jump destination: " ++ destinationText destination
  | .staticViolation => "attempt to modify state in a static call"
  | .returnDataBounds offset size available =>
      "return data copy out of bounds: offset " ++ toString offset ++ ", size " ++ toString size
        ++ ", available " ++ toString available
  | .failure reason => "bytecode execution failed: " ++ reason

end Fault

end ContractMachine
