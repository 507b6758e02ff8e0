import ContractMachine.Bytes.Hex
import ContractMachine.Code
import ContractMachine.Opcode.Mnemonic
import ContractMachine.Quantity
import ContractMachine.Text.Blank

/-!
Code as text. A listing has the name of each instruction, the immediate of a PUSH after it and every
other byte, in hexadecimal behind `0x`. Text in that form is assembled to code; an immediate may
also be a decimal number and is filled up with zeros on the left.
-/

namespace ContractMachine.Assembly

inductive Error where
  | unknownMnemonic (token : String)
  | missingImmediate (mnemonic : String)
  | immediateTooLarge (mnemonic immediate : String)
  | invalidHex (cause : Hex.Error)
  deriving DecidableEq, Repr

def Error.message : Error → String
  | .unknownMnemonic token => "unknown mnemonic: " ++ token
  | .missingImmediate mnemonic => mnemonic ++ " needs an immediate"
  | .immediateTooLarge mnemonic immediate =>
      "immediate " ++ immediate ++ " does not fit " ++ mnemonic
  | .invalidHex cause => "invalid hex: " ++ cause.message

def afterMark? : List Char → Option (List Char)
  | '0' :: 'x' :: rest => some rest
  | _ => none

def digitValue? (c : Char) : Option Nat :=
  if '0' ≤ c ∧ c ≤ '9' then some (c.toNat - '0'.toNat) else none

def decimal? (token : List Char) : Option Nat :=
  let digits := match token with
    | '+' :: rest => rest
    | _ => token
  match digits, digits.mapM digitValue? with
  | _ :: _, some values =>
      let n := values.foldl (fun total value => total * 10 + value) 0
      if n ≤ Quantity.limit then some n else none
  | _, _ => none

def bytesOfNat (n : Nat) : List UInt8 :=
  (Bytes.ofNat (n.log2 / 8 + 1) n).toList

def liftHex {α : Type} : Except Hex.Error α → Except Error α
  | .ok value => .ok value
  | .error cause => .error (.invalidHex cause)

/-- The bytes of an immediate. In hexadecimal an odd first digit stands for a byte. -/
def immediateBytes (token : List Char) : Except Error (List UInt8) :=
  match afterMark? token with
  | some digits =>
      let text := Hex.utf8 digits
      liftHex (Hex.decode (if text.length % 2 = 1 then 48 :: text else text))
  | none =>
      match decimal? token with
      | some n => .ok (bytesOfNat n)
      | none => .error (.unknownMnemonic (String.ofList token))

def fill (mnemonic : String) (size : Nat) (token : List Char) : Except Error (List UInt8) := do
  let bytes ← immediateBytes token
  if bytes.length ≤ size then .ok (List.replicate (size - bytes.length) 0 ++ bytes)
  else .error (.immediateTooLarge mnemonic (String.ofList token))

def assembleTokens : List (List Char) → Except Error (List UInt8)
  | [] => .ok []
  | token :: rest =>
      match afterMark? token with
      | some digits => do
          let raw ← liftHex (Hex.decode (Hex.utf8 digits))
          let tail ← assembleTokens rest
          .ok (raw ++ tail)
      | none =>
          match Opcode.ofMnemonic? token with
          | none => .error (.unknownMnemonic (String.ofList token))
          | some op =>
              match op.immediate? with
              | none => do
                  let tail ← assembleTokens rest
                  .ok (op.byte :: tail)
              | some size =>
                  match rest with
                  | [] => .error (.missingImmediate op.mnemonic)
                  | operand :: rest => do
                      let bytes ← fill op.mnemonic size operand
                      let tail ← assembleTokens rest
                      .ok (op.byte :: bytes ++ tail)

def assemble (source : String) : Except Error Bytes := do
  let bytes ← assembleTokens (Text.words source.toList)
  .ok bytes.toArray

def hexToken (bytes : List UInt8) : List Char := '0' :: 'x' :: bytes.flatMap Hex.digits

/-- The tokens of code read as instructions. The immediate of the last may be cut short. -/
def tokensOf : Nat → List UInt8 → List (List Char)
  | 0, _ => []
  | _, [] => []
  | fuel + 1, byte :: rest =>
      match Opcode.ofByte? byte with
      | none => hexToken [byte] :: tokensOf fuel rest
      | some op =>
          match op.immediate? with
          | none => op.mnemonic.toList :: tokensOf fuel rest
          | some size =>
              op.mnemonic.toList :: hexToken (rest.take size) :: tokensOf fuel (rest.drop size)

def listing (code : Bytes) : List (List Char) := tokensOf code.size code.toList

def disassemble (code : Bytes) : String :=
  String.ofList ([' '].intercalate (listing code))

end ContractMachine.Assembly
