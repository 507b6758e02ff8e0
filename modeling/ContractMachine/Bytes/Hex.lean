import ContractMachine.Bytes

/-!
Hexadecimal digits. Bytes are written as two lower case digits each and read in either case; a
reader says which character stopped it and where.
-/

namespace ContractMachine.Hex

inductive Error where
  | oddLength
  | invalidDigit (digit : UInt8) (position : Nat)
  deriving DecidableEq, Repr

def quoted (byte : UInt8) : String :=
  let n := byte.toNat
  let inner :=
    if n = 0 then "\\0" else if n = 9 then "\\t" else if n = 10 then "\\n" else if n = 13 then "\\r"
    else if n = 39 then "\\'" else if n = 92 then "\\\\"
    else if n < 0x20 ∨ (0x7f ≤ n ∧ n ≤ 0xa0) ∨ n = 0xad then
      "\\u\x7b" ++ String.ofList (Nat.toDigits 16 n) ++ "\x7d"
    else String.singleton (Char.ofNat n)
  "'" ++ inner ++ "'"

def Error.message : Error → String
  | .oddLength => "Odd number of digits"
  | .invalidDigit digit position =>
      "Invalid character " ++ quoted digit ++ " at position " ++ toString position

def digits (byte : UInt8) : List Char :=
  [Nat.digitChar (byte.toNat / 16), Nat.digitChar (byte.toNat % 16)]

def encode (bytes : Bytes) : String :=
  String.ofList (bytes.toList.flatMap digits)

def encodeNat (n : Nat) : String :=
  String.ofList (Nat.toDigits 16 n)

def encodeFixed (size n : Nat) : String :=
  encode (Bytes.ofNat size n)

def digitValue? (digit : UInt8) : Option Nat :=
  let n := digit.toNat
  if 48 ≤ n ∧ n ≤ 57 then some (n - 48)
  else if 65 ≤ n ∧ n ≤ 70 then some (n - 55)
  else if 97 ≤ n ∧ n ≤ 102 then some (n - 87)
  else none

def digitAt (digit : UInt8) (position : Nat) : Except Error Nat :=
  match digitValue? digit with
  | some value => .ok value
  | none => .error (.invalidDigit digit position)

def decodePairs (position : Nat) : List UInt8 → Except Error (List UInt8)
  | high :: low :: rest => do
      let h ← digitAt high position
      let l ← digitAt low (position + 1)
      let tail ← decodePairs (position + 2) rest
      pure (UInt8.ofNat (h * 16 + l) :: tail)
  | _ => .ok []

def decode (text : List UInt8) : Except Error (List UInt8) :=
  if text.length % 2 = 1 then .error .oddLength else decodePairs 0 text

def utf8 (text : List Char) : List UInt8 := text.flatMap String.utf8EncodeChar

end ContractMachine.Hex
