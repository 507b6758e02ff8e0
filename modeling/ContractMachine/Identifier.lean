import ContractMachine.Bytes.Hex
import ContractMachine.Digest.Keccak
import ContractMachine.Digest.Sha256

/-!
Addresses and hashes as bytes and as text, and the address of a new contract. Long text shows every
byte, short text the first and the last ones.
-/

namespace ContractMachine

def sizedNat? (size : Nat) (bytes : Bytes) : Option Nat :=
  if bytes.size = size then some bytes.toNat else none

namespace Word

def text (word : Word) : String := Hex.encodeFixed 32 word.toNat

def longText (word : Word) : String := "Word(0x" ++ word.text ++ ")"

end Word

namespace Address

def size : Nat := 20

def ofBytes? (bytes : Bytes) : Option Address := (sizedNat? size bytes).map (BitVec.ofNat 160)

def toBytes (address : Address) : Bytes := Bytes.ofNat size address.toNat

def ofLow (n : UInt8) : Address := BitVec.ofNat 160 n.toNat

def digits (address : Address) : String := Hex.encodeFixed size address.toNat

def longText (address : Address) : String := "0x" ++ digits address

def shortText (address : Address) : String :=
  let bytes := toBytes address
  "0x" ++ Hex.encode (bytes.extract 0 4) ++ "..." ++ Hex.encode (bytes.extract 18 20)

/-- The address of the contract that `creator` makes while its nonce is `nonce`: the last 20 bytes
of the hash of both, the nonce in 8 bytes. -/
def ofCreation (creator : Address) (nonce : UInt64) : Address :=
  (Keccak.hash (toBytes creator ++ Bytes.ofNat 8 nonce.toNat)).setWidth 160

end Address

namespace Hash

def size : Nat := 32

def ofBytes? (bytes : Bytes) : Option Hash := (sizedNat? size bytes).map (BitVec.ofNat 256)

def toBytes (hash : Hash) : Bytes := Bytes.ofNat size hash.toNat

def longText (hash : Hash) : String := "0x" ++ Hex.encodeFixed size hash.toNat

def shortText (hash : Hash) : String :=
  let bytes := toBytes hash
  "0x" ++ Hex.encode (bytes.extract 0 4) ++ "..." ++ Hex.encode (bytes.extract 28 32)

end Hash

end ContractMachine
