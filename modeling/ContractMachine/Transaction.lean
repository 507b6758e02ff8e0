import ContractMachine.Word

/-!
What a run is asked to do and where: a transaction, the block it stands in, and the hashes of
earlier blocks.
-/

namespace ContractMachine

structure Transaction where
  hash : Hash
  sender : Address
  -- None for the creation of a contract.
  recipient : Option Address
  nonce : UInt64
  value : Word
  -- Call data, or the code that makes the contract.
  data : Bytes
  gas : Nat
  gasPrice : Word
  deriving DecidableEq

def Transaction.isCreation (tx : Transaction) : Bool := tx.recipient.isNone

structure Block where
  parentHash : Hash := 0
  coinbase : Address := 0
  timestamp : Nat := 0
  number : Nat := 0
  difficulty : Word := 0
  gasLimit : Nat := 10000000
  deriving DecidableEq

abbrev BlockHashes := List (Nat × Hash)

def BlockHashes.find (hashes : BlockHashes) (number : Nat) : Hash :=
  (List.lookup number hashes).getD 0

end ContractMachine
