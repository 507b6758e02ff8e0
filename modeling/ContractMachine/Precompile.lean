import ContractMachine.Fees
import ContractMachine.Identifier

/-!
Contracts that are not code: functions bound to fixed low addresses, priced by the size of the
input.
-/

namespace ContractMachine

inductive Precompile where
  | sha256 | identity
  deriving DecidableEq

namespace Precompile

def address : Precompile → Address
  | .sha256 => Address.ofLow 2
  | .identity => Address.ofLow 4

def price (contract : Precompile) (input : Bytes) : Nat :=
  match contract with
  | .sha256 => 60 + 12 * wordsFor input.size
  | .identity => 15 + 3 * wordsFor input.size

def run (contract : Precompile) (input : Bytes) : Bytes :=
  match contract with
  | .sha256 => Hash.toBytes (Sha256.hash input)
  | .identity => input

end Precompile

inductive PrecompileChoice where
  | standard | extended
  deriving DecidableEq

namespace PrecompileChoice

def contracts : PrecompileChoice → List Precompile
  | .standard => [.identity]
  | .extended => [.sha256, .identity]

def find? (set : PrecompileChoice) (address : Address) : Option Precompile :=
  set.contracts.find? fun contract => contract.address = address

end PrecompileChoice

end ContractMachine
