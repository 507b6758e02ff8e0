import ContractMachine.Transaction

/-!
The surroundings of a frame: for whom it runs, with what and in which block. A child frame has its
transaction's part of them from its parent.
-/

namespace ContractMachine

structure Context where
  -- The account whose storage and balance the code acts on.
  address : Address
  origin : Address
  caller : Address
  value : Word
  data : Bytes
  gas : Nat
  gasPrice : Word
  block : Block
  depth : Nat
  isStatic : Bool
  transactionHash : Hash
  deriving DecidableEq

namespace Context

/-- The context of a transaction's first frame. Code that makes a contract has no call data. -/
def ofTransaction (tx : Transaction) (owner : Address) (block : Block) : Context where
  address := owner
  origin := tx.sender
  caller := tx.sender
  value := tx.value
  data := if tx.isCreation then #[] else tx.data
  gas := tx.gas
  gasPrice := tx.gasPrice
  block := block
  depth := 0
  isStatic := false
  transactionHash := tx.hash

def child (context : Context) (caller address : Address) (gas : Nat) (value : Word) (data : Bytes)
    (isStatic : Bool) : Context :=
  { context with
    caller := caller
    address := address
    gas := gas
    value := value
    data := data
    depth := context.depth + 1
    isStatic := isStatic }

def dataSize (context : Context) : Word := Word.ofNat context.data.size

def dataOffset? (context : Context) (offset : Word) : Option Nat :=
  offset.index?.filter fun start => start < context.data.size

def dataWord (context : Context) (offset : Word) : Word :=
  match context.dataOffset? offset with
  | some start => Word.ofBytes (context.data.window start 32)
  | none => 0

def dataCopy (context : Context) (offset : Word) (size : Nat) : Bytes :=
  match context.dataOffset? offset with
  | some start => context.data.window start size
  | none => Array.replicate size 0

def depthWithin (context : Context) (limit : Nat) : Bool := context.depth ≤ limit

end Context

end ContractMachine
