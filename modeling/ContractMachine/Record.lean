import ContractMachine.Identifier
import ContractMachine.Opcode.Mnemonic

/-!
What a run leaves for those who watch it: logs, and a record of every transfer, call and creation
made by code. A record does not change but for the mark that its frame came to nothing.
-/

namespace ContractMachine

structure Log where
  address : Address
  topics : List Word
  data : Bytes
  deriving DecidableEq

inductive RecordKind where
  | message (kind : CallKind)
  | create
  | suicide
  deriving DecidableEq

def RecordKind.mnemonic : RecordKind → String
  | .message kind => kind.mnemonic
  | .create => "CREATE"
  | .suicide => "SUICIDE"

def RecordKind.ofMnemonic? (name : String) : Option RecordKind :=
  [.message .call, .message .callCode, .message .delegateCall, .message .staticCall, .create,
    .suicide].find? fun kind => kind.mnemonic == name

structure Record where
  parentHash : Hash
  depth : Nat
  index : Nat
  kind : RecordKind
  source : Address
  -- None for a creation.
  target : Option Address
  nonce : UInt64
  value : Word
  data : Bytes
  gas : Nat
  gasPrice : Word
  note : String
  rejected : Bool
  deriving DecidableEq

namespace Record

def noteText (kind : RecordKind) (source : Address) (target : Option Address) (depth : Nat) :
    String :=
  match target with
  | some target =>
      kind.mnemonic ++ " " ++ Address.longText source ++ " -> " ++ Address.longText target
        ++ " at depth " ++ toString depth
  | none => kind.mnemonic ++ " by " ++ Address.longText source ++ " at depth " ++ toString depth

/-- A record that is not rejected, with the note its contents call for. -/
def make (parentHash : Hash) (depth index : Nat) (kind : RecordKind) (source : Address)
    (target : Option Address) (nonce : UInt64) (value : Word) (data : Bytes) (gas : Nat)
    (gasPrice : Word) : Record where
  parentHash := parentHash
  depth := depth
  index := index
  kind := kind
  source := source
  target := target
  nonce := nonce
  value := value
  data := data
  gas := gas
  gasPrice := gasPrice
  note := noteText kind source target depth
  rejected := false

def reject (record : Record) : Record := { record with rejected := true }

def isCreation (record : Record) : Bool := record.kind = .create

end Record

end ContractMachine
