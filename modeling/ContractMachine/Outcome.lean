import ContractMachine.Fault
import ContractMachine.Quantity
import ContractMachine.Record

/-!
What a frame has come to so far. When a child frame is done its outcome is folded into its parent's:
records always, everything else only of a child that succeeded.
-/

namespace ContractMachine

abbrev AddressSet := List Address

def AddressSet.insert (set : AddressSet) (address : Address) : AddressSet :=
  match set with
  | [] => [address]
  | first :: rest =>
      if address < first then address :: first :: rest
      else if address = first then first :: rest
      else first :: AddressSet.insert rest address

def AddressSet.union (set other : AddressSet) : AddressSet := other.foldl AddressSet.insert set

structure Outcome where
  gasUsed : Nat := 0
  returnData : Bytes := #[]
  fault : Option Fault := none
  reverted : Bool := false
  deletions : AddressSet := []
  touched : AddressSet := []
  records : Array Record := #[]
  logs : Array Log := #[]
  -- Gas to be given back when the transaction ends.
  refundPool : Nat := 0
  deriving DecidableEq

namespace Outcome

def spend (outcome : Outcome) (gas : Nat) : Outcome :=
  { outcome with gasUsed := Quantity.clamp (outcome.gasUsed + gas) }

def giveBack (outcome : Outcome) (gas : Nat) : Outcome :=
  { outcome with gasUsed := outcome.gasUsed - gas }

def addRefund (outcome : Outcome) (gas : Nat) : Outcome :=
  { outcome with refundPool := Quantity.clamp (outcome.refundPool + gas) }

def clearRefund (outcome : Outcome) : Outcome := { outcome with refundPool := 0 }

def setReturnData (outcome : Outcome) (data : Bytes) : Outcome :=
  { outcome with returnData := data }

def setFault (outcome : Outcome) (fault : Fault) : Outcome := { outcome with fault := some fault }

def setReverted (outcome : Outcome) : Outcome := { outcome with reverted := true }

def succeeded (outcome : Outcome) : Bool := outcome.fault.isNone && !outcome.reverted

def addDeletion (outcome : Outcome) (address : Address) : Outcome :=
  { outcome with deletions := outcome.deletions.insert address }

def touch (outcome : Outcome) (address : Address) : Outcome :=
  { outcome with touched := outcome.touched.insert address }

def addLog (outcome : Outcome) (log : Log) : Outcome :=
  { outcome with logs := outcome.logs.push log }

def addRecord (outcome : Outcome) (record : Record) : Outcome :=
  { outcome with records := outcome.records.push record }

def rejectRecord (outcome : Outcome) (index : Nat) : Outcome :=
  { outcome with records := outcome.records.modify index Record.reject }

def rejectRecords (outcome : Outcome) : Outcome :=
  { outcome with records := outcome.records.map Record.reject }

def discardEffects (outcome : Outcome) : Outcome :=
  { outcome with deletions := [], logs := #[], refundPool := 0 }

def merge (outcome child : Outcome) : Outcome :=
  let recorded := { outcome with records := outcome.records ++ child.records }
  if child.succeeded then
    { recorded.addRefund child.refundPool with
      deletions := recorded.deletions.union child.deletions
      logs := recorded.logs ++ child.logs
      touched := recorded.touched.union child.touched }
  else recorded

end Outcome

end ContractMachine
