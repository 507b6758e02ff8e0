import ContractMachine.Outcome
import ContractMachine.Transaction

/-!
What is reported of a transaction that was carried out, and the conditions that every report meets.
-/

namespace ContractMachine

structure Summary where
  transaction : Transaction
  value : Word
  gas : Nat
  gasPrice : Word
  -- After refunds.
  gasUsed : Nat
  failed : Bool
  returnData : Bytes
  records : Array Record
  deletions : List Address
  logs : Array Log
  deriving DecidableEq

inductive Violation where
  | gasLimit (used limit : Nat)
  | keptEffects (logs deletions : Nat)
  | unrejectedRecord
  deriving DecidableEq

def Violation.message : Violation → String
  | .gasLimit used limit =>
      "gas limit exceeded: used " ++ toString used ++ " > limit " ++ toString limit
  | .keptEffects logs deletions =>
      "failed transaction kept side effects: " ++ toString logs ++ " logs, " ++ toString deletions
        ++ " deletions"
  | .unrejectedRecord => "failed transaction has unrejected internal transactions"

namespace Summary

def withinGasLimit (summary : Summary) : Bool := summary.gasUsed ≤ summary.gas

def withoutEffects (summary : Summary) : Bool :=
  !summary.failed || (summary.logs.isEmpty && summary.deletions.isEmpty)

def allRejected (summary : Summary) : Bool :=
  !summary.failed || summary.records.all fun record => record.rejected

def violations (summary : Summary) : List Violation :=
  (if summary.withinGasLimit then [] else [.gasLimit summary.gasUsed summary.gas])
    ++ (if summary.withoutEffects then []
        else [.keptEffects summary.logs.size summary.deletions.length])
    ++ (if summary.allRejected then [] else [.unrejectedRecord])

def isValid (summary : Summary) : Bool := summary.violations.isEmpty

end Summary

end ContractMachine
