import ContractMachine.Machine
import ContractMachine.Summary

/-!
The execution of a transaction on the ledger, in four phases: it is approved, it is begun, its code
is run, and it is settled. Nonce and gas are taken before the checkpoint in which all else happens.
A local execution is approved as it is and pays nothing.
-/

namespace ContractMachine

inductive Rejection where
  | blockGasLimit (required limit : Nat)
  | intrinsicGas (required provided : Nat)
  | nonce (address : Address) (expected actual : UInt64)
  | balance (address : Address) (required available : Word)
  | notReady
  deriving DecidableEq

def Rejection.message : Rejection → String
  | .blockGasLimit required limit =>
      "block gas limit exceeded: " ++ toString required ++ " > " ++ toString limit
  | .intrinsicGas required provided =>
      "intrinsic gas too low: required " ++ toString required ++ ", provided " ++ toString provided
  | .nonce address expected actual =>
      "invalid nonce for " ++ Address.longText address ++ ": expected " ++ toString expected.toNat
        ++ ", got " ++ toString actual.toNat
  | .balance address required available =>
      "insufficient balance for " ++ Address.longText address ++ ": required " ++
        toString required.toNat ++ ", available " ++ toString available.toNat
  | .notReady => "transaction executor is not ready"

structure Execution where
  environment : Environment
  transaction : Transaction
  block : Block
  ledger : Ledger
  usedInBlock : Nat := 0
  isLocal : Bool := false
  ready : Bool := false
  -- The checkpoint of the transaction is open.
  tracking : Bool := false
  frame : Option Frame := none
  outcome : Outcome := {}
  gasLeft : Nat

namespace Execution

def ofTransaction (environment : Environment) (tx : Transaction) (block : Block) (ledger : Ledger)
    (usedInBlock : Nat) (isLocal : Bool) : Execution :=
  { environment, transaction := tx, block, ledger, usedInBlock, isLocal, gasLeft := tx.gas }

def config (execution : Execution) : Config := execution.environment.config

def fees (execution : Execution) : Fees := execution.config.fees

def basePrice (execution : Execution) : Nat :=
  execution.config.transactionPrice execution.transaction

def gasCost (execution : Execution) : Word :=
  Word.clamp (execution.transaction.gas * execution.transaction.gasPrice.toNat)

def gasUsed (execution : Execution) : Nat := execution.transaction.gas - execution.gasLeft

def rejection? (execution : Execution) : Option Rejection :=
  let tx := execution.transaction
  let required := Quantity.clamp (tx.gas + execution.usedInBlock)
  let expected := execution.ledger.nonce tx.sender
  let total := tx.value.clampedAdd execution.gasCost
  let balance := execution.ledger.balance tx.sender
  if execution.block.gasLimit < required then
    some (.blockGasLimit required execution.block.gasLimit)
  else if tx.gas < execution.basePrice then some (.intrinsicGas execution.basePrice tx.gas)
  else if expected ≠ tx.nonce then some (.nonce tx.sender expected tx.nonce)
  else if balance.toNat < total.toNat then some (.balance tx.sender total balance)
  else none

def approve (execution : Execution) : Except Rejection Execution :=
  if execution.isLocal then .ok { execution with ready := true }
  else
    match execution.rejection? with
    | some rejection => .error rejection
    | none => .ok { execution with ready := true }

def moveValue (execution : Execution) (target : Address) : Execution :=
  { execution with
    ledger := execution.ledger.transfer execution.transaction.sender target
      execution.transaction.value }

def spendBase (execution : Execution) : Execution :=
  { execution with
    gasLeft := execution.gasLeft - execution.basePrice
    outcome := execution.outcome.spend execution.basePrice }

def prepare (execution : Execution) (code : Bytes) (owner : Address) : Execution :=
  let context := Context.ofTransaction execution.transaction owner execution.block
  { execution with frame := some (Frame.start code context execution.config.limits.stackSize) }

def beginPrecompile (execution : Execution) (contract : Precompile) (target : Address) :
    Execution :=
  let data := execution.transaction.data
  let price := Quantity.clamp (execution.basePrice + contract.price data)
  if !execution.isLocal && execution.gasLeft < price then { execution with gasLeft := 0 }
  else
    moveValue { execution with
      gasLeft := execution.gasLeft - price
      outcome := execution.outcome.setReturnData (contract.run data) } target

def beginCall (execution : Execution) (target : Address) : Execution :=
  match execution.config.precompiles.find? target with
  | some contract => execution.beginPrecompile contract target
  | none =>
      let code := execution.ledger.code target
      (if code.isEmpty then execution.spendBase else execution.prepare code target).moveValue target

def createdAddress (execution : Execution) : Address :=
  Address.ofCreation execution.transaction.sender execution.transaction.nonce

def beginCreation (execution : Execution) : Execution :=
  let address := execution.createdAddress
  if execution.ledger.hasAccount address then { execution with gasLeft := 0 }
  else
    let opened := { execution with ledger := execution.ledger.bumpNonce address }
    (if execution.transaction.data.isEmpty then opened.spendBase
      else opened.prepare execution.transaction.data address).moveValue address

/-- Takes nonce and gas from the sender, unless the execution is local. -/
def charge (execution : Execution) : Execution :=
  if execution.isLocal then execution
  else
    let sender := execution.transaction.sender
    -- No checkpoint is open yet: what is taken here stays taken whatever the code does.
    { execution with ledger := (execution.ledger.bumpNonce sender).debit sender execution.gasCost }

def begin (execution : Execution) : Except Rejection Execution :=
  if execution.ready then
    let charged := execution.charge
    let opened := { charged with ledger := charged.ledger.checkpoint, tracking := true }
    match execution.transaction.recipient with
    | some target => .ok (opened.beginCall target)
    | none => .ok opened.beginCreation
  else .error .notReady

def commit (execution : Execution) : Execution :=
  if execution.tracking then { execution with ledger := execution.ledger.commit, tracking := false }
  else execution

def rollback (execution : Execution) : Execution :=
  if execution.tracking then
    { execution with ledger := execution.ledger.rollback, tracking := false }
  else execution

def machine? (execution : Execution) : Option (Except (Fault × Frame) Machine) :=
  execution.frame.map fun frame =>
    match frame.spend execution.basePrice "basic transaction cost" with
    | .ok frame => .ok (Machine.start frame execution.ledger)
    | .error fault => .error (fault, frame)

def deposit (execution : Execution) (outcome : Outcome) : Execution :=
  let size := outcome.returnData.size
  let price := Quantity.clamp (size * execution.config.fees.createByte)
  if execution.gasLeft < price then
    let short :=
      if execution.config.limits.emptyCodeOnShortage then outcome
      else outcome.setFault
        (.outOfGas "No gas to return just created contract" price execution.gasLeft)
    { execution with outcome := short.setReturnData #[] }
  else if execution.config.limits.codeSize < size then
    let long := outcome.setFault
      (.outOfGas ("Contract size too large: " ++ toString size) price execution.gasLeft)
    { execution with outcome := long.setReturnData #[] }
  else
    { execution with
      gasLeft := execution.gasLeft - price
      outcome := outcome.spend price
      ledger := execution.ledger.setCode execution.createdAddress outcome.returnData }

/-- Takes over the outcome of the code. A fault of the code itself uses up the gas. -/
def conclude (execution : Execution) (outcome : Outcome) (ledger : Ledger) : Execution :=
  let ran := { execution with
    frame := none, ledger := ledger, outcome := outcome,
      gasLeft := execution.transaction.gas - outcome.gasUsed }
  let deposited :=
    if execution.transaction.isCreation && outcome.succeeded then ran.deposit outcome else ran
  if deposited.outcome.succeeded then deposited.commit
  else
    -- A REVERT and a deposit that failed leave the gas that was not used.
    { deposited.rollback with
      outcome := deposited.outcome.discardEffects.rejectRecords
      gasLeft := if outcome.fault.isSome then 0 else deposited.gasLeft }

def perform (execution : Execution) : Except Rejection Execution :=
  if execution.ready then
    match execution.machine? with
    | none => .ok execution.commit
    | some (.ok machine) =>
        let done := machine.run execution.environment
        .ok (execution.conclude done.frame.outcome done.ledger)
    | some (.error (fault, frame)) =>
        .ok (execution.conclude (frame.spendAll.outcome.setFault fault) execution.ledger)
  else .error .notReady

def events (execution : Execution) (limit : Nat) : Array Event :=
  match execution.ready, execution.machine? with
  | true, some (.ok machine) => machine.events execution.environment limit
  | _, _ => #[]

def grantRefund (execution : Execution) : Execution :=
  let outcome := execution.outcome.addRefund
    (Quantity.clamp (execution.outcome.deletions.length * execution.fees.suicideRefund))
  { execution with
    outcome := outcome
    gasLeft := execution.gasLeft + Gas.refund execution.gasUsed outcome.refundPool }

def deleteAccounts (execution : Execution) : Execution :=
  { execution with ledger := execution.outcome.deletions.foldl Ledger.delete execution.ledger }

def payBack (execution : Execution) : Execution :=
  if execution.isLocal then execution
  else
    let amount := Word.clamp (execution.gasLeft * execution.transaction.gasPrice.toNat)
    { execution with ledger := execution.ledger.credit execution.transaction.sender amount }

def summary (execution : Execution) : Summary where
  transaction := execution.transaction
  value := execution.transaction.value
  gas := execution.transaction.gas
  gasPrice := execution.transaction.gasPrice
  gasUsed := execution.gasUsed
  failed := execution.outcome.fault.isSome
  returnData := execution.outcome.returnData
  records := execution.outcome.records
  deletions := execution.outcome.deletions
  logs := execution.outcome.logs

/-- A checkpoint that is still open is one in which no code was run. -/
def settle (execution : Execution) : Except Rejection Execution :=
  if execution.ready then .ok execution.commit.grantRefund.deleteAccounts.payBack
  else .error .notReady

def run (execution : Execution) : Except Rejection Execution := do
  let approved ← execution.approve
  let begun ← approved.begin
  let performed ← begun.perform
  performed.settle

end Execution

end ContractMachine
