import ContractMachine.Execution

/-!
The service in front of a ledger. Requests are carried out one at a time; those that come while one
is being carried out are in flight, and only so many may be. Executions change the ledger and count
against the block, local ones leave no trace in it.
-/

namespace ContractMachine

inductive Refusal where
  | rejected (rejection : Rejection)
  | busy (pending limit : Nat)
  deriving DecidableEq

def Refusal.message : Refusal → String
  | .rejected rejection => "transaction rejected: " ++ rejection.message
  | .busy pending limit =>
      "too many pending requests: " ++ toString pending ++ " >= " ++ toString limit

structure Request where
  transaction : Transaction
  block : Block
  isLocal : Bool
  deriving DecidableEq

structure Stats where
  executed : Nat := 0
  succeeded : Nat := 0
  failed : Nat := 0
  totalGas : Nat := 0
  rejected : Nat := 0
  deriving DecidableEq

def Stats.record (stats : Stats) : Except Rejection Summary → Stats
  | .error _ => { stats with rejected := stats.rejected + 1 }
  | .ok summary =>
      { stats with
        executed := stats.executed + 1
        succeeded := stats.succeeded + (if summary.failed then 0 else 1)
        failed := stats.failed + (if summary.failed then 1 else 0)
        totalGas := Quantity.clamp (stats.totalGas + summary.gasUsed) }

structure Service where
  config : ServiceConfig
  blockHashes : BlockHashes := []
  ledger : Ledger := {}
  blockNumber : Nat := 0
  usedInBlock : Nat := 0
  stats : Stats := {}

namespace Service

abbrev Answer := Except Refusal Summary

def letIn (service : Service) (pending : Nat) : Except Refusal Unit :=
  if pending < service.config.pendingLimit then .ok ()
  else .error (.busy pending service.config.pendingLimit)

/-- A block of another number starts its count of gas anew. -/
def inBlock (service : Service) (number : Nat) : Service :=
  if service.blockNumber = number then service
  else { service with blockNumber := number, usedInBlock := 0 }

def execution (service : Service) (request : Request) (ledger : Ledger) : Execution :=
  Execution.ofTransaction { config := service.config.machine, blockHashes := service.blockHashes }
    request.transaction request.block ledger service.usedInBlock request.isLocal

/-- Runs a local request in a checkpoint that is dropped. -/
def runLocal (service : Service) (request : Request) : Except Rejection Summary × Service :=
  match (service.execution request service.ledger.checkpoint).run with
  | .ok done => (.ok done.summary, { service with ledger := done.ledger.rollback })
  | .error rejection => (.error rejection, service)

def runInBlock (service : Service) (request : Request) : Except Rejection Summary × Service :=
  match (service.execution request service.ledger).run with
  | .ok done =>
      (.ok done.summary,
        { service with
          ledger := done.ledger, usedInBlock := service.usedInBlock + done.summary.gasUsed })
  | .error rejection => (.error rejection, service)

def carryOut (service : Service) (request : Request) : Answer × Service :=
  let current := service.inBlock request.block.number
  let (result, after) :=
    if request.isLocal then current.runLocal request else current.runInBlock request
  let recorded := { after with stats := after.stats.record result }
  match result with
  | .ok summary => (.ok summary, recorded)
  | .error rejection => (.error (.rejected rejection), recorded)

def handle (service : Service) (request : Request) : Answer × Service :=
  match service.letIn 0 with
  | .error refusal => (.error refusal, service)
  | .ok () => service.carryOut request

def letInAll (service : Service) (pending : Nat) : List Request → List (Except Refusal Request)
  | [] => []
  | request :: rest =>
      match service.letIn pending with
      | .error refusal => .error refusal :: service.letInAll pending rest
      | .ok () => .ok request :: service.letInAll (pending + 1) rest

def carryOutAll (service : Service) : List (Except Refusal Request) → List Answer × Service
  | [] => ([], service)
  | .error refusal :: rest =>
      let (answers, after) := service.carryOutAll rest
      (.error refusal :: answers, after)
  | .ok request :: rest =>
      let (answer, next) := service.carryOut request
      let (answers, after) := next.carryOutAll rest
      (answer :: answers, after)

/-- Requests that come at once: all are let in or refused before the first is carried out. -/
def handleAll (service : Service) (requests : List Request) : List Answer × Service :=
  service.carryOutAll (service.letInAll 0 requests)

end Service

end ContractMachine
