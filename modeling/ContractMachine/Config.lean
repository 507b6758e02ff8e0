import ContractMachine.Precompile
import ContractMachine.Transaction

/-!
What the machine and the service are set up with, and which settings are refused.
-/

namespace ContractMachine

structure Limits where
  codeSize : Nat := 24576
  -- A contract whose deposit is not paid for is made without code instead of failing.
  emptyCodeOnShortage : Bool := false
  callDepth : Nat := 1024
  stackSize : Nat := 1024
  deriving DecidableEq

structure Config where
  fees : Fees := {}
  limits : Limits := {}
  precompiles : PrecompileChoice := .standard
  deriving DecidableEq

structure ServiceConfig where
  machine : Config := {}
  pendingLimit : Nat := 1000
  tracing : Bool := false
  deriving DecidableEq

inductive ConfigError where
  | malformed
  | invalid (field reason : String)
  deriving DecidableEq

/-- None where the text that could not be read has to say why. -/
def ConfigError.message? : ConfigError → Option String
  | .malformed => none
  | .invalid field reason => some ("invalid configuration value for " ++ field ++ ": " ++ reason)

/-- The operands of the instruction that reaches deepest. -/
def deepestReach : Nat := 17

namespace Config

def validate (config : Config) : Except ConfigError Unit :=
  if config.limits.callDepth = 0 then
    .error (.invalid "constants.max_call_depth" "must be at least 1")
  else if config.limits.stackSize < deepestReach then
    .error (.invalid "constants.max_stack_size"
      (toString config.limits.stackSize ++ " cannot hold SWAP16 operands"))
  else if config.limits.codeSize = 0 then
    .error (.invalid "constants.max_contract_size" "must be positive")
  else if config.fees.memoryWord = 0 then
    .error (.invalid "fee_schedule.memory" "memory must not be free")
  else .ok ()

def transactionPrice (config : Config) (tx : Transaction) : Nat :=
  config.fees.intrinsic tx.data tx.isCreation

end Config

def ServiceConfig.validate (config : ServiceConfig) : Except ConfigError Unit := do
  config.machine.validate
  if config.pendingLimit = 0 then .error (.invalid "max_pending_requests" "must be positive")

structure Environment where
  config : Config := {}
  blockHashes : BlockHashes := []

end ContractMachine
