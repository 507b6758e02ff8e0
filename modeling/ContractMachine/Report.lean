import ContractMachine.Json.Form
import ContractMachine.Service

/-!
What the machine has come to, as documents for those who watch it. Amounts are decimal numbers in
text, words have the fewest hexadecimal digits, byte strings two for each byte. A byte string that
is too long to be shown is told by its length and hash.
-/

namespace ContractMachine.Report

def shownBytes : Nat := 4096

def decimal (n : Nat) : Json := .ofText (toString n)

def amount (word : Word) : Json := decimal word.toNat

def nonce (nonce : UInt64) : Json := decimal nonce.toNat

def word (word : Word) : Json := .ofWord word

def hash (hash : Hash) : Json := .ofText (Hash.longText hash)

def address (address : Address) : Json := .ofText (Address.longText address)

def bytes (bytes : Bytes) : Json :=
  .ofText <|
    if bytes.size ≤ shownBytes then "0x" ++ Hex.encode bytes
    else "len:" ++ toString bytes.size ++ ",keccak256:" ++ Hash.longText (Keccak.hash bytes)

def count (n : Nat) : Json := .natural n

def error (name message : String) : Json :=
  .ofFields [("error", .ofText name), ("message", .ofText message)]

def faultName : Fault → String
  | .invalidOpcode .. => "InvalidOpcode"
  | .stackUnderflow .. => "StackUnderflow"
  | .stackOverflow .. => "StackOverflow"
  | .outOfGas .. => "OutOfGas"
  | .memoryLimit .. => "GasOverflow"
  | .badJump .. => "BadJumpDestination"
  | .staticViolation => "StaticCallViolation"
  | .returnDataBounds .. => "ReturnDataCopyOutOfBounds"
  | .failure .. => "BytecodeExecution"

def fault (fault : Fault) : Json := error (faultName fault) fault.message

def rejectionName : Rejection → String
  | .blockGasLimit .. => "BlockGasLimitExceeded"
  | .intrinsicGas .. => "IntrinsicGasTooLow"
  | .nonce .. => "InvalidNonce"
  | .balance .. => "InsufficientBalance"
  | .notReady => "NotReady"

def rejection (rejection : Rejection) : Json := error (rejectionName rejection) rejection.message

def refusalName : Refusal → String
  | .rejected _ => "Rejected"
  | .busy .. => "Busy"

def refusal (refusal : Refusal) : Json := error (refusalName refusal) refusal.message

def log (log : Log) : Json := .ofFields [
  ("address", address log.address),
  ("topics", .ofList word log.topics),
  ("data", bytes log.data)]

def record (record : Record) : Json := .ofFields [
  ("parent_hash", hash record.parentHash),
  ("depth", count record.depth),
  ("index", count record.index),
  ("kind", .ofText record.kind.mnemonic),
  ("from", address record.source),
  ("to", .ofOption address record.target),
  ("nonce", nonce record.nonce),
  ("value", amount record.value),
  ("data", bytes record.data),
  ("gas", decimal record.gas),
  ("gas_price", amount record.gasPrice),
  ("note", .ofText record.note),
  ("rejected", .bool record.rejected),
  ("is_create", .bool record.isCreation)]

def records (brief : Bool) (records : Array Record) : Json :=
  if brief then
    .ofFields [
      ("count", count records.size),
      ("rejected", count (records.countP fun record => record.rejected))]
  else .ofList record records.toList

def outcome (brief : Bool) (outcome : Outcome) : Json := .ofFields [
  ("gas_used", decimal outcome.gasUsed),
  ("future_refund", decimal outcome.refundPool),
  ("return_data", bytes outcome.returnData),
  ("exception", .ofOption fault outcome.fault),
  ("revert", .bool outcome.reverted),
  ("success", .bool outcome.succeeded),
  ("delete_accounts", .ofList address outcome.deletions),
  ("touched_accounts", .ofList address outcome.touched),
  ("logs", .ofList log outcome.logs.toList),
  ("internal_transactions", records brief outcome.records)]

def memory (memory : Memory) : Json := .ofFields [
  ("size", count memory.size),
  ("data", bytes (memory.bytes.popWhile fun byte => byte == 0))]

def stack (stack : Stack) : Json := .ofList word stack.words.reverse

def frameFields (brief : Bool) (frame : Frame) : List (String × Json) := [
  ("pc", count frame.pc),
  ("stopped", .bool frame.stopped),
  ("gas_left", decimal frame.gasLeft),
  ("stack", stack frame.stack),
  ("memory", memory frame.memory),
  ("return_data_buffer", bytes frame.returned),
  ("result", outcome brief frame.outcome)]

def event (event : Event) : Json :=
  .list [count event.pc, .ofText event.mnemonic, decimal event.gasLeft, count event.depth]

def events (events : Array Event) : Json := .ofList event events.toList

def block (block : Block) : Json := .ofFields [
  ("prev_hash", hash block.parentHash),
  ("coinbase", address block.coinbase),
  ("timestamp", decimal block.timestamp),
  ("number", decimal block.number),
  ("difficulty", amount block.difficulty),
  ("gas_limit", decimal block.gasLimit)]

def context (context : Context) : Json := .ofFields [
  ("address", address context.address),
  ("origin", address context.origin),
  ("caller", address context.caller),
  ("value", amount context.value),
  ("data", bytes context.data),
  ("gas", decimal context.gas),
  ("gas_price", amount context.gasPrice),
  ("block", block context.block),
  ("depth", count context.depth),
  ("static", .bool context.isStatic),
  ("tx_hash", hash context.transactionHash)]

def tierName : Tier → String
  | .zero => "Zero"
  | .base => "Base"
  | .veryLow => "VeryLow"
  | .low => "Low"
  | .mid => "Mid"
  | .high => "High"
  | .ext => "Ext"
  | .special => "Special"

def callFlag (op : Opcode) (property : CallKind → Bool) : Json := .bool (op.callKind?.any property)

def opcode (op : Opcode) : Json := .ofFields [
  ("byte", count op.byte.toNat),
  ("name", .ofText op.mnemonic),
  ("require", count op.pops),
  ("ret", count op.pushes),
  ("tier", .ofText (tierName op.tier)),
  ("cost", count op.tier.cost),
  ("push_size", .ofOption count op.immediate?),
  ("log_topics", .ofOption count op.logTopics?),
  ("is_call", callFlag op fun _ => true),
  ("has_value", callFlag op CallKind.hasValue),
  ("stateless", callFlag op CallKind.isStateless),
  ("delegate", callFlag op CallKind.isDelegate),
  ("static", callFlag op CallKind.isStatic)]

def summary (brief : Bool) (summary : Summary) : Json := .ofFields [
  ("value", amount summary.value),
  ("gas", decimal summary.gas),
  ("gas_price", amount summary.gasPrice),
  ("gas_used", decimal summary.gasUsed),
  ("failed", .bool summary.failed),
  ("return_data", bytes summary.returnData),
  ("internal_transactions", records brief summary.records),
  ("deleted_accounts", .ofList address summary.deletions),
  ("logs", .ofList log summary.logs.toList),
  ("tx_hash", hash summary.transaction.hash),
  ("invariants_valid", .bool summary.isValid)]

def account (account : Account) : Json :=
  .list [amount account.balance, nonce account.nonce, bytes account.code]

def slot (entry : Word × Word) : Json := .list [word entry.1, word entry.2]

def holding (entry : Address × Holding) : Json :=
  let account := entry.2.account.getD {}
  .ofFields [
    ("address", address entry.1),
    ("exists", .bool entry.2.account.isSome),
    ("balance", amount account.balance),
    ("nonce", nonce account.nonce),
    ("code", bytes account.code),
    ("storage", .ofList slot entry.2.slots.toList)]

def state (ledger : Ledger) : Json :=
  .ofList holding <| ledger.view.toList.filter fun entry =>
    entry.2.account.isSome || !entry.2.slots.isEmpty

def ledgerFields (ledger : Ledger) : List (String × Json) := [
  ("state", state ledger),
  ("checkpoint_depth", count ledger.depth)]

def stats (stats : Stats) : Json := .ofFields [
  ("transactions_executed", decimal stats.executed),
  ("successful_executions", decimal stats.succeeded),
  ("failed_executions", decimal stats.failed),
  ("total_gas_used", decimal stats.totalGas),
  ("rejected_requests", decimal stats.rejected)]

end ContractMachine.Report
