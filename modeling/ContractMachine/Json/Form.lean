import ContractMachine.Config
import ContractMachine.Json.Reader
import ContractMachine.Summary

/-!
The JSON forms of what the library takes in and gives out, each with its reader. Byte strings are
lists of numbers, words are hexadecimal, records have their fields by name.
-/

namespace ContractMachine

namespace Json

def natural (n : Nat) : Json := .number (some n)

def ofText (text : String) : Json := .string (some text)

def ofBytes (bytes : Bytes) : Json := .list (bytes.toList.map fun byte => natural byte.toNat)

def ofList {α : Type} (item : α → Json) (items : List α) : Json := .list (items.map item)

def ofOption {α : Type} (item : α → Json) : Option α → Json
  | some value => item value
  | none => .null

def ofFields (fields : List (String × Json)) : Json :=
  .record (fields.map fun (name, value) => (some name, value))

def ofWord (word : Word) : Json := ofText ("0x" ++ Hex.encodeNat word.toNat)

def ofAddress (address : Address) : Json := ofBytes (Address.toBytes address)

def ofHash (hash : Hash) : Json := ofBytes (Hash.toBytes hash)

end Json

namespace Reader

def address : Reader Address := fun json => do Address.ofBytes? (← bytes json)

def hash : Reader Hash := fun json => do Hash.ofBytes? (← bytes json)

def nonce : Reader UInt64 := fun json => (quantity json).map UInt64.ofNat

end Reader

namespace Transaction

def fieldNames : List String := ["hash", "from", "to", "nonce", "value", "data", "gas", "gas_price"]

def reader : Reader Transaction := fun json => do
  let fields ← Fields.read fieldNames json
  pure {
    hash := ← fields.required "hash" Reader.hash
    sender := ← fields.required "from" Reader.address
    recipient := ← fields.optional "to" Reader.address
    nonce := ← fields.required "nonce" Reader.nonce
    value := ← fields.required "value" Reader.word
    data := ← fields.required "data" Reader.bytes
    gas := ← fields.required "gas" Reader.quantity
    gasPrice := ← fields.required "gas_price" Reader.word }

def toJson (tx : Transaction) : Json := .ofFields [
  ("hash", .ofHash tx.hash),
  ("from", .ofAddress tx.sender),
  ("to", .ofOption .ofAddress tx.recipient),
  ("nonce", .natural tx.nonce.toNat),
  ("value", .ofWord tx.value),
  ("data", .ofBytes tx.data),
  ("gas", .natural tx.gas),
  ("gas_price", .ofWord tx.gasPrice)]

end Transaction

namespace Block

def fieldNames : List String :=
  ["prev_hash", "coinbase", "timestamp", "number", "difficulty", "gas_limit"]

def reader : Reader Block := fun json => do
  let fields ← Fields.read fieldNames json
  pure {
    parentHash := ← fields.required "prev_hash" Reader.hash
    coinbase := ← fields.required "coinbase" Reader.address
    timestamp := ← fields.required "timestamp" Reader.quantity
    number := ← fields.required "number" Reader.quantity
    difficulty := ← fields.required "difficulty" Reader.word
    gasLimit := ← fields.required "gas_limit" Reader.quantity }

def toJson (block : Block) : Json := .ofFields [
  ("prev_hash", .ofHash block.parentHash),
  ("coinbase", .ofAddress block.coinbase),
  ("timestamp", .natural block.timestamp),
  ("number", .natural block.number),
  ("difficulty", .ofWord block.difficulty),
  ("gas_limit", .natural block.gasLimit)]

end Block

namespace Log

def fieldNames : List String := ["address", "topics", "data"]

def reader : Reader Log := fun json => do
  let fields ← Fields.read fieldNames json
  pure {
    address := ← fields.required "address" Reader.address
    topics := ← fields.required "topics" (Reader.list Reader.word)
    data := ← fields.required "data" Reader.bytes }

def toJson (log : Log) : Json := .ofFields [
  ("address", .ofAddress log.address),
  ("topics", .ofList .ofWord log.topics),
  ("data", .ofBytes log.data)]

end Log

namespace RecordKind

def caseNames : List (String × RecordKind) := [
  ("Call", .message .call), ("CallCode", .message .callCode),
  ("DelegateCall", .message .delegateCall),
  ("StaticCall", .message .staticCall), ("Create", .create), ("Suicide", .suicide)]

def caseName : RecordKind → String
  | .message .call => "Call"
  | .message .callCode => "CallCode"
  | .message .delegateCall => "DelegateCall"
  | .message .staticCall => "StaticCall"
  | .create => "Create"
  | .suicide => "Suicide"

end RecordKind

namespace Record

def fieldNames : List String :=
  ["parent_hash", "depth", "index", "kind", "from", "to", "nonce", "value", "data", "gas",
  "gas_price", "note", "rejected"]

def reader : Reader Record := fun json => do
  let fields ← Fields.read fieldNames json
  pure {
    parentHash := ← fields.required "parent_hash" Reader.hash
    depth := ← fields.required "depth" Reader.quantity
    index := ← fields.required "index" Reader.quantity
    kind := ← fields.required "kind" (Reader.case RecordKind.caseNames)
    source := ← fields.required "from" Reader.address
    target := ← fields.optional "to" Reader.address
    nonce := ← fields.required "nonce" Reader.nonce
    value := ← fields.required "value" Reader.word
    data := ← fields.required "data" Reader.bytes
    gas := ← fields.required "gas" Reader.quantity
    gasPrice := ← fields.required "gas_price" Reader.word
    note := ← fields.required "note" Reader.text
    rejected := ← fields.required "rejected" Reader.flag }

def toJson (record : Record) : Json := .ofFields [
  ("parent_hash", .ofHash record.parentHash),
  ("depth", .natural record.depth),
  ("index", .natural record.index),
  ("kind", .ofText record.kind.caseName),
  ("from", .ofAddress record.source),
  ("to", .ofOption .ofAddress record.target),
  ("nonce", .natural record.nonce.toNat),
  ("value", .ofWord record.value),
  ("data", .ofBytes record.data),
  ("gas", .natural record.gas),
  ("gas_price", .ofWord record.gasPrice),
  ("note", .ofText record.note),
  ("rejected", .bool record.rejected)]

end Record

namespace Summary

def fieldNames : List String :=
  ["tx", "value", "gas", "gas_price", "gas_used", "failed", "return_data", "internal_transactions",
  "deleted_accounts", "logs"]

def reader : Reader Summary := fun json => do
  let fields ← Fields.read fieldNames json
  pure {
    transaction := ← fields.required "tx" Transaction.reader
    value := ← fields.required "value" Reader.word
    gas := ← fields.required "gas" Reader.quantity
    gasPrice := ← fields.required "gas_price" Reader.word
    gasUsed := ← fields.required "gas_used" Reader.quantity
    failed := ← fields.required "failed" Reader.flag
    returnData := ← fields.required "return_data" Reader.bytes
    records := ← fields.required "internal_transactions" (Reader.array Record.reader)
    deletions := ← fields.required "deleted_accounts" (Reader.list Reader.address)
    logs := ← fields.required "logs" (Reader.array Log.reader) }

def toJson (summary : Summary) : Json := .ofFields [
  ("tx", summary.transaction.toJson),
  ("value", .ofWord summary.value),
  ("gas", .natural summary.gas),
  ("gas_price", .ofWord summary.gasPrice),
  ("gas_used", .natural summary.gasUsed),
  ("failed", .bool summary.failed),
  ("return_data", .ofBytes summary.returnData),
  ("internal_transactions", .ofList Record.toJson summary.records.toList),
  ("deleted_accounts", .ofList .ofAddress summary.deletions),
  ("logs", .ofList Log.toJson summary.logs.toList)]

end Summary

namespace PrecompileChoice

def caseNames : List (String × PrecompileChoice) :=
  [("standard", .standard), ("extended", .extended)]

def caseName : PrecompileChoice → String
  | .standard => "standard"
  | .extended => "extended"

def reader : Reader PrecompileChoice := Reader.case caseNames

def toJson (set : PrecompileChoice) : Json := .ofText set.caseName

end PrecompileChoice

namespace Fees

def fieldNames : List String :=
  ["balance", "sha3", "sha3_word", "sload", "suicide", "new_acct_suicide", "suicide_refund",
  "set_sstore", "reset_sstore", "clear_sstore", "refund_sstore", "create", "create_data", "call",
  "stipend_call", "vt_call", "new_acct_call", "memory", "copy_gas", "log_gas", "log_data_gas",
  "log_topic_gas", "exp_gas", "exp_byte_gas", "ext_code_size", "ext_code_copy", "transaction",
  "transaction_create_contract", "tx_zero_data", "tx_no_zero_data"]

/-- A fee that is not given is that of the default schedule. -/
def reader : Reader Fees := fun json => do
  let fields ← Fields.read fieldNames json
  let missing : Fees := {}
  pure {
    balance := ← fields.orElse "balance" Reader.quantity missing.balance
    sha3 := ← fields.orElse "sha3" Reader.quantity missing.sha3
    sha3Word := ← fields.orElse "sha3_word" Reader.quantity missing.sha3Word
    sload := ← fields.orElse "sload" Reader.quantity missing.sload
    suicide := ← fields.orElse "suicide" Reader.quantity missing.suicide
    newAccountSuicide :=
      ← fields.orElse "new_acct_suicide" Reader.quantity missing.newAccountSuicide
    suicideRefund := ← fields.orElse "suicide_refund" Reader.quantity missing.suicideRefund
    setSlot := ← fields.orElse "set_sstore" Reader.quantity missing.setSlot
    resetSlot := ← fields.orElse "reset_sstore" Reader.quantity missing.resetSlot
    clearSlot := ← fields.orElse "clear_sstore" Reader.quantity missing.clearSlot
    clearRefund := ← fields.orElse "refund_sstore" Reader.quantity missing.clearRefund
    create := ← fields.orElse "create" Reader.quantity missing.create
    createByte := ← fields.orElse "create_data" Reader.quantity missing.createByte
    call := ← fields.orElse "call" Reader.quantity missing.call
    stipend := ← fields.orElse "stipend_call" Reader.quantity missing.stipend
    valueTransfer := ← fields.orElse "vt_call" Reader.quantity missing.valueTransfer
    newAccountCall := ← fields.orElse "new_acct_call" Reader.quantity missing.newAccountCall
    memoryWord := ← fields.orElse "memory" Reader.quantity missing.memoryWord
    copyWord := ← fields.orElse "copy_gas" Reader.quantity missing.copyWord
    log := ← fields.orElse "log_gas" Reader.quantity missing.log
    logByte := ← fields.orElse "log_data_gas" Reader.quantity missing.logByte
    logTopic := ← fields.orElse "log_topic_gas" Reader.quantity missing.logTopic
    exp := ← fields.orElse "exp_gas" Reader.quantity missing.exp
    expByte := ← fields.orElse "exp_byte_gas" Reader.quantity missing.expByte
    extCodeSize := ← fields.orElse "ext_code_size" Reader.quantity missing.extCodeSize
    extCodeCopy := ← fields.orElse "ext_code_copy" Reader.quantity missing.extCodeCopy
    transaction := ← fields.orElse "transaction" Reader.quantity missing.transaction
    creation := ← fields.orElse "transaction_create_contract" Reader.quantity missing.creation
    zeroByte := ← fields.orElse "tx_zero_data" Reader.quantity missing.zeroByte
    nonzeroByte := ← fields.orElse "tx_no_zero_data" Reader.quantity missing.nonzeroByte }

def toJson (fees : Fees) : Json := .ofFields [
  ("balance", .natural fees.balance),
  ("sha3", .natural fees.sha3),
  ("sha3_word", .natural fees.sha3Word),
  ("sload", .natural fees.sload),
  ("suicide", .natural fees.suicide),
  ("new_acct_suicide", .natural fees.newAccountSuicide),
  ("suicide_refund", .natural fees.suicideRefund),
  ("set_sstore", .natural fees.setSlot),
  ("reset_sstore", .natural fees.resetSlot),
  ("clear_sstore", .natural fees.clearSlot),
  ("refund_sstore", .natural fees.clearRefund),
  ("create", .natural fees.create),
  ("create_data", .natural fees.createByte),
  ("call", .natural fees.call),
  ("stipend_call", .natural fees.stipend),
  ("vt_call", .natural fees.valueTransfer),
  ("new_acct_call", .natural fees.newAccountCall),
  ("memory", .natural fees.memoryWord),
  ("copy_gas", .natural fees.copyWord),
  ("log_gas", .natural fees.log),
  ("log_data_gas", .natural fees.logByte),
  ("log_topic_gas", .natural fees.logTopic),
  ("exp_gas", .natural fees.exp),
  ("exp_byte_gas", .natural fees.expByte),
  ("ext_code_size", .natural fees.extCodeSize),
  ("ext_code_copy", .natural fees.extCodeCopy),
  ("transaction", .natural fees.transaction),
  ("transaction_create_contract", .natural fees.creation),
  ("tx_zero_data", .natural fees.zeroByte),
  ("tx_no_zero_data", .natural fees.nonzeroByte)]

end Fees

namespace Limits

def fieldNames : List String :=
  ["max_contract_size", "create_empty_contract_on_oog", "max_call_depth", "max_stack_size"]

def reader : Reader Limits := fun json => do
  let fields ← Fields.read fieldNames json
  let missing : Limits := {}
  pure {
    codeSize := ← fields.orElse "max_contract_size" Reader.quantity missing.codeSize
    emptyCodeOnShortage :=
      ← fields.orElse "create_empty_contract_on_oog" Reader.flag missing.emptyCodeOnShortage
    callDepth := ← fields.orElse "max_call_depth" Reader.quantity missing.callDepth
    stackSize := ← fields.orElse "max_stack_size" Reader.quantity missing.stackSize }

def toJson (limits : Limits) : Json := .ofFields [
  ("max_contract_size", .natural limits.codeSize),
  ("create_empty_contract_on_oog", .bool limits.emptyCodeOnShortage),
  ("max_call_depth", .natural limits.callDepth),
  ("max_stack_size", .natural limits.stackSize)]

end Limits

namespace Config

def fieldNames : List String := ["fee_schedule", "constants", "precompiles"]

def reader : Reader Config := fun json => do
  let fields ← Fields.read fieldNames json
  let missing : Config := {}
  pure {
    fees := ← fields.orElse "fee_schedule" Fees.reader missing.fees
    limits := ← fields.orElse "constants" Limits.reader missing.limits
    precompiles := ← fields.orElse "precompiles" PrecompileChoice.reader missing.precompiles }

def toJson (config : Config) : Json := .ofFields [
  ("fee_schedule", config.fees.toJson),
  ("constants", config.limits.toJson),
  ("precompiles", config.precompiles.toJson)]

/-- The configuration that a document writes. It is read as a whole before it is looked at. -/
def ofText (text : String) : Except ConfigError Config := do
  match (Json.parse? text).bind reader with
  | none => .error .malformed
  | some config =>
      config.validate
      .ok config

end Config

namespace ServiceConfig

def fieldNames : List String := ["vm_config", "max_pending_requests", "enable_tracing"]

def reader : Reader ServiceConfig := fun json => do
  let fields ← Fields.read fieldNames json
  let missing : ServiceConfig := {}
  pure {
    machine := ← fields.orElse "vm_config" Config.reader missing.machine
    pendingLimit := ← fields.orElse "max_pending_requests" Reader.quantity missing.pendingLimit
    tracing := ← fields.orElse "enable_tracing" Reader.flag missing.tracing }

def toJson (config : ServiceConfig) : Json := .ofFields [
  ("vm_config", config.machine.toJson),
  ("max_pending_requests", .natural config.pendingLimit),
  ("enable_tracing", .bool config.tracing)]

def ofText (text : String) : Except ConfigError ServiceConfig := do
  match (Json.parse? text).bind reader with
  | none => .error .malformed
  | some config =>
      config.validate
      .ok config

end ServiceConfig

end ContractMachine
