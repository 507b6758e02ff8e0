import ContractMachine.Bytes
import ContractMachine.Bytes.Hex
import ContractMachine.Code
import ContractMachine.Code.Assembly
import ContractMachine.Code.JumpTable
import ContractMachine.Config
import ContractMachine.Context
import ContractMachine.Digest.Keccak
import ContractMachine.Digest.Sha256
import ContractMachine.Execution
import ContractMachine.Fault
import ContractMachine.Fees
import ContractMachine.Frame
import ContractMachine.Frame.Instruction
import ContractMachine.Frame.Price
import ContractMachine.Identifier
import ContractMachine.Json
import ContractMachine.Json.Form
import ContractMachine.Json.Reader
import ContractMachine.Ledger
import ContractMachine.Ledger.Patch
import ContractMachine.Ledger.Reading
import ContractMachine.Machine
import ContractMachine.Memory
import ContractMachine.Opcode
import ContractMachine.Opcode.Mnemonic
import ContractMachine.Outcome
import ContractMachine.Precompile
import ContractMachine.Proofs.Frame.Change
import ContractMachine.Proofs.Frame.Operand
import ContractMachine.Proofs.Ledger.Below
import ContractMachine.Proofs.Ledger.Snapshots
import ContractMachine.Quantity
import ContractMachine.Record
import ContractMachine.Report
import ContractMachine.Service
import ContractMachine.Site
import ContractMachine.Site.Call
import ContractMachine.Site.Creation
import ContractMachine.Stack
import ContractMachine.Summary
import ContractMachine.Text.Blank
import ContractMachine.Transaction
import ContractMachine.Word
import ContractMachine.Proofs.Site.Action
import ContractMachine.Proofs.Site.Call
import ContractMachine.Proofs.Site.Creation
import ContractMachine.Proofs.Machine.Moves
import ContractMachine.Proofs.Machine.Nesting
import ContractMachine.Proofs.Machine.Atomicity
import ContractMachine.Proofs.Ledger.Supply
import ContractMachine.Proofs.Execution.Phases
import ContractMachine.Proofs.Execution.Atomicity
import ContractMachine.Proofs.Frame.Gas
import ContractMachine.Proofs.Machine.Answer
import ContractMachine.Proofs.Machine.Gas
import ContractMachine.Proofs.Machine.Termination
import ContractMachine.Proofs.Machine.Settlement
import ContractMachine.Proofs.Machine.Minting
import ContractMachine.Proofs.Machine.Effects
import ContractMachine.Proofs.Machine.Levels
import ContractMachine.Proofs.Machine.Static
import ContractMachine.Proofs.Machine.Conservation
import ContractMachine.Proofs.Execution.Completion
import ContractMachine.Proofs.Execution.Conservation
import ContractMachine.Proofs.Machine.Authority
import ContractMachine.Proofs.Service.BlockGas
import ContractMachine.Proofs.Service.LocalCalls
import ContractMachine.Proofs.Ledger.Evolution
import ContractMachine.Proofs.Machine.Evolution
import ContractMachine.Proofs.Service.Replay
import ContractMachine.Proofs.Machine.History
import ContractMachine.Proofs.Machine.Chronicle
import ContractMachine.Proofs.Machine.Containment
import ContractMachine.Proofs.Execution.Containment
import ContractMachine.Proofs.Frame.Compute
import ContractMachine.Proofs.Frame.Position
import ContractMachine.Proofs.Machine.Position
import ContractMachine.Proofs.Frame.Windows
import ContractMachine.Proofs.Frame.Agreement
import ContractMachine.Proofs.Machine.Agreement
import ContractMachine.Proofs.Machine.Metering
import ContractMachine.Proofs.Ledger.Accounts
import ContractMachine.Proofs.Machine.Alteration
import ContractMachine.Proofs.Machine.Existence
import ContractMachine.Proofs.Machine.Storage
import ContractMachine.Proofs.Execution.Storage
import ContractMachine.Proofs.Execution.Fulfilment
import ContractMachine.Proofs.Execution.Billing
import ContractMachine.Proofs.Frame.Growth
import ContractMachine.Proofs.Machine.Growth
import ContractMachine.Proofs.Execution.Evolution
import ContractMachine.Proofs.Machine.Deployment
import ContractMachine.Proofs.Execution.Deployment
import ContractMachine.Proofs.Checked.Bytes
import ContractMachine.Proofs.Checked.Price
import ContractMachine.Proofs.Checked.Instruction
import ContractMachine.Proofs.Checked.Site
import ContractMachine.Proofs.Checked.Machine
import ContractMachine.Proofs.Code.Sweep
import ContractMachine.Proofs.Code.Destinations
import ContractMachine.Proofs.Code.Tokens
import ContractMachine.Proofs.Code.RoundTrip
import ContractMachine.Proofs.Machine.Output
import ContractMachine.Proofs.Frame.Discipline
import ContractMachine.Proofs.Machine.Discipline
import ContractMachine.Proofs.Frame.Tape
import ContractMachine.Proofs.Machine.BlockHash
import ContractMachine.Proofs.Word.Signed
import ContractMachine.Proofs.Word.Modular
import ContractMachine.Proofs.Machine.Sources
import ContractMachine.Proofs.Execution.Admission
