import ContractMachine.Fault
import ContractMachine.Quantity

/-!
The fee schedule and the prices that depend on more than the instruction. Where a price is clamped
it stays a 64-bit amount; every other sum is exact.
-/

namespace ContractMachine

/-- The default is the schedule of the Byzantium rules. The surcharges `newAccountSuicide` and
`newAccountCall` are part of a schedule but fall due for no account. -/
structure Fees where
  balance : Nat := 400
  sha3 : Nat := 30
  sha3Word : Nat := 6
  sload : Nat := 200
  suicide : Nat := 5000
  newAccountSuicide : Nat := 25000
  suicideRefund : Nat := 24000
  setSlot : Nat := 20000
  resetSlot : Nat := 5000
  clearSlot : Nat := 5000
  clearRefund : Nat := 15000
  create : Nat := 32000
  createByte : Nat := 200
  call : Nat := 700
  stipend : Nat := 2300
  valueTransfer : Nat := 9000
  newAccountCall : Nat := 25000
  memoryWord : Nat := 3
  copyWord : Nat := 3
  log : Nat := 375
  logByte : Nat := 8
  logTopic : Nat := 375
  exp : Nat := 10
  expByte : Nat := 50
  extCodeSize : Nat := 700
  extCodeCopy : Nat := 700
  transaction : Nat := 21000
  creation : Nat := 53000
  zeroByte : Nat := 4
  nonzeroByte : Nat := 68
  deriving DecidableEq

def wordsFor (size : Nat) : Nat := (size + 31) / 32

/-- The memory size that a window asks for; one without bytes asks for none. -/
def memoryNeeded (offset size : Word) : Nat :=
  if size = 0 then 0 else min (offset.toNat + size.toNat) Word.limit

namespace Fees

def memoryCost (fees : Fees) (words : Nat) : Nat := fees.memoryWord * words + words * words / 512

def growth (fees : Fees) (size needed : Nat) : Except Fault Nat :=
  if Word.indexLimit < needed then .error (.memoryLimit needed Word.indexLimit)
  else if size < wordsFor needed * 32 then
    .ok (fees.memoryCost (wordsFor needed) - fees.memoryCost (size / 32))
  else .ok 0

def withCopy (fees : Fees) (growth copied : Nat) : Nat :=
  if copied = 0 then growth
  else Quantity.clamp (growth + Quantity.clamp (fees.copyWord * wordsFor copied))

def expPrice (fees : Fees) (exponent : Word) : Nat := fees.exp + fees.expByte * exponent.occupied

def sha3Price (fees : Fees) (size : Nat) : Nat :=
  Quantity.clamp (fees.sha3 + Quantity.clamp (fees.sha3Word * wordsFor size))

def logPrice (fees : Fees) (topics size : Nat) : Nat :=
  Quantity.clamp
    (Quantity.clamp (fees.log + fees.logTopic * topics) + Quantity.clamp (fees.logByte * size))

def slotPrice (fees : Fees) (current : Option Word) (value : Word) : Nat × Nat :=
  match current with
  | none => if value = 0 then (fees.resetSlot, 0) else (fees.setSlot, 0)
  | some _ => if value = 0 then (fees.clearSlot, fees.clearRefund) else (fees.resetSlot, 0)

def intrinsic (fees : Fees) (data : Bytes) (isCreation : Bool) : Nat :=
  let zeros := data.count 0
  (if isCreation then fees.creation else fees.transaction) + zeros * fees.zeroByte
    + (data.size - zeros) * fees.nonzeroByte

end Fees

namespace Gas

def allButPart (gas : Nat) : Nat := gas - gas / 64

def forwarded (requested : Word) (available : Nat) : Nat :=
  min requested.toNat (allButPart available)

def refund (used pool : Nat) : Nat := min pool (used / 2)

end Gas

end ContractMachine
