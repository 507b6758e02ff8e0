import ContractMachine.Execution
import ContractMachine.Proofs.Ledger.Below
import ContractMachine.Proofs.Site.Creation

/-!
The phases of a transaction, each read back as the ways in which it can go: it is admitted
(`Admitted`), it begins (`Begins`), its code is deployed or refused (`Deposits`), and what the code
has done is kept or dropped (`Concludes`). On all of them it stays the same transaction, and what
lies below its checkpoint stays as it was (`Follows`).
-/

namespace ContractMachine.Execution

structure Admitted (execution : Execution) : Prop where
  room : Quantity.clamp (execution.transaction.gas + execution.usedInBlock) ≤
    execution.block.gasLimit
  gas : execution.basePrice ≤ execution.transaction.gas
  nonce : execution.ledger.nonce execution.transaction.sender = execution.transaction.nonce
  funds : (execution.transaction.value.clampedAdd execution.gasCost).toNat ≤
    (execution.ledger.balance execution.transaction.sender).toNat

/-- `later` is the same transaction at a later moment, with what lies below the checkpoint as it
was. -/
structure Follows (execution later : Execution) : Prop where
  environment : later.environment = execution.environment
  transaction : later.transaction = execution.transaction
  isLocal : later.isLocal = execution.isLocal
  ready : later.ready = execution.ready
  tracking : later.tracking = execution.tracking
  ledger : execution.ledger.KeepsBelow later.ledger

def entered (execution : Execution) : Execution :=
  { execution.charge with ledger := execution.charge.ledger.checkpoint, tracking := true }

/-- The ways in which a transaction begins once its checkpoint is open. In the first two it is given
up. -/
inductive Begins (entered : Execution) : Execution → Prop where
  | drained {target : Address} {contract : Precompile}
      (recipient : entered.transaction.recipient = some target)
      (found : entered.config.precompiles.find? target = some contract)
      (notLocal : entered.isLocal = false)
      (dear : entered.gasLeft <
        Quantity.clamp (entered.basePrice + contract.price entered.transaction.data)) :
      Begins entered { entered with gasLeft := 0 }
  | collided (creation : entered.transaction.recipient = none)
      (inUse : entered.ledger.hasAccount entered.createdAddress = true) :
        Begins entered { entered with gasLeft := 0 }
  | answered {target : Address} {contract : Precompile}
      (recipient : entered.transaction.recipient = some target)
      (found : entered.config.precompiles.find? target = some contract)
      (paid : entered.isLocal = false →
        Quantity.clamp (entered.basePrice + contract.price entered.transaction.data) ≤
          entered.gasLeft) :
      Begins entered (moveValue { entered with
        gasLeft :=
          entered.gasLeft -
          Quantity.clamp (entered.basePrice + contract.price entered.transaction.data)
        outcome := entered.outcome.setReturnData (contract.run entered.transaction.data) } target)
  | moved {target : Address} (recipient : entered.transaction.recipient = some target)
      (found : entered.config.precompiles.find? target = none)
      (empty : (entered.ledger.code target).isEmpty = true) :
        Begins entered (entered.spendBase.moveValue target)
  | called {target : Address} (recipient : entered.transaction.recipient = some target)
      (found : entered.config.precompiles.find? target = none)
      (code : (entered.ledger.code target).isEmpty = false) :
      Begins entered ((entered.prepare (entered.ledger.code target) target).moveValue target)
  | passed (creation : entered.transaction.recipient = none)
      (free : entered.ledger.hasAccount entered.createdAddress = false)
      (empty : entered.transaction.data.isEmpty = true) :
      Begins entered (({ entered with
        ledger := entered.ledger.bumpNonce entered.createdAddress }.spendBase).moveValue
          entered.createdAddress)
  | made (creation : entered.transaction.recipient = none)
      (free : entered.ledger.hasAccount entered.createdAddress = false)
      (code : entered.transaction.data.isEmpty = false) :
      Begins entered
        (({ entered with ledger := entered.ledger.bumpNonce entered.createdAddress }.prepare
          entered.transaction.data entered.createdAddress).moveValue entered.createdAddress)

def ranTo (execution : Execution) (outcome : Outcome) (ledger : Ledger) : Execution :=
  { execution with
    frame := none, ledger := ledger, outcome := outcome,
      gasLeft := execution.transaction.gas - outcome.gasUsed }

def settledBy (execution : Execution) (outcome : Outcome) : Deposit → Execution
  | .deploy price =>
      { execution with
        gasLeft := execution.gasLeft - price
        outcome := outcome.spend price
        ledger := execution.ledger.setCode execution.createdAddress outcome.returnData }
  | .deployEmpty => { execution with outcome := outcome.setReturnData #[] }
  | .fail fault => { execution with outcome := (outcome.setFault fault).setReturnData #[] }

def deposited (execution : Execution) (outcome : Outcome) (ledger : Ledger) : Execution :=
  if execution.transaction.isCreation && outcome.succeeded then
    (execution.ranTo outcome ledger).deposit outcome
  else execution.ranTo outcome ledger

/-- What becomes of what the code has returned. Without a creation that has succeeded nothing
does. -/
inductive Deposits (begun : Execution) (outcome : Outcome) (ledger : Ledger) :
    Execution → Prop where
  | unasked (idle : (begun.transaction.isCreation && outcome.succeeded) = false) :
      Deposits begun outcome ledger (begun.ranTo outcome ledger)
  | deployed {price : Nat} (creation : begun.transaction.isCreation = true)
      (sound : outcome.succeeded = true)
      (found : begun.config.deposit outcome.returnData.size
        (begun.transaction.gas - outcome.gasUsed) = .deploy price) :
      Deposits begun outcome ledger { begun.ranTo outcome ledger with
        gasLeft := begun.transaction.gas - outcome.gasUsed - price
        outcome := outcome.spend price
        ledger := ledger.setCode begun.createdAddress outcome.returnData }
  | emptied (creation : begun.transaction.isCreation = true) (sound : outcome.succeeded = true)
      (found : begun.config.deposit outcome.returnData.size
        (begun.transaction.gas - outcome.gasUsed) = .deployEmpty) :
      Deposits begun outcome ledger
        { begun.ranTo outcome ledger with outcome := outcome.setReturnData #[] }
  | refused {fault : Fault} (creation : begun.transaction.isCreation = true)
      (sound : outcome.succeeded = true)
      (found : begun.config.deposit outcome.returnData.size
        (begun.transaction.gas - outcome.gasUsed) = .fail fault) :
      Deposits begun outcome ledger
        { begun.ranTo outcome ledger with outcome := (outcome.setFault fault).setReturnData #[] }

inductive Concludes (begun : Execution) (outcome : Outcome) (ledger : Ledger) :
    Execution → Prop where
  | kept {later : Execution} (deposits : begun.Deposits outcome ledger later)
      (sound : later.outcome.succeeded = true) :
      Concludes begun outcome ledger { later with ledger := later.ledger.commit, tracking := false }
  | dropped {later : Execution} (deposits : begun.Deposits outcome ledger later)
      (failed : later.outcome.succeeded = false) :
      Concludes begun outcome ledger { later with
        ledger := ledger.rollback
        tracking := false
        outcome := later.outcome.discardEffects.rejectRecords
        gasLeft := if outcome.fault.isSome then 0 else later.gasLeft }

section

variable {execution approved begun later : Execution} {outcome : Outcome} {ledger : Ledger}

theorem admitted_of_rejection (unopposed : execution.rejection? = none) : execution.Admitted := by
  simp only [rejection?] at unopposed
  split at unopposed
  · cases unopposed
  · rename_i room
    split at unopposed
    · cases unopposed
    · rename_i gas
      split at unopposed
      · cases unopposed
      · rename_i nonce
        split at unopposed
        · cases unopposed
        · rename_i funds
          exact ⟨Nat.le_of_not_lt room, Nat.le_of_not_lt gas, Decidable.not_not.mp nonce,
            Nat.le_of_not_lt funds⟩

theorem approve_of_rejection (unopposed : execution.rejection? = none) :
    execution.approve = .ok { execution with ready := true } := by
  rw [approve, unopposed]
  split
  · rfl
  · rfl

theorem ready_of_approve (accepted : execution.approve = .ok approved) :
    approved = { execution with ready := true } := by
  unfold approve at accepted
  split at accepted
  · cases accepted
    rfl
  · split at accepted
    · cases accepted
    · cases accepted
      rfl

theorem begins_beginPrecompile {target : Address} {contract : Precompile}
    (recipient : execution.transaction.recipient = some target)
    (found : execution.config.precompiles.find? target = some contract) :
    execution.Begins (execution.beginPrecompile contract target) := by
  simp only [beginPrecompile]
  split
  · rename_i short
    rw [Bool.and_eq_true, Bool.not_eq_true', decide_eq_true_eq] at short
    exact .drained recipient found short.1 short.2
  · rename_i enough
    refine .answered recipient found ?_
    intro notLocal
    rw [notLocal, Bool.not_false, Bool.true_and, decide_eq_true_eq] at enough
    exact Nat.le_of_not_lt enough

theorem begins_beginCall {target : Address}
    (recipient : execution.transaction.recipient = some target) :
    execution.Begins (execution.beginCall target) := by
  unfold beginCall
  cases found : execution.config.precompiles.find? target with
  | some contract => exact begins_beginPrecompile recipient found
  | none =>
      simp only
      cases empty : (execution.ledger.code target).isEmpty with
      | true => exact .moved recipient found empty
      | false => exact .called recipient found empty

theorem begins_beginCreation (creation : execution.transaction.recipient = none) :
    execution.Begins execution.beginCreation := by
  simp only [beginCreation]
  cases inUse : execution.ledger.hasAccount execution.createdAddress with
  | true => exact .collided creation inUse
  | false =>
      cases empty : execution.transaction.data.isEmpty with
      | true => exact .passed creation inUse empty
      | false => exact .made creation inUse empty

theorem Begins.follows (begins : execution.Begins begun) : execution.Follows begun := by
  have moved (target : Address) :=
    (Ledger.writes_transfer execution.ledger execution.transaction.sender target
      execution.transaction.value).keepsBelow
  have made (address : Address) := (Ledger.writes_bumpNonce execution.ledger address).keepsBelow
  cases begins with
  | drained | collided => exact ⟨rfl, rfl, rfl, rfl, rfl, .refl _⟩
  | answered | moved | called => exact ⟨rfl, rfl, rfl, rfl, rfl, moved _⟩
  | passed | made =>
      exact ⟨rfl, rfl, rfl, rfl, rfl, (made _).trans (Ledger.writes_transfer _ _ _ _).keepsBelow⟩

theorem begin_of_ready (ready : approved.ready = true) :
    approved.begin =
      match approved.transaction.recipient with
      | some target => .ok (approved.entered.beginCall target)
      | none => .ok approved.entered.beginCreation :=
  if_pos ready

theorem ready_of_begin (starts : approved.begin = .ok begun) : approved.ready = true := by
  unfold Execution.begin at starts
  split at starts
  · assumption
  · cases starts

theorem entered_fields (execution : Execution) :
    execution.entered.environment = execution.environment ∧
    execution.entered.transaction = execution.transaction ∧
      execution.entered.isLocal = execution.isLocal ∧ execution.entered.ready = execution.ready ∧
      execution.entered.frame = execution.frame ∧
      execution.entered.outcome = execution.outcome := by
  unfold entered charge
  split
  · exact ⟨rfl, rfl, rfl, rfl, rfl, rfl⟩
  · exact ⟨rfl, rfl, rfl, rfl, rfl, rfl⟩

/-- A transaction begins in one of these ways. -/
theorem begins_of_begin (starts : approved.begin = .ok begun) : approved.entered.Begins begun := by
  have transaction := approved.entered_fields.2.1
  rw [begin_of_ready (ready_of_begin starts)] at starts
  split at starts
  · rename_i target recipient
    cases starts
    exact begins_beginCall ((congrArg Transaction.recipient transaction).trans recipient)
  · rename_i recipient
    cases starts
    exact begins_beginCreation ((congrArg Transaction.recipient transaction).trans recipient)

theorem follows_entered (starts : approved.begin = .ok begun) : approved.entered.Follows begun :=
  (begins_of_begin starts).follows

/-- A transaction decides on code by a ladder of its own, and as a creation within code does. -/
theorem deposit_of_decides {decision : Deposit}
    (decides : execution.config.Decides outcome.returnData.size execution.gasLeft decision) :
    execution.deposit outcome = execution.settledBy outcome decision := by
  -- Gas is asked for first, and the length only of what is paid for.
  unfold deposit
  cases decides with
  | deploy paid fits =>
      exact (if_neg (Nat.not_lt_of_le paid)).trans (if_neg (Nat.not_lt_of_le fits))
  | deployEmpty dear lenient =>
      refine (if_pos dear).trans ?_
      rw [if_pos lenient]
      rfl
  | unpaid dear strict =>
      refine (if_pos dear).trans ?_
      rw [if_neg (ne_true_of_eq_false strict)]
      rfl
  | tooLong paid long =>
      exact (if_neg (Nat.not_lt_of_le paid)).trans (if_pos long)

theorem deposit_eq (execution : Execution) (outcome : Outcome) :
    execution.deposit outcome =
      execution.settledBy outcome
        (execution.config.deposit outcome.returnData.size execution.gasLeft) :=
  deposit_of_decides (execution.config.decides_deposit _ _)

theorem deposits_deposited (begun : Execution) (outcome : Outcome) (ledger : Ledger) :
    begun.Deposits outcome ledger (begun.deposited outcome ledger) := by
  unfold deposited
  cases creates : begun.transaction.isCreation && outcome.succeeded with
  | false => exact .unasked creates
  | true =>
      obtain ⟨creation, sound⟩ := Bool.and_eq_true_iff.mp creates
      rw [if_pos rfl, deposit_eq]
      unfold settledBy
      split
      · exact .deployed creation sound ‹_›
      · exact .emptied creation sound ‹_›
      · exact .refused creation sound ‹_›

theorem Deposits.follows (deposits : begun.Deposits outcome ledger later) :
    (begun.ranTo outcome ledger).Follows later := by
  cases deposits with
  | deployed => exact ⟨rfl, rfl, rfl, rfl, rfl, (Ledger.writes_setCode _ _ _).keepsBelow⟩
  | unasked | emptied | refused => exact ⟨rfl, rfl, rfl, rfl, rfl, .refl _⟩

/-- No deposit makes a failure a success. -/
theorem Deposits.succeeded (deposits : begun.Deposits outcome ledger later)
    (succeeded : later.outcome.succeeded = true) : outcome.succeeded = true := by
  cases deposits with
  | unasked => exact succeeded
  | deployed _ sound | emptied _ sound | refused _ sound => exact sound

/-- Where the code that is returned is refused, nothing has been written. -/
theorem Deposits.ledger_of_failed (deposits : begun.Deposits outcome ledger later)
    (failed : later.outcome.succeeded = false) : later.ledger = ledger := by
  cases deposits with
  | deployed _ sound => exact absurd (failed.symm.trans sound) Bool.false_ne_true
  | unasked | emptied | refused => rfl

theorem Deposits.gasLeft_le (deposits : begun.Deposits outcome ledger later) :
    later.gasLeft ≤ begun.transaction.gas - outcome.gasUsed := by
  cases deposits with
  | deployed => exact Nat.sub_le _ _
  | unasked | emptied | refused => exact Nat.le_refl _

theorem conclude_eq (execution : Execution) (outcome : Outcome) (ledger : Ledger) :
    execution.conclude outcome ledger =
      if (execution.deposited outcome ledger).outcome.succeeded then
        (execution.deposited outcome ledger).commit
      else
        { (execution.deposited outcome ledger).rollback with
          outcome := (execution.deposited outcome ledger).outcome.discardEffects.rejectRecords
          gasLeft :=
            if outcome.fault.isSome then 0 else (execution.deposited outcome ledger).gasLeft } :=
  rfl

theorem concludes_conclude (begun : Execution) (outcome : Outcome) (ledger : Ledger)
    (tracking : begun.tracking = true) :
      begun.Concludes outcome ledger (begun.conclude outcome ledger) := by
  have deposits := begun.deposits_deposited outcome ledger
  have tracked : (begun.deposited outcome ledger).tracking = true :=
    deposits.follows.tracking.trans tracking
  rw [conclude_eq]
  cases succeeded : (begun.deposited outcome ledger).outcome.succeeded with
  | true =>
      have kept := Concludes.kept deposits succeeded
      rw [if_pos rfl, commit, if_pos tracked]
      exact kept
  | false =>
      have dropped := Concludes.dropped deposits succeeded
      rw [if_neg Bool.false_ne_true, rollback, if_pos tracked, deposits.ledger_of_failed succeeded]
      exact dropped

theorem Concludes.gasLeft_le (concludes : begun.Concludes outcome ledger later) :
    later.gasLeft ≤ begun.transaction.gas - outcome.gasUsed := by
  cases concludes with
  | kept deposits => exact deposits.gasLeft_le
  | dropped deposits =>
      simp only
      split
      · exact Nat.zero_le _
      · exact deposits.gasLeft_le

end

end ContractMachine.Execution
