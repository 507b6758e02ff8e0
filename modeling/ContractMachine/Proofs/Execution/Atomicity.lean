import ContractMachine.Proofs.Execution.Phases
import ContractMachine.Proofs.Ledger.Snapshots
import ContractMachine.Proofs.Ledger.Supply
import ContractMachine.Proofs.Machine.Atomicity

/-!
A transaction that fails costs its sender the gas that it has used, and leaves nothing else behind.
What is done once it has begun is done in a checkpoint (`Follows`), which is rolled back at the end
or holds nothing; what is paid up front and what is paid back add up because no balance comes near
the limit.
-/

namespace ContractMachine.Execution

structure Approved (approved : Execution) : Prop where
  isLocal : approved.isLocal = false
  ready : approved.ready = true
  frame : approved.frame = none
  outcome : approved.outcome = {}
  gasLeft : approved.gasLeft = approved.transaction.gas

def chargedLedger (execution : Execution) : Ledger :=
  (execution.ledger.bumpNonce execution.transaction.sender).debit execution.transaction.sender
    execution.gasCost

def opened (execution : Execution) : Execution :=
  { execution with ledger := execution.chargedLedger.checkpoint, tracking := true }

theorem entered_eq_opened {approved : Execution} (fresh : Approved approved) :
    approved.entered = approved.opened := by
  rw [entered, charge, if_neg (ne_true_of_eq_false fresh.isLocal)]
  rfl

theorem begin_eq {approved : Execution} (fresh : Approved approved) :
    approved.begin =
      match approved.transaction.recipient with
      | some target => .ok (approved.opened.beginCall target)
      | none => .ok approved.opened.beginCreation := by
  have starts := begin_of_ready fresh.ready
  rw [entered_eq_opened fresh] at starts
  exact starts

theorem begins_opened {approved begun : Execution} (fresh : Approved approved)
    (starts : approved.begin = .ok begun) : approved.opened.Begins begun := by
  rw [← entered_eq_opened fresh]
  exact begins_of_begin starts

theorem follows_begin {approved begun : Execution} (fresh : Approved approved)
    (starts : approved.begin = .ok begun) : approved.opened.Follows begun :=
  (begins_opened fresh starts).follows

inductive Ran (approved : Execution) : Outcome → Prop where
  | intro {begun : Execution} {machine : Machine} (starts : approved.begin = .ok begun)
      (code : begun.machine? = some (.ok machine))
      (ends : (machine.run approved.environment).finished = true) :
      Ran approved (machine.run approved.environment).frame.outcome

inductive Fails (approved : Execution) : Prop where
  | fault {outcome : Outcome} (ran : approved.Ran outcome) (fault : outcome.fault.isSome = true)
  | reverted {outcome : Outcome} (ran : approved.Ran outcome) (reverted : outcome.reverted = true)
  | deposit {outcome : Outcome} {fault : Fault} (ran : approved.Ran outcome)
      (creation : approved.transaction.isCreation = true)
      (short : approved.config.deposit outcome.returnData.size
        (approved.transaction.gas - outcome.gasUsed) =
        .fail fault)
  | collided (creation : approved.transaction.recipient = none)
      (inUse : approved.chargedLedger.hasAccount approved.createdAddress = true)
  | drained {target : Address} {contract : Precompile}
      (called : approved.transaction.recipient = some target)
      (found : approved.config.precompiles.find? target = some contract)
      (dear : approved.transaction.gas <
        Quantity.clamp (approved.basePrice + contract.price approved.transaction.data))

/-- What is left of an approved transaction that has failed. -/
structure Undone (approved performed : Execution) : Prop where
  transaction : performed.transaction = approved.transaction
  isLocal : performed.isLocal = false
  ready : performed.ready = true
  tracking : performed.tracking = false
  ledger : performed.ledger.snapshot = approved.chargedLedger.snapshot
  deletions : performed.outcome.deletions = []
  logs : performed.outcome.logs = #[]
  refundPool : performed.outcome.refundPool = 0
  gasLeft : performed.gasLeft ≤ approved.transaction.gas

def ComesUndone (approved : Execution) : Prop :=
  ∃ begun performed, approved.begin = .ok begun ∧ begun.perform = .ok performed ∧
    Undone approved performed

/-- The code failed, or what it returned is refused as the code of a contract. -/
def Unsuccessful (approved : Execution) (outcome : Outcome) : Prop :=
  outcome.succeeded = false ∨ (approved.transaction.isCreation = true ∧
    ∃ fault, approved.config.deposit outcome.returnData.size
      (approved.transaction.gas - outcome.gasUsed) =
      .fail fault)

section

variable {approved begun : Execution} {outcome : Outcome}

/-- A machine is evaluated behind its option; what is seen of it there is so of it. -/
theorem machine_with {α : Type} {view : Machine → α} {seen : α}
    (ran : begun.machine?.map (fun started => started.toOption.map view) = some (some seen)) :
    ∃ machine, begun.machine? = some (.ok machine) ∧ view machine = seen := by
  cases code : begun.machine? with
  | none =>
      rw [code] at ran
      cases ran
  | some started =>
      rw [code] at ran
      cases started with
      | error stopped => cases ran
      | ok machine => exact ⟨machine, rfl, Option.some.inj (Option.some.inj ran)⟩

/-- The machine begins with the frame of the transaction, which has paid the base price. -/
theorem start_of_machine {machine : Machine} (code : begun.machine? = some (.ok machine)) :
    ∃ frame paid, begun.frame = some frame ∧
      frame.spend begun.basePrice "basic transaction cost" = .ok paid ∧
      machine = Machine.start paid begun.ledger := by
  unfold machine? at code
  cases root : begun.frame with
  | none =>
      rw [root] at code
      cases code
  | some frame =>
      rw [root, Option.map_some] at code
      split at code
      · cases code
        exact ⟨_, _, rfl, ‹_›, rfl⟩
      · cases code

theorem rollback_of_run {machine : Machine} (fresh : Approved approved)
    (starts : approved.begin = .ok begun) (code : begun.machine? = some (.ok machine))
    (ends : (machine.run begun.environment).finished = true) :
    (machine.run begun.environment).ledger.rollback = approved.chargedLedger := by
  have follows := follows_begin fresh starts
  obtain ⟨frame, paid, -, -, rfl⟩ := start_of_machine code
  exact Machine.rollback_of_finished follows.ledger (Machine.runFor_reaches _ _ _) ends

/-- What is refused its deposit, or has failed before, ends as a failure. -/
theorem Deposits.failed {ledger : Ledger} {later : Execution}
    (deposits : begun.Deposits outcome ledger later)
    (transaction : begun.transaction = approved.transaction)
    (config : begun.config = approved.config) (failed : Unsuccessful approved outcome) :
    later.outcome.succeeded = false := by
  rcases failed with unsuccessful | ⟨creation, fault, short⟩
  · cases done : later.outcome.succeeded with
    | true => exact (deposits.succeeded done).symm.trans unsuccessful
    | false => rfl
  · rw [← transaction, ← config] at short
    rw [← transaction] at creation
    cases deposits with
    | unasked idle =>
        rw [creation, Bool.true_and] at idle
        exact idle
    | deployed _ _ found | emptied _ _ found =>
        rw [short] at found
        cases found
    | refused => rfl

theorem undone_conclude (fresh : Approved approved) (starts : approved.begin = .ok begun)
    {ledger : Ledger} (restores : ledger.rollback = approved.chargedLedger)
    (failed : Unsuccessful approved outcome) :
    Undone approved (begun.conclude outcome ledger) := by
  have follows := follows_begin fresh starts
  have concludes := begun.concludes_conclude outcome ledger follows.tracking
  have left : (begun.conclude outcome ledger).gasLeft ≤ approved.transaction.gas := by
    have part := concludes.gasLeft_le
    rw [follows.transaction] at part
    exact Nat.le_trans part (Nat.sub_le _ _)
  generalize begun.conclude outcome ledger = performed at concludes left ⊢
  cases concludes with
  | @kept later deposits sound =>
      have unsound :=
        deposits.failed follows.transaction (congrArg Environment.config follows.environment) failed
      exact absurd (unsound.symm.trans sound) Bool.false_ne_true
  | @dropped later deposits unsound =>
      have ends := deposits.follows
      have reads := congrArg Ledger.snapshot restores
      refine ⟨ends.transaction.trans follows.transaction, ?_, ?_, rfl, reads, rfl, rfl, rfl, left⟩
      · exact ends.isLocal.trans (follows.isLocal.trans fresh.isLocal)
      · exact ends.ready.trans (follows.ready.trans fresh.ready)

theorem undone_of_ran (fresh : Approved approved) (ran : approved.Ran outcome)
    (failed : Unsuccessful approved outcome) :
    ComesUndone approved := by
  cases ran with
  | @intro begun machine starts code ends =>
      have follows := follows_begin fresh starts
      have environment : begun.environment = approved.environment := follows.environment
      have ready : begun.ready = true := follows.ready.trans fresh.ready
      rw [← environment] at ends
      have restores := rollback_of_run fresh starts code ends
      have performed :
          begun.perform = .ok (begun.conclude (machine.run begun.environment).frame.outcome
            (machine.run begun.environment).ledger) := by
        simp only [perform, ready, code, if_true]
      rw [← environment] at failed
      exact ⟨begun, _, starts, performed, undone_conclude fresh starts restores failed⟩

theorem perform_of_no_code (execution : Execution) (ready : execution.ready = true)
    (code : execution.machine? = none) : execution.perform = .ok execution.commit := by
  simp only [perform, ready, code, if_true]

def givenUp (execution : Execution) : Execution := { execution.opened with gasLeft := 0 }

theorem undone_givenUp (fresh : Approved approved)
    (starts : approved.begin = .ok approved.givenUp) : ComesUndone approved := by
  have code : approved.givenUp.machine? = none := congrArg (Option.map _) fresh.frame
  have performed := perform_of_no_code approved.givenUp fresh.ready code
  have tracking : approved.givenUp.tracking = true := rfl
  have reads : approved.givenUp.ledger.commit.snapshot = approved.chargedLedger.snapshot :=
    (Ledger.snapshot_commit _).trans (Ledger.snapshot_checkpoint _)
  have outcome : approved.givenUp.outcome = {} := fresh.outcome
  refine ⟨_, _, starts, performed, ?_⟩
  rw [commit, if_pos tracking]
  refine ⟨rfl, fresh.isLocal, fresh.ready, rfl, reads, ?_, ?_, ?_, Nat.zero_le _⟩
  · exact congrArg Outcome.deletions outcome
  · exact congrArg Outcome.logs outcome
  · exact congrArg Outcome.refundPool outcome

/-- With an address in use nothing is begun. -/
theorem begin_of_collided (fresh : Approved approved)
    (creation : approved.transaction.recipient = none)
    (inUse : approved.chargedLedger.hasAccount approved.createdAddress = true) :
    approved.begin = .ok approved.givenUp := by
  have used : approved.opened.ledger.hasAccount approved.opened.createdAddress = true := by
    rw [opened, Ledger.hasAccount, Ledger.account?_checkpoint]
    exact inUse
  have given : approved.opened.beginCreation = approved.givenUp := if_pos used
  rw [begin_eq fresh, creation, ← given]

/-- Without the gas for a precompile nothing is begun. -/
theorem begin_of_drained (fresh : Approved approved) {target : Address} {contract : Precompile}
    (called : approved.transaction.recipient = some target)
    (found : approved.config.precompiles.find? target = some contract)
    (dear : approved.transaction.gas <
      Quantity.clamp (approved.basePrice + contract.price approved.transaction.data)) :
    approved.begin = .ok approved.givenUp := by
  have short : (!approved.opened.isLocal && decide (approved.opened.gasLeft <
      Quantity.clamp (approved.opened.basePrice + contract.price approved.opened.transaction.data)))
        = true := by
    have isLocal : approved.opened.isLocal = false := fresh.isLocal
    have gasLeft : approved.opened.gasLeft = approved.transaction.gas := fresh.gasLeft
    rw [isLocal, gasLeft]
    exact decide_eq_true dear
  have given : approved.opened.beginPrecompile contract target = approved.givenUp := if_pos short
  have known : approved.opened.config.precompiles.find? target = some contract := found
  rw [begin_eq fresh, called, ← given]
  simp only [beginCall, known]

theorem Fails.undone (fails : Fails approved) (fresh : Approved approved) :
    ComesUndone approved := by
  cases fails with
  | @fault outcome ran fault =>
      have unsuccessful : outcome.succeeded = false := by
        rw [Outcome.succeeded, Option.isNone_eq_false_iff.mpr fault]
        rfl
      exact undone_of_ran fresh ran (.inl unsuccessful)
  | @reverted outcome ran reverted =>
      have unsuccessful : outcome.succeeded = false := by
        rw [Outcome.succeeded, reverted]
        exact Bool.and_false _
      exact undone_of_ran fresh ran (.inl unsuccessful)
  | @deposit outcome fault ran creation short =>
    exact undone_of_ran fresh ran (.inr ⟨creation, fault, short⟩)
  | collided creation inUse => exact undone_givenUp fresh (begin_of_collided fresh creation inUse)
  | drained called found dear =>
    exact undone_givenUp fresh (begin_of_drained fresh called found dear)

end

/-- With balances below the limit, an approved sender has the value and the price of the gas: their
sum is not cut off. -/
theorem covered_of_approved (execution : Execution) (supply : execution.ledger.supply < Word.limit)
    (approved : execution.rejection? = none) :
    execution.transaction.value.toNat + execution.gasCost.toNat ≤
      (execution.ledger.balance execution.transaction.sender).toNat := by
  have bounded := execution.ledger.balance_le_supply execution.transaction.sender
  have covered := (admitted_of_rejection approved).funds
  rw [Word.clampedAdd_toNat] at covered
  omega

/-- What is charged is exactly the price of the gas, and the sender has as much. -/
theorem gasCost_of_approved (execution : Execution) (supply : execution.ledger.supply < Word.limit)
    (approved : execution.rejection? = none) :
    execution.gasCost.toNat = execution.transaction.gas * execution.transaction.gasPrice.toNat ∧
      execution.gasCost.toNat ≤ (execution.ledger.balance execution.transaction.sender).toNat := by
  have bounded := execution.ledger.balance_le_supply execution.transaction.sender
  have covered := execution.covered_of_approved supply approved
  have cost : execution.gasCost.toNat =
      min (execution.transaction.gas * execution.transaction.gasPrice.toNat) Word.limit :=
        Word.clamp_toNat _
  omega

theorem approved_of_approve {execution approved : Execution} (notLocal : execution.isLocal = false)
    (accepted : execution.approve = .ok approved) :
    execution.rejection? = none ∧ approved = { execution with ready := true } := by
  rw [approve, if_neg (ne_true_of_eq_false notLocal)] at accepted
  split at accepted
  · cases accepted
  · cases accepted
    exact ⟨‹_›, rfl⟩

theorem fresh_of_approve {environment : Environment} {tx : Transaction} {block : Block}
    {ledger : Ledger} {usedInBlock : Nat} {approved : Execution}
    (accepted : (ofTransaction environment tx block ledger usedInBlock false).approve =
      .ok approved) :
    Approved approved := by
  rw [(approved_of_approve rfl accepted).2]
  exact ⟨rfl, rfl, rfl, rfl, rfl⟩

theorem settle_of_undone {approved performed : Execution} (undone : Undone approved performed) :
    ∃ done, performed.settle = .ok done ∧
      done.ledger = performed.ledger.credit approved.transaction.sender
        (Word.clamp (performed.gasLeft * approved.transaction.gasPrice.toNat)) ∧
      done.summary.gasUsed = approved.transaction.gas - performed.gasLeft ∧
      done.summary.logs = #[] ∧ done.summary.deletions = [] := by
  have committed : performed.commit = performed := if_neg (ne_true_of_eq_false undone.tracking)
  -- The refund for deletions is added before the pool is paid out.
  have pool : (performed.outcome.addRefund
      (Quantity.clamp
        (performed.outcome.deletions.length * performed.fees.suicideRefund))).refundPool = 0 := by
    rw [undone.deletions]
    simp only [Outcome.addRefund, undone.refundPool, List.length_nil, Nat.zero_mul]
    rfl
  have gasLeft : performed.grantRefund.gasLeft = performed.gasLeft := by
    simp only [grantRefund, pool, Gas.refund, Nat.zero_min, Nat.add_zero]
  have deletions : performed.grantRefund.outcome.deletions = [] := undone.deletions
  have kept : performed.grantRefund.deleteAccounts.ledger = performed.ledger := by
    rw [deleteAccounts, deletions]
    rfl
  have isLocal : performed.grantRefund.deleteAccounts.isLocal = false := undone.isLocal
  have paid :
      performed.grantRefund.deleteAccounts.payBack = { performed.grantRefund.deleteAccounts with
        ledger := performed.ledger.credit approved.transaction.sender
          (Word.clamp (performed.gasLeft * approved.transaction.gasPrice.toNat)) } := by
    rw [payBack, if_neg (ne_true_of_eq_false isLocal), kept, ← undone.transaction, ← gasLeft]
    rfl
  refine ⟨performed.grantRefund.deleteAccounts.payBack, ?_, ?_, ?_, ?_, ?_⟩
  · rw [settle, if_pos undone.ready, committed]
  · rw [paid]
  · rw [paid, ← undone.transaction, ← gasLeft]
    rfl
  · rw [paid]
    exact undone.logs
  · rw [paid]
    exact undone.deletions

theorem reads_of_undone {approved performed : Execution} (undone : Undone approved performed)
    (amount : Word) :
    (performed.ledger.credit approved.transaction.sender amount).snapshot =
      approved.ledger.snapshot.update approved.transaction.sender fun account =>
        { account with
          nonce := Ledger.nextNonce account.nonce
          balance := (account.balance.clampedSub approved.gasCost).clampedAdd amount } := by
  rw [Ledger.credit, Ledger.snapshot_update, undone.ledger, chargedLedger, Ledger.debit,
    Ledger.snapshot_update, Ledger.bumpNonce, Ledger.snapshot_update, Snapshot.update_update,
    Snapshot.update_update]
  rfl

/-- Nothing is lost to a limit: what is charged and what comes back differ by the gas that was
used. -/
theorem balance_of_paid {balance cost : Word} {gas left price : Nat}
    (bounded : balance.toNat < Word.limit) (exactly : cost.toNat = gas * price)
    (covered : cost.toNat ≤ balance.toNat) (part : left ≤ gas) :
    ((balance.clampedSub cost).clampedAdd (Word.clamp (left * price))).toNat +
      (gas - left) * price =
      balance.toNat := by
  have share : left * price ≤ gas * price := Nat.mul_le_mul_right price part
  rw [Word.clampedAdd_toNat, Word.clampedSub_toNat, Word.clamp_toNat, Nat.sub_mul]
  omega

/-- A transaction that is approved and fails, by a fault or a REVERT of its code, for code that
cannot be deployed, at an address in use or for want of gas for a precompile, is carried through;
every account and every slot reads as before, save that the sender's nonce has moved on and its
balance is lower by the price of the gas that is reported as used. No log and no deletion is
reported. -/
theorem failed_transaction_leaves_ledger (environment : Environment) (tx : Transaction)
    (block : Block) (ledger : Ledger) (usedInBlock : Nat) (supply : ledger.supply < Word.limit)
    {approved : Execution}
    (accepted : (ofTransaction environment tx block ledger usedInBlock false).approve =
      .ok approved) (fails : Fails approved) :
    ∃ done, (ofTransaction environment tx block ledger usedInBlock false).run = .ok done ∧
      (∀ address key, done.ledger.slot? address key = ledger.slot? address key) ∧
      (∀ address, address ≠ tx.sender → done.ledger.account? address = ledger.account? address) ∧
      (∃ account, done.ledger.account? tx.sender = some account ∧
        account.nonce = Ledger.nextNonce (ledger.nonce tx.sender) ∧
        account.code = ledger.code tx.sender ∧
        account.balance.toNat + done.summary.gasUsed * tx.gasPrice.toNat =
          (ledger.balance tx.sender).toNat) ∧
      done.summary.logs = #[] ∧ done.summary.deletions = [] := by
  obtain ⟨admitted, ready⟩ := approved_of_approve rfl accepted
  obtain ⟨cost, covered⟩ :=
    gasCost_of_approved (ofTransaction environment tx block ledger usedInBlock false) supply
      admitted
  obtain ⟨begun, performed, starts, ran, undone⟩ := fails.undone (fresh_of_approve accepted)
  obtain ⟨done, settled, paid, used, logs, deletions⟩ := settle_of_undone undone
  have carried : (ofTransaction environment tx block ledger usedInBlock false).run = .ok done := by
    simp only [run, accepted, starts, ran, settled, bind, Except.bind]
  have transaction : approved.transaction = tx := by rw [ready]; rfl
  have before : approved.ledger = ledger := by rw [ready]; rfl
  have charged :
      approved.gasCost = (ofTransaction environment tx block ledger usedInBlock false).gasCost := by
    rw [ready]
    rfl
  have bound := undone.gasLeft
  -- What the transaction has done is undone; what is left is the charge and what is paid back.
  have reads := reads_of_undone undone (Word.clamp (performed.gasLeft * tx.gasPrice.toNat))
  rw [transaction] at paid used bound reads
  rw [← paid, before, charged] at reads
  refine ⟨done, carried, ?slots, ?others, ?sender, logs, deletions⟩
  case slots =>
    intro address key
    exact congrFun (congrFun (congrArg Snapshot.slot reads) address) key
  case others =>
    intro address other
    exact (congrFun (congrArg Snapshot.account reads) address).trans (if_neg other)
  case sender =>
    have read := (congrFun (congrArg Snapshot.account reads) tx.sender).trans (if_pos rfl)
    have bounded := Nat.lt_of_le_of_lt (ledger.balance_le_supply tx.sender) supply
    refine ⟨_, read, rfl, rfl, ?_⟩
    rw [used]
    exact balance_of_paid bounded cost covered bound

-- An account that can pay, and one whose code fills a slot and then fails.
def failingLedger : Ledger :=
  (Ledger.credit {} 7 1000000).setCode 10 #[0x60, 1, 0x60, 1, 0x55, 0xfe]

def failingCall : Transaction where
  hash := 0
  sender := 7
  recipient := some 10
  nonce := 0
  value := 1
  data := #[]
  gas := 50000
  gasPrice := 2

def failing : Execution := ofTransaction {} failingCall {} failingLedger 0 false

theorem supply_failingLedger : failingLedger.supply < Word.limit := by
  have total : failingLedger.supply = (1000000 : Word).toNat :=
    (Ledger.supply_setCode _ _ _).trans (Ledger.supply_credit_empty 7 1000000)
  rw [total]
  decide +kernel

theorem failing_accepted : failing.approve = .ok { failing with ready := true } :=
  approve_of_rejection (by decide +kernel)

theorem failing_fails : Fails { failing with ready := true } := by
  have fresh : Approved { failing with ready := true } := ⟨rfl, rfl, rfl, rfl, rfl⟩
  have starts : Execution.begin { failing with ready := true } =
      .ok ((opened { failing with ready := true }).beginCall 10) :=
    begin_eq fresh
  have ran : ((opened { failing with ready := true }).beginCall 10).machine?.map (fun started =>
      started.toOption.map fun machine =>
        ((machine.run {}).finished, (machine.run {}).frame.outcome.fault.isSome)) =
          some (some (true, true)) := by
    decide +kernel
  obtain ⟨machine, code, seen⟩ := machine_with ran
  obtain ⟨ends, fault⟩ := Prod.mk.inj seen
  exact .fault (.intro starts code ends) fault

theorem failed_transaction_leaves_failingLedger :
    failingLedger.supply < Word.limit ∧ failing.approve = .ok { failing with ready := true } ∧
      Fails { failing with ready := true } ∧
      ∃ done, failing.run = .ok done ∧ done.ledger.slot? 10 1 = failingLedger.slot? 10 1 ∧
        done.summary.logs = #[] := by
  obtain ⟨done, carried, slots, _, _, logs, _⟩ :=
    failed_transaction_leaves_ledger {} failingCall {} failingLedger 0
    supply_failingLedger failing_accepted failing_fails
  exact ⟨supply_failingLedger, failing_accepted, failing_fails, done, carried, slots 10 1, logs⟩

end ContractMachine.Execution
