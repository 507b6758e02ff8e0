import ContractMachine.Proofs.Execution.Conservation

/-!
What a transaction is billed. However it goes, its gas is split into what it has used and what it
has left: at least the base price is used, since no frame gets back more than it handed on. At most
half of what is used is refunded, and the sender is credited with the price of the rest to the unit.
-/

namespace ContractMachine.Execution

/-- The bill of a transaction, from what it has used and collected when it is performed to what is
settled. -/
structure Billed (config : Config) (tx : Transaction) (performed done : Execution) : Prop where
  split : performed.gasUsed + performed.gasLeft = tx.gas
  least : config.transactionPrice tx ≤ performed.gasUsed
  refunded : done.summary.gasUsed = performed.gasUsed -
    min
      (performed.outcome.refundPool +
        performed.outcome.deletions.length * config.fees.suicideRefund)
      (performed.gasUsed / 2)
  rest : done.summary.gasUsed + done.gasLeft = tx.gas
  half : config.transactionPrice tx ≤ 2 * done.summary.gasUsed
  credited : ∃ amount : Word, amount.toNat = (tx.gas - done.summary.gasUsed) * tx.gasPrice.toNat ∧
    done.ledger = performed.cleared.ledger.credit tx.sender amount ∧
      (done.ledger.balance tx.sender).toNat =
        (performed.cleared.ledger.balance tx.sender).toNat + amount.toNat

section

variable {execution approved begun performed done : Execution} {outcome : Outcome} {ledger : Ledger}

theorem gasLeft_commit (execution : Execution) : execution.commit.gasLeft = execution.gasLeft := by
  unfold commit
  split <;> rfl

/-- A fault leaves no gas. -/
theorem Concludes.gasLeft_of_fault (concludes : begun.Concludes outcome ledger performed)
    (fault : outcome.fault.isSome = true) : performed.gasLeft = 0 := by
  cases concludes with
  | kept deposits sound =>
      have none := (outcome.succeeded_iff.mp (deposits.succeeded sound)).1
      rw [none] at fault
      cases fault
  | dropped => exact if_pos fault

/-- Without code to run the base price is paid when the transaction begins. -/
theorem gasLeft_of_begin (fresh : Approved approved) (starts : approved.begin = .ok begun)
    (covered : approved.basePrice ≤ approved.transaction.gas)
    (bounded : approved.transaction.gas ≤ Quantity.limit) (idle : begun.machine? = none) :
    begun.gasLeft + approved.basePrice ≤ approved.transaction.gas := by
  have whole : approved.opened.gasLeft = approved.transaction.gas := fresh.gasLeft
  have same : approved.opened.basePrice = approved.basePrice := rfl
  have rootless {root : Frame} (started : begun.frame = some root) : False := by
    rw [machine?, started] at idle
    cases idle
  cases begins_opened fresh starts with
  | drained | collided =>
      change 0 + approved.basePrice ≤ _
      omega
  | @answered target contract recipient found paid =>
      change approved.opened.gasLeft -
        Quantity.clamp (approved.basePrice + contract.price approved.transaction.data) +
          approved.basePrice ≤ _
      rw [whole, Quantity.clamp]
      omega
  | moved | passed =>
      change approved.opened.gasLeft - approved.basePrice + approved.basePrice ≤ _
      omega
  | called | made => exact (rootless rfl).elim

/-- Code uses what has been paid for it, whatever its frames hand on and get back. -/
theorem gasUsed_of_reaches {environment : Environment} {root : Frame} {ledger : Ledger}
    {last : Machine} (covers : environment.config.fees.Covers 1) (solvent : root.Solvent)
    (reached : Machine.Reaches environment (Machine.start root ledger) last)
    (ends : last.finished = true) :
    root.outcome.gasUsed ≤ last.frame.outcome.gasUsed ∧
    last.frame.outcome.gasUsed ≤ root.context.gas := by
  have nested : Machine.Nested environment root root [] := .root (.refl root)
  have funded : Machine.Funded root [] := .root solvent
  have alone := (Machine.finished_iff.mp ends).2
  have context : last.frame.context = root.context := by
    have deep := Machine.nested_of_reaches reached
    rw [alone] at deep
    cases deep with
    | root same => exact same.context
  have left := Machine.gasLeft_of_reaches covers nested funded reached
  have above := solvent.within
  have within := (funded.reaches covers nested reached).solvent.within
  simp only [Machine.gasLeft, alone, Frame.gasLeft, List.map_nil, List.sum_nil,
    Nat.add_zero] at left
  change _ ≤ root.context.gas - root.outcome.gasUsed + 0 at left
  rw [context] at left within
  omega

/-- The base price is used, on every way through the transaction. -/
theorem Performs.gasLeft_le (performs : begun.Performs performed) (fresh : Approved approved)
    (starts : approved.begin = .ok begun) (covers : approved.environment.config.fees.Covers 1)
    (covered : approved.basePrice ≤ approved.transaction.gas)
    (bounded : approved.transaction.gas ≤ Quantity.limit) :
    performed.gasLeft + approved.basePrice ≤ approved.transaction.gas := by
  have follows := follows_begin fresh starts
  have transaction : begun.transaction = approved.transaction := follows.transaction
  have environment : begun.environment = approved.environment := follows.environment
  have base : begun.basePrice = approved.basePrice := by
    rw [basePrice, basePrice, config, config, environment, transaction]
  cases performs with
  | idle code =>
      rw [gasLeft_commit]
      exact gasLeft_of_begin fresh starts covered bounded code
  | @unpaid fault frame code =>
      rw [(begun.concludes_conclude _ begun.ledger follows.tracking).gasLeft_of_fault rfl,
        Nat.zero_add]
      exact covered
  | @ran machine last code reached ends =>
      obtain ⟨paid, rfl, solvent, given, spent⟩ :=
        solvent_of_machine fresh.frame bounded starts code
      have still : begun.environment.config.fees.Covers 1 := by
        rw [environment]
        exact covers
      obtain ⟨more, within⟩ := gasUsed_of_reaches still solvent reached ends
      have left :=
        (begun.concludes_conclude last.frame.outcome last.ledger follows.tracking).gasLeft_le
      rw [spent, base] at more
      rw [given] at within
      rw [transaction] at left
      omega

/-- The limits on amounts do not show in the refund, which is no more than half of what is used. -/
theorem refund_grantRefund (execution : Execution)
    (bounded : execution.transaction.gas ≤ Quantity.limit) :
    Gas.refund execution.gasUsed execution.grantRefund.outcome.refundPool =
      min (execution.outcome.refundPool +
        execution.outcome.deletions.length * execution.config.fees.suicideRefund)
        (execution.gasUsed / 2) := by
  have used : execution.gasUsed ≤ execution.transaction.gas := Nat.sub_le _ _
  change min (Quantity.clamp (execution.outcome.refundPool +
    Quantity.clamp (execution.outcome.deletions.length * execution.fees.suicideRefund))) _ = _
  simp only [Quantity.clamp, fees]
  omega

/-- What is credited for the gas that is left was held by the sender before, so that nothing is cut
off. -/
theorem credited_of_payBack (execution : Execution) (notLocal : execution.isLocal = false)
    (part : execution.gasLeft ≤ execution.transaction.gas) (bounded : execution.ledger.supply +
      execution.transaction.gas * execution.transaction.gasPrice.toNat ≤ Word.limit) :
    ∃ amount : Word, amount.toNat = execution.gasLeft * execution.transaction.gasPrice.toNat ∧
      execution.payBack.ledger = execution.ledger.credit execution.transaction.sender amount ∧
      (execution.payBack.ledger.balance execution.transaction.sender).toNat =
        (execution.ledger.balance execution.transaction.sender).toNat + amount.toNat := by
  have share := Nat.mul_le_mul_right execution.transaction.gasPrice.toNat part
  have held := execution.ledger.balance_le_supply execution.transaction.sender
  have amount := execution.toNat_paidBack part (by omega)
  rw [execution.payBack_eq notLocal]
  refine ⟨_, amount, rfl, ?_⟩
  simp only [Ledger.credit]
  rw [Ledger.balance_update, if_pos rfl, Word.clampedAdd_toNat, amount]
  change min ((execution.ledger.balance execution.transaction.sender).toNat + _) _ = _
  omega

/-- What is left and what is refunded are paid back, and the rest is reported as used. -/
theorem billed_of_settle (tracking : performed.tracking = false)
    (notLocal : performed.isLocal = false) (limited : performed.transaction.gas ≤ Quantity.limit)
    (paid : performed.gasLeft + performed.basePrice ≤ performed.transaction.gas)
    (bounded : performed.cleared.ledger.supply +
      performed.transaction.gas * performed.transaction.gasPrice.toNat ≤ Word.limit)
    (settled : performed.settle = .ok done) :
      Billed performed.config performed.transaction performed done := by
  have used : performed.gasUsed = performed.transaction.gas - performed.gasLeft := rfl
  have left : performed.cleared.gasLeft = performed.gasLeft +
      min (performed.outcome.refundPool +
        performed.outcome.deletions.length * performed.config.fees.suicideRefund)
        (performed.gasUsed / 2) :=
    congrArg (performed.gasLeft + ·) (performed.refund_grantRefund limited)
  have reported :
      performed.cleared.payBack.summary.gasUsed = performed.transaction.gas -
      performed.cleared.gasLeft ∧
      performed.cleared.payBack.gasLeft = performed.cleared.gasLeft := by
    rw [performed.cleared.payBack_eq notLocal]
    exact ⟨rfl, rfl⟩
  have part : performed.cleared.gasLeft ≤ performed.transaction.gas := by omega
  obtain ⟨amount, price, ledger, balance⟩ :=
    performed.cleared.credited_of_payBack notLocal part bounded
  rw [eq_of_settle tracking settled]
  have least : performed.config.transactionPrice performed.transaction ≤ performed.gasUsed := by
    change performed.basePrice ≤ _
    omega
  refine ⟨by omega, least, by omega, by omega, by omega, amount, ?_, ledger, balance⟩
  rw [price, reported.1, Nat.sub_sub_self part]
  rfl

theorem Concludes.environment (concludes : begun.Concludes outcome ledger performed) :
    performed.environment = begun.environment := by
  cases concludes with
  | kept deposits | dropped deposits => exact deposits.follows.environment

theorem Performs.environment (performs : begun.Performs performed)
    (tracking : begun.tracking = true) :
    performed.environment = begun.environment := by
  have same (outcome : Outcome) (ledger : Ledger) :
      (begun.conclude outcome ledger).environment = begun.environment :=
    (begun.concludes_conclude outcome ledger tracking).environment
  cases performs with
  | idle code =>
      rw [commit, if_pos tracking]
  | unpaid code | ran code => exact same _ _

/-- The sender has paid for all the gas when the transaction begins. -/
theorem Performs.billed (performs : begun.Performs performed) (fresh : Approved approved)
    (starts : approved.begin = .ok begun) (covers : approved.environment.config.fees.Covers 1)
    (affordable : approved.basePrice ≤ approved.transaction.gas)
    (limited : approved.transaction.gas ≤ Quantity.limit) (covered : Covered approved.opened)
    (charged : approved.chargedLedger.supply +
      approved.transaction.gas * approved.transaction.gasPrice.toNat ≤ Word.limit)
    (settled : performed.settle = .ok done) :
      Billed approved.config approved.transaction performed done := by
  have follows := follows_begin fresh starts
  have closed := performs.closed follows.tracking
  have transaction : performed.transaction = approved.transaction :=
    closed.transaction.trans follows.transaction
  have notLocal : performed.isLocal = false :=
    closed.isLocal.trans (follows.isLocal.trans fresh.isLocal)
  have config : performed.config = approved.config :=
    congrArg Environment.config ((performs.environment follows.tracking).trans follows.environment)
  have paid := performs.gasLeft_le fresh starts covers affordable limited
  have falls := (performs.balanced fresh covered starts).cleared.falls
  rw [← transaction] at limited charged
  rw [basePrice, ← transaction, ← config] at paid
  rw [← transaction, ← config]
  exact billed_of_settle closed.tracking notLocal limited paid (by omega) settled

/-- Under the default fees every transaction that is approved is carried through and billed exactly:
at least the base price and at most its gas is used, at most half of that is refunded, so that at
least half of the base price is charged, and nothing of what is paid back is cut off. -/
theorem approved_transaction_is_billed (environment : Environment)
    (fees : environment.config.fees = {}) (tx : Transaction) (limited : tx.gas ≤ Quantity.limit)
    (block : Block) (ledger : Ledger) (supply : ledger.supply < Word.limit) (usedInBlock : Nat)
    (accepted : (ofTransaction environment tx block ledger usedInBlock false).approve =
      .ok approved) :
    ∃ begun performed done, approved.begin = .ok begun ∧ begun.perform = .ok performed ∧
      begun.Performs performed ∧
      performed.settle = .ok done ∧
      (ofTransaction environment tx block ledger usedInBlock false).run = .ok done ∧
      Billed environment.config tx performed done := by
  have covers : environment.config.fees.Covers 1 := by
    rw [fees]
    exact covers_default
  have ends := ends_of_covers block ledger usedInBlock false covers limited
  obtain ⟨covered, charged⟩ := covered_of_approve rfl supply accepted
  obtain ⟨admitted, readied⟩ := approved_of_approve rfl accepted
  obtain ⟨done, runs⟩ := exists_run accepted
  obtain ⟨_, begun, performed, again, starts, performs, settled⟩ := phases_of_run runs
  rw [accepted, Except.ok.injEq] at again
  subst again
  have ran :=
    performs_of_perform performs fun machine => ends approved begun machine accepted starts
  refine ⟨begun, performed, done, starts, performs, ran, settled, runs, ?_⟩
  have same : approved.environment = environment ∧ approved.transaction = tx := by
    rw [readied]
    exact ⟨rfl, rfl⟩
  have affordable : approved.basePrice ≤ approved.transaction.gas := by
    rw [readied]
    exact (admitted_of_rejection admitted).gas
  have total : approved.chargedLedger.supply + tx.gas * tx.gasPrice.toNat ≤ Word.limit :=
    Nat.le_trans (Nat.le_of_eq charged) (Nat.le_of_lt supply)
  rw [← same.1] at covers ⊢
  rw [← same.2] at limited total ⊢
  exact ran.billed
    (fresh_of_approve accepted) starts covers affordable limited covered total settled

theorem failing_is_billed :
    failingCall.gas ≤ Quantity.limit ∧ failingLedger.supply < Word.limit ∧
      failing.approve = .ok { failing with ready := true } ∧
      ∃ performed done, failing.run = .ok done ∧ Billed {} failingCall performed done := by
  obtain ⟨begun, performed, done, _, _, _, _, runs, billed⟩ :=
    approved_transaction_is_billed {} rfl failingCall
    (by decide) {} failingLedger supply_failingLedger 0 failing_accepted
  exact ⟨by decide, supply_failingLedger, failing_accepted, performed, done, runs, billed⟩

end

end ContractMachine.Execution
