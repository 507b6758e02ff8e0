import ContractMachine.Proofs.Execution.Completion
import ContractMachine.Proofs.Machine.Conservation

/-!
What a transaction does to the sum of the balances. The price of all its gas is taken up front, and
what comes back is the price of the gas that is left. In between, value and code move what there is
from one account to another, and only what is deleted in the end is lost.
-/

namespace ContractMachine.Execution

section

variable {execution approved begun performed : Execution} {outcome : Outcome} {ledger : Ledger}

structure Conserves (execution later : Execution) : Prop where
  supply : later.ledger.supply = execution.ledger.supply
  deletions : later.outcome.deletions = execution.outcome.deletions
  gasLeft : later.gasLeft ≤ execution.gasLeft

theorem Conserves.trans {first second third : Execution} (before : Conserves first second)
    (after : Conserves second third) : Conserves first third where
  supply := after.supply.trans before.supply
  deletions := after.deletions.trans before.deletions
  gasLeft := Nat.le_trans after.gasLeft before.gasLeft

structure Covered (execution : Execution) : Prop where
  bounded : execution.ledger.supply ≤ Word.limit
  covered :
    execution.transaction.value.toNat ≤
      (execution.ledger.balance execution.transaction.sender).toNat

/-- The value is moved last, from the ledger as it was. -/
theorem Covered.conserves_moved {later : Execution} (covered : Covered execution) (target : Address)
    (before : execution.Conserves later) (transaction : later.transaction = execution.transaction)
    (ledger : later.ledger = execution.ledger) : execution.Conserves (later.moveValue target) := by
  have moved : (later.moveValue target).ledger.supply = execution.ledger.supply := by
    rw [moveValue, ledger, transaction]
    exact execution.ledger.supply_transfer _ target covered.bounded covered.covered
  exact ⟨moved, before.deletions, before.gasLeft⟩

theorem conserves_spendBase (execution : Execution) : execution.Conserves execution.spendBase :=
  ⟨rfl, rfl, Nat.sub_le _ _⟩

theorem conserves_prepare (execution : Execution) (code : Bytes) (owner : Address) :
    execution.Conserves (execution.prepare code owner) :=
  ⟨rfl, rfl, Nat.le_refl _⟩

/-- What is taken up front is gone from the sum of the balances, and the value is still there to be
moved. -/
theorem supply_chargedLedger (supply : execution.ledger.supply < Word.limit)
    (admitted : execution.rejection? = none) :
    execution.chargedLedger.supply +
      execution.transaction.gas * execution.transaction.gasPrice.toNat =
        execution.ledger.supply ∧
      execution.transaction.value.toNat ≤
        (execution.chargedLedger.balance execution.transaction.sender).toNat := by
  obtain ⟨cost, _⟩ := execution.gasCost_of_approved supply admitted
  have covered := execution.covered_of_approved supply admitted
  rw [← execution.ledger.balance_bumpNonce execution.transaction.sender] at covered
  constructor
  · rw [← cost, chargedLedger, Ledger.supply_debit _ _ (by omega), Ledger.supply_bumpNonce]
  · rw [chargedLedger, Ledger.debit, Ledger.balance_update, if_pos rfl, Word.clampedSub_toNat]
    change _ ≤
      ((execution.ledger.bumpNonce execution.transaction.sender).balance
        execution.transaction.sender).toNat - _
    omega

/-- Once the sender has paid up front, the value is still there, and nothing is about to be cut
off. -/
theorem covered_of_approve (notLocal : execution.isLocal = false)
    (supply : execution.ledger.supply < Word.limit) (accepted : execution.approve = .ok approved) :
    Covered approved.opened ∧
      approved.chargedLedger.supply +
        execution.transaction.gas * execution.transaction.gasPrice.toNat =
        execution.ledger.supply := by
  obtain ⟨admitted, ready⟩ := approved_of_approve notLocal accepted
  obtain ⟨charged, value⟩ := supply_chargedLedger supply admitted
  subst ready
  refine ⟨⟨?_, ?_⟩, charged⟩
  · change execution.chargedLedger.checkpoint.supply ≤ _
    rw [Ledger.supply_checkpoint]
    omega
  · change _ ≤ (execution.chargedLedger.checkpoint.balance execution.transaction.sender).toNat
    rw [Ledger.balance_checkpoint]
    exact value

theorem conserves_begin (fresh : Approved approved) (covered : Covered approved.opened)
    (starts : approved.begin = .ok begun) : approved.opened.Conserves begun := by
  -- A contract has its first nonce before the value moves.
  have bumped := approved.opened.ledger.supply_bumpNonce approved.opened.createdAddress
  have named : approved.opened.Conserves
      { approved.opened with
        ledger := approved.opened.ledger.bumpNonce approved.opened.createdAddress } :=
    ⟨bumped, rfl, Nat.le_refl _⟩
  have ready : Covered
      { approved.opened with
        ledger := approved.opened.ledger.bumpNonce approved.opened.createdAddress } := by
    constructor
    · rw [bumped]
      exact covered.bounded
    · rw [Ledger.balance_bumpNonce]
      exact covered.covered
  cases begins_opened fresh starts with
  | drained | collided => exact ⟨rfl, rfl, Nat.zero_le _⟩
  | answered => exact covered.conserves_moved _ ⟨rfl, rfl, Nat.sub_le _ _⟩ rfl rfl
  | moved => exact covered.conserves_moved _ (conserves_spendBase _) rfl rfl
  | called => exact covered.conserves_moved _ (conserves_prepare _ _ _) rfl rfl
  | passed => exact named.trans (ready.conserves_moved _ (conserves_spendBase _) rfl rfl)
  | made => exact named.trans (ready.conserves_moved _ (conserves_prepare _ _ _) rfl rfl)

/-- Nothing has been added to what the accounts hold together, and unless something is deleted in
the end nothing is lost. -/
structure Balanced (total : Nat) (performed : Execution) : Prop where
  falls : performed.ledger.supply ≤ total
  kept : performed.outcome.deletions = [] → performed.ledger.supply = total
  gasLeft : performed.gasLeft ≤ performed.transaction.gas

theorem Deposits.supply (deposits : begun.Deposits outcome ledger performed) :
    performed.ledger.supply = ledger.supply := by
  cases deposits with
  | deployed => exact Ledger.supply_setCode _ _ _
  | unasked | emptied | refused => rfl

theorem Deposits.deletions (deposits : begun.Deposits outcome ledger performed) :
    performed.outcome.deletions = outcome.deletions := by
  cases deposits with
  | unasked | deployed | emptied | refused => rfl

/-- What code has done is kept, or all of it is dropped. -/
theorem Concludes.balanced {kept : Ledger} (concludes : begun.Concludes outcome ledger performed)
    (restores : ledger.rollback = kept) (falls : ledger.supply ≤ kept.supply)
    (same : outcome.deletions = [] → ledger.supply = kept.supply) :
      Balanced kept.supply performed := by
  have gasLeft : performed.gasLeft ≤ performed.transaction.gas := by
    rw [concludes.closed.transaction]
    exact Nat.le_trans concludes.gasLeft_le (Nat.sub_le _ _)
  cases concludes with
  | @kept later deposits sound =>
      have committed : later.ledger.commit.supply = ledger.supply :=
        (Ledger.supply_commit _).trans deposits.supply
      refine ⟨Nat.le_trans (Nat.le_of_eq committed) falls, ?_, gasLeft⟩
      intro none
      exact committed.trans (same (deposits.deletions.symm.trans none))
  | @dropped later deposits failed =>
      subst restores
      exact ⟨Nat.le_refl _, fun _ => rfl, gasLeft⟩

theorem Performs.balanced (performs : begun.Performs performed) (fresh : Approved approved)
    (covered : Covered approved.opened) (starts : approved.begin = .ok begun) :
    Balanced approved.chargedLedger.supply performed := by
  have follows := follows_begin fresh starts
  have conserves := conserves_begin fresh covered starts
  have tracking : begun.tracking = true := follows.tracking
  have supply : begun.ledger.supply = approved.chargedLedger.supply :=
    conserves.supply.trans (Ledger.supply_checkpoint _)
  cases performs with
  | idle code =>
      have committed := (Ledger.supply_commit begun.ledger).trans supply
      have gasLeft : begun.gasLeft ≤ begun.transaction.gas := by
        rw [follows.transaction]
        change _ ≤ approved.transaction.gas
        rw [← fresh.gasLeft]
        exact conserves.gasLeft
      rw [commit, if_pos tracking]
      exact ⟨Nat.le_of_eq committed, fun _ => committed, gasLeft⟩
  | @unpaid fault frame code =>
      have concludes :=
        begun.concludes_conclude (frame.spendAll.outcome.setFault fault) begun.ledger tracking
      exact concludes.balanced follows.ledger.rollback (Nat.le_of_eq supply) fun _ => supply
  | @ran machine last code reached ends =>
      obtain ⟨frame, paid, -, -, rfl⟩ := start_of_machine code
      have bounded : begun.ledger.supply ≤ Word.limit := by
        rw [conserves.supply]
        exact covered.bounded
      have conserved :=
        Machine.conserved_of_reaches bounded reached (Machine.finished_iff.mp ends).2
      have concludes := begun.concludes_conclude last.frame.outcome last.ledger tracking
      exact concludes.balanced (Machine.rollback_of_finished follows.ledger reached ends)
        (Nat.le_trans conserved.falls (Nat.le_of_eq supply)) fun none =>
          (conserved.kept none).trans supply

theorem gasLeft_cleared (execution : Execution)
    (bound : execution.gasLeft ≤ execution.transaction.gas) :
    execution.cleared.gasLeft ≤ execution.transaction.gas := by
  have half : Gas.refund execution.gasUsed execution.grantRefund.outcome.refundPool ≤
      execution.gasUsed / 2 :=
    Nat.min_le_right _ _
  change execution.gasLeft + Gas.refund execution.gasUsed execution.grantRefund.outcome.refundPool ≤
    _
  unfold gasUsed at half ⊢
  omega

theorem Balanced.cleared {total : Nat} (balanced : Balanced total performed) :
    Balanced total performed.cleared where
  falls := Nat.le_trans (Ledger.supply_foldl_delete_le _ _) balanced.falls
  kept := by
    intro none
    have same : performed.cleared.ledger = performed.ledger :=
      congrArg (List.foldl Ledger.delete performed.ledger) none
    rw [same]
    exact balanced.kept none
  gasLeft := performed.gasLeft_cleared balanced.gasLeft

theorem payBack_eq (execution : Execution) (notLocal : execution.isLocal = false) :
    execution.payBack = { execution with
      ledger := execution.ledger.credit execution.transaction.sender
        (Word.clamp (execution.gasLeft * execution.transaction.gasPrice.toNat)) } :=
  if_neg (ne_true_of_eq_false notLocal)

/-- What is paid back has been paid up front, so that nothing is cut off. -/
theorem toNat_paidBack (execution : Execution)
    (part : execution.gasLeft ≤ execution.transaction.gas)
    (bounded : execution.transaction.gas * execution.transaction.gasPrice.toNat ≤ Word.limit) :
    (Word.clamp (execution.gasLeft * execution.transaction.gasPrice.toNat)).toNat =
      execution.gasLeft * execution.transaction.gasPrice.toNat := by
  have share := Nat.mul_le_mul_right execution.transaction.gasPrice.toNat part
  rw [Word.clamp_toNat]
  omega

theorem supply_payBack (execution : Execution) (notLocal : execution.isLocal = false)
    (part : execution.gasLeft ≤ execution.transaction.gas) (bounded : execution.ledger.supply +
      execution.transaction.gas * execution.transaction.gasPrice.toNat ≤ Word.limit) :
    execution.payBack.ledger.supply =
      execution.ledger.supply + execution.gasLeft * execution.transaction.gasPrice.toNat := by
  have share := Nat.mul_le_mul_right execution.transaction.gasPrice.toNat part
  have amount := execution.toNat_paidBack part (by omega)
  rw [execution.payBack_eq notLocal, Ledger.supply_credit _ _ (by omega), amount]

/-- The sum of the balances at the end and the price of the gas that was used, against what there
was when the sender had paid up front. -/
structure Settled (total : Nat) (done : Execution) : Prop where
  falls : done.ledger.supply + done.summary.gasUsed * done.transaction.gasPrice.toNat ≤
    total + done.transaction.gas * done.transaction.gasPrice.toNat
  kept : done.summary.deletions = [] →
    done.ledger.supply + done.summary.gasUsed * done.transaction.gasPrice.toNat =
    total + done.transaction.gas * done.transaction.gasPrice.toNat

theorem Balanced.settled_payBack {total : Nat} (balanced : Balanced total execution)
    (notLocal : execution.isLocal = false)
    (bounded : total + execution.transaction.gas * execution.transaction.gasPrice.toNat ≤
      Word.limit) :
    Settled total execution.payBack := by
  have falls := balanced.falls
  have paid := execution.supply_payBack notLocal balanced.gasLeft (by omega)
  have parts : execution.gasLeft * execution.transaction.gasPrice.toNat +
      execution.gasUsed * execution.transaction.gasPrice.toNat =
        execution.transaction.gas * execution.transaction.gasPrice.toNat := by
    rw [← Nat.add_mul, gasUsed, Nat.add_sub_cancel' balanced.gasLeft]
  have used : execution.payBack.summary.gasUsed = execution.gasUsed := by
    rw [execution.payBack_eq notLocal]
    rfl
  have deletions : execution.payBack.summary.deletions = execution.outcome.deletions := by
    rw [execution.payBack_eq notLocal]
    rfl
  have transaction : execution.payBack.transaction = execution.transaction := by
    rw [execution.payBack_eq notLocal]
  constructor
  · rw [paid, used, transaction]
    omega
  · intro none
    have kept := balanced.kept (deletions.symm.trans none)
    rw [paid, used, transaction]
    omega

theorem Balanced.settled {done : Execution} {total : Nat} (balanced : Balanced total performed)
    (tracking : performed.tracking = false) (notLocal : performed.isLocal = false)
    (bounded : total + performed.transaction.gas * performed.transaction.gasPrice.toNat ≤
      Word.limit)
    (settled : performed.settle = .ok done) : Settled total done ∧
    done.transaction = performed.transaction := by
  have transaction : performed.cleared.payBack.transaction = performed.transaction := by
    rw [performed.cleared.payBack_eq notLocal]
    rfl
  rw [eq_of_settle tracking settled]
  exact ⟨balanced.cleared.settled_payBack notLocal bounded, transaction⟩

/-- A transaction that is carried through adds nothing to the balances: with the price of the gas
that it has used, they come to no more than before. If no deletion is reported, they come to as
much. -/
theorem ether_is_conserved (environment : Environment) (tx : Transaction) (block : Block)
    (ledger : Ledger) (usedInBlock : Nat) (supply : ledger.supply < Word.limit) {done : Execution}
    (completes : (ofTransaction environment tx block ledger usedInBlock false).Completes done) :
    done.ledger.supply + done.summary.gasUsed * tx.gasPrice.toNat ≤ ledger.supply ∧
      (done.summary.deletions = [] →
        done.ledger.supply + done.summary.gasUsed * tx.gasPrice.toNat = ledger.supply) := by
  cases completes with
  | @intro approved begun performed accepted starts performs settled =>
      have fresh := fresh_of_approve accepted
      obtain ⟨covered, charged⟩ := covered_of_approve rfl supply accepted
      have same : approved.transaction = tx := by
        rw [(approved_of_approve rfl accepted).2]
        rfl
      have follows := follows_begin fresh starts
      have closed := performs.closed follows.tracking
      have transaction : performed.transaction = tx :=
        closed.transaction.trans (follows.transaction.trans same)
      have notLocal : performed.isLocal = false :=
        closed.isLocal.trans (follows.isLocal.trans fresh.isLocal)
      change approved.chargedLedger.supply + tx.gas * tx.gasPrice.toNat = ledger.supply at charged
      have bounded :
          approved.chargedLedger.supply +
            performed.transaction.gas * performed.transaction.gasPrice.toNat ≤
          Word.limit := by
        rw [transaction, charged]
        exact Nat.le_of_lt supply
      obtain ⟨⟨falls, kept⟩, last⟩ :=
        (performs.balanced fresh covered starts).settled closed.tracking notLocal bounded settled
      rw [last, transaction, charged] at falls kept
      exact ⟨falls, kept⟩

end

-- A transfer to an account without code.
def paymentToBare : Transaction := { failingCall with recipient := some 11, value := 5 }

def paying : Execution := ofTransaction {} paymentToBare {} failingLedger 0 false

theorem ether_is_conserved_by_paying :
    failingLedger.supply < Word.limit ∧
      ∃ done, paying.Completes done ∧ done.summary.failed = false ∧
        done.ledger.balance 11 = 5 ∧ done.summary.deletions = [] ∧
        done.ledger.supply + done.summary.gasUsed * paymentToBare.gasPrice.toNat =
          failingLedger.supply := by
  have ran : paying.run.toOption.map (fun done =>
      (done.summary.failed, done.ledger.balance 11, done.summary.deletions)) =
        some (false, 5, []) := by
    decide +kernel
  obtain ⟨done, completes, seen⟩ := completes_with rfl (by decide) (by decide +kernel) ran
  simp only [Prod.mk.injEq] at seen
  obtain ⟨sound, paid, none⟩ := seen
  have conserved :=
    ether_is_conserved {} paymentToBare {} failingLedger 0 supply_failingLedger completes
  exact ⟨supply_failingLedger, done, completes, sound, paid, none, conserved.2 none⟩

end ContractMachine.Execution
