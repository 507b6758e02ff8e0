import ContractMachine.Proofs.Execution.Containment
import ContractMachine.Proofs.Execution.Conservation
import ContractMachine.Proofs.Execution.Evolution
import ContractMachine.Proofs.Ledger.Accounts

/-!
What a transaction has done that is not reported as failed. Its value has moved in the checkpoint
that is open from the beginning, its code has come to a good end on top of that, and the checkpoint
is committed, unless the transaction is given up before there is a frame. That uses all its gas,
does nothing, and is not told.
-/

namespace ContractMachine.Execution

def target (execution : Execution) : Address :=
  execution.transaction.recipient.getD execution.createdAddress

def readied (execution : Execution) : Ledger :=
  if execution.transaction.isCreation then execution.ledger.bumpNonce execution.createdAddress else
    execution.ledger

/-- What an approved transaction asks for is done, and kept. Code that is deployed is what the
creation has returned; for none that is returned there may be none. -/
structure Fulfils (approved begun performed : Execution) : Prop where
  moved : begun.ledger =
    approved.opened.readied.transfer approved.transaction.sender approved.target
      approved.transaction.value
  ran : ∀ started, begun.machine? = some started →
    ∃ machine last, started = .ok machine ∧ Machine.Reaches begun.environment machine last ∧
      last.finished = true ∧
      last.frame.outcome.succeeded = true
  kept : ∃ written, begun.ledger.Evolves begun.ledger.depth (fun _ => True) written ∧
    written.depth = begun.ledger.depth ∧ performed.ledger = written.commit
  made : approved.transaction.isCreation = true → 0 < performed.ledger.nonce approved.target ∧
    (performed.ledger.code approved.target = performed.outcome.returnData ∨
      performed.outcome.returnData = #[])

inductive GivesUp (approved : Execution) : Prop where
  | drained {target : Address} {contract : Precompile}
      (called : approved.transaction.recipient = some target)
      (found : approved.config.precompiles.find? target = some contract)
      (dear : approved.transaction.gas <
        Quantity.clamp (approved.basePrice + contract.price approved.transaction.data))
  | collided (creation : approved.transaction.recipient = none)
      (inUse : approved.chargedLedger.hasAccount approved.createdAddress = true)

section

variable {execution approved begun performed done : Execution} {outcome : Outcome} {ledger : Ledger}
  {frame : Frame}

/-- A transaction that is not given up has moved its value; if it makes a contract, at a free
address. -/
theorem moved_of_begin (fresh : Approved approved) (starts : approved.begin = .ok begun)
    (goesOn : ¬ GivesUp approved) :
    begun.ledger =
        approved.opened.readied.transfer approved.transaction.sender approved.target
          approved.transaction.value ∧
      (approved.transaction.isCreation = true →
        approved.opened.ledger.hasAccount approved.createdAddress = false) := by
  have begins := begins_opened fresh starts
  -- The recipient says whether a contract is made, and where the value goes.
  have toOther {target : Address} (recipient : approved.transaction.recipient = some target) :
      approved.target = target ∧ approved.transaction.isCreation = false := by
    rw [Execution.target, Transaction.isCreation, recipient]
    exact ⟨rfl, rfl⟩
  have toNew (creation : approved.transaction.recipient = none) :
      approved.target = approved.createdAddress ∧ approved.transaction.isCreation = true := by
    rw [Execution.target, Transaction.isCreation, creation]
    exact ⟨rfl, rfl⟩
  have readiedOther {target : Address} (recipient : approved.transaction.recipient = some target) :
      approved.opened.readied = approved.opened.ledger :=
        if_neg (ne_true_of_eq_false (toOther recipient).2)
  have readiedNew (creation : approved.transaction.recipient = none) :
      approved.opened.readied = approved.opened.ledger.bumpNonce approved.createdAddress :=
        if_pos (toNew creation).2
  have noCreation {target : Address} (recipient : approved.transaction.recipient = some target) :
      approved.transaction.isCreation = true →
        approved.opened.ledger.hasAccount approved.createdAddress = false := by
    intro creation
    rw [(toOther recipient).2] at creation
    cases creation
  cases begins with
  | @drained target contract recipient found notLocal dear =>
      change approved.gasLeft < _ at dear
      rw [fresh.gasLeft] at dear
      exact absurd (.drained recipient found dear) goesOn
  | collided creation inUse =>
      change approved.chargedLedger.checkpoint.hasAccount _ = true at inUse
      rw [Ledger.hasAccount_checkpoint] at inUse
      exact absurd (.collided creation inUse) goesOn
  | answered recipient | moved recipient | called recipient =>
      rw [readiedOther recipient, (toOther recipient).1]
      exact ⟨rfl, noCreation recipient⟩
  | passed creation free | made creation free =>
      rw [readiedNew creation, (toNew creation).1]
      exact ⟨rfl, fun _ => free⟩

/-- A new contract has a nonce when its value has moved. -/
theorem nonce_of_begin (fresh : Approved approved) (starts : approved.begin = .ok begun)
    (goesOn : ¬ GivesUp approved) (creation : approved.transaction.isCreation = true) :
    0 < begun.ledger.nonce approved.target := by
  obtain ⟨moved, free⟩ := moved_of_begin fresh starts goesOn
  have recipient : approved.transaction.recipient = none := Option.isNone_iff_eq_none.mp creation
  have target : approved.target = approved.createdAddress := by
    rw [Execution.target, recipient]
    rfl
  have readied :
      approved.opened.readied = approved.opened.ledger.bumpNonce approved.createdAddress :=
        if_pos creation
  rw [moved, Ledger.transfer, Ledger.nonce_credit, Ledger.nonce_debit, readied, target,
    Ledger.nonce_bumpNonce, if_pos rfl, Ledger.nonce_of_absent (free creation)]
  decide

/-- Before its first code is run a creation has returned nothing. -/
theorem returnData_of_begin (fresh : Approved approved) (starts : approved.begin = .ok begun)
    (creation : approved.transaction.isCreation = true) : begun.outcome.returnData = #[] := by
  have nothing : approved.opened.outcome.returnData = #[] :=
    congrArg Outcome.returnData fresh.outcome
  have recipient : approved.opened.transaction.recipient = none :=
    Option.isNone_iff_eq_none.mp creation
  have begins := begins_opened fresh starts
  cases begins with
  | drained other | answered other | moved other | called other =>
      rw [recipient] at other
      cases other
  | collided | passed | made => exact nothing

/-- The code of a contract is what its first code has returned. -/
theorem Deposits.code {later : Execution} (deposits : begun.Deposits outcome ledger later)
    (creation : begun.transaction.isCreation = true) (succeeded : later.outcome.succeeded = true) :
    later.ledger.code begun.createdAddress = later.outcome.returnData ∨
    later.outcome.returnData = #[] := by
  cases deposits with
  | unasked idle =>
      rw [creation, Bool.true_and] at idle
      exact absurd (idle.symm.trans succeeded) Bool.false_ne_true
  | deployed => exact .inl (Ledger.code_setCode ledger _ _)
  | emptied | refused => exact .inr rfl

/-- A conclusion that shows neither a fault nor a REVERT keeps what the code has done. -/
theorem Concludes.kept_of_succeeded (concludes : begun.Concludes outcome ledger performed)
    (succeeded : performed.outcome.succeeded = true) :
    ∃ later, begun.Deposits outcome ledger later ∧ later.outcome.succeeded = true ∧
      performed.outcome = later.outcome ∧ performed.ledger = later.ledger.commit := by
  cases concludes with
  | kept deposits sound => exact ⟨_, deposits, sound, rfl, rfl⟩
  | dropped deposits failed => exact absurd (failed.symm.trans succeeded) Bool.false_ne_true

theorem Performs.fulfils (performs : begun.Performs performed) (fresh : Approved approved)
    (starts : approved.begin = .ok begun) (goesOn : ¬ GivesUp approved)
    (succeeded : performed.outcome.succeeded = true) : Fulfils approved begun performed := by
  have follows := follows_begin fresh starts
  have tracking : begun.tracking = true := follows.tracking
  have transaction : begun.transaction = approved.transaction := follows.transaction
  have made : begun.createdAddress = approved.createdAddress := by
    rw [createdAddress, transaction]
    rfl
  have moved := (moved_of_begin fresh starts goesOn).1
  -- Without code to run the transfer is all there is; code that cannot be paid for has failed.
  cases performs with
  | idle code =>
      refine ⟨moved, ?_, ⟨begun.ledger, .none, rfl, ?_⟩, ?_⟩
      · intro started root
        rw [code] at root
        cases root
      · rw [commit, if_pos tracking]
      · intro creation
        rw [outcome_commit, commit, if_pos tracking, Ledger.nonce_commit]
        exact ⟨nonce_of_begin fresh starts goesOn creation,
          .inr (returnData_of_begin fresh starts creation)⟩
  | @unpaid fault frame code =>
      have concludes :=
        begun.concludes_conclude (frame.spendAll.outcome.setFault fault) begun.ledger tracking
      obtain ⟨later, deposits, sound, _, _⟩ := concludes.kept_of_succeeded succeeded
      exact absurd (deposits.succeeded sound) Bool.false_ne_true
  | @ran machine last code reached ends =>
      have concludes := begun.concludes_conclude last.frame.outcome last.ledger tracking
      obtain ⟨later, deposits, sound, outcome, ledger⟩ := concludes.kept_of_succeeded succeeded
      obtain ⟨frame, paid, root, spent, rfl⟩ := start_of_machine code
      have level : last.ledger.depth = begun.ledger.depth := by
        rw [Machine.depth_of_reaches reached, (Machine.finished_iff.mp ends).2]
        rfl
      have evolves :=
        (Machine.evolves_of_reaches reached).trans (deposits.evolves.imp fun _ _ => trivial)
      refine ⟨moved, ?_, ⟨_, evolves, deposits.follows.ledger.depth.trans level, ledger⟩, ?_⟩
      · intro started found
        rw [code] at found
        cases found
        exact ⟨_, last, rfl, reached, ends, deposits.succeeded sound⟩
      · intro creation
        have isCreation : begun.transaction.isCreation = true := by rw [transaction]; exact creation
        have deployed := deposits.code isCreation sound
        have recipient : approved.transaction.recipient = none :=
          Option.isNone_iff_eq_none.mp creation
        have here : approved.target = begun.createdAddress := by
          rw [Execution.target, recipient, made]
          rfl
        have nonce := nonce_of_begin fresh starts goesOn creation
        rw [here] at nonce ⊢
        rw [ledger, outcome, Ledger.nonce_commit, Ledger.code_commit]
        exact ⟨UInt64.lt_of_lt_of_le nonce (evolves.nonce_le _), deployed⟩

theorem GivesUp.begin (givesUp : GivesUp approved) (fresh : Approved approved) :
    approved.begin = .ok approved.givenUp := by
  cases givesUp with
  | drained called found dear => exact begin_of_drained fresh called found dear
  | collided creation inUse => exact begin_of_collided fresh creation inUse

theorem performed_of_givenUp (fresh : Approved approved)
    (performs : approved.givenUp.Performs performed) : performed = approved.givenUp.commit := by
  have idle : approved.givenUp.machine? = none := congrArg (Option.map _) fresh.frame
  cases performs with
  | idle code => rfl
  | unpaid code | ran code =>
      rw [idle] at code
      cases code

/-- Nothing is refunded of gas that bought nothing. -/
theorem gasUsed_of_givenUp (fresh : Approved approved)
    (settled : approved.givenUp.commit.settle = .ok done) :
    done.summary.gasUsed = approved.transaction.gas := by
  have nothing : approved.givenUp.commit.outcome = {} := (outcome_commit _).trans fresh.outcome
  have closed : approved.givenUp.commit.tracking = false := rfl
  rw [eq_of_settle closed settled, (fields_of_payBack _).2]
  have pool : approved.givenUp.commit.grantRefund.outcome.refundPool = 0 := by
    simp only [grantRefund, nothing, Outcome.addRefund, List.length_nil, Nat.zero_mul]
    rfl
  have gasLeft : approved.givenUp.commit.grantRefund.gasLeft = 0 := by
    change 0 +
      Gas.refund approved.givenUp.commit.gasUsed
      approved.givenUp.commit.grantRefund.outcome.refundPool = 0
    rw [pool, Gas.refund, Nat.zero_min]
  change approved.transaction.gas - approved.givenUp.commit.grantRefund.gasLeft = _
  rw [gasLeft, Nat.sub_zero]

/-- A transaction that has ended with neither a fault nor a REVERT has done what it asks for, and it
is kept; or it has been given up, which uses all its gas and leaves what was charged. -/
theorem unfailed_transaction_is_fulfilled {environment : Environment} {tx : Transaction}
    {block : Block} {usedInBlock : Nat}
    (accepted : (ofTransaction environment tx block ledger usedInBlock false).approve =
      .ok approved) (starts : approved.begin = .ok begun) (performs : begun.Performs performed)
      (settled : performed.settle = .ok done)
    (unfailed : done.summary.failed = false) (goesOn : done.outcome.reverted = false) :
    Fulfils approved begun performed ∨
      GivesUp approved ∧ begun.ledger = approved.opened.ledger ∧
      performed.ledger = approved.opened.ledger.commit ∧
        done.summary.gasUsed = tx.gas := by
  have fresh := fresh_of_approve accepted
  by_cases givesUp : GivesUp approved
  · refine .inr ⟨givesUp, ?_⟩
    have given := givesUp.begin fresh
    rw [starts, Except.ok.injEq] at given
    subst given
    have kept := performed_of_givenUp fresh performs
    subst kept
    have used := gasUsed_of_givenUp fresh settled
    rw [(approved_of_approve rfl accepted).2] at used
    exact ⟨rfl, rfl, used⟩
  · refine .inl (performs.fulfils fresh starts givesUp ?_)
    have closed := performs.closed (follows_begin fresh starts).tracking
    have outcome : done.outcome = performed.cleared.outcome := by
      rw [eq_of_settle closed.tracking settled]
      exact (fields_of_payBack _).1
    have sound : performed.outcome.fault = none := by
      rw [summary, outcome] at unfailed
      exact Option.isSome_eq_false_iff.mp unfailed |> Option.isNone_iff_eq_none.mp
    rw [outcome] at goesOn
    exact performed.outcome.succeeded_iff.mpr ⟨sound, goesOn⟩

end

-- Gives 5 to the precompile that returns its input, with three bytes to be returned.
def precompileCall (gas : Nat) : Transaction where
  hash := 0
  sender := 7
  recipient := some 4
  nonce := 0
  value := 5
  data := #[1, 2, 3]
  gas := gas
  gasPrice := 2

def calling (gas : Nat) : Execution :=
  ofTransaction {} (precompileCall gas) {} failingLedger 0 false

/-- The call is begun, performed and settled; there is no code to run. -/
theorem calling_phases (gas : Nat) (unopposed : (calling gas).rejection? = none)
    (idle : (((opened { calling gas with ready := true }).beginCall 4).machine?).isNone = true)
    (ready : ((opened { calling gas with ready := true }).beginCall 4).commit.ready = true) :
    (calling gas).approve = .ok { calling gas with ready := true } ∧
      Execution.begin { calling gas with ready := true } =
        .ok ((opened { calling gas with ready := true }).beginCall 4) ∧
      ((opened { calling gas with ready := true }).beginCall 4).Performs
        ((opened { calling gas with ready := true }).beginCall 4).commit ∧
      ((opened { calling gas with ready := true }).beginCall 4).commit.settle =
        .ok ((opened { calling gas with ready := true }).beginCall
          4).commit.commit.grantRefund.deleteAccounts.payBack := by
  have fresh : Approved { calling gas with ready := true } := ⟨rfl, rfl, rfl, rfl, rfl⟩
  exact ⟨approve_of_rejection unopposed, begin_eq fresh, .idle (Option.isNone_iff_eq_none.mp idle),
    if_pos ready⟩

theorem enough_gas_fulfils_precompileCall :
    ∃ approved begun performed done, (calling 21222).approve = .ok approved ∧
      approved.begin = .ok begun ∧
      begun.Performs performed ∧ performed.settle = .ok done ∧ done.summary.failed = false ∧
      done.outcome.reverted = false ∧ Fulfils approved begun performed := by
  obtain ⟨accepted, starts, performs, settled⟩ :=
    calling_phases 21222 (by decide +kernel) (by decide +kernel) (by decide +kernel)
  have known : ({ calling 21222 with ready := true } : Execution).config.precompiles.find? 4 =
    some .identity := by
    decide +kernel
  refine ⟨_, _, _, _, accepted, starts, performs, settled, by decide +kernel, by decide +kernel, ?_⟩
  rcases unfailed_transaction_is_fulfilled accepted starts performs settled (by decide +kernel)
      (by decide +kernel) with fulfils | ⟨givesUp, _⟩
  · exact fulfils
  · cases givesUp with
    | @drained target contract called found dear =>
        cases called
        rw [known] at found
        cases found
        exact absurd dear (by decide +kernel)
    | collided creation inUse => cases creation

/-- With less gas than the precompile costs nothing is given, and yet no failure is reported. -/
theorem drained_precompileCall_is_not_reported :
    ¬ ∀ (environment : Environment) (tx : Transaction) (block : Block) (ledger : Ledger)
      (usedInBlock : Nat) (approved begun performed done : Execution),
      (ofTransaction environment tx block ledger usedInBlock false).approve = .ok approved →
      approved.begin = .ok begun → begun.Performs performed → performed.settle = .ok done →
      done.summary.failed = false → done.outcome.reverted = false →
        Fulfils approved begun performed := by
  intro claim
  obtain ⟨accepted, starts, performs, settled⟩ :=
    calling_phases 21221 (by decide +kernel) (by decide +kernel) (by decide +kernel)
  have fulfils :=
    claim {} (precompileCall 21221) {} failingLedger 0 _ _ _ _ accepted starts performs settled
    (by decide +kernel) (by decide +kernel)
  -- The value would have moved, but the precompile has no account even.
  have paid :=
    (congrArg (Ledger.hasAccount · 4) fulfils.moved).trans (Ledger.hasAccount_payee _ _ _ _)
  have absent : ((opened { calling 21221 with ready := true }).beginCall 4).ledger.hasAccount 4 =
    false := by
    decide +kernel
  exact absurd (absent.symm.trans paid) Bool.false_ne_true

end ContractMachine.Execution
