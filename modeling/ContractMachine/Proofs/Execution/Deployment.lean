import ContractMachine.Proofs.Execution.Evolution
import ContractMachine.Proofs.Execution.Fulfilment
import ContractMachine.Proofs.Execution.Storage
import ContractMachine.Proofs.Machine.Deployment

/-!
The code of the contract that a transaction makes. It is decided on as on that of a contract which
code makes, though the gas is kept elsewhere. The address is free when the transaction begins, and
its code stays empty until the transaction's own code has ended, so that nothing needs to be written
where no code is deployed.
-/

namespace ContractMachine.Execution

/-- What a transaction that has made its contract has come to: without first code to run there is no
code and nothing is charged for it, else the code is what was decided on what the first code has
returned. -/
inductive Deploys (begun performed : Execution) : Prop where
  | bare (code : begun.machine? = none) (same : performed = begun.commit)
      (empty : performed.ledger.code begun.createdAddress = #[]) : Deploys begun performed
  | ran {machine last : Machine} {decision : Deposit} (code : begun.machine? = some (.ok machine))
      (reached : Machine.Reaches begun.environment machine last) (ends : last.finished = true)
      (decides : begun.config.Decides last.frame.outcome.returnData.size
        (begun.transaction.gas - last.frame.outcome.gasUsed) decision)
      (settles : decision.Settles last.frame.outcome #[] performed.outcome
        (performed.ledger.code begun.createdAddress))
      (left : performed.gasLeft = begun.transaction.gas - last.frame.outcome.gasUsed -
        decision.charge) :
      Deploys begun performed

section

variable {execution approved begun performed done : Execution} {outcome : Outcome} {ledger : Ledger}

/-- Where there is no code yet, none needs to be written for none to be deployed. -/
theorem settles_deposit (execution : Execution) (outcome : Outcome)
    (bare : execution.ledger.code execution.createdAddress = #[]) :
    (execution.config.deposit outcome.returnData.size execution.gasLeft).Settles outcome #[]
        (execution.deposit outcome).outcome
          ((execution.deposit outcome).ledger.code execution.createdAddress) ∧
      (execution.deposit outcome).gasLeft =
        execution.gasLeft -
          (execution.config.deposit outcome.returnData.size execution.gasLeft).charge := by
  rw [deposit_eq]
  cases execution.config.deposit outcome.returnData.size execution.gasLeft with
  | deploy price =>
      simp only [settledBy, Ledger.code_setCode]
      exact ⟨.deploy rfl rfl, rfl⟩
  | deployEmpty =>
      simp only [settledBy, bare]
      exact ⟨.deployEmpty rfl rfl, rfl⟩
  | fail fault =>
      simp only [settledBy, bare]
      exact ⟨.fail rfl rfl, rfl⟩

/-- A conclusion that shows no failure has taken over what was decided. -/
theorem settles_conclude (tracking : begun.tracking = true)
    (creation : begun.transaction.isCreation = true) (bare : ledger.code begun.createdAddress = #[])
    (succeeded : (begun.conclude outcome ledger).outcome.succeeded = true) :
    (begun.config.deposit outcome.returnData.size (begun.transaction.gas - outcome.gasUsed)).Settles
        outcome #[] (begun.conclude outcome ledger).outcome
        ((begun.conclude outcome ledger).ledger.code begun.createdAddress) ∧
      (begun.conclude outcome ledger).gasLeft = begun.transaction.gas - outcome.gasUsed -
        (begun.config.deposit outcome.returnData.size
          (begun.transaction.gas - outcome.gasUsed)).charge := by
  have deposits := begun.deposits_deposited outcome ledger
  rw [conclude_eq] at succeeded ⊢
  by_cases sound : (begun.deposited outcome ledger).outcome.succeeded = true
  · have tracked : (begun.deposited outcome ledger).tracking = true :=
      deposits.follows.tracking.trans tracking
    have asked : begun.deposited outcome ledger = (begun.ranTo outcome ledger).deposit outcome := by
      rw [deposited, creation, deposits.succeeded sound]
      rfl
    rw [if_pos sound, commit, if_pos tracked, Ledger.code_commit, asked]
    exact settles_deposit (begun.ranTo outcome ledger) outcome bare
  · rw [if_neg sound] at succeeded
    exact absurd succeeded sound

theorem createdAddress_entered (execution : Execution) :
    execution.entered.createdAddress = execution.createdAddress := by
  rw [createdAddress, execution.entered_fields.2.1]
  rfl

/-- The address of a contract is taken without code. -/
theorem hasCode_of_begin (starts : approved.begin = .ok begun)
    (creation : approved.transaction.recipient = none)
    (free : approved.entered.ledger.hasAccount approved.createdAddress = false) :
    Machine.HasCode approved.createdAddress #[] begun.ledger := by
  have fresh (value : Word) (giver : Address) : Machine.HasCode approved.createdAddress #[]
      ((approved.entered.ledger.bumpNonce approved.createdAddress).transfer giver
        approved.createdAddress value) := by
    refine ⟨Ledger.hasAccount_payee _ _ _ _, ?_⟩
    rw [Ledger.code_transfer, Ledger.code_bumpNonce]
    exact Ledger.code_of_absent free
  rw [← approved.entered_fields.2.1] at creation
  rw [← approved.createdAddress_entered] at free fresh ⊢
  cases begins_of_begin starts with
  | drained recipient | answered recipient | moved recipient | called recipient =>
      rw [creation] at recipient
      cases recipient
  | collided _ inUse =>
      rw [free] at inUse
      cases inUse
  | passed | made => exact fresh _ _

/-- Before any code is run nothing has failed. -/
theorem succeeded_of_begin (blank : approved.outcome = {}) (starts : approved.begin = .ok begun) :
    begun.outcome.succeeded = true := by
  have nothing : approved.entered.outcome = {} := approved.entered_fields.2.2.2.2.2.trans blank
  have sound : approved.entered.outcome.succeeded = true := by
    rw [nothing]
    rfl
  cases begins_of_begin starts with
  | drained | collided | answered | moved | called | passed | made => exact sound

/-- At an address in use the transaction is given up. -/
theorem begin_eq_of_inUse (starts : approved.begin = .ok begun)
    (creation : approved.transaction.recipient = none)
    (inUse : approved.entered.ledger.hasAccount approved.createdAddress = true) :
    begun = { approved.entered with gasLeft := 0 } := by
  rw [← approved.entered_fields.2.1] at creation
  rw [← approved.createdAddress_entered] at inUse
  cases begins_of_begin starts with
  | drained | collided => rfl
  | answered recipient | moved recipient | called recipient =>
      rw [creation] at recipient
      cases recipient
  | passed _ free | made _ free =>
      rw [inUse] at free
      cases free

theorem untouched_charge (execution : Execution) (address : Address) :
    execution.ledger.Untouched execution.transaction.sender address execution.charge.ledger := by
  unfold charge
  split
  · exact .refl _
  · exact (Ledger.untouched_bumpNonce _).trans (Ledger.untouched_debit _ _)

/-- A transaction that fails leaves what it has been charged. -/
theorem Performs.ledger_of_failed (performs : begun.Performs performed)
    (starts : approved.begin = .ok begun) (blank : approved.outcome = {})
    (failed : performed.outcome.succeeded = false) :
    performed.ledger = approved.charge.ledger := by
  have follows := follows_entered starts
  have tracking : begun.tracking = true := follows.tracking
  have dropped {outcome : Outcome} {ledger : Ledger}
      (concludes : begun.Concludes outcome ledger performed) :
      performed.ledger = ledger.rollback := by
    cases concludes with
    | kept _ sound => exact absurd (failed.symm.trans sound) Bool.false_ne_true
    | dropped => rfl
  cases performs with
  | idle code =>
      rw [outcome_commit, succeeded_of_begin blank starts] at failed
      cases failed
  | unpaid code =>
      rw [dropped (begun.concludes_conclude _ _ tracking)]
      exact follows.ledger.rollback
  | ran code reached ends =>
      rw [dropped (begun.concludes_conclude _ _ tracking)]
      obtain ⟨frame, paid, _, _, rfl⟩ := start_of_machine code
      exact Machine.rollback_of_finished follows.ledger reached ends

/-- A transaction that makes no contract, for it fails or finds the address in use, leaves the
address alone. -/
theorem Performs.untouched (performs : begun.Performs performed)
    (starts : approved.begin = .ok begun) (blank : approved.frame = none)
    (nothing : approved.outcome = {}) (creation : approved.transaction.recipient = none)
    (undone : performed.outcome.succeeded = false ∨
      approved.entered.ledger.hasAccount approved.createdAddress = true) (address : Address) :
    approved.ledger.Untouched approved.transaction.sender address performed.ledger := by
  have charged := approved.untouched_charge address
  rcases undone with failed | inUse
  · rw [performs.ledger_of_failed starts nothing failed]
    exact charged
  · have given := begin_eq_of_inUse starts creation inUse
    have code : begun.machine? = none := by
      rw [given]
      exact congrArg (Option.map _) (approved.entered_fields.2.2.2.2.1.trans blank)
    cases performs with
    | idle =>
        rw [given]
        exact (charged.trans (Ledger.untouched_checkpoint _)).trans (Ledger.untouched_commit _)
    | unpaid other | ran other =>
        rw [code] at other
        cases other

/-- A transaction that does not fail, and has found the address free, has made its contract. -/
theorem Performs.deploys (performs : begun.Performs performed) (starts : approved.begin = .ok begun)
    (creation : approved.transaction.recipient = none)
    (free : approved.entered.ledger.hasAccount approved.createdAddress = false)
    (succeeded : performed.outcome.succeeded = true) : begun.Deploys performed := by
  have follows := follows_entered starts
  have tracking : begun.tracking = true := follows.tracking
  have transaction : begun.transaction = approved.transaction :=
    follows.transaction.trans approved.entered_fields.2.1
  have same : begun.createdAddress = approved.createdAddress := by
    rw [createdAddress, transaction]
    rfl
  have holds := hasCode_of_begin starts creation free
  rw [← same] at holds
  have makes : begun.transaction.isCreation = true := by
    rw [transaction, Transaction.isCreation, creation]
    rfl
  cases performs with
  | idle code =>
      refine .bare code rfl ?_
      rw [commit, if_pos tracking, Ledger.code_commit]
      exact holds.code
  | unpaid code =>
      obtain ⟨later, deposits, sound, _, _⟩ :=
        (begun.concludes_conclude _ _ tracking).kept_of_succeeded succeeded
      exact absurd (deposits.succeeded sound) Bool.false_ne_true
  | @ran machine last code reached ends =>
      have bare : last.ledger.code begun.createdAddress = #[] := by
        obtain ⟨frame, paid, _, _, rfl⟩ := start_of_machine code
        have kept :=
          Machine.code_of_lives (Machine.lives_of_reaches reached) (.root (.refl paid))
          holds.account
        exact kept.trans holds.code
      obtain ⟨settles, left⟩ := settles_conclude tracking makes bare succeeded
      exact .ran code reached ends (begun.config.decides_deposit _ _) settles left

/-- Settling changes code only by removing it. -/
theorem code_of_settle (tracking : performed.tracking = false)
    (settled : performed.settle = .ok done) (address : Address) :
    done.ledger.code address = performed.ledger.code address ∨ done.ledger.code address = #[] := by
  obtain ⟨_, ofLocal, ofOther⟩ := ledger_of_settle tracking settled
  have removed : performed.cleared.ledger.code address = performed.ledger.code address ∨
      performed.cleared.ledger.code address = #[] :=
    performed.ledger.code_foldl_delete performed.outcome.deletions address
  cases isLocal : performed.isLocal with
  | true =>
      rw [ofLocal isLocal]
      exact removed
  | false =>
      obtain ⟨amount, paid⟩ := ofOther isLocal
      rw [paid, Ledger.code_credit]
      exact removed

/-- No transaction deploys code that is too long, whatever its code does. -/
theorem Completes.code_eq_or (completes : execution.Completes done) (address : Address) :
    done.ledger.code address = execution.ledger.code address ∨
    execution.config.Fits (done.ledger.code address) := by
  cases completes with
  | @intro approved begun performed accepted starts performs settled =>
      have ready := ready_of_approve accepted
      have ledger : approved.ledger = execution.ledger := by
        rw [ready]
      have config : begun.config = execution.config := by
        rw [config_of_begin starts, ready]
        rfl
      have follows := follows_entered starts
      have charges :
          approved.ledger.Evolves approved.ledger.depth execution.config.Fits
          approved.charge.ledger :=
        evolves_charge approved
      have above : approved.ledger.depth < begun.ledger.depth :=
        Nat.lt_of_le_of_lt (charges.depth (Nat.le_refl _)) (depth_charge_lt starts)
      have ran := performs.evolves follows.tracking above
      rw [config] at ran
      have kept := ((charges.trans (evolves_begin starts)).trans ran).code_eq_or address
      rw [ledger] at kept
      have closed := performs.closed follows.tracking
      rcases code_of_settle closed.tracking settled address with same | gone
      · rw [same]
        exact kept
      · rw [gone]
        exact .inr execution.config.fits_empty

end

/-- On code that a creation returns, code and transactions make one decision from the length, the
gas left and the configuration: it is deployed at its price, it is left out for want of gas, or the
creation fails. A creation that is asked for by code fails and leaves the address alone, or it ends
with the code that was decided on what its first code has returned, and likewise a transaction that
makes a contract. No code that is too long is ever deployed. -/
theorem contract_code_is_returned_code (environment : Environment) :
    (∀ (execution : Execution) (address : Address) (gas : Nat) (child outcome : Outcome)
      (frame : Frame) (ledger : Ledger), execution.config = environment.config →
      execution.ledger.code execution.createdAddress = #[] →
      outcome.returnData.size = child.returnData.size →
      execution.gasLeft = gas - child.gasUsed →
      ∃ decision done after,
        environment.config.Decides child.returnData.size (gas - child.gasUsed) decision ∧
        SiteAction.deposit environment address gas child ⟨frame, ledger⟩ = .ok done ⟨frame, after⟩ ∧
        decision.Settles child (ledger.code address) done (after.code address) ∧
        decision.Settles outcome #[] (execution.deposit outcome).outcome
          ((execution.deposit outcome).ledger.code execution.createdAddress) ∧
        (execution.deposit outcome).gasLeft = execution.gasLeft - decision.charge) ∧
    (∀ (root : Frame) (ledger : Ledger) (before after : Machine),
      Machine.Reaches environment (.start root ledger) before →
      Machine.Completes environment before .create after →
      (Machine.Fails environment before .create after ∧
        before.ledger.Untouched before.frame.owner (Creation.address before.frame before.ledger)
          after.ledger) ∨
      ∃ price child, Machine.Constructs environment before price child after ∧
        Machine.Deploys environment before price child after) ∧
    (∀ (tx : Transaction) (block : Block) (ledger : Ledger) (usedInBlock : Nat) (isLocal : Bool)
      (approved begun performed : Execution),
      (ofTransaction environment tx block ledger usedInBlock isLocal).approve = .ok approved →
      approved.begin = .ok begun → begun.Performs performed → tx.recipient = none →
      (performed.outcome.succeeded = true →
        approved.entered.ledger.hasAccount approved.createdAddress = false →
          begun.Deploys performed) ∧
      (performed.outcome.succeeded = false ∨
          approved.entered.ledger.hasAccount approved.createdAddress = true →
        ledger.Untouched tx.sender approved.createdAddress performed.ledger)) ∧
    (∀ (root : Frame) (ledger : Ledger) (machine : Machine) (address : Address),
      Machine.Reaches environment (.start root ledger) machine →
      machine.ledger.code address = ledger.code address ∨
        environment.config.Fits (machine.ledger.code address)) ∧
    (∀ (tx : Transaction) (block : Block) (ledger : Ledger) (usedInBlock : Nat) (isLocal : Bool)
      (done : Execution) (address : Address),
      (ofTransaction environment tx block ledger usedInBlock isLocal).Completes done →
      done.ledger.code address = ledger.code address ∨
        environment.config.Fits (done.ledger.code address)) := by
  refine ⟨?decision, ?creation, ?transaction, ?runs, ?transactions⟩
  case decision =>
    intro execution address gas child outcome frame ledger config bare size left
    obtain ⟨done, after, ran, settles⟩ :=
      SiteAction.deposit_spec environment address gas child frame ledger
    have again := settles_deposit execution outcome bare
    rw [config, size, left] at again
    rw [left]
    exact ⟨_, done, after, environment.config.decides_deposit _ _, ran, settles, again.1, again.2⟩
  case creation =>
    intro root ledger before after reached completes
    have nested := Machine.nested_of_reaches reached
    rcases completes.fails_or_constructs with fails | ⟨price, child, constructs⟩
    · exact .inl ⟨fails, Machine.untouched_of_fails fails nested _⟩
    · exact .inr ⟨price, child, constructs, constructs.deploys nested⟩
  case transaction =>
    intro tx block ledger usedInBlock isLocal approved begun performed accepted starts performs
      creation
    -- Approval changes nothing but the phase, so the ledger is still the one given.
    have ready := ready_of_approve accepted
    subst ready
    constructor
    · intro succeeded free
      exact performs.deploys starts creation free succeeded
    · intro undone
      exact performs.untouched starts rfl rfl creation undone _
  case runs =>
    intro root ledger machine address reached
    exact (Machine.evolves_within_limit reached).code_eq_or address
  case transactions =>
    intro tx block ledger usedInBlock isLocal done address completes
    exact completes.code_eq_or address

theorem performs_of_runFor {begun : Execution} (steps : Nat)
    (ran : begun.machine?.map (fun started => started.toOption.map fun machine =>
      ((machine.runFor begun.environment steps).finished,
        (begun.conclude (machine.runFor begun.environment steps).frame.outcome
          (machine.runFor begun.environment steps).ledger).outcome.succeeded)) =
            some (some (true, true))) :
    ∃ performed, begun.Performs performed ∧ performed.outcome.succeeded = true := by
  obtain ⟨machine, code, seen⟩ := machine_with ran
  obtain ⟨ends, succeeded⟩ := Prod.mk.inj seen
  exact ⟨_, .ran code (Machine.runFor_reaches _ steps machine) ends, succeeded⟩

theorem created_code_is_returned_code :
    (∃ decision done after, Config.Decides {} 1 100000 decision ∧
      SiteAction.deposit {} 5 100000 { returnData := #[0] } ⟨Machine.creatingFrame, {}⟩ =
        .ok done ⟨Machine.creatingFrame, after⟩ ∧
      decision.Settles { returnData := #[0] } #[] done (after.code 5) ∧
      (making.deposit { returnData := #[0] }).gasLeft = 100000 - decision.charge) ∧
    Machine.Reaches {} (.start Machine.creatingFrame {}) Machine.beforeCreation ∧
    Machine.Completes {} Machine.beforeCreation .create Machine.afterCreation ∧
    (∃ price child, Machine.Constructs {} Machine.beforeCreation price child Machine.afterCreation ∧
      Machine.Deploys {} Machine.beforeCreation price child Machine.afterCreation) ∧
    (∃ begun performed, Execution.begin { making with ready := true } = .ok begun ∧
      begun.Performs performed ∧
      performed.outcome.succeeded = true ∧ begun.Deploys performed) := by
  obtain ⟨decisions, creations, transactions, -, -⟩ := contract_code_is_returned_code {}
  refine ⟨?decision, ?reached, Machine.afterCreation_completes, ?creation, ?transaction⟩
  case decision =>
    obtain ⟨decision, done, after, decides, ran, settles, -, left⟩ :=
      decisions making 5 100000 { returnData := #[0] } { returnData := #[0] } Machine.creatingFrame
        {} rfl (by decide +kernel) rfl rfl
    exact ⟨decision, done, after, decides, ran, settles, left⟩
  case reached => exact Machine.runFor_reaches {} 6 _
  case creation =>
    have reached : Machine.Reaches {} (.start Machine.creatingFrame {}) Machine.beforeCreation :=
      Machine.runFor_reaches {} 6 _
    rcases creations _ _ _ _ reached Machine.afterCreation_completes with ⟨fails, _⟩ | constructs
    · have zero := congrArg List.head? (fails.restores (Machine.nested_of_reaches reached)).words
      exact absurd zero (by decide +kernel)
    · exact constructs
  case transaction =>
    obtain ⟨performed, performs, succeeded⟩ :=
      @performs_of_runFor (entered { making with ready := true }).beginCreation 1
        (by decide +kernel)
    have free : (entered { making with ready := true }).ledger.hasAccount making.createdAddress =
      false := by
      decide +kernel
    have deploys :=
      (transactions _ _ _ _ _ _ _ _ making_accepted making_starts performs rfl).1 succeeded free
    exact ⟨_, performed, making_starts, performs, succeeded, deploys⟩

end ContractMachine.Execution
