import ContractMachine.Proofs.Execution.Conservation
import ContractMachine.Proofs.Machine.Storage

/-!
Storage over whole transactions. That slots are filled only where there are accounts outlives a
transaction: what is rolled back was so before, and a removal empties the slots that it leaves
without an account. So a contract finds its storage empty, whether a transaction makes it or code
does.
-/

namespace ContractMachine.Execution

section

variable {execution approved begun performed done : Execution} {outcome : Outcome} {ledger : Ledger}
  {frame : Frame}

theorem retains_entered (execution : Execution) :
    execution.ledger.Retains execution.charge.ledger ∧
    execution.ledger.Retains execution.entered.ledger := by
  have charged : execution.ledger.Retains execution.charge.ledger := by
    unfold charge
    split
    · exact .refl _
    · exact (Ledger.retains_bumpNonce _ _).trans (Ledger.retains_debit _ _ _)
  exact ⟨charged, charged.trans (Ledger.retains_checkpoint _)⟩

theorem retains_begin (starts : approved.begin = .ok begun) :
    approved.entered.ledger.Retains begun.ledger := by
  rcases ledger_of_begin starts with same | ⟨target, same⟩ | ⟨address, same⟩
  · rw [same]
    exact .refl _
  · rw [same]
    exact Ledger.retains_transfer _ _ _ _
  · rw [same]
    exact (Ledger.retains_bumpNonce _ _).trans (Ledger.retains_transfer _ _ _ _)

/-- The account that the code of a transaction works for is paid before the code is run. -/
theorem owner_of_begin (blank : approved.frame = none) (starts : approved.begin = .ok begun)
    (root : begun.frame = some frame) : begun.ledger.hasAccount frame.owner = true := by
  obtain ⟨_, _, _, _, same, _⟩ := approved.entered_fields
  have idle (kept : begun.frame = approved.entered.frame) : False := by
    rw [kept, same, blank] at root
    cases root
  cases begins_of_begin starts with
  | drained | collided | answered | moved | passed => exact (idle rfl).elim
  | called | made =>
      cases root
      exact Ledger.hasAccount_payee _ _ _ _

theorem housed_of_machine {machine last : Machine} (blank : approved.frame = none)
    (starts : approved.begin = .ok begun) (housed : begun.ledger.Housed)
    (code : begun.machine? = some (.ok machine))
    (reached : Machine.Reaches begun.environment machine last) : last.ledger.Housed := by
  obtain ⟨frame, paid, root, spent, rfl⟩ := start_of_machine code
  have owner : paid.owner = frame.owner := by
    rw [(Frame.eq_of_spend spent).2]
    rfl
  refine Machine.sheltered_of_reaches reached housed ?_
  rw [owner]
  exact owner_of_begin blank starts root

theorem Deposits.retains {later : Execution} (deposits : begun.Deposits outcome ledger later) :
    ledger.Retains later.ledger := by
  cases deposits with
  | deployed => exact Ledger.retains_setCode ledger _ _
  | unasked | emptied | refused => exact .refl ledger

theorem Concludes.housed (concludes : begun.Concludes outcome ledger performed)
    (housed : ledger.Housed) (restores : ledger.rollback.Housed) : performed.ledger.Housed := by
  cases concludes with
  | kept deposits => exact (deposits.retains.trans (Ledger.retains_commit _)).housed housed
  | dropped => exact restores

theorem Performs.housed (performs : begun.Performs performed) (blank : approved.frame = none)
    (starts : approved.begin = .ok begun) (housed : approved.ledger.Housed) :
      performed.ledger.Housed := by
  have follows := follows_entered starts
  have tracking : begun.tracking = true := follows.tracking
  obtain ⟨charged, entered⟩ := approved.retains_entered
  have begins : begun.ledger.Housed := (entered.trans (retains_begin starts)).housed housed
  cases performs with
  | idle code =>
      rw [commit, if_pos tracking]
      exact (Ledger.retains_commit _).housed begins
  | unpaid code =>
      have restores : begun.ledger.rollback = approved.charge.ledger := follows.ledger.rollback
      exact (concludes_conclude begun _ _ tracking).housed begins
        (by rw [restores]; exact charged.housed housed)
  | @ran machine last code reached ends =>
      have housedLast := housed_of_machine blank starts begins code reached
      obtain ⟨frame, paid, _, _, rfl⟩ := start_of_machine code
      have restores : last.ledger.rollback = approved.charge.ledger :=
        Machine.rollback_of_finished follows.ledger reached ends
      exact (concludes_conclude begun _ _ tracking).housed housedLast
        (by rw [restores]; exact charged.housed housed)

theorem housed_of_settle (tracking : performed.tracking = false)
    (settled : performed.settle = .ok done) (housed : performed.ledger.Housed) :
    done.ledger.Housed := by
  obtain ⟨_, ofLocal, ofOther⟩ := ledger_of_settle tracking settled
  have cleared : performed.cleared.ledger.Housed := housed.foldl_delete _
  cases isLocal : performed.isLocal with
  | true =>
      rw [ofLocal isLocal]
      exact cleared
  | false =>
      obtain ⟨amount, paid⟩ := ofOther isLocal
      rw [paid]
      exact (Ledger.retains_credit _ _ _).housed cleared

end

/-- Where slots are filled only at addresses that have an account, it is so after every transaction
that is carried through, local or not. Whenever a contract is made, by the transaction or by its
code, every slot at its address is empty, before the address is taken and after. -/
theorem storage_has_account (environment : Environment) (tx : Transaction) (block : Block)
    (ledger : Ledger) (usedInBlock : Nat) (isLocal : Bool) (housed : ledger.Housed) :
    (∀ done, (ofTransaction environment tx block ledger usedInBlock isLocal).Completes done →
      done.ledger.Housed) ∧
    ∀ approved begun, (ofTransaction environment tx block ledger usedInBlock isLocal).approve =
      .ok approved →
      approved.begin = .ok begun →
        (tx.recipient = none → approved.entered.ledger.hasAccount approved.createdAddress = false →
          ∀ key, approved.entered.ledger.slot? approved.createdAddress key = none ∧
            begun.ledger.slot? approved.createdAddress key = none) ∧
        ∀ machine middle price, begun.machine? = some (.ok machine) →
          Machine.Reaches environment machine middle →
          middle.frame.Creates environment middle.ledger price →
          middle.ledger.hasAccount (Creation.address middle.frame middle.ledger) = false →
            ∀ key, middle.ledger.slot? (Creation.address middle.frame middle.ledger) key = none ∧
              (middle.next environment).ledger.slot? (Creation.address middle.frame middle.ledger)
                key = none := by
  constructor
  · intro done completes
    cases completes with
    | @intro approved begun performed accepted starts performs settled =>
        have ready := ready_of_approve accepted
        have blank : approved.frame = none := by rw [ready]; rfl
        have same : approved.ledger = ledger := by rw [ready]; rfl
        have closed := performs.closed (follows_entered starts).tracking
        exact housed_of_settle closed.tracking settled
          (performs.housed blank starts (same ▸ housed))
  · intro approved begun accepted starts
    have ready := ready_of_approve accepted
    have blank : approved.frame = none := by rw [ready]; rfl
    have same : approved.ledger = ledger := by rw [ready]; rfl
    have entered : approved.entered.ledger.Housed :=
      approved.retains_entered.2.housed (same ▸ housed)
    have begins := retains_begin starts
    -- A free address has no slot in a ledger that houses its storage, and taking it fills none.
    constructor
    · intro _ free key
      have empty := entered.empty free key
      exact ⟨empty, (begins.slots _ key).trans empty⟩
    · intro machine middle price code reached creates free key
      have still : begun.environment = environment := by
        rw [(follows_entered starts).environment, approved.entered_fields.1, ready]
        rfl
      rw [← still] at reached
      have reads := housed_of_machine blank starts (begins.housed entered) code reached
      exact Machine.slots_of_new_contract creates reads free key

-- Fills a slot and makes a contract without code.
def storingCode : Bytes := #[0x60, 1, 0x60, 1, 0x55, 0x60, 0, 0x60, 0, 0x60, 0, 0xf0]

def storingLedger : Ledger := (failingLedger.setCode 13 storingCode).putSlot 13 2 5

theorem housed_storingLedger : storingLedger.Housed := by
  have empty : Ledger.Housed {} := by
    intro address key value held
    cases held
  have bare : (failingLedger.setCode 13 storingCode).Housed :=
    (((Ledger.retains_credit _ _ _).trans (Ledger.retains_setCode _ _ _)).trans
      (Ledger.retains_setCode _ _ _)).housed empty
  exact bare.putSlot (by decide +kernel) 2 5

def storingCall : Transaction := { failingCall with recipient := some 13, gas := 100000 }

def storing : Execution := ofTransaction {} storingCall {} storingLedger 0 false

theorem storing_accepted : storing.approve = .ok { storing with ready := true } :=
  approve_of_rejection (by decide +kernel)

/-- The code is at its creation after six steps. -/
theorem storing_creates :
    ∃ machine price,
      ((opened { storing with ready := true }).beginCall 13).machine? = some (.ok machine) ∧
      (machine.runFor {} 6).frame.Creates {} (machine.runFor {} 6).ledger price ∧
      (machine.runFor {} 6).ledger.hasAccount
        (Creation.address (machine.runFor {} 6).frame (machine.runFor {} 6).ledger) = false := by
  have ran : ((opened { storing with ready := true }).beginCall 13).machine?.map (fun started =>
      started.toOption.map fun machine =>
        let middle := machine.runFor {} 6
        ((middle.frame.quote {} middle.ledger).toOption.map Prod.fst, middle.frame.stopped,
          middle.frame.context.isStatic,
          middle.ledger.hasAccount (Creation.address middle.frame middle.ledger))) =
        some (some (some .create, false, false, false)) := by
    decide +kernel
  obtain ⟨machine, code, seen⟩ := machine_with ran
  simp only [Prod.mk.injEq] at seen
  obtain ⟨quoted, runs, mutable, free⟩ := seen
  obtain ⟨⟨op, price⟩, paid, rfl⟩ := Option.map_eq_some_iff.mp quoted
  exact ⟨machine, price, code, ⟨Frame.due_of_toOption runs paid, mutable⟩, free⟩

-- The new contract's first code stops at once.
def makingTransaction : Transaction where
  hash := 0
  sender := 7
  recipient := none
  nonce := 0
  value := 1
  data := #[0]
  gas := 100000
  gasPrice := 2

def making : Execution := ofTransaction {} makingTransaction {} storingLedger 0 false

theorem making_accepted : making.approve = .ok { making with ready := true } :=
  approve_of_rejection (by decide +kernel)

theorem making_starts :
    Execution.begin { making with ready := true } =
      .ok (entered { making with ready := true }).beginCreation :=
  begin_of_ready rfl

theorem storage_has_account_after_storing :
    storingLedger.Housed ∧ storingLedger.slot? 13 2 = some 5 ∧
    (∃ done, storing.Completes done ∧ done.ledger.Housed ∧ done.ledger.slot? 13 2 = some 5 ∧
      done.ledger.slot? 13 1 = some 1) ∧
    (∃ machine,
      ((opened { storing with ready := true }).beginCall 13).machine? = some (.ok machine) ∧
      ((machine.runFor {} 6).next {}).ledger.slot?
        (Creation.address (machine.runFor {} 6).frame (machine.runFor {} 6).ledger) 1 = none) ∧
    ∃ begun, Execution.begin { making with ready := true } = .ok begun ∧
      begun.ledger.slot? making.createdAddress 1 = none := by
  refine ⟨housed_storingLedger, by decide +kernel, ?whole, ?inner, ?outer⟩
  case whole =>
    have houses :=
      (storage_has_account {} storingCall {} storingLedger 0 false housed_storingLedger).1
    have ran : storing.run.toOption.map (fun done =>
        (done.ledger.slot? 13 2, done.ledger.slot? 13 1)) = some (some 5, some 1) := by
      decide +kernel
    obtain ⟨done, completes, seen⟩ := completes_with rfl (by decide) (by decide +kernel) ran
    obtain ⟨old, new⟩ := Prod.mk.inj seen
    exact ⟨done, completes, houses done completes, old, new⟩
  case inner =>
    have empties :=
      (storage_has_account {} storingCall {} storingLedger 0 false housed_storingLedger).2
    have fresh : Approved { storing with ready := true } := ⟨rfl, rfl, rfl, rfl, rfl⟩
    obtain ⟨machine, price, code, creates, free⟩ := storing_creates
    have made := (empties _ _ storing_accepted (begin_eq fresh)).2 _ _ _ code
      (Machine.runFor_reaches {} 6 machine) creates free 1
    exact ⟨machine, code, made.2⟩
  case outer =>
    have empties :=
      (storage_has_account {} makingTransaction {} storingLedger 0 false housed_storingLedger).2
    have free : (entered { making with ready := true }).ledger.hasAccount making.createdAddress =
        false := by
      decide +kernel
    have made := (empties _ _ making_accepted making_starts).1 rfl free 1
    exact ⟨_, making_starts, made.2⟩

end ContractMachine.Execution
