import ContractMachine.Proofs.Execution.Atomicity
import ContractMachine.Proofs.Machine.Termination

/-!
Transactions that are carried through, local or not. `Completes` says so without counting the steps
of the code; it holds of what `run` leaves where the code has ended by then (`Ends`), and it always
has where every instruction that goes on costs more than what it gives away, as under the default
fees.
-/

namespace ContractMachine.Execution

def Ends (execution : Execution) : Prop :=
  ∀ approved begun machine, execution.approve = .ok approved → approved.begin = .ok begun →
    begun.machine? = some (.ok machine) → (machine.run begun.environment).finished = true

inductive Performs (begun : Execution) : Execution → Prop where
  | idle (code : begun.machine? = none) : Performs begun begun.commit
  -- The gas does not pay for the transaction, let alone for its code.
  | unpaid {fault : Fault} {frame : Frame} (code : begun.machine? = some (.error (fault, frame))) :
      Performs begun (begun.conclude (frame.spendAll.outcome.setFault fault) begun.ledger)
  | ran {machine last : Machine} (code : begun.machine? = some (.ok machine))
      (reached : Machine.Reaches begun.environment machine last) (ends : last.finished = true) :
      Performs begun (begun.conclude last.frame.outcome last.ledger)

inductive Completes (execution done : Execution) : Prop where
  | intro {approved begun performed : Execution} (accepted : execution.approve = .ok approved)
      (starts : approved.begin = .ok begun) (performs : begun.Performs performed)
      (settled : performed.settle = .ok done) : Completes execution done

structure Closed (begun performed : Execution) : Prop where
  transaction : performed.transaction = begun.transaction
  isLocal : performed.isLocal = begun.isLocal
  ready : performed.ready = begun.ready
  tracking : performed.tracking = false

section

variable {execution approved begun performed done : Execution} {outcome : Outcome} {ledger : Ledger}
  {frame : Frame}

/-- When a transaction has begun, its value has moved, to a new contract behind its first nonce; or
it is given up. -/
theorem ledger_of_begin (starts : approved.begin = .ok begun) :
    begun.ledger = approved.entered.ledger ∨
    (∃ target, begun.ledger =
      approved.entered.ledger.transfer approved.transaction.sender target
        approved.transaction.value) ∨
    ∃ address, begun.ledger =
      (approved.entered.ledger.bumpNonce address).transfer approved.transaction.sender address
        approved.transaction.value := by
  rw [← approved.entered_fields.2.1]
  cases begins_of_begin starts with
  | drained | collided => exact .inl rfl
  | answered | moved | called => exact .inr (.inl ⟨_, rfl⟩)
  | passed | made => exact .inr (.inr ⟨_, rfl⟩)

/-- If a transaction begins with a frame, that is a fresh one with the gas of the transaction. -/
theorem root_of_begin (blank : approved.frame = none) (starts : approved.begin = .ok begun)
    (root : begun.frame = some frame) :
    ∃ code context limit, frame = Frame.start code context limit ∧
      context.gas = approved.transaction.gas := by
  obtain ⟨_, transaction, _, _, same, _⟩ := approved.entered_fields
  have idle (kept : begun.frame = approved.entered.frame) : False := by
    rw [kept, same, blank] at root
    cases root
  cases begins_of_begin starts with
  | drained | collided | answered | moved | passed => exact (idle rfl).elim
  | called | made =>
      cases root
      exact ⟨_, _, _, rfl, congrArg Transaction.gas transaction⟩

theorem closed_commit (tracking : execution.tracking = true) :
    execution.Closed execution.commit := by
  rw [commit, if_pos tracking]
  exact ⟨rfl, rfl, rfl, rfl⟩

theorem Concludes.closed (concludes : begun.Concludes outcome ledger performed) :
    begun.Closed performed := by
  cases concludes with
  | kept deposits | dropped deposits =>
      have follows := deposits.follows
      exact ⟨follows.transaction, follows.isLocal, follows.ready, rfl⟩

theorem closed_perform (tracking : begun.tracking = true)
    (performs : begun.perform = .ok performed) : begun.Closed performed := by
  unfold perform at performs
  split at performs
  · split at performs
    · cases performs
      exact closed_commit tracking
    · cases performs
      exact (concludes_conclude begun _ _ tracking).closed
    · cases performs
      exact (concludes_conclude begun _ _ tracking).closed
  · cases performs

theorem Performs.closed (performs : begun.Performs performed) (tracking : begun.tracking = true) :
    begun.Closed performed := by
  cases performs with
  | idle code => exact closed_commit tracking
  | unpaid code | ran code => exact (concludes_conclude begun _ _ tracking).closed

def cleared (execution : Execution) : Execution := execution.grantRefund.deleteAccounts

theorem eq_of_settle (tracking : performed.tracking = false)
    (settled : performed.settle = .ok done) : done = performed.cleared.payBack := by
  have committed : performed.commit = performed := if_neg (ne_true_of_eq_false tracking)
  rw [settle, committed] at settled
  split at settled
  · cases settled
    rfl
  · cases settled

theorem fields_of_payBack (execution : Execution) :
    execution.payBack.outcome = execution.outcome ∧
    execution.payBack.summary.gasUsed = execution.gasUsed := by
  unfold payBack
  split
  · exact ⟨rfl, rfl⟩
  · exact ⟨rfl, rfl⟩

/-- Settling removes what is noted for removal and, unless the transaction is local, pays the sender
back. -/
theorem ledger_of_settle (tracking : performed.tracking = false)
    (settled : performed.settle = .ok done) :
    done.summary.deletions = performed.outcome.deletions ∧
      (performed.isLocal = true → done.ledger = performed.cleared.ledger) ∧
      (performed.isLocal = false →
        ∃ amount,
          done.ledger = performed.cleared.ledger.credit performed.transaction.sender amount) := by
  rw [eq_of_settle tracking settled]
  unfold payBack
  split
  · rename_i isLocal
    exact ⟨rfl, fun _ => rfl, fun notLocal => absurd isLocal (ne_true_of_eq_false notLocal)⟩
  · rename_i notLocal
    exact ⟨rfl, fun isLocal => absurd isLocal notLocal, fun _ => ⟨_, rfl⟩⟩

theorem performs_of_perform (performs : begun.perform = .ok performed)
    (ends : ∀ machine, begun.machine? = some (.ok machine) →
      (machine.run begun.environment).finished = true) :
    begun.Performs performed := by
  unfold perform at performs
  split at performs
  · split at performs
    · cases performs
      exact .idle ‹_›
    · cases performs
      exact .ran ‹_› (Machine.runFor_reaches _ _ _) (ends _ ‹_›)
    · cases performs
      exact .unpaid ‹_›
  · cases performs

/-- The phases of a transaction that is carried through. -/
theorem phases_of_run (runs : execution.run = .ok done) :
    ∃ approved begun performed, execution.approve = .ok approved ∧ approved.begin = .ok begun ∧
      begun.perform = .ok performed ∧ performed.settle = .ok done := by
  unfold run at runs
  obtain ⟨approved, accepted, runs⟩ := of_bind_eq_ok runs
  obtain ⟨begun, starts, runs⟩ := of_bind_eq_ok runs
  obtain ⟨performed, performs, settled⟩ := of_bind_eq_ok runs
  exact ⟨approved, begun, performed, accepted, starts, performs, settled⟩

theorem completes_of_run (runs : execution.run = .ok done) (ends : execution.Ends) :
    execution.Completes done := by
  obtain ⟨approved, begun, performed, accepted, starts, performs, settled⟩ := phases_of_run runs
  exact .intro accepted starts
    (performs_of_perform performs fun machine => ends approved begun machine accepted starts)
    settled

/-- Once it is approved, a transaction is carried through. -/
theorem exists_run (accepted : execution.approve = .ok approved) :
    ∃ done, execution.run = .ok done := by
  have readied : approved.ready = true := by
    rw [ready_of_approve accepted]
  obtain ⟨begun, starts⟩ : ∃ begun, approved.begin = .ok begun := by
    rw [begin_of_ready readied]
    split
    · exact ⟨_, rfl⟩
    · exact ⟨_, rfl⟩
  have follows := follows_entered starts
  have ready : begun.ready = true :=
    follows.ready.trans (approved.entered_fields.2.2.2.1.trans readied)
  obtain ⟨performed, performs⟩ : ∃ performed, begun.perform = .ok performed := by
    rw [perform, if_pos ready]
    split
    · exact ⟨_, rfl⟩
    · exact ⟨_, rfl⟩
    · exact ⟨_, rfl⟩
  have still : performed.ready = true :=
    (closed_perform follows.tracking performs).ready.trans ready
  refine ⟨performed.commit.grantRefund.deleteAccounts.payBack, ?_⟩
  simp only [run, accepted, starts, performs, settle, still, if_true, bind, Except.bind]

/-- The code begins in a fresh frame that has paid the base price and nothing else. -/
theorem solvent_of_machine (blank : approved.frame = none)
    (bounded : approved.transaction.gas ≤ Quantity.limit) (starts : approved.begin = .ok begun)
    {machine : Machine} (code : begun.machine? = some (.ok machine)) :
    ∃ paid, machine = Machine.start paid begun.ledger ∧ paid.Solvent ∧
      paid.context.gas = approved.transaction.gas ∧
      paid.outcome.gasUsed = begun.basePrice := by
  obtain ⟨frame, paid, root, spent, rfl⟩ := start_of_machine code
  obtain ⟨code, context, limit, rfl, gas⟩ := root_of_begin blank starts root
  have solvent := Frame.solvent_start code limit (Nat.le_trans (Nat.le_of_eq gas) bounded)
  obtain ⟨covered, same⟩ := Frame.eq_of_spend spent
  have context : paid.context = context := congrArg Frame.context same
  obtain ⟨ready, used⟩ := solvent.of_spend rfl covered context (congrArg Frame.outcome same)
  exact ⟨paid, rfl, ready, (congrArg Context.gas context).trans gas, used.trans (Nat.zero_add _)⟩

theorem finished_of_begin (blank : approved.frame = none)
    (covers : approved.environment.config.fees.Covers 1)
    (bounded : approved.transaction.gas ≤ Quantity.limit) (starts : approved.begin = .ok begun)
    {machine : Machine} (code : begun.machine? = some (.ok machine)) :
    (machine.run begun.environment).finished = true := by
  obtain ⟨paid, rfl, solvent, -, -⟩ := solvent_of_machine blank bounded starts code
  have still : begun.environment.config.fees.Covers 1 := by
    rw [(follows_entered starts).environment, approved.entered_fields.1]
    exact covers
  obtain ⟨ended, whole⟩ := Machine.finished_of_covers still solvent begun.ledger
  rw [whole]
  exact ended

/-- Where every instruction that goes on costs more than its stipend, the code of every transaction
ends. -/
theorem ends_of_covers {environment : Environment} {tx : Transaction} (block : Block)
    (ledger : Ledger) (usedInBlock : Nat) (isLocal : Bool)
    (covers : environment.config.fees.Covers 1) (bounded : tx.gas ≤ Quantity.limit) :
    (ofTransaction environment tx block ledger usedInBlock isLocal).Ends := by
  intro approved begun machine accepted starts code
  rw [ready_of_approve accepted] at starts
  refine finished_of_begin ?_ ?_ ?_ starts code
  · rfl
  · exact covers
  · exact bounded

/-- Under the default fees every transaction that is approved is carried through, whatever its
code. -/
theorem completes_under_default_fees {environment : Environment} {tx : Transaction} {block : Block}
    {usedInBlock : Nat} (fees : environment.config.fees = {}) (bounded : tx.gas ≤ Quantity.limit)
    (accepted : (ofTransaction environment tx block ledger usedInBlock false).approve =
      .ok approved) :
    ∃ done, (ofTransaction environment tx block ledger usedInBlock false).run = .ok done ∧
      (ofTransaction environment tx block ledger usedInBlock false).Completes done := by
  have covers : environment.config.fees.Covers 1 := by
    rw [fees]
    exact covers_default
  obtain ⟨done, runs⟩ := exists_run accepted
  exact ⟨done, runs,
    completes_of_run runs (ends_of_covers block ledger usedInBlock false covers bounded)⟩

/-- What is seen of the run is so of the transaction that is carried through. -/
theorem completes_with {environment : Environment} {tx : Transaction} {block : Block}
    {usedInBlock : Nat} {α : Type} {view : Execution → α} {seen : α}
    (fees : environment.config.fees = {}) (bounded : tx.gas ≤ Quantity.limit)
    (unopposed : (ofTransaction environment tx block ledger usedInBlock false).rejection? = none)
    (ran : (ofTransaction environment tx block ledger usedInBlock false).run.toOption.map view =
      some seen) :
    ∃ done, (ofTransaction environment tx block ledger usedInBlock false).Completes done ∧
      view done = seen := by
  obtain ⟨done, runs, completes⟩ :=
    completes_under_default_fees fees bounded (approve_of_rejection unopposed)
  rw [runs] at ran
  exact ⟨done, completes, Option.some.inj ran⟩

end

end ContractMachine.Execution
