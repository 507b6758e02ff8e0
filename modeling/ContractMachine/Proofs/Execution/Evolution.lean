import ContractMachine.Proofs.Execution.Completion
import ContractMachine.Proofs.Machine.Evolution

/-!
The ledger under a transaction. From what is charged up front to what is left to settle it evolves,
with all checkpoints left open that were open before, and the only code that is deployed is short
enough.
-/

namespace ContractMachine.Execution

section

variable {execution approved begun performed later done : Execution} {outcome : Outcome}
  {base : Nat} {codes : Bytes → Prop} {ledger : Ledger}

theorem evolves_charge (execution : Execution) :
    execution.ledger.Evolves base codes execution.charge.ledger := by
  unfold charge
  split
  · exact .none
  · exact (Ledger.evolves_bumpNonce _ _).trans (Ledger.evolves_debit _ _ _)

theorem evolves_begin (starts : approved.begin = .ok begun) :
    approved.charge.ledger.Evolves base codes begun.ledger := by
  have opened : approved.charge.ledger.Evolves base codes approved.entered.ledger :=
    .checkpoint .none
  rcases ledger_of_begin starts with same | ⟨target, same⟩ | ⟨address, same⟩
  · rw [same]
    exact opened
  · rw [same]
    exact opened.trans (Ledger.evolves_transfer _ _ _ _)
  · rw [same]
    exact (opened.trans (Ledger.evolves_bumpNonce _ _)).trans (Ledger.evolves_transfer _ _ _ _)

/-- The checkpoint of a transaction that has begun lies on top of those that were open. -/
theorem depth_charge_lt (starts : approved.begin = .ok begun) :
    approved.charge.ledger.depth < begun.ledger.depth := by
  rw [(follows_entered starts).ledger.depth]
  exact Nat.lt_succ_self _

theorem config_of_begin (starts : approved.begin = .ok begun) : begun.config = approved.config :=
  congrArg Environment.config ((follows_entered starts).environment.trans approved.entered_fields.1)

theorem Deposits.evolves (deposits : begun.Deposits outcome ledger later) :
    ledger.Evolves base begun.config.Fits later.ledger := by
  cases deposits with
  | deployed creation sound found =>
    exact Ledger.evolves_setCode ledger _ (Config.fits_of_deploy found)
  | unasked | emptied | refused => exact .none

theorem Concludes.evolves (concludes : begun.Concludes outcome ledger performed)
    (above : base < ledger.depth) :
    ledger.Evolves base begun.config.Fits performed.ledger := by
  cases concludes with
  | kept deposits =>
      refine .commit deposits.evolves ?_
      rw [deposits.follows.ledger.depth]
      exact above
  | dropped => exact .rollback .none above

theorem evolves_commit (tracking : begun.tracking = true) (above : base < begun.ledger.depth) :
    begun.ledger.Evolves base codes begun.commit.ledger := by
  rw [commit, if_pos tracking]
  exact .commit .none above

/-- Whether or not the code of the transaction has ended by then. -/
theorem evolves_conclude {machine last : Machine} (tracking : begun.tracking = true)
    (above : base < begun.ledger.depth) (code : begun.machine? = some (.ok machine))
    (reached : Machine.Reaches begun.environment machine last) :
    begun.ledger.Evolves base begun.config.Fits
      (begun.conclude last.frame.outcome last.ledger).ledger := by
  obtain ⟨frame, paid, _, _, rfl⟩ := start_of_machine code
  have ran : begun.ledger.Evolves begun.ledger.depth begun.config.Fits last.ledger :=
    Machine.evolves_within_limit reached
  have still := Nat.lt_of_lt_of_le above (ran.depth (Nat.le_refl _))
  exact (ran.mono (Nat.le_of_lt above)).trans
    ((concludes_conclude begun _ _ tracking).evolves still)

theorem evolves_perform (tracking : begun.tracking = true) (above : base < begun.ledger.depth)
    (performs : begun.perform = .ok performed) :
      begun.ledger.Evolves base begun.config.Fits performed.ledger := by
  unfold perform at performs
  split at performs
  · split at performs
    · cases performs
      exact evolves_commit tracking above
    · rename_i machine code
      cases performs
      exact evolves_conclude tracking above code (Machine.runFor_reaches _ _ _)
    · cases performs
      exact (concludes_conclude begun _ _ tracking).evolves above
  · cases performs

theorem Performs.evolves (performs : begun.Performs performed) (tracking : begun.tracking = true)
    (above : base < begun.ledger.depth) :
      begun.ledger.Evolves base begun.config.Fits performed.ledger := by
  cases performs with
  | idle code => exact evolves_commit tracking above
  | unpaid code => exact (concludes_conclude begun _ _ tracking).evolves above
  | ran code reached ends => exact evolves_conclude tracking above code reached

/-- From what is charged up front to what is left to settle, the ledger evolves, with all
checkpoints left open that were open before. -/
theorem evolves_of_run (runs : execution.run = .ok done) :
    ∃ performed : Execution, performed.isLocal = execution.isLocal ∧
      execution.charge.ledger.Evolves execution.charge.ledger.depth execution.config.Fits
        performed.ledger ∧
      done.summary.deletions = performed.outcome.deletions ∧
      (execution.isLocal = true → done.ledger = performed.cleared.ledger) ∧
      (execution.isLocal = false →
        ∃ amount,
          done.ledger = performed.cleared.ledger.credit execution.transaction.sender amount) := by
  obtain ⟨approved, begun, performed, accepted, starts, performs, settled⟩ := phases_of_run runs
  have follows := follows_entered starts
  have closed := closed_perform follows.tracking performs
  obtain ⟨_, transaction, isLocal, _⟩ := approved.entered_fields
  rw [← follows.transaction, ← closed.transaction] at transaction
  rw [← follows.isLocal, ← closed.isLocal] at isLocal
  have before : approved.charge.ledger = execution.charge.ledger := by
    rw [ready_of_approve accepted]
    unfold charge
    split <;> rfl
  have config : begun.config = execution.config := by
    rw [config_of_begin starts, ready_of_approve accepted]
    rfl
  have begins :
      execution.charge.ledger.Evolves execution.charge.ledger.depth execution.config.Fits
      begun.ledger := by
    rw [← before]
    exact evolves_begin starts
  have above : execution.charge.ledger.depth < begun.ledger.depth := by
    rw [← before]
    exact depth_charge_lt starts
  have ran := evolves_perform follows.tracking above performs
  rw [config] at ran
  obtain ⟨deletions, ofLocal, ofOther⟩ := ledger_of_settle closed.tracking settled
  rw [ready_of_approve accepted] at transaction isLocal
  rw [isLocal] at ofLocal ofOther
  rw [transaction] at ofOther
  exact ⟨performed, isLocal, begins.trans ran, deletions, ofLocal, ofOther⟩

end

end ContractMachine.Execution
