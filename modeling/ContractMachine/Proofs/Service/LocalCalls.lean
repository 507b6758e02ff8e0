import ContractMachine.Proofs.Execution.Completion
import ContractMachine.Service

/-!
Local requests. Whatever a transaction does once its checkpoint is open, it leaves what lies below
as it was when the checkpoint is closed again; a local one charges nothing before and pays nothing
back behind it. So the checkpoint that the service opens around it holds all that it has written,
and is dropped.
-/

namespace ContractMachine

namespace Ledger

theorem writes_foldl_delete (ledger : Ledger) (removed : List Address) :
    ledger.Writes (removed.foldl Ledger.delete ledger) := by
  induction removed generalizing ledger with
  | nil => exact .none
  | cons address rest ih =>
    exact (Writes.write .none address .removal).trans (ih (ledger.delete address))

end Ledger

namespace Execution

section

variable {execution approved begun performed done : Execution} {kept ledger : Ledger}

/-- What becomes of the outcome of the code is written in the checkpoint of the transaction, and
that is closed. -/
theorem Concludes.keepsBelow {outcome : Outcome}
    (concludes : begun.Concludes outcome ledger performed)
    (opened : kept.checkpoint.KeepsBelow ledger) : kept.KeepsBelow performed.ledger := by
  cases concludes with
  | kept deposits => exact (opened.trans deposits.follows.ledger).commit
  | dropped =>
      simp only
      rw [opened.rollback]
      exact .refl kept

theorem Performs.keepsBelow (performs : begun.Performs performed) (tracking : begun.tracking = true)
    (opened : kept.checkpoint.KeepsBelow begun.ledger) : kept.KeepsBelow performed.ledger := by
  cases performs with
  | idle code =>
      rw [commit, if_pos tracking]
      exact opened.commit
  | unpaid code => exact (concludes_conclude begun _ _ tracking).keepsBelow opened
  | ran code reached ends =>
      obtain ⟨frame, paid, _, _, rfl⟩ := start_of_machine code
      have tracked : 0 < begun.ledger.depth := by
        rw [opened.depth]
        exact Nat.succ_pos _
      exact (concludes_conclude begun _ _ tracking).keepsBelow
        (opened.trans (Machine.keeps_of_finished tracked reached ends))

theorem keeps_cleared (execution : Execution) :
    execution.ledger.KeepsBelow execution.cleared.ledger :=
  (execution.ledger.writes_foldl_delete _).keepsBelow

/-- A local transaction that is carried through has written to the newest checkpoint only. -/
theorem Completes.keepsBelow (completes : execution.Completes done)
    (isLocal : execution.isLocal = true) : execution.ledger.KeepsBelow done.ledger := by
  cases completes with
  | @intro approved begun performed accepted starts performs settled =>
      have free : approved.charge = approved := by
        rw [ready_of_approve accepted]
        exact if_pos isLocal
      have same : approved.ledger = execution.ledger := by
        rw [ready_of_approve accepted]
      have follows := follows_entered starts
      have closed := performs.closed follows.tracking
      have still : performed.isLocal = true := by
        rw [closed.isLocal, follows.isLocal, approved.entered_fields.2.2.1,
          ready_of_approve accepted]
        exact isLocal
      have opened : execution.ledger.checkpoint.KeepsBelow begun.ledger := by
        have below := follows.ledger
        rw [entered, free, same] at below
        exact below
      rw [(ledger_of_settle closed.tracking settled).2.1 still]
      exact (performs.keepsBelow follows.tracking opened).trans performed.keeps_cleared

/-- Local transactions are approved as they are. -/
theorem approve_of_local (execution : Execution) (isLocal : execution.isLocal = true) :
    execution.approve = .ok { execution with ready := true } :=
  if_pos isLocal

end

end Execution

namespace Service

def localExecution (service : Service) (request : Request) : Execution :=
  (service.inBlock request.block.number).execution request service.ledger.checkpoint

section

variable {service : Service} {request : Request}

theorem ledger_inBlock (service : Service) (number : Nat) :
    (service.inBlock number).ledger = service.ledger := by
  unfold inBlock
  split <;> rfl

theorem config_inBlock (service : Service) (number : Nat) :
    (service.inBlock number).config = service.config := by
  unfold inBlock
  split <;> rfl

theorem carryOut_of_local (isLocal : request.isLocal = true) {done : Execution}
    (runs : (service.localExecution request).run = .ok done) :
    (service.carryOut request).1 = .ok done.summary ∧
    (service.carryOut request).2.ledger = done.ledger.rollback := by
  have ran : ((service.inBlock request.block.number).execution request
      (service.inBlock request.block.number).ledger.checkpoint).run = .ok done := by
    rw [ledger_inBlock]
    exact runs
  simp only [carryOut, isLocal, if_true, runLocal, ran, and_self]

/-- A local request whose code comes to its end is answered, and the ledger is as it was: every
account and every slot reads as before, and as many checkpoints are open, whatever the transaction
is and does. Where every instruction that goes on costs more than its stipend, the code of every
request comes to its end. -/
theorem local_request_leaves_no_trace (service : Service) (request : Request)
    (isLocal : request.isLocal = true) :
    ((service.localExecution request).Ends →
      (∃ summary, (service.carryOut request).1 = .ok summary) ∧
        (service.carryOut request).2.ledger = service.ledger ∧
          (service.handle request).2.ledger = service.ledger) ∧
    (service.config.machine.fees.Covers 1 → request.transaction.gas ≤ Quantity.limit →
      (service.localExecution request).Ends) := by
  constructor
  · intro ends
    have accepted := (service.localExecution request).approve_of_local isLocal
    obtain ⟨done, runs⟩ := Execution.exists_run accepted
    obtain ⟨answered, left⟩ := carryOut_of_local isLocal runs
    have keeps : service.ledger.checkpoint.KeepsBelow done.ledger :=
      (Execution.completes_of_run runs ends).keepsBelow isLocal
    have same : (service.carryOut request).2.ledger = service.ledger := by
      rw [left, keeps.rollback]
    refine ⟨⟨done.summary, answered⟩, same, ?_⟩
    unfold handle
    split
    · rfl
    · exact same
  · intro covers bounded
    have known : (service.inBlock request.block.number).config.machine.fees.Covers 1 := by
      rw [config_inBlock]
      exact covers
    exact Execution.ends_of_covers _ _ _ _ known bounded

end

-- Two checkpoints are open, and the code that is called fills a slot and fails.
def trying : Service := { config := {}, ledger := Execution.failingLedger.checkpoint.checkpoint }

def failingRequest : Request :=
  { transaction := Execution.failingCall, block := {}, isLocal := true }

theorem failing_request_leaves_no_trace :
    failingRequest.isLocal = true ∧ trying.config.machine.fees.Covers 1 ∧
    (trying.localExecution failingRequest).Ends ∧
      (∃ summary, (trying.carryOut failingRequest).1 = .ok summary) ∧
      (trying.handle failingRequest).2.ledger = trying.ledger := by
  obtain ⟨leaves, comes⟩ := local_request_leaves_no_trace trying failingRequest rfl
  have ends := comes covers_default (by decide)
  obtain ⟨answered, _, same⟩ := leaves ends
  exact ⟨rfl, covers_default, ends, answered, same⟩

end Service

end ContractMachine
