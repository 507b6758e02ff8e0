import ContractMachine.Proofs.Execution.Fulfilment
import ContractMachine.Proofs.Service.BlockGas
import ContractMachine.Proofs.Service.LocalCalls

/-!
Nonces. What a transaction does to the ledger is an evolution of it (`evolves_of_run`) up to the
accounts that it removes in the end, so that the nonce of an account that is not removed never
falls; the nonce of a sender has risen by then. A transaction that names a nonce of the past is
refused.
-/

namespace ContractMachine

namespace Execution

section

variable {execution done : Execution} {ledger : Ledger}

/-- A transaction that is approved names the nonce of its sender. -/
theorem nonce_of_run (notLocal : execution.isLocal = false) (runs : execution.run = .ok done) :
    execution.ledger.nonce execution.transaction.sender = execution.transaction.nonce := by
  obtain ⟨approved, _, _, accepted, _⟩ := phases_of_run runs
  exact (admitted_of_rejection (approved_of_approve notLocal accepted).1).nonce

theorem nonce_charge (notLocal : execution.isLocal = false) (address : Address) :
    execution.charge.ledger.nonce address =
      if address = execution.transaction.sender then
        Ledger.nextNonce (execution.ledger.nonce execution.transaction.sender)
      else execution.ledger.nonce address := by
  rw [charge, if_neg (ne_true_of_eq_false notLocal)]
  exact (Ledger.nonce_debit _ _ _ _).trans (Ledger.nonce_bumpNonce _ _ _)

/-- What is charged is not taken back from the nonce of an account that is not removed. -/
theorem nonce_charge_le (notLocal : execution.isLocal = false) (runs : execution.run = .ok done)
    {address : Address} (kept : address ∉ done.summary.deletions) :
    execution.charge.ledger.nonce address ≤ done.ledger.nonce address := by
  obtain ⟨performed, _, evolves, deletions, _, left⟩ := evolves_of_run runs
  obtain ⟨amount, left⟩ := left notLocal
  rw [deletions] at kept
  have cleared : performed.cleared.ledger.nonce address = performed.ledger.nonce address :=
    performed.ledger.nonce_foldl_delete kept
  rw [left, Ledger.nonce_credit, cleared]
  exact evolves.nonce_le address

theorem nonce_le_of_run (notLocal : execution.isLocal = false) (runs : execution.run = .ok done)
    {address : Address} (kept : address ∉ done.summary.deletions) :
    execution.ledger.nonce address ≤ done.ledger.nonce address := by
  refine UInt64.le_trans ?_ (nonce_charge_le notLocal runs kept)
  rw [nonce_charge notLocal]
  split
  · rename_i same
    rw [same]
    exact Ledger.le_nextNonce _
  · exact UInt64.le_refl _

/-- The nonce of a transaction is used up when it is carried through. -/
theorem nonce_lt_of_run (notLocal : execution.isLocal = false) (runs : execution.run = .ok done)
    (below : execution.transaction.nonce ≠ 0xffffffffffffffff)
    (kept : execution.transaction.sender ∉ done.summary.deletions) :
    execution.transaction.nonce < done.ledger.nonce execution.transaction.sender := by
  have charged := nonce_charge_le notLocal runs kept
  rw [nonce_charge notLocal, if_pos rfl, nonce_of_run notLocal runs] at charged
  exact UInt64.lt_of_lt_of_le (Ledger.lt_nextNonce below) charged

/-- A local transaction lowers no nonce in the ledger below its checkpoint, whether or not its code
ends. -/
theorem nonce_le_of_local (isLocal : execution.isLocal = true)
    (opened : execution.ledger = ledger.checkpoint) (runs : execution.run = .ok done)
    (address : Address) :
    ledger.nonce address ≤ done.ledger.rollback.nonce address := by
  obtain ⟨performed, _, evolves, _, left, _⟩ := evolves_of_run runs
  have free : execution.charge.ledger = ledger.checkpoint := by
    rw [charge, if_pos isLocal]
    exact opened
  rw [free] at evolves
  have above : ledger.depth < performed.ledger.depth := evolves.depth (Nat.le_refl _)
  have tracked : 0 < performed.ledger.depth := Nat.lt_of_le_of_lt (Nat.zero_le _) above
  have removed : performed.cleared.ledger.rollback = performed.ledger.rollback := by
    rw [Ledger.rollback_eq_below, Ledger.rollback_eq_below]
    exact performed.keeps_cleared.below tracked 0
  rw [left isLocal, removed]
  have inner : ledger.Evolves ledger.depth execution.config.Fits performed.ledger :=
    (Ledger.Evolves.checkpoint .none).trans (evolves.mono (Nat.le_succ _))
  exact (inner.rollback above).nonce_le address

end

end Execution

def Request.deletes (request : Request) : Service.Answer → List Address
  | .ok summary => if request.isLocal then [] else summary.deletions
  | .error _ => []

namespace Service

def deletedIn : List (Except Refusal Request) → List Answer → List Address
  | .ok request :: rest, answer :: answers => request.deletes answer ++ deletedIn rest answers
  | .error _ :: rest, _ :: answers => deletedIn rest answers
  | _, _ => []

section

variable {service : Service} {request : Request} {address : Address}

def blockExecution (service : Service) (request : Request) : Execution :=
  (service.inBlock request.block.number).execution request service.ledger

theorem carryOut_of_executed (executes : request.isLocal = false) {done : Execution}
    (runs : (service.blockExecution request).run = .ok done) :
    (service.carryOut request).1 = .ok done.summary ∧
    (service.carryOut request).2.ledger = done.ledger := by
  have ran : ((service.inBlock request.block.number).execution request
      (service.inBlock request.block.number).ledger).run = .ok done := by
    rw [ledger_inBlock]
    exact runs
  simp only [carryOut, executes, Bool.false_eq_true, if_false, runInBlock, ran, and_self]

theorem carryOut_of_rejected (executes : request.isLocal = false) {rejection : Rejection}
    (runs : (service.blockExecution request).run = .error rejection) :
    (service.carryOut request).1 = .error (.rejected rejection) ∧
      (service.carryOut request).2.ledger = service.ledger := by
  have ran : ((service.inBlock request.block.number).execution request
      (service.inBlock request.block.number).ledger).run = .error rejection := by
    rw [ledger_inBlock]
    exact runs
  simp only [carryOut, executes, Bool.false_eq_true, if_false, runInBlock, ran, true_and]
  exact service.ledger_inBlock request.block.number

theorem nonce_le_carryOut (service : Service) (request : Request)
    (kept : address ∉ request.deletes (service.carryOut request).1) :
    service.ledger.nonce address ≤ (service.carryOut request).2.ledger.nonce address := by
  cases isLocal : request.isLocal with
  | true =>
      have accepted := (service.localExecution request).approve_of_local isLocal
      obtain ⟨done, runs⟩ := Execution.exists_run accepted
      rw [(carryOut_of_local isLocal runs).2]
      exact Execution.nonce_le_of_local isLocal rfl runs address
  | false =>
      cases runs : (service.blockExecution request).run with
      | error rejection =>
          rw [(carryOut_of_rejected isLocal runs).2]
          exact UInt64.le_refl _
      | ok done =>
          obtain ⟨answer, left⟩ := carryOut_of_executed isLocal runs
          rw [answer, Request.deletes, isLocal, if_neg Bool.false_ne_true] at kept
          rw [left]
          exact Execution.nonce_le_of_run isLocal runs kept

/-- A transaction is carried out with the nonce of its sender or not at all. -/
theorem refused_of_nonce (executes : request.isLocal = false)
    (stale : service.ledger.nonce request.transaction.sender ≠ request.transaction.nonce) :
    (∃ refusal, (service.carryOut request).1 = .error refusal) ∧
      (service.carryOut request).2.ledger = service.ledger := by
  cases runs : (service.blockExecution request).run with
  | ok done => exact absurd (Execution.nonce_of_run executes runs) stale
  | error rejection =>
      obtain ⟨answer, left⟩ := carryOut_of_rejected executes runs
      exact ⟨⟨_, answer⟩, left⟩

/-- An executed transaction leaves its sender with a later nonce. -/
theorem nonce_lt_carryOut {summary : Summary} (executes : request.isLocal = false)
    (executed : (service.carryOut request).1 = .ok summary)
    (below : request.transaction.nonce ≠ 0xffffffffffffffff)
    (kept : request.transaction.sender ∉ summary.deletions) :
    request.transaction.nonce <
      (service.carryOut request).2.ledger.nonce request.transaction.sender := by
  cases runs : (service.blockExecution request).run with
  | error rejection =>
      rw [(carryOut_of_rejected executes runs).1] at executed
      cases executed
  | ok done =>
      obtain ⟨answer, left⟩ := carryOut_of_executed executes runs
      rw [answer] at executed
      cases executed
      rw [left]
      exact Execution.nonce_lt_of_run executes runs below kept

theorem nonce_le_carryOutAll (service : Service) (admitted : List (Except Refusal Request))
    (kept : address ∉ deletedIn admitted (service.carryOutAll admitted).1) :
    service.ledger.nonce address ≤ (service.carryOutAll admitted).2.ledger.nonce address := by
  induction admitted generalizing service with
  | nil => exact UInt64.le_refl _
  | cons first rest ih =>
      cases first with
      | error refusal => exact ih service kept
      | ok request =>
          have parts := not_or.mp fun among => kept (List.mem_append.mpr among)
          exact UInt64.le_trans (service.nonce_le_carryOut request parts.1)
            (ih (service.carryOut request).2 parts.2)

/-- No transaction is executed twice. No run of code lowers a nonce, and no sequence of requests
lowers that of an account that none of them has removed. So once a transaction has been executed
with a nonce below the largest, every later one of the same sender with the same nonce is refused,
whatever requests lie in between, and leaves the ledger as it was, unless the sender's account has
been removed. -/
theorem executed_transaction_is_not_replayed :
    (∀ (environment : Environment) (root : Frame) (ledger : Ledger) (machine : Machine)
      (address : Address), Machine.Reaches environment (.start root ledger) machine →
        ledger.nonce address ≤ machine.ledger.nonce address) ∧
    (∀ (service : Service) (admitted : List (Except Refusal Request)) (address : Address),
      address ∉ deletedIn admitted (service.carryOutAll admitted).1 →
        service.ledger.nonce address ≤ (service.carryOutAll admitted).2.ledger.nonce address) ∧
    (∀ (service : Service) (request again : Request) (summary : Summary)
      (between : List (Except Refusal Request)), request.isLocal = false →
      (service.carryOut request).1 = .ok summary →
      request.transaction.nonce ≠ 0xffffffffffffffff →
      request.transaction.sender ∉ summary.deletions →
      let executed := (service.carryOut request).2
      request.transaction.sender ∉ deletedIn between (executed.carryOutAll between).1 →
      again.isLocal = false → again.transaction.sender = request.transaction.sender →
      again.transaction.nonce = request.transaction.nonce →
      let later := (executed.carryOutAll between).2
      (∃ refusal, (later.carryOut again).1 = .error refusal) ∧
        (later.carryOut again).2.ledger = later.ledger) := by
  refine ⟨?_, ?_, ?_⟩
  · intro environment root ledger machine address reached
    exact (Machine.evolves_of_reaches reached).nonce_le address
  · intro service admitted address kept
    exact service.nonce_le_carryOutAll admitted kept
  · intro service request again summary between executes answered below kept executed never repeats
      sender nonce later
    have used : request.transaction.nonce < executed.ledger.nonce request.transaction.sender :=
      nonce_lt_carryOut executes answered below kept
    have stays : request.transaction.nonce < later.ledger.nonce request.transaction.sender :=
      UInt64.lt_of_lt_of_le used (executed.nonce_le_carryOutAll between never)
    have stale : later.ledger.nonce again.transaction.sender ≠ again.transaction.nonce := by
      rw [sender, nonce]
      exact (UInt64.ne_of_lt stays).symm
    exact refused_of_nonce repeats stale

end

def firstTransfer : Request := { transaction := transfer 0, block := narrowBlock, isLocal := false }

-- A local transfer, and the next one of the same sender.
def nextTransfers : List (Except Refusal Request) := [
  .ok { transaction := transfer 0, block := narrowBlock, isLocal := true },
  .ok { transaction := transfer 1, block := { number := 2 }, isLocal := false }]

theorem transfer_is_not_replayed :
    Machine.Reaches {} (.start Machine.callingFrame Machine.calledLedger)
        ((Machine.start Machine.callingFrame Machine.calledLedger).runFor {} 8) ∧
      Machine.calledLedger.nonce 7 ≤
        ((Machine.start Machine.callingFrame Machine.calledLedger).runFor {} 8).ledger.nonce 7 ∧
      (7 : Address) ∉ deletedIn nextTransfers (paying.carryOutAll nextTransfers).1 ∧
      paying.ledger.nonce 7 ≤ (paying.carryOutAll nextTransfers).2.ledger.nonce 7 ∧
      ∃ summary, (paying.carryOut firstTransfer).1 = .ok summary ∧
        (7 : Address) ∉ summary.deletions ∧
        let executed := (paying.carryOut firstTransfer).2
        (7 : Address) ∉ deletedIn nextTransfers (executed.carryOutAll nextTransfers).1 ∧
          let later := (executed.carryOutAll nextTransfers).2
          (∃ refusal, (later.carryOut firstTransfer).1 = .error refusal) ∧
            (later.carryOut firstTransfer).2.ledger = later.ledger := by
  obtain ⟨runs, requests, replay⟩ := executed_transaction_is_not_replayed
  have reached := Machine.runFor_reaches {} 8 (.start Machine.callingFrame Machine.calledLedger)
  have kept : (7 : Address) ∉ deletedIn nextTransfers (paying.carryOutAll nextTransfers).1 := by
    decide +kernel
  have never : (7 : Address) ∉
      deletedIn nextTransfers ((paying.carryOut firstTransfer).2.carryOutAll nextTransfers).1 := by
        decide +kernel
  have carried : (paying.carryOut firstTransfer).1.toOption.map Summary.deletions = some [] := by
    decide +kernel
  refine ⟨reached, runs {} _ _ _ 7 reached, kept, requests paying nextTransfers 7 kept, ?_⟩
  cases answered : (paying.carryOut firstTransfer).1 with
  | error refusal =>
      rw [answered] at carried
      cases carried
  | ok summary =>
      rw [answered] at carried
      have none : summary.deletions = [] := Option.some.inj carried
      have own : (7 : Address) ∉ summary.deletions := by
        rw [none]
        exact List.not_mem_nil
      have refused :=
        replay paying firstTransfer firstTransfer summary nextTransfers rfl answered (by decide) own
          never rfl rfl rfl
      exact ⟨summary, rfl, own, never, refused⟩

end Service

end ContractMachine
