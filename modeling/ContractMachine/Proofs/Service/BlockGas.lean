import ContractMachine.Proofs.Execution.Completion
import ContractMachine.Service

/-!
The gas of a block. The service counts what executed transactions use and lets none begin whose gas
would go past the limit of the block, so that the count stays within the limit. But every request
whose block has another number starts the count anew, local ones too: the limit holds for what is
executed after the last such request, and not for the block as a whole.
-/

namespace ContractMachine

namespace Execution

section

variable {execution performed done : Execution}

theorem transaction_settle (settled : performed.settle = .ok done) :
    done.transaction = performed.transaction := by
  unfold settle at settled
  split at settled
  · cases settled
    unfold payBack commit
    split
    · split <;> rfl
    · split <;> rfl
  · cases settled

theorem transaction_of_run (runs : execution.run = .ok done) :
    done.transaction = execution.transaction := by
  obtain ⟨approved, begun, performed, accepted, starts, performs, settled⟩ := phases_of_run runs
  have follows := follows_entered starts
  calc
    done.transaction = performed.transaction := transaction_settle settled
    _ = begun.transaction := (closed_perform follows.tracking performs).transaction
    _ = approved.entered.transaction := follows.transaction
    _ = approved.transaction := approved.entered_fields.2.1
    _ = execution.transaction := by rw [ready_of_approve accepted]

/-- A transaction that is carried out has found room for all its gas, and reports no more as
used. -/
theorem gasUsed_of_run {environment : Environment} {tx : Transaction} {block : Block}
    {ledger : Ledger} {usedInBlock : Nat}
    (runs : (ofTransaction environment tx block ledger usedInBlock false).run = .ok done) :
    done.summary.gasUsed ≤ tx.gas ∧ Quantity.clamp (tx.gas + usedInBlock) ≤ block.gasLimit := by
  have transaction : done.transaction = tx := transaction_of_run runs
  constructor
  · change done.transaction.gas - done.gasLeft ≤ tx.gas
    rw [transaction]
    exact Nat.sub_le _ _
  · obtain ⟨approved, accepted, _⟩ := of_bind_eq_ok runs
    exact (admitted_of_rejection (approved_of_approve rfl accepted).1).room

end

end Execution

/-- The gas that an answered request has used of its block. Local requests use none. -/
def Request.gasIn (request : Request) : Service.Answer → Nat
  | .ok summary => if request.isLocal then 0 else summary.gasUsed
  | .error _ => 0

namespace Service

def executedGas : List (Except Refusal Request) → List Answer → Nat
  | .ok request :: rest, answer :: answers => request.gasIn answer + executedGas rest answers
  | .error _ :: rest, _ :: answers => executedGas rest answers
  | _, _ => 0

def ExecutesIn (number limit : Nat) (admitted : List (Except Refusal Request)) : Prop :=
  ∀ request, .ok request ∈ admitted → request.isLocal = false →
    request.block.number = number ∧ request.block.gasLimit = limit

def counted (service : Service) (number : Nat) : Nat := (service.inBlock number).usedInBlock

section

variable {number limit : Nat}

/-- The block of a request becomes the current one, and what the request has used is added to its
count. -/
theorem carryOut_spec (service : Service) (request : Request) :
    (service.carryOut request).2.blockNumber = request.block.number ∧
      (service.carryOut request).2.usedInBlock =
        service.counted request.block.number + request.gasIn (service.carryOut request).1 := by
  have current : (service.inBlock request.block.number).blockNumber = request.block.number := by
    unfold inBlock
    split
    · assumption
    · rfl
  unfold carryOut counted
  cases isLocal : request.isLocal with
  | true =>
      simp only [if_true, runLocal]
      cases ((service.inBlock request.block.number).execution request _).run with
      | error rejection => exact ⟨current, rfl⟩
      | ok done => exact ⟨current, by simp only [Request.gasIn, isLocal, if_true, Nat.add_zero]⟩
  | false =>
      simp only [Bool.false_eq_true, if_false, runInBlock]
      cases ((service.inBlock request.block.number).execution request _).run with
      | error rejection => exact ⟨current, rfl⟩
      | ok done =>
        exact ⟨current, by simp only [Request.gasIn, isLocal, Bool.false_eq_true, if_false]⟩

/-- What is executed fits into its block, with what is counted there already. -/
theorem gasIn_carryOut (service : Service) (request : Request) (executes : request.isLocal = false)
    (bounded : request.block.gasLimit < Quantity.limit)
    (within : service.counted request.block.number ≤ request.block.gasLimit) :
    service.counted request.block.number + request.gasIn (service.carryOut request).1 ≤
      request.block.gasLimit := by
  unfold carryOut
  rw [executes]
  simp only [Bool.false_eq_true, if_false, runInBlock]
  cases runs : ((service.inBlock request.block.number).execution request
      (service.inBlock request.block.number).ledger).run with
  | error rejection => exact within
  | ok done =>
      unfold execution at runs
      rw [executes] at runs
      obtain ⟨part, room⟩ := Execution.gasUsed_of_run runs
      change Quantity.clamp (request.transaction.gas + service.counted request.block.number) ≤
        _ at room
      -- A limit below the largest quantity is not met by cutting the sum off.
      have fits : request.transaction.gas + service.counted request.block.number ≤
          request.block.gasLimit := by
        unfold Quantity.clamp at room
        omega
      simp only [Request.gasIn, executes, Bool.false_eq_true, if_false]
      omega

theorem counted_of_current {service : Service} (current : service.blockNumber = number) :
    service.counted number = service.usedInBlock :=
  congrArg usedInBlock (if_pos current)

theorem counted_of_other {service : Service} (other : service.blockNumber ≠ number) :
    service.counted number = 0 :=
  congrArg usedInBlock (if_neg other)

theorem counted_carryOut (service : Service) {request : Request}
    (inside : request.block.number = number) :
    (service.carryOut request).2.counted number =
      service.counted number + request.gasIn (service.carryOut request).1 := by
  obtain ⟨current, used⟩ := service.carryOut_spec request
  rw [inside] at current used
  exact (counted_of_current current).trans used

/-- No request takes the count of the block past its limit. -/
theorem counted_carryOut_le {service : Service} {request : Request}
    (bounded : limit < Quantity.limit) (within : service.counted number ≤ limit)
    (executes : request.isLocal = false → request.block.number = number ∧
      request.block.gasLimit = limit) :
    (service.carryOut request).2.counted number ≤ limit := by
  obtain ⟨current, used⟩ := service.carryOut_spec request
  cases isLocal : request.isLocal with
  | false =>
      obtain ⟨rfl, rfl⟩ := executes isLocal
      rw [counted_of_current current, used]
      exact service.gasIn_carryOut request isLocal bounded within
  | true =>
      have free : request.gasIn (service.carryOut request).1 = 0 := by
        unfold Request.gasIn
        split
        · exact if_pos isLocal
        · rfl
      by_cases inside : request.block.number = number
      · rw [service.counted_carryOut inside, free]
        exact within
      · rw [← current] at inside
        rw [counted_of_other inside]
        exact Nat.zero_le limit

theorem ExecutesIn.tail {first : Except Refusal Request} {rest : List (Except Refusal Request)}
    (executes : ExecutesIn number limit (first :: rest)) : ExecutesIn number limit rest :=
  fun request inside => executes request (List.mem_cons_of_mem first inside)

theorem counted_carryOutAll_le {service : Service} {admitted : List (Except Refusal Request)}
    (bounded : limit < Quantity.limit) (within : service.counted number ≤ limit)
    (executes : ExecutesIn number limit admitted) :
      (service.carryOutAll admitted).2.counted number ≤ limit := by
  induction admitted generalizing service with
  | nil => exact within
  | cons first rest ih =>
      cases first with
      | error refusal => exact ih within executes.tail
      | ok request =>
          have next := counted_carryOut_le bounded within (executes request List.mem_cons_self)
          exact ih next executes.tail

/-- As long as no request names another block, all that is executed is counted. -/
theorem counted_carryOutAll (service : Service) {admitted : List (Except Refusal Request)}
    (inside : ∀ request, .ok request ∈ admitted → request.block.number = number) :
    (service.carryOutAll admitted).2.counted number =
      service.counted number + executedGas admitted (service.carryOutAll admitted).1 := by
  induction admitted generalizing service with
  | nil => rfl
  | cons first rest ih =>
      have others : ∀ request, .ok request ∈ rest → request.block.number = number :=
        fun request among => inside request (List.mem_cons_of_mem first among)
      cases first with
      | error refusal => exact ih service others
      | ok request =>
          have here := service.counted_carryOut (inside request List.mem_cons_self)
          have later := ih (service.carryOut request).2 others
          rw [here] at later
          exact later.trans (Nat.add_assoc _ _ _)

/-- Where all executions are for one block, what is executed behind the last request for another
block uses no more gas than the limit allows: of any requests, the later ones may all be for this
block. -/
theorem gas_executed_in_block_le {service : Service} (fresh : service.usedInBlock = 0)
    (bounded : limit < Quantity.limit) {before later : List (Except Refusal Request)}
    (executes : ExecutesIn number limit (before ++ later))
    (inside : ∀ request, .ok request ∈ later → request.block.number = number) :
    executedGas later ((service.carryOutAll before).2.carryOutAll later).1 ≤ limit := by
  have none : service.counted number ≤ limit := by
    unfold counted inBlock
    split
    · rw [fresh]
      exact Nat.zero_le limit
    · exact Nat.zero_le limit
  have first : ExecutesIn number limit before :=
    fun request among => executes request (List.mem_append_left later among)
  have second : ExecutesIn number limit later :=
    fun request among => executes request (List.mem_append_right before among)
  have reached := counted_carryOutAll_le bounded none first
  have within := counted_carryOutAll_le bounded reached second
  rw [counted_carryOutAll _ inside] at within
  omega

end

-- A transfer to an account without code.
def transfer (nonce : UInt64) : Transaction where
  hash := 0
  sender := 7
  recipient := some 10
  nonce := nonce
  value := 1
  data := #[]
  gas := 21000
  gasPrice := 0

def narrowBlock : Block := { number := 1, gasLimit := 30000 }

def paying : Service := { config := {}, ledger := Ledger.credit {} 7 1000000 }

-- The local request stands in another block.
def interrupted : List (Except Refusal Request) := [
  .ok { transaction := transfer 0, block := narrowBlock, isLocal := false },
  .ok { transaction := transfer 0, block := { number := 2 }, isLocal := true }]

def resumed : List (Except Refusal Request) :=
  [.ok { transaction := transfer 1, block := narrowBlock, isLocal := false }]

theorem executes_in_narrowBlock : ExecutesIn 1 30000 (interrupted ++ resumed) := by
  intro request among executes
  simp only [interrupted, resumed, List.cons_append, List.nil_append, List.mem_cons,
    Except.ok.injEq, List.not_mem_nil, or_false] at among
  rcases among with rfl | rfl | rfl
  · exact ⟨rfl, rfl⟩
  · cases executes
  · exact ⟨rfl, rfl⟩

theorem gas_executed_in_narrowBlock_le :
    paying.usedInBlock = 0 ∧ 30000 < Quantity.limit ∧ ExecutesIn 1 30000 (interrupted ++ resumed) ∧
      (∀ request, .ok request ∈ resumed → request.block.number = 1) ∧
      executedGas resumed ((paying.carryOutAll interrupted).2.carryOutAll resumed).1 ≤ 30000 := by
  have inside : ∀ request, .ok request ∈ resumed → request.block.number = 1 := by
    intro request among
    simp only [resumed, List.mem_singleton, Except.ok.injEq] at among
    rw [among]
    rfl
  have bounded : 30000 < Quantity.limit := by decide
  exact ⟨rfl, bounded, executes_in_narrowBlock, inside,
    gas_executed_in_block_le rfl bounded executes_in_narrowBlock inside⟩

/-- The block as a whole may hold more than its limit: a local request for another block makes the
service forget what the block holds already. -/
theorem block_holds_more_than_limit :
    ¬ ∀ (service : Service) (number limit : Nat) (admitted : List (Except Refusal Request)),
      service.usedInBlock = 0 → ExecutesIn number limit admitted →
        executedGas admitted (service.carryOutAll admitted).1 ≤ limit := by
  intro bound
  have within := bound paying 1 30000 (interrupted ++ resumed) rfl executes_in_narrowBlock
  have both : executedGas (interrupted ++ resumed) (paying.carryOutAll (interrupted ++ resumed)).1 =
      42000 := by
    decide +kernel
  omega

end Service

end ContractMachine
