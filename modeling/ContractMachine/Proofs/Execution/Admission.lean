import ContractMachine.Proofs.Execution.Phases

/-!
Who is let in. The checks of a transaction are made with sums and products that are cut off at the
largest amount; each is the check of the numbers themselves unless the bound that it is made against
is that largest amount, and then it refuses nothing. A transaction that is not let in stays as it is
whatever else is asked of it.
-/

namespace ContractMachine

namespace Execution

section

variable {execution : Execution} {rejection : Rejection}

theorem rejection?_eq_none_iff : execution.rejection? = none ↔ execution.Admitted := by
  constructor
  · exact admitted_of_rejection
  · intro admitted
    rw [rejection?, if_neg (Nat.not_lt.mpr admitted.room), if_neg (Nat.not_lt.mpr admitted.gas),
      if_neg (not_not_intro admitted.nonce), if_neg (Nat.not_lt.mpr admitted.funds)]

theorem approve_eq_ok_iff (notLocal : execution.isLocal = false) :
    (∃ approved, execution.approve = .ok approved) ↔ execution.Admitted := by
  rw [← rejection?_eq_none_iff, approve, if_neg (ne_true_of_eq_false notLocal)]
  cases execution.rejection? with
  | none => exact iff_of_true ⟨_, rfl⟩ rfl
  | some rejection =>
      refine iff_of_false ?_ (Option.some_ne_none rejection)
      rintro ⟨approved, accepted⟩
      cases accepted

/-- What is asked of a transaction, in numbers that have no largest. -/
structure Admissible (execution : Execution) : Prop where
  room : execution.transaction.gas + execution.usedInBlock ≤ execution.block.gasLimit
  gas : execution.basePrice ≤ execution.transaction.gas
  nonce : execution.ledger.nonce execution.transaction.sender = execution.transaction.nonce
  funds : execution.transaction.value.toNat +
    execution.transaction.gas * execution.transaction.gasPrice.toNat ≤
    (execution.ledger.balance execution.transaction.sender).toNat

theorem admitted_iff :
    execution.Admitted ↔
      (execution.transaction.gas + execution.usedInBlock ≤ execution.block.gasLimit ∨
        Quantity.limit ≤ execution.block.gasLimit) ∧
      execution.basePrice ≤ execution.transaction.gas ∧
      execution.ledger.nonce execution.transaction.sender = execution.transaction.nonce ∧
      (execution.transaction.value.toNat +
        execution.transaction.gas * execution.transaction.gasPrice.toNat ≤
          (execution.ledger.balance execution.transaction.sender).toNat ∨
        (execution.ledger.balance execution.transaction.sender).toNat = Word.limit) := by
  rw [← Quantity.clamp_le_iff, ← Word.clampedAdd_clamp_le_iff]
  constructor
  · rintro ⟨room, gas, nonce, funds⟩
    exact ⟨room, gas, nonce, funds⟩
  · rintro ⟨room, gas, nonce, funds⟩
    exact ⟨room, gas, nonce, funds⟩

theorem admitted_iff_admissible (bounded : execution.block.gasLimit < Quantity.limit)
    (poorer : (execution.ledger.balance execution.transaction.sender).toNat < Word.limit) :
    execution.Admitted ↔ execution.Admissible := by
  rw [admitted_iff]
  constructor
  · rintro ⟨room, gas, nonce, funds⟩
    exact ⟨room.resolve_right (Nat.not_le.mpr bounded), gas, nonce,
      funds.resolve_right (Nat.ne_of_lt poorer)⟩
  · rintro ⟨room, gas, nonce, funds⟩
    exact ⟨.inl room, gas, nonce, .inl funds⟩

end

inductive Phase where
  | approval
  | beginning
  | performance
  | settlement
  deriving DecidableEq

def Phase.attempt : Phase → Execution → Except Rejection Execution
  | .approval => approve
  | .beginning => Execution.begin
  | .performance => perform
  | .settlement => settle

/-- Phases are asked for in any order. What comes of each is why it is refused, if it is; a phase
that is refused leaves the transaction as it was. -/
def attempts (execution : Execution) : List Phase → List (Option Rejection) × Execution
  | [] => ([], execution)
  | phase :: rest =>
      match phase.attempt execution with
      | .ok later =>
          let (answers, last) := later.attempts rest
          (none :: answers, last)
      | .error rejection =>
          let (answers, last) := execution.attempts rest
          (some rejection :: answers, last)

def Phase.refusal (rejection : Rejection) : Phase → Rejection
  | .approval => rejection
  | .beginning | .performance | .settlement => .notReady

section

variable {execution : Execution} {rejection : Rejection}

theorem attempt_of_rejected (fresh : execution.ready = false)
    (rejected : execution.approve = .error rejection) (phase : Phase) :
    phase.attempt execution = .error (phase.refusal rejection) := by
  have unready : execution.ready ≠ true := ne_true_of_eq_false fresh
  cases phase with
  | approval => exact rejected
  | beginning | performance | settlement => exact if_neg unready

/-- Nothing comes of it, whatever is asked for. -/
theorem attempts_of_rejected (fresh : execution.ready = false)
    (rejected : execution.approve = .error rejection) (phases : List Phase) :
    execution.attempts phases =
      (phases.map fun phase => some (phase.refusal rejection), execution) := by
  induction phases with
  | nil => rfl
  | cons phase rest ih =>
      simp only [attempts, attempt_of_rejected fresh rejected, ih]
      rfl

end

/-- A transaction is let in if and only if there is room for its gas in the block, its gas is enough
for its base price, its nonce is that of the sender, and the sender has its value and the price of
its gas, all in numbers that have no largest; but a block whose limit is the largest amount has room
for everything, and a sender with the largest balance has enough for anything. One that is not let
in is as it was, its ledger with it, whichever phases are asked for afterwards: approval is refused
for the same reason again, and the others because it is not ready. -/
theorem admission_is_exact_below_largest (environment : Environment) (tx : Transaction)
    (block : Block) (ledger : Ledger) (usedInBlock : Nat) :
    ((∃ approved, (ofTransaction environment tx block ledger usedInBlock false).approve =
      .ok approved) ↔
      (tx.gas + usedInBlock ≤ block.gasLimit ∨ Quantity.limit ≤ block.gasLimit) ∧
      environment.config.transactionPrice tx ≤ tx.gas ∧
      ledger.nonce tx.sender = tx.nonce ∧
      (tx.value.toNat + tx.gas * tx.gasPrice.toNat ≤ (ledger.balance tx.sender).toNat ∨
        (ledger.balance tx.sender).toNat = Word.limit)) ∧
    (block.gasLimit < Quantity.limit → (ledger.balance tx.sender).toNat < Word.limit →
      ((∃ approved, (ofTransaction environment tx block ledger usedInBlock false).approve =
        .ok approved) ↔
        (ofTransaction environment tx block ledger usedInBlock false).Admissible)) ∧
    ∀ rejection, (ofTransaction environment tx block ledger usedInBlock false).approve =
      .error rejection →
      ∀ phases, (ofTransaction environment tx block ledger usedInBlock false).attempts phases =
        (phases.map fun phase => some (phase.refusal rejection),
          ofTransaction environment tx block ledger usedInBlock false) := by
  refine ⟨(approve_eq_ok_iff rfl).trans admitted_iff, ?below, ?refused⟩
  case below =>
    intro bounded poorer
    exact (approve_eq_ok_iff rfl).trans (admitted_iff_admissible bounded poorer)
  case refused =>
    intro rejection rejected phases
    exact attempts_of_rejected rfl rejected phases

-- A transfer that costs 21000 more than its value.
def payment (value : Word) : Transaction where
  hash := 0
  sender := 7
  recipient := some 10
  nonce := 0
  value := value
  data := #[]
  gas := 21000
  gasPrice := 1

def spending (funds value : Word) : Execution :=
  ofTransaction {} (payment value) {} (Ledger.setBalance {} 7 funds) 0 false

theorem admission_is_exact_for_spending :
    (∃ approved, (spending 21005 5).approve = .ok approved) ∧
    (spending 21004 5).approve = .error (.balance 7 21005 21004) ∧
    (spending 21004 5).attempts [.approval, .beginning, .performance, .settlement] =
      ([some (.balance 7 21005 21004), some .notReady, some .notReady, some .notReady],
        spending 21004 5) := by
  have refused : (spending 21004 5).approve = .error (.balance 7 21005 21004) := by
    have found : (spending 21004 5).rejection? = some (.balance 7 21005 21004) := by decide +kernel
    rw [approve, found]
    rfl
  refine ⟨?admitted, refused, ?unchanged⟩
  case admitted =>
    refine ((admission_is_exact_below_largest _ _ _ _ _).2.1 (by decide) ?poorer).mpr
      ⟨?room, ?gas, ?nonce, ?funds⟩
    case poorer => decide +kernel
    case room => decide
    case gas => decide
    case nonce => decide +kernel
    case funds => decide +kernel
  case unchanged => exact (admission_is_exact_below_largest _ _ _ _ _).2.2 _ refused _

/-- A sender with the largest balance spends more than that. -/
theorem richest_sender_overspends :
    ¬ ∀ (environment : Environment) (tx : Transaction) (block : Block) (ledger : Ledger)
      (usedInBlock : Nat),
      tx.gas ≤ Quantity.limit → usedInBlock ≤ Quantity.limit → block.gasLimit ≤ Quantity.limit →
        ((∃ approved, (ofTransaction environment tx block ledger usedInBlock false).approve =
          .ok approved) ↔
          (ofTransaction environment tx block ledger usedInBlock false).Admissible) := by
  intro claimed
  have accepted : ∃ approved, (spending (-1) (-1)).approve = .ok approved := by
    refine (approve_eq_ok_iff rfl).mpr (admitted_iff.mpr ⟨.inl ?room, ?gas, ?nonce, .inr ?funds⟩)
    case room => decide
    case gas => decide
    case nonce => decide +kernel
    case funds => decide +kernel
  have funds := ((claimed _ _ _ _ _ (by decide) (by decide) (by decide)).mp accepted).funds
  revert funds
  decide +kernel

end Execution

end ContractMachine
