import ContractMachine.Proofs.Site.Call

/-!
The gas of a frame. What is quoted can be paid, so that paying is an exact sum, and a fault uses up
whatever is left. A call is priced at its own work, the growth of memory and what it hands on; under
the default fees no instruction that goes on is free, not even a call that is given a stipend.
-/

namespace ContractMachine

def Price.own (price : Price) : Nat := price.work + price.growth

def Opcode.halts : Opcode → Bool
  | .stop | .returning | .revert | .suicide => true
  | _ => false

def Fees.least (fees : Fees) : Opcode → Nat
  | .suicide => fees.suicide
  | .sload => fees.sload
  | .balance => fees.balance
  | .sstore => min fees.setSlot (min fees.resetSlot fees.clearSlot)
  | .returning | .revert => 0
  | .sha3 => Quantity.clamp fees.sha3
  | .extCodeSize => fees.extCodeSize
  | .extCodeCopy => fees.extCodeCopy
  | .call _ => fees.call
  | .create => fees.create
  | .log _ => Quantity.clamp fees.log
  | .binary .exp => fees.exp
  | op => op.tier.cost

theorem least_le_slotPrice (fees : Fees) (current : Option Word) (value : Word) :
    fees.least .sstore ≤ (fees.slotPrice current value).1 := by
  have least : fees.least .sstore = min fees.setSlot (min fees.resetSlot fees.clearSlot) := rfl
  rw [least]
  by_cases zero : value = 0
  · cases current <;> simp only [Fees.slotPrice, zero, if_true] <;> omega
  · cases current <;> simp only [Fees.slotPrice, zero, if_false] <;> omega

theorem Stack.of_get_eq_ok {stack : Stack} {depth : Nat} {word : Word}
    (found : stack.get depth = .ok word) : word = stack.words.getD depth 0 := by
  unfold get at found
  split at found
  · rename_i held present
    cases found
    rw [List.getD_eq_getElem?_getD, present]
    rfl
  · cases found

namespace Frame

/-- What a call hands on beside what it has paid for. -/
def stipend (frame : Frame) (fees : Fees) : Opcode → Nat
  | .call kind => if kind.valueOperand frame = 0 then 0 else fees.stipend
  | _ => 0

section

variable {frame : Frame} {fees : Fees} {ledger : Ledger} {op : Opcode} {price : Price}

theorem workAndGrowth_spec {work : Nat} {offset size : Word}
    (priced : frame.workAndGrowth fees work offset size = .ok price) :
    price.work = work ∧ price.forwarded = 0 ∧ price.refund = 0 ∧
    frame.growthFor fees offset size = .ok price.growth := by
  obtain ⟨growth, grown, priced⟩ := of_bind_eq_ok priced
  cases priced
  exact ⟨rfl, rfl, rfl, grown⟩

theorem copyPrice_spec {fixed : Nat} {offset size : Word}
    (priced : frame.copyPrice fees fixed offset size = .ok price) :
    fixed ≤ price.work ∧ price.refund = 0 ∧
    frame.growthFor fees offset size = .ok price.growth := by
  obtain ⟨growth, grown, priced⟩ := of_bind_eq_ok priced
  cases priced
  exact ⟨Nat.le_add_right _ _, rfl, grown⟩

def callNeeded (frame : Frame) (first : Nat) : Nat :=
  max (memoryNeeded (frame.operand first) (frame.operand (first + 1)))
    (memoryNeeded (frame.operand (first + 2)) (frame.operand (first + 3)))

theorem callPrice_spec {kind : CallKind} (priced : frame.callPrice fees kind = .ok price) :
    price.work = fees.call + (if kind.valueOperand frame = 0 then 0 else fees.valueTransfer) ∧
    price.refund = 0 ∧
      fees.growth frame.memory.size (frame.callNeeded kind.firstWindow) = .ok price.growth := by
  -- What is left of the computation once the value is known.
  have rest {first : Nat} {requested value : Word} (priced : (do
      let input := memoryNeeded (← frame.stack.get first) (← frame.stack.get (first + 1))
      let output := memoryNeeded (← frame.stack.get (first + 2)) (← frame.stack.get (first + 3))
      let growth ← fees.growth frame.memory.size (max input output)
      let work := fees.call + (if value = 0 then 0 else fees.valueTransfer)
      let available := frame.gasLeft
      if available < work + growth then .error (.outOfGas kind.mnemonic (work + growth) available)
      else .ok { work, growth, forwarded := Gas.forwarded requested (available - (work + growth)) })
        =
        Except.ok price) :
      price.work = fees.call + (if value = 0 then 0 else fees.valueTransfer) ∧ price.refund = 0 ∧
        fees.growth frame.memory.size (frame.callNeeded first) = .ok price.growth := by
    obtain ⟨inOffset, gotInOffset, priced⟩ := of_bind_eq_ok priced
    obtain ⟨inSize, gotInSize, priced⟩ := of_bind_eq_ok priced
    obtain ⟨outOffset, gotOutOffset, priced⟩ := of_bind_eq_ok priced
    obtain ⟨outSize, gotOutSize, priced⟩ := of_bind_eq_ok priced
    obtain ⟨growth, grown, priced⟩ := of_bind_eq_ok priced
    rw [Stack.of_get_eq_ok gotInOffset, Stack.of_get_eq_ok gotInSize,
      Stack.of_get_eq_ok gotOutOffset, Stack.of_get_eq_ok gotOutSize] at grown
    simp only at priced
    generalize fees.call + (if value = 0 then 0 else fees.valueTransfer) = work at priced ⊢
    split at priced
    · cases priced
    · cases priced
      exact ⟨rfl, rfl, grown⟩
  unfold callPrice at priced
  obtain ⟨requested, _, priced⟩ := of_bind_eq_ok priced
  rw [CallKind.valueOperand, CallKind.firstWindow]
  cases hasValue : kind.hasValue with
  | true =>
      simp only [hasValue, if_true] at priced ⊢
      obtain ⟨value, valued, priced⟩ := of_bind_eq_ok priced
      have operand : value = frame.operand 2 := Stack.of_get_eq_ok valued
      rw [← operand]
      exact rest priced
  | false =>
      simp only [hasValue, Bool.false_eq_true, if_false] at priced ⊢
      exact rest priced

/-- No instruction is cheaper than its least price, and none but SSTORE adds to the refund. -/
theorem least_le_work (priced : frame.price fees ledger op = .ok price) :
    fees.least op ≤ price.work ∧ (op ≠ .sstore → price.refund = 0) := by
  have grown {work : Nat} {offset size : Word} (least : fees.least op ≤ work)
      (priced : frame.workAndGrowth fees work offset size = .ok price) :
      fees.least op ≤ price.work ∧ (op ≠ .sstore → price.refund = 0) := by
    obtain ⟨same, _, refund, _⟩ := workAndGrowth_spec priced
    rw [same]
    exact ⟨least, fun _ => refund⟩
  have copied {fixed : Nat} {offset size : Word} (least : fees.least op ≤ fixed)
      (priced : frame.copyPrice fees fixed offset size = .ok price) :
      fees.least op ≤ price.work ∧ (op ≠ .sstore → price.refund = 0) := by
    obtain ⟨more, refund, _⟩ := copyPrice_spec priced
    exact ⟨Nat.le_trans least more, fun _ => refund⟩
  have fixed {work : Nat} (least : fees.least op ≤ work)
      (priced : (.ok { work := work } : Except Fault Price) = .ok price) :
      fees.least op ≤ price.work ∧ (op ≠ .sstore → price.refund = 0) := by
    cases priced
    exact ⟨least, fun _ => rfl⟩
  -- Every price but those of SSTORE and CALL comes to one of these three forms.
  unfold Frame.price at priced
  cases op with
  | sstore =>
      obtain ⟨key, _, priced⟩ := of_bind_eq_ok priced
      obtain ⟨value, _, priced⟩ := of_bind_eq_ok priced
      cases priced
      exact ⟨least_le_slotPrice fees _ value, fun other => absurd rfl other⟩
  | mload | mstore | mstore8 =>
      obtain ⟨offset, _, priced⟩ := of_bind_eq_ok priced
      exact grown (Nat.le_refl _) priced
  | returning | revert =>
      obtain ⟨offset, _, priced⟩ := of_bind_eq_ok priced
      obtain ⟨size, _, priced⟩ := of_bind_eq_ok priced
      exact grown (Nat.le_refl _) priced
  | sha3 =>
      obtain ⟨size, _, priced⟩ := of_bind_eq_ok priced
      obtain ⟨offset, _, priced⟩ := of_bind_eq_ok priced
      exact grown (Quantity.clamp_mono (Nat.le_add_right _ _)) priced
  | copy source =>
      obtain ⟨offset, _, priced⟩ := of_bind_eq_ok priced
      obtain ⟨size, _, priced⟩ := of_bind_eq_ok priced
      exact copied (Nat.le_refl _) priced
  | extCodeCopy =>
      obtain ⟨offset, _, priced⟩ := of_bind_eq_ok priced
      obtain ⟨size, _, priced⟩ := of_bind_eq_ok priced
      exact copied (Nat.le_refl _) priced
  | call kind =>
      obtain ⟨work, refund, _⟩ := callPrice_spec priced
      rw [work]
      exact ⟨Nat.le_add_right _ _, fun _ => refund⟩
  | create =>
      obtain ⟨offset, _, priced⟩ := of_bind_eq_ok priced
      obtain ⟨size, _, priced⟩ := of_bind_eq_ok priced
      exact grown (Nat.le_refl _) priced
  | log topics =>
      obtain ⟨size, _, priced⟩ := of_bind_eq_ok priced
      simp only at priced
      split at priced
      · cases priced
      · split at priced
        · cases priced
        · obtain ⟨offset, _, priced⟩ := of_bind_eq_ok priced
          refine grown ?_ priced
          simp only [Fees.least, Fees.logPrice, Quantity.clamp]
          omega
  | binary operation =>
      cases operation with
      | exp =>
          obtain ⟨exponent, _, priced⟩ := of_bind_eq_ok priced
          exact fixed (Nat.le_add_right _ _) priced
      | _ => exact fixed (Nat.le_refl _) priced
  | _ => exact fixed (Nat.le_refl _) priced

end

end Frame

/-- An instruction that goes on costs at least `least` more than the stipend that it gives away. -/
def Fees.Covers (fees : Fees) (least : Nat) : Prop :=
  ∀ (frame : Frame) (ledger : Ledger) (op : Opcode) (price : Price),
    frame.price fees ledger op = .ok price → op.halts = false →
      frame.stipend fees op + least ≤ price.work

theorem covers_of_stipend {fees : Fees} (covered : fees.stipend ≤ fees.call + fees.valueTransfer) :
    fees.Covers 0 := by
  intro frame ledger op price priced _
  cases op with
  | call kind =>
      have work := (Frame.callPrice_spec priced).1
      rw [Frame.stipend, work]
      split <;> omega
  | _ => exact Nat.zero_le _

theorem least_pos {op : Opcode} (goes : op.halts = false) : 0 < Fees.least {} op := by
  cases op with
  | stop | returning | revert | suicide => cases goes
  | binary operation => cases operation <;> exact Nat.succ_pos _
  | _ => exact Nat.succ_pos _

theorem covers_default : Fees.Covers {} 1 := by
  intro frame ledger op price priced goes
  have least := (Frame.least_le_work priced).1
  have positive := least_pos goes
  cases op with
  | call kind =>
      have work := (Frame.callPrice_spec priced).1
      rw [Frame.stipend, work]
      split <;> simp
  | _ =>
      change 0 + 1 ≤ price.work
      omega

namespace Frame

/-- No more gas is used than the frame was given, and all of it once there is a fault. -/
structure Solvent (frame : Frame) : Prop where
  bounded : frame.context.gas ≤ Quantity.limit
  within : frame.outcome.gasUsed ≤ frame.context.gas
  spent : frame.outcome.fault.isSome = true → frame.stopped = true ∧
  frame.outcome.gasUsed = frame.context.gas

theorem solvent_start (code : Bytes) {context : Context} (stackLimit : Nat)
    (bounded : context.gas ≤ Quantity.limit) : (start code context stackLimit).Solvent := by
  refine ⟨bounded, Nat.zero_le _, ?_⟩
  intro fault
  cases fault

section

variable {environment : Environment} {frame later : Frame} {fees : Fees} {ledger : Ledger}
  {op : Opcode} {price : Price}

theorem Solvent.goes (solvent : frame.Solvent) (runs : frame.stopped = false) :
    frame.outcome.fault = none := by
  cases fault : frame.outcome.fault with
  | none => rfl
  | some cause =>
      have stopped := (solvent.spent (by rw [fault]; rfl)).1
      rw [runs] at stopped
      cases stopped

theorem Solvent.of_goes (solvent : frame.Solvent) (same : later.context = frame.context)
    (within : later.outcome.gasUsed ≤ frame.context.gas) (goes : later.outcome.fault = none) :
      later.Solvent := by
  rw [← same] at within
  refine ⟨?_, within, ?_⟩
  · rw [same]
    exact solvent.bounded
  · intro fault
    rw [goes] at fault
    cases fault

theorem eq_of_spend {gas : Nat} {cause : String} (spent : frame.spend gas cause = .ok later) :
    gas ≤ frame.gasLeft ∧ later = { frame with outcome := frame.outcome.spend gas } := by
  unfold spend at spent
  split at spent
  · cases spent
  · rename_i covered
    exact ⟨Nat.le_of_not_lt covered, (Except.ok.inj spent).symm⟩

/-- What a frame has left can be spent in full: the sum is exact. -/
theorem Solvent.gasUsed_spend (solvent : frame.Solvent) {gas : Nat} (left : gas ≤ frame.gasLeft) :
    (frame.outcome.spend gas).gasUsed = frame.outcome.gasUsed + gas := by
  have within := solvent.within
  have bounded := solvent.bounded
  have fits : frame.outcome.gasUsed + gas ≤ Quantity.limit := by
    unfold gasLeft at left
    omega
  exact (Quantity.clamp_eq_iff _).mpr fits

theorem Solvent.of_spend (solvent : frame.Solvent) (goes : frame.outcome.fault = none) {gas : Nat}
    (left : gas ≤ frame.gasLeft) (same : later.context = frame.context)
    (outcome : later.outcome = frame.outcome.spend gas) :
    later.Solvent ∧ later.outcome.gasUsed = frame.outcome.gasUsed + gas := by
  have used : later.outcome.gasUsed = frame.outcome.gasUsed + gas := by
    rw [outcome]
    exact solvent.gasUsed_spend left
  have within := solvent.within
  refine ⟨solvent.of_goes same ?_ ?_, used⟩
  · rw [used]
    unfold gasLeft at left
    omega
  · rw [outcome]
    exact goes

theorem Solvent.gasUsed_pay (solvent : frame.Solvent)
    (quoted : frame.quote fees ledger = .ok (op, price)) :
    (frame.pay price).outcome.gasUsed = frame.outcome.gasUsed + price.total :=
  solvent.gasUsed_spend (quote_spec quoted).2.2

theorem Solvent.gasUsed_halt (solvent : frame.Solvent) (fault : Fault) :
    (frame.halt fault).outcome.gasUsed = frame.context.gas := by
  have spent : (frame.halt fault).outcome.gasUsed = frame.outcome.gasUsed + frame.gasLeft :=
    solvent.gasUsed_spend (Nat.le_refl _)
  rw [spent]
  exact Nat.add_sub_cancel' solvent.within

theorem Solvent.halt (solvent : frame.Solvent) (fault : Fault) : (frame.halt fault).Solvent := by
  have used := solvent.gasUsed_halt fault
  exact ⟨solvent.bounded, Nat.le_of_eq used, fun _ => ⟨rfl, used⟩⟩

theorem Solvent.pay (solvent : frame.Solvent) (due : frame.Due environment ledger op price) :
    (frame.pay price).Solvent := by
  have covered := (quote_spec due.quoted).2.2
  have within := solvent.within
  refine solvent.of_goes rfl ?_ (solvent.goes due.runs)
  rw [solvent.gasUsed_pay due.quoted]
  unfold gasLeft at covered
  omega

/-- What an instruction does that works on the frame alone costs what was paid and no more. -/
theorem Solvent.of_changes (solvent : frame.Solvent) (due : frame.Due environment ledger op price)
    (changes : (frame.pay price).Changes later) :
    later.Solvent ∧ later.outcome.gasUsed = frame.outcome.gasUsed + price.total := by
  have paid := solvent.pay due
  have spares := changes.spares
  have used := spares.gasUsed.trans (solvent.gasUsed_pay due.quoted)
  have within := paid.within
  rw [← spares.gasUsed] at within
  exact ⟨paid.of_goes changes.context within (spares.fault.trans (solvent.goes due.runs)), used⟩

end

end Frame

end ContractMachine
