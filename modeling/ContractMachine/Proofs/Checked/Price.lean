import ContractMachine.Proofs.Checked.Bytes
import ContractMachine.Proofs.Frame.Windows

/-!
Prices that are checked. Under the default fees no sum, difference or product of a price leaves the
64 bits: memory is not priced beyond the largest index, what is handed on to a callee is part of
what is left, and the data of a log has to be paid for before its price is added up.
-/

namespace ContractMachine

instance : MonadLift (Except Fault) Checked := ⟨Except.mapError Stop.fault⟩

namespace Checked

variable {α β : Type}

@[simp] theorem liftM_ok (value : α) :
    (liftM (.ok value : Except Fault α) : Checked α) = .ok value := rfl

/-- After a part that has nothing to be checked, what is left may rely on what the part has
given. -/
theorem liftM_bind_of {first : Except Fault α} {next? : α → Checked β} {next : α → Except Fault β}
    (rest : ∀ value, first = .ok value → next? value = liftM (next value)) :
    (liftM first : Checked α) >>= next? = liftM (first >>= next) := by
  cases given : first with
  | error fault => rfl
  | ok value => exact rest value given

end Checked

theorem Word.occupied_le (word : Word) : word.occupied ≤ 32 := by
  unfold occupied
  split
  · omega
  · rename_i nonzero
    have positive : word.toNat ≠ 0 := fun zero => nonzero (BitVec.eq_of_toNat_eq zero)
    have bits : word.toNat.log2 < 256 := (Nat.log2_lt positive).mpr word.isLt
    omega

namespace Fees

def memoryCost? (fees : Fees) (words : Nat) : Checked Nat := do
  let linear ← Checked.mul fees.memoryWord words
  let square ← Checked.mul words words
  Checked.add linear (square / 512)

def growth? (fees : Fees) (size needed : Nat) : Checked Nat :=
  if Word.indexLimit < needed then .error (.fault (.memoryLimit needed Word.indexLimit))
  else do
    let usage ← Checked.mul (wordsFor needed) 32
    if size < usage then
      let cost ← fees.memoryCost? (usage / 32)
      let paid ← fees.memoryCost? (size / 32)
      Checked.sub cost paid
    else .ok 0

def expPrice? (fees : Fees) (exponent : Word) : Checked Nat := do
  let bytes ← Checked.mul fees.expByte exponent.occupied
  Checked.add fees.exp bytes

def logPrice? (fees : Fees) (topics size : Nat) : Checked Nat := do
  let named ← Checked.mul fees.logTopic topics
  .ok (Quantity.clamp (Quantity.clamp (fees.log + named) + Quantity.clamp (fees.logByte * size)))

def wordLimit : Nat := wordsFor Word.indexLimit

theorem memoryCost?_eq {words : Nat} (few : words ≤ wordLimit) :
    memoryCost? {} words = .ok (memoryCost {} words) := by
  have limit : wordLimit = 67108864 := rfl
  have most : Quantity.limit = 18446744073709551615 := rfl
  have square : words * words ≤ 67108864 * 67108864 := Nat.mul_le_mul (by omega) (by omega)
  have linear : ({} : Fees).memoryWord * words ≤ Quantity.limit := by
    change 3 * words ≤ _
    omega
  have sum : ({} : Fees).memoryWord * words + words * words / 512 ≤ Quantity.limit := by
    change 3 * words + words * words / 512 ≤ _
    omega
  rw [memoryCost?, Checked.mul_eq linear, Checked.ok_bind, Checked.mul_eq (by omega),
    Checked.ok_bind, Checked.add_eq sum]
  rfl

theorem growth?_eq (size needed : Nat) :
    growth? {} size needed = liftM (growth {} size needed) := by
  unfold growth? growth
  split
  · rfl
  · rename_i narrow
    have words : wordsFor needed ≤ wordLimit := wordsFor_mono (Nat.le_of_not_lt narrow)
    have limit : wordLimit * 32 ≤ Quantity.limit := by decide
    rw [Checked.mul_eq (by omega), Checked.ok_bind, Nat.mul_div_cancel _ (by decide)]
    split
    · rename_i grows
      have fewer : size / 32 ≤ wordsFor needed := by omega
      rw [memoryCost?_eq words, Checked.ok_bind, memoryCost?_eq (Nat.le_trans fewer words),
        Checked.ok_bind, Checked.sub_eq (memoryCost_mono {} fewer)]
      rfl
    · rfl

/-- Other fees may ask for a product that is no number of 64 bits. -/
example : Fees.growth? { memoryWord := Quantity.limit } 0 64 = .error (.breach .overflow) := rfl

/-- No growth costs more than all the memory that is priced. -/
theorem growth_le {size needed growth : Nat} (grown : Fees.growth {} size needed = .ok growth) :
    needed ≤ Word.indexLimit ∧ growth ≤ memoryCost {} wordLimit := by
  obtain ⟨narrow, same⟩ := growth_spec grown
  have most : memoryCost {} (wordsFor needed) ≤ memoryCost {} wordLimit :=
    memoryCost_mono {} (wordsFor_mono narrow)
  refine ⟨narrow, ?_⟩
  rw [same]
  split <;> omega

/-- A copy adds to the growth of memory, as a number of 64 bits. -/
theorem withCopy_bounds {growth : Nat} (growth_le : growth ≤ memoryCost {} wordLimit)
    (size : Word) :
    growth ≤ withCopy {} growth size.length ∧
      withCopy {} growth size.length ≤ growth + 3 * wordsFor Word.lengthLimit := by
  have cost : memoryCost {} wordLimit = 8796294348800 := by decide
  have words : wordsFor size.length ≤ wordsFor Word.lengthLimit :=
    wordsFor_mono (Nat.min_le_right _ _)
  have price : ({} : Fees).copyWord = 3 := rfl
  have limit : Quantity.limit = 18446744073709551615 := rfl
  unfold withCopy Quantity.clamp
  rw [price]
  split <;> omega

theorem expPrice?_eq (exponent : Word) : expPrice? {} exponent = .ok (expPrice {} exponent) := by
  have bytes := exponent.occupied_le
  have limit : 10 + 50 * 32 ≤ Quantity.limit := by decide
  have product : ({} : Fees).expByte * exponent.occupied ≤ Quantity.limit := by
    change 50 * _ ≤ _
    omega
  have sum : ({} : Fees).exp + ({} : Fees).expByte * exponent.occupied ≤ Quantity.limit := by
    change 10 + 50 * _ ≤ _
    omega
  rw [expPrice?, Checked.mul_eq product, Checked.ok_bind, Checked.add_eq sum]
  rfl

theorem logPrice?_eq {topics : Nat} (few : topics ≤ 4) (size : Nat) :
    logPrice? {} topics size = .ok (logPrice {} topics size) := by
  have limit : 375 * 4 ≤ Quantity.limit := by decide
  have product : ({} : Fees).logTopic * topics ≤ Quantity.limit := by
    change 375 * _ ≤ _
    omega
  rw [logPrice?, Checked.mul_eq product]
  rfl

end Fees

namespace Gas

def allButPart? (gas : Nat) : Checked Nat := Checked.sub gas (gas / 64)

theorem allButPart?_eq (gas : Nat) : allButPart? gas = .ok (allButPart gas) :=
  Checked.sub_eq (Nat.div_le_self gas 64)

end Gas

namespace Precompile

def price? (contract : Precompile) (input : Bytes) : Checked Nat :=
  match contract with
  | .sha256 => do
      let words ← Checked.mul 12 (wordsFor input.size)
      Checked.add 60 words
  | .identity => do
      let words ← Checked.mul 3 (wordsFor input.size)
      Checked.add 15 words

theorem price?_eq (contract : Precompile) {input : Bytes} (short : input.size ≤ Word.indexLimit) :
    contract.price? input = .ok (contract.price input) := by
  have words : wordsFor input.size ≤ wordsFor Word.indexLimit := wordsFor_mono short
  have limit : 60 + 12 * wordsFor Word.indexLimit ≤ Quantity.limit := by decide
  cases contract with
  | sha256 =>
    rw [price?, Checked.mul_eq (by omega), Checked.ok_bind, Checked.add_eq (by omega), price]
  | identity =>
    rw [price?, Checked.mul_eq (by omega), Checked.ok_bind, Checked.add_eq (by omega), price]

end Precompile

namespace Frame

def growthFor? (frame : Frame) (fees : Fees) (offset size : Word) : Checked Nat :=
  fees.growth? frame.memory.size (memoryNeeded offset size)

def workAndGrowth? (frame : Frame) (fees : Fees) (work : Nat) (offset size : Word) :
    Checked Price := do
  let growth ← frame.growthFor? fees offset size
  .ok { work, growth }

def copyPrice? (frame : Frame) (fees : Fees) (fixed : Nat) (offset size : Word) :
    Checked Price := do
  let growth ← frame.growthFor? fees offset size
  let copied ← Checked.sub (fees.withCopy growth size.length) growth
  let work ← Checked.add fixed copied
  .ok { work, growth }

def callTotal? (fees : Fees) (kind : CallKind) (requested value : Word) (growth available : Nat) :
    Checked Price := do
  let work ← Checked.add fees.call (if value = 0 then 0 else fees.valueTransfer)
  let own ← Checked.add work growth
  if available < own then .error (.fault (.outOfGas kind.mnemonic own available))
  else do
    let rest ← Checked.sub available own
    let most ← Gas.allButPart? rest
    .ok { work, growth, forwarded := min requested.toNat most }

def callPrice? (frame : Frame) (fees : Fees) (kind : CallKind) : Checked Price := do
  let requested ← frame.stack.get 0
  let value ← (if kind.hasValue then frame.stack.get 2 else .ok 0 : Except Fault Word)
  let first := if kind.hasValue then 3 else 2
  let input := memoryNeeded (← frame.stack.get first) (← frame.stack.get (← Checked.add first 1))
  let output :=
    memoryNeeded (← frame.stack.get (← Checked.add first 2))
    (← frame.stack.get (← Checked.add first 3))
  let growth ← fees.growth? frame.memory.size (max input output)
  callTotal? fees kind requested value growth frame.gasLeft

def logPrice? (frame : Frame) (fees : Fees) (op : Opcode) (topics : Nat) : Checked Price := do
  let size ← frame.stack.get 1
  let dataPrice := size.toNat * fees.logByte
  let available := frame.gasLeft
  if Word.limit < dataPrice then .error (.fault (.outOfGas op.mnemonic Word.limit available))
  else if available < dataPrice then .error (.fault (.outOfGas op.mnemonic dataPrice available))
  else do
    let work ← fees.logPrice? topics (size.setWidth 64).toNat
    frame.workAndGrowth? fees work (← frame.stack.get 0) size

def price? (frame : Frame) (fees : Fees) (ledger : Ledger) (op : Opcode) : Checked Price := do
  let stack := frame.stack
  match op with
  | .mload | .mstore => frame.workAndGrowth? fees op.tier.cost (← stack.get 0) 32
  | .mstore8 => frame.workAndGrowth? fees op.tier.cost (← stack.get 0) 1
  | .returning | .revert => frame.workAndGrowth? fees 0 (← stack.get 0) (← stack.get 1)
  | .sha3 =>
      let size ← stack.get 1
      frame.workAndGrowth? fees (fees.sha3Price size.length) (← stack.get 0) size
  | .copy _ => frame.copyPrice? fees op.tier.cost (← stack.get 0) (← stack.get 2)
  | .extCodeCopy => frame.copyPrice? fees fees.extCodeCopy (← stack.get 1) (← stack.get 3)
  | .call kind => frame.callPrice? fees kind
  | .create => frame.workAndGrowth? fees fees.create (← stack.get 1) (← stack.get 2)
  | .log topics => frame.logPrice? fees op topics.val
  | .binary .exp =>
      let work ← fees.expPrice? (← stack.get 1)
      .ok { work }
  -- Every other price is an amount of the schedule or of the class as it stands there.
  | op => frame.price fees ledger op

def quote? (frame : Frame) (fees : Fees) (ledger : Ledger) : Checked (Opcode × Price) := do
  match Opcode.ofByte? frame.opByte with
  | none => .error (.fault (.invalidOpcode frame.opByte))
  | some op =>
      frame.stack.checkArity op.pops op.pushes
      let price ← frame.price? fees ledger op
      let own ← Checked.add price.work price.growth
      let total ← Checked.add own price.forwarded
      if frame.gasLeft < total then .error (.fault (.outOfGas op.mnemonic total frame.gasLeft))
      else .ok (op, price)

theorem workAndGrowth?_eq (frame : Frame) (work : Nat) (offset size : Word) :
    frame.workAndGrowth? {} work offset size = liftM (frame.workAndGrowth {} work offset size) := by
  unfold workAndGrowth? growthFor?
  rw [Fees.growth?_eq]
  exact Checked.liftM_bind_of fun growth _ => rfl

theorem copyPrice?_eq (frame : Frame) {fixed : Nat} (cheap : fixed ≤ 700) (offset size : Word) :
    frame.copyPrice? {} fixed offset size = liftM (frame.copyPrice {} fixed offset size) := by
  unfold copyPrice? growthFor?
  rw [Fees.growth?_eq]
  refine Checked.liftM_bind_of ?_
  intro growth grown
  have dearest := (Fees.growth_le grown).2
  obtain ⟨more, most⟩ := Fees.withCopy_bounds dearest size
  have limit : 700 + Fees.memoryCost {} Fees.wordLimit + 3 * wordsFor Word.lengthLimit ≤
      Quantity.limit := by decide
  rw [Checked.sub_eq more, Checked.ok_bind, Checked.add_eq (by omega)]
  rfl

theorem callTotal?_eq (kind : CallKind) (requested value : Word) {growth : Nat} (available : Nat)
    (dearest : growth ≤ Fees.memoryCost {} Fees.wordLimit) :
    callTotal? {} kind requested value growth available = liftM (
      let work := ({} : Fees).call + (if value = 0 then 0 else ({} : Fees).valueTransfer)
      if available < work + growth then .error (.outOfGas kind.mnemonic (work + growth) available)
      else
        .ok { work, growth, forwarded := Gas.forwarded requested (available - (work + growth)) } :
      Except Fault Price) := by
  have limit : 9700 + Fees.memoryCost {} Fees.wordLimit ≤ Quantity.limit := by decide
  have cheap : ({} : Fees).call + (if value = 0 then 0 else ({} : Fees).valueTransfer) ≤ 9700 := by
    split <;> decide
  unfold callTotal?
  rw [Checked.add_eq (by omega), Checked.ok_bind]
  generalize ({} : Fees).call + (if value = 0 then 0 else ({} : Fees).valueTransfer) =
    work at cheap ⊢
  simp only [Checked.add_eq (show work + growth ≤ Quantity.limit by omega), Checked.ok_bind]
  split
  · rfl
  · rename_i covered
    rw [Checked.sub_eq (Nat.le_of_not_lt covered), Checked.ok_bind, Gas.allButPart?_eq]
    rfl

theorem callPrice?_eq (frame : Frame) (kind : CallKind) :
    frame.callPrice? {} kind = liftM (frame.callPrice {} kind) := by
  unfold callPrice? callPrice
  refine Checked.liftM_bind_of fun requested _ => ?_
  cases hasValue : kind.hasValue
  all_goals
    simp only [Bool.false_eq_true, if_false, if_true]
    refine Checked.liftM_bind_of fun value _ => ?_
    simp (disch := decide) only [Checked.add_eq, Checked.ok_bind, Fees.growth?_eq]
    refine Checked.liftM_bind_of fun inOffset _ => ?_
    refine Checked.liftM_bind_of fun inSize _ => ?_
    refine Checked.liftM_bind_of fun outOffset _ => ?_
    refine Checked.liftM_bind_of fun outSize _ => ?_
    refine Checked.liftM_bind_of fun growth grown => ?_
    exact callTotal?_eq kind requested value frame.gasLeft (Fees.growth_le grown).2

theorem logPrice?_eq (frame : Frame) (op : Opcode) (topics : Fin 5) :
    frame.logPrice? {} op topics.val = liftM (frame.logPrice {} op topics.val) := by
  unfold logPrice? logPrice
  refine Checked.liftM_bind_of fun size _ => ?_
  simp only [Fees.logPrice?_eq (Nat.le_of_lt_succ topics.isLt), Checked.ok_bind, workAndGrowth?_eq]
  split
  · rfl
  · split
    · rfl
    · exact Checked.liftM_bind_of fun offset _ => rfl

theorem price?_eq (frame : Frame) (ledger : Ledger) (op : Opcode) :
    frame.price? {} ledger op = liftM (frame.price {} ledger op) := by
  unfold price?
  cases op with
  | copy source =>
      have cheap : (Opcode.copy source).tier.cost ≤ 700 := by cases source <;> decide
      simp only [copyPrice?_eq frame cheap]
      exact Checked.liftM_bind_of fun offset _ => Checked.liftM_bind_of fun size _ => rfl
  | extCodeCopy =>
      have cheap : ({} : Fees).extCodeCopy ≤ 700 := by decide
      simp only [copyPrice?_eq frame cheap]
      exact Checked.liftM_bind_of fun offset _ => Checked.liftM_bind_of fun size _ => rfl
  | call kind => exact callPrice?_eq frame kind
  | log topics => exact logPrice?_eq frame _ topics
  | binary operation =>
      cases operation with
      | exp =>
          simp only [Fees.expPrice?_eq]
          exact Checked.liftM_bind_of fun exponent _ => rfl
      | _ => rfl
  | mload | mstore | mstore8 =>
      simp only [workAndGrowth?_eq]
      exact Checked.liftM_bind_of fun offset _ => rfl
  | returning | revert | sha3 | create =>
      simp only [workAndGrowth?_eq]
      exact Checked.liftM_bind_of fun first _ => Checked.liftM_bind_of fun second _ => rfl
  | _ => rfl

/-- A call hands on part of what is left behind its own price. -/
theorem total_le_of_callPrice {frame : Frame} {fees : Fees} {kind : CallKind} {price : Price}
    (priced : frame.callPrice fees kind = .ok price) : price.total ≤ frame.gasLeft := by
  unfold callPrice at priced
  obtain ⟨requested, _, priced⟩ := of_bind_eq_ok priced
  cases hasValue : kind.hasValue
  all_goals
    simp only [hasValue, Bool.false_eq_true, if_false, if_true] at priced
    obtain ⟨value, _, priced⟩ := of_bind_eq_ok priced
    obtain ⟨inOffset, _, priced⟩ := of_bind_eq_ok priced
    obtain ⟨inSize, _, priced⟩ := of_bind_eq_ok priced
    obtain ⟨outOffset, _, priced⟩ := of_bind_eq_ok priced
    obtain ⟨outSize, _, priced⟩ := of_bind_eq_ok priced
    obtain ⟨growth, _, priced⟩ := of_bind_eq_ok priced
    generalize fees.call + (if value = 0 then 0 else fees.valueTransfer) = work at priced
    split at priced
    · cases priced
    · cases priced
      simp only [Price.total, Gas.forwarded, Gas.allButPart]
      omega

/-- The data of a log that is priced lies in memory, so that its price is far from the largest
number. -/
theorem total_le_of_logPrice {frame : Frame} {op : Opcode} {topics : Fin 5} {price : Price}
    (priced : frame.logPrice {} op topics.val = .ok price) : price.total ≤ Quantity.limit := by
  obtain ⟨size, _, priced⟩ := of_bind_eq_ok priced
  simp only at priced
  split at priced
  · cases priced
  · split at priced
    · cases priced
    · obtain ⟨offset, _, priced⟩ := of_bind_eq_ok priced
      obtain ⟨work, forwarded, _, grown⟩ := workAndGrowth_spec priced
      obtain ⟨needed, dearest⟩ := Fees.growth_le grown
      have small : Word.indexLimit < Word.limit := by decide
      have narrow : size.toNat ≤ Word.indexLimit := by
        unfold memoryNeeded at needed
        split at needed
        · rename_i none
          rw [none]
          exact Nat.zero_le _
        · omega
      have short : (size.setWidth 64).toNat ≤ Word.indexLimit := by
        rw [BitVec.toNat_setWidth]
        exact Nat.le_trans (Nat.mod_le _ _) narrow
      have few := topics.isLt
      have limit : 375 + 375 * 4 + 8 * Word.indexLimit + Fees.memoryCost {} Fees.wordLimit ≤
          Quantity.limit := by decide
      have sum : Fees.logPrice {} topics.val (size.setWidth 64).toNat ≤
          375 + 375 * topics.val + 8 * (size.setWidth 64).toNat := by
        simp only [Fees.logPrice, Quantity.clamp]
        omega
      rw [Price.total, work, forwarded]
      omega

theorem total_le_of_price {frame : Frame} {ledger : Ledger} {op : Opcode} {price : Price}
    (bounded : frame.gasLeft ≤ Quantity.limit) (priced : frame.price {} ledger op = .ok price) :
    price.total ≤ Quantity.limit := by
  -- No fixed part is more than `most`, which stays a name so that it is not computed again below.
  obtain ⟨most, room, limit⟩ : ∃ most, 6 * wordsFor Word.lengthLimit + 32000 ≤ most ∧
      most + Fees.memoryCost {} Fees.wordLimit ≤ Quantity.limit :=
    ⟨_, Nat.le_refl _, by decide⟩
  have grown {work : Nat} {offset size : Word} (cheap : work ≤ most)
      (priced : frame.workAndGrowth {} work offset size = .ok price) :
        price.total ≤ Quantity.limit := by
    obtain ⟨same, forwarded, _, grown⟩ := workAndGrowth_spec priced
    have dearest := (Fees.growth_le grown).2
    rw [Price.total, same, forwarded]
    omega
  have copied {fixed : Nat} {offset size : Word} (cheap : fixed ≤ 700)
      (priced : frame.copyPrice {} fixed offset size = .ok price) :
        price.total ≤ Quantity.limit := by
    obtain ⟨growth, grown, priced⟩ := of_bind_eq_ok priced
    have dearest := (Fees.growth_le grown).2
    have copy := Fees.withCopy_bounds dearest size
    cases priced
    simp only [Price.total]
    omega
  have fixed {work refund : Nat} (cheap : work ≤ 20000)
      (priced : (.ok { work := work, refund := refund } : Except Fault Price) = .ok price) :
      price.total ≤ Quantity.limit := by
    cases priced
    simp only [Price.total]
    omega
  have tier (op : Opcode) : op.tier.cost ≤ 20 := by
    cases op.tier <;> decide
  unfold Frame.price at priced
  cases op with
  | sstore =>
      obtain ⟨key, _, priced⟩ := of_bind_eq_ok priced
      obtain ⟨value, _, priced⟩ := of_bind_eq_ok priced
      refine fixed ?_ priced
      cases ledger.slot? frame.owner key <;> simp only <;> split <;> decide
  | mload | mstore | mstore8 =>
      obtain ⟨offset, _, priced⟩ := of_bind_eq_ok priced
      exact grown (Nat.le_trans (tier _) (by omega)) priced
  | returning | revert | create =>
      obtain ⟨offset, _, priced⟩ := of_bind_eq_ok priced
      obtain ⟨size, _, priced⟩ := of_bind_eq_ok priced
      have cheap : 32000 ≤ most := by omega
      exact grown (Nat.le_trans (by decide) cheap) priced
  | sha3 =>
      obtain ⟨size, _, priced⟩ := of_bind_eq_ok priced
      obtain ⟨offset, _, priced⟩ := of_bind_eq_ok priced
      have words : wordsFor size.length ≤ wordsFor Word.lengthLimit :=
        wordsFor_mono (Nat.min_le_right _ _)
      have cheap : Fees.sha3Price {} size.length ≤ 30 + 6 * wordsFor size.length := by
        simp only [Fees.sha3Price, Quantity.clamp]
        omega
      exact grown (by omega) priced
  | copy source =>
      obtain ⟨offset, _, priced⟩ := of_bind_eq_ok priced
      obtain ⟨size, _, priced⟩ := of_bind_eq_ok priced
      have cheap := tier (.copy source)
      exact copied (by omega) priced
  | extCodeCopy =>
      obtain ⟨offset, _, priced⟩ := of_bind_eq_ok priced
      obtain ⟨size, _, priced⟩ := of_bind_eq_ok priced
      exact copied (by decide) priced
  | call kind => exact Nat.le_trans (total_le_of_callPrice priced) bounded
  | log topics => exact total_le_of_logPrice priced
  | binary operation =>
      cases operation with
      | exp =>
          obtain ⟨exponent, _, priced⟩ := of_bind_eq_ok priced
          have bytes := exponent.occupied_le
          refine fixed ?_ priced
          change 10 + 50 * exponent.occupied ≤ _
          omega
      | _ => exact fixed (by decide) priced
  | stop | suicide | sload | balance | extCodeSize => exact fixed (by decide) priced
  | _ => exact fixed (Nat.le_trans (tier _) (by decide)) priced

theorem quote?_eq {frame : Frame} {ledger : Ledger} (bounded : frame.gasLeft ≤ Quantity.limit) :
    frame.quote? {} ledger = liftM (frame.quote {} ledger) := by
  unfold quote? quote
  cases Opcode.ofByte? frame.opByte with
  | none => rfl
  | some op =>
      simp only [price?_eq]
      refine Checked.liftM_bind_of fun _ _ => ?_
      refine Checked.liftM_bind_of fun price priced => ?_
      have total := total_le_of_price bounded priced
      unfold Price.total at total ⊢
      rw [Checked.add_eq (by omega), Checked.ok_bind, Checked.add_eq total, Checked.ok_bind]
      split <;> rfl

end Frame

end ContractMachine
