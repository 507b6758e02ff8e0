import ContractMachine.Proofs.Frame.Change

/-!
The operands of an instruction. A quote is given only when the stack holds them and has room for the
result, so the words come off and the result goes on without a fault.
-/

namespace ContractMachine

theorem of_bind_eq_ok {ε α β : Type} {first : Except ε α} {next : α → Except ε β} {value : β}
    (done : (first >>= next) = .ok value) : ∃ middle, first = .ok middle ∧
    next middle = .ok value := by
  cases first with
  | error fault => cases done
  | ok middle => exact ⟨middle, rfl, done⟩

namespace Frame

def operand (frame : Frame) (depth : Nat) : Word := frame.stack.words.getD depth 0

theorem operand_eq_getElem (frame : Frame) {depth : Nat}
    (inside : depth < frame.stack.words.length) :
    frame.operand depth = frame.stack.words[depth] := by
  rw [operand, List.getD_eq_getElem?_getD, List.getElem?_eq_getElem inside]
  rfl

def dropWords (frame : Frame) (count : Nat) : Frame :=
  { frame with stack := { frame.stack with words := frame.stack.words.drop count } }

def put (frame : Frame) (word : Word) : Frame :=
  { frame with stack := { frame.stack with words := word :: frame.stack.words } }

/-- A word that is taken off and put back. -/
theorem put_operand (frame : Frame) {depth : Nat} (enough : depth < frame.stack.size) :
    (frame.dropWords (depth + 1)).put (frame.operand depth) = frame.dropWords depth := by
  have inside : depth < frame.stack.words.length := enough
  simp only [put, dropWords, List.drop_eq_getElem_cons inside, frame.operand_eq_getElem inside]

@[simp] theorem dropWords_context (frame : Frame) (count : Nat) :
    (frame.dropWords count).context = frame.context := rfl

@[simp] theorem dropWords_memory (frame : Frame) (count : Nat) :
    (frame.dropWords count).memory = frame.memory := rfl

@[simp] theorem dropWords_outcome (frame : Frame) (count : Nat) :
    (frame.dropWords count).outcome = frame.outcome := rfl

@[simp] theorem pay_stack (frame : Frame) (price : Price) : (frame.pay price).stack = frame.stack :=
  rfl

@[simp] theorem dropWords_owner (frame : Frame) (count : Nat) :
    (frame.dropWords count).owner = frame.owner := rfl

theorem changes_dropWords (frame : Frame) (count : Nat) :
    frame.Changes (frame.dropWords count) := by
  have change : frame.Change (frame.dropWords count) := .stack _ rfl
  exact change.changes

def HasRoom (frame : Frame) : Prop := frame.stack.size < frame.stack.limit

/-- What is quoted fits the stack, has the price of its instruction and can be paid. -/
theorem quote_spec {frame : Frame} {fees : Fees} {ledger : Ledger} {op : Opcode} {price : Price}
    (quoted : frame.quote fees ledger = .ok (op, price)) :
    frame.stack.checkArity op.pops op.pushes = .ok () ∧ frame.price fees ledger op = .ok price ∧
      price.total ≤ frame.gasLeft := by
  unfold quote at quoted
  split at quoted
  · cases quoted
  · -- The arity is checked before anything is asked about the price.
    rename_i named found
    obtain ⟨_, fit, quoted⟩ := of_bind_eq_ok quoted
    obtain ⟨asked, priced, quoted⟩ := of_bind_eq_ok quoted
    split at quoted
    · cases quoted
    · rename_i covered
      cases quoted
      exact ⟨fit, priced, Nat.le_of_not_lt covered⟩

/-- What is quoted has its operands on the stack and room for what it leaves there. -/
theorem quote_arity {frame : Frame} {fees : Fees} {ledger : Ledger} {op : Opcode} {price : Price}
    (quoted : frame.quote fees ledger = .ok (op, price)) :
    op.pops ≤ frame.stack.size ∧ frame.stack.size - op.pops + op.pushes ≤ frame.stack.limit :=
  (frame.stack.checkArity_eq_ok_iff _ _).mp (quote_spec quoted).1

structure Due (frame : Frame) (environment : Environment) (ledger : Ledger) (op : Opcode)
    (price : Price) : Prop where
  runs : frame.stopped = false
  quoted : frame.quote environment.config.fees ledger = .ok (op, price)

theorem due_of_toOption {environment : Environment} {frame : Frame} {ledger : Ledger} {op : Opcode}
    {price : Price} (runs : frame.stopped = false)
    (quoted : (frame.quote environment.config.fees ledger).toOption = some (op, price)) :
    frame.Due environment ledger op price := by
  refine ⟨runs, ?_⟩
  cases given : frame.quote environment.config.fees ledger with
  | error fault => rw [given] at quoted; cases quoted
  | ok paid => rw [given] at quoted; cases quoted; rfl

theorem Due.enough {environment : Environment} {frame : Frame} {ledger : Ledger} {op : Opcode}
    {price : Price} (due : frame.Due environment ledger op price) :
    op.pops ≤ (frame.pay price).stack.size :=
  (quote_arity due.quoted).1

theorem Due.room {environment : Environment} {frame : Frame} {ledger : Ledger} {op : Opcode}
    {price : Price} (due : frame.Due environment ledger op price) (leaves : op.pushes = 1) :
    ((frame.pay price).dropWords op.pops).HasRoom := by
  have fits := quote_arity due.quoted
  have taken : frame.stack.size - op.pops < frame.stack.limit := by omega
  simpa only [HasRoom, dropWords, pay_stack, Stack.size, List.length_drop] using taken

end Frame

namespace FrameAction

@[simp] theorem reads_apply {α : Type} (view : Frame → α) (frame : Frame) :
    reads view frame = .ok (view frame) frame := rfl

@[simp] theorem changeMemory_apply (change : Memory → Memory) (frame : Frame) :
    changeMemory change frame = .ok () { frame with memory := change frame.memory } := rfl

@[simp] theorem changeOutcome_apply (change : Outcome → Outcome) (frame : Frame) :
    changeOutcome change frame = .ok () { frame with outcome := change frame.outcome } := rfl

theorem pop_dropWords (frame : Frame) (depth : Nat) (enough : depth < frame.stack.size) :
    pop (frame.dropWords depth) = .ok (frame.operand depth) (frame.dropWords (depth + 1)) := by
  have inside : depth < frame.stack.words.length := enough
  unfold pop Frame.dropWords
  simp only [Stack.pop, List.drop_eq_getElem_cons inside, frame.operand_eq_getElem inside]

theorem popMany_dropWords (frame : Frame) (depth count : Nat)
    (enough : depth + count ≤ frame.stack.size) :
    popMany count (frame.dropWords depth) =
      .ok ((frame.stack.words.drop depth).take count) (frame.dropWords (depth + count)) := by
  induction count generalizing depth with
  | zero => rfl
  | succ count ih =>
      have inside : depth < frame.stack.words.length :=
        Nat.lt_of_lt_of_le (Nat.lt_add_of_pos_right (Nat.succ_pos _)) enough
      have rest := ih (depth + 1) (by omega)
      have moved : depth + 1 + count = depth + (count + 1) := by omega
      rw [popMany, bind_apply, pop_dropWords frame depth inside]
      simp only [bind_apply, rest, pure_apply, moved]
      rw [List.drop_eq_getElem_cons inside, List.take_succ_cons, frame.operand_eq_getElem inside]

theorem push_of_room {frame : Frame} (room : frame.HasRoom) (word : Word) :
    push word frame = .ok () (frame.put word) := by
  unfold Frame.HasRoom at room
  simp only [push, withStack, Stack.push, room, if_true]
  rfl

end FrameAction

end ContractMachine
