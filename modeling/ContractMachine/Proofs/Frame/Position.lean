import ContractMachine.Proofs.Frame.Compute

/-!
Where a frame goes on. An instruction goes on at the start of the next one, or jumps to the start of
one, or stops its frame; an immediate is passed over as a whole, so that no byte of it is ever
executed.
-/

namespace ContractMachine

def Code.Addressable (code : Bytes) : Prop := code.size ≤ Quantity.limit

instance (code : Bytes) : Decidable (Code.Addressable code) := inferInstanceAs (Decidable (_ ≤ _))

/-- What an instruction reads from memory may be code in its turn. -/
theorem Memory.addressable_read (memory : Memory) (offset : Nat) (size : Word) :
    Code.Addressable (memory.read offset size.index).1 := by
  have within := memory.read_size_le offset size.index
  have narrow := size.index_le
  have less : Word.indexLimit ≤ Quantity.limit := by decide
  unfold Code.Addressable
  omega

namespace Frame

/-- While it runs, the frame is at the start of an instruction. Its jump table is that of its code,
and what it returns without a fault may be code in its turn. -/
structure Placed (frame : Frame) : Prop where
  jumps : frame.jumps = JumpTable.ofCode frame.code
  addressable : Code.Addressable frame.code
  returns : frame.outcome.fault = none → Code.Addressable frame.outcome.returnData
  start : frame.stopped = false → Code.Start frame.code frame.pc

structure Paused (frame : Frame) : Prop where
  placed : frame.Placed
  runs : frame.stopped = false
  single : Code.immediateSize frame.opByte = 0

section

variable {frame later : Frame}

theorem placed_start {code : Bytes} (addressable : Code.Addressable code) (context : Context)
    (stackLimit : Nat) : (start code context stackLimit).Placed := by
  refine ⟨rfl, addressable, fun _ => Nat.zero_le _, ?_⟩
  intro runs
  have nonempty : code ≠ #[] := by
    rintro rfl
    cases runs
  exact .first (Array.size_pos_iff.mpr nonempty)

theorem Placed.rests (placed : frame.Placed) (rests : frame.Rests later) : later.Placed := by
  refine ⟨?_, ?_, ?_, ?_⟩
  · rw [rests.jumps, rests.code]
    exact placed.jumps
  · rw [rests.code]
    exact placed.addressable
  · rw [rests.fault, rests.returnData]
    exact placed.returns
  · rw [rests.stopped, rests.code, rests.pc]
    exact placed.start

/-- Where a frame has stopped does not matter. -/
theorem Placed.stopped (placed : frame.Placed) (same : frame.Continues later)
    (stopped : later.stopped = true)
    (returns : later.outcome.fault = none → Code.Addressable later.outcome.returnData) :
    later.Placed := by
  refine ⟨?_, ?_, returns, ?_⟩
  · rw [same.jumps, same.code]
    exact placed.jumps
  · rw [same.code]
    exact placed.addressable
  · intro runs
    rw [stopped] at runs
    cases runs

theorem Placed.halt (placed : frame.Placed) (same : frame.Continues later) (fault : Fault) :
    (later.halt fault).Placed := by
  refine placed.stopped (same.trans (later.continues_halt fault)) rfl ?_
  intro none
  cases none

/-- A frame that is sent behind its code stops there. -/
theorem Placed.setPc (placed : frame.Placed) {pc : Nat}
    (start : pc < frame.code.size → Code.Start frame.code pc) : (frame.setPc pc).Placed := by
  refine ⟨placed.jumps, placed.addressable, placed.returns, ?_⟩
  intro runs
  have parts : frame.stopped = false ∧ decide (frame.code.size ≤ pc) = false :=
    Bool.or_eq_false_iff.mp runs
  exact start (Nat.lt_of_not_le (of_decide_eq_false parts.2))

theorem Paused.rests (paused : frame.Paused) (rests : frame.Rests later) : later.Paused := by
  refine ⟨paused.placed.rests rests, ?_, ?_⟩
  · rw [rests.stopped]
    exact paused.runs
  · rw [opByte, rests.code, rests.pc]
    exact paused.single

theorem Paused.advance (paused : frame.Paused) : frame.advance.Placed := by
  have behind : Code.next frame.code frame.pc = frame.pc + 1 :=
    congrArg (frame.pc + 1 + ·) paused.single
  refine paused.placed.setPc ?_
  intro inside
  rw [← behind] at inside ⊢
  exact .after (paused.placed.start paused.runs) inside

theorem Paused.behind (paused : frame.Paused) (rests : frame.Rests later) : later.advance.Placed :=
  (paused.rests rests).advance

end

/-- What is quoted is the price of the instruction at the position. -/
theorem op_of_quote {frame : Frame} {fees : Fees} {ledger : Ledger} {op : Opcode} {price : Price}
    (quoted : frame.quote fees ledger = .ok (op, price)) :
      Opcode.ofByte? frame.opByte = some op := by
  unfold quote at quoted
  split at quoted
  · cases quoted
  · rename_i named found
    obtain ⟨_, _, quoted⟩ := of_bind_eq_ok quoted
    obtain ⟨_, _, quoted⟩ := of_bind_eq_ok quoted
    split at quoted
    · cases quoted
    · cases quoted
      exact found

theorem immediate_of_quote {frame : Frame} {fees : Fees} {ledger : Ledger} {op : Opcode}
    {price : Price} (quoted : frame.quote fees ledger = .ok (op, price)) :
    Code.immediateSize frame.opByte = op.immediate := by
  rw [Code.immediateSize, op_of_quote quoted]

theorem allows_of_jumpTarget {frame : Frame} {destination : Word} {pc : Nat}
    (found : frame.jumpTarget destination = .ok pc) : frame.jumps.allows pc = true := by
  unfold jumpTarget at found
  split at found
  · cases found
  · split at found
    · rename_i allowed
      cases found
      exact allowed
    · cases found

end Frame

namespace FrameAction

variable {environment : Environment} {ledger : Ledger} {op : Opcode} {frame later : Frame}

theorem placed_jumpTo {destination : Word} (placed : frame.Placed)
    (ran : jumpTo destination frame = .ok () later) : later.Placed := by
  unfold jumpTo at ran
  split at ran
  · rename_i pc found
    cases ran
    have allowed := Frame.allows_of_jumpTarget found
    rw [placed.jumps, JumpTable.allows_ofCode_iff] at allowed
    exact placed.setPc fun _ => allowed.1
  · cases ran

/-- The immediate of a PUSH is passed over as a whole, even where the code ends within it. -/
theorem placed_push (placed : frame.Placed) (runs : frame.stopped = false) {index : Fin 32}
    (size : Code.immediateSize frame.opByte = index.val + 1)
    (ran : perform environment ledger (.push index) frame = .ok () later) : later.Placed := by
  have behind : Code.next frame.code frame.pc = frame.pc + 1 + (index.val + 1) :=
    congrArg (frame.pc + 1 + ·) size
  -- The frame behind the immediate, with the word not yet on the stack.
  obtain ⟨data, fetched, read⟩ : ∃ data fetched,
    frame.advance.fetch (index.val + 1) = (data, fetched) := ⟨_, _, rfl⟩
  have there : fetched.Placed := by
    cases read
    refine ⟨placed.jumps, placed.addressable, placed.returns, ?_⟩
    intro goes
    have inside : ¬ frame.code.size ≤ Quantity.clamp (frame.pc + 1 + (index.val + 1)) :=
      of_decide_eq_false (Bool.or_eq_false_iff.mp goes).2
    have addressable := placed.addressable
    have exact :
        Quantity.clamp (frame.pc + 1 + (index.val + 1)) = frame.pc + 1 + (index.val + 1) := by
      unfold Code.Addressable at addressable
      unfold Quantity.clamp at inside ⊢
      omega
    change Code.Start frame.code (Quantity.clamp (frame.pc + 1 + (index.val + 1)))
    rw [exact, ← behind] at inside ⊢
    exact .after (placed.start runs) (Nat.lt_of_not_le inside)
  have pushed : push (Word.ofBytes data) fetched = .ok () later := by
    cases read
    exact ran
  have stays : Frame.Stays [] fetched ((push (Word.ofBytes data)).after fetched) :=
    stays_push _ fetched
  rw [after_of_ok pushed] at stays
  exact there.rests stays.rests

theorem placed_behind (paused : frame.Paused) (enough : op.pops ≤ frame.stack.size)
    (ran : (compute environment ledger op >>= fun _ => advance) frame = .ok () later) :
      later.Placed := by
  have stays := stays_compute environment ledger enough
  rw [bind_apply] at ran
  cases computed : compute environment ledger op frame with
  | error fault middle =>
      rw [computed] at ran
      cases ran
  | ok value middle =>
      rw [after_of_ok computed] at stays
      rw [computed] at ran
      cases ran
      exact paused.behind stays.rests

theorem placed_perform (placed : frame.Placed) (runs : frame.stopped = false)
    (size : Code.immediateSize frame.opByte = op.immediate) (enough : op.pops ≤ frame.stack.size)
    (ran : perform environment ledger op frame = .ok () later) : later.Placed := by
  have same := ((works_perform environment ledger op).ok ran).continues
  -- Operands come off one by one; before the first none is gone.
  change perform environment ledger op (frame.dropWords 0) = .ok () later at ran
  have dropped (count : Nat) : (frame.dropWords count).Placed :=
    placed.rests ⟨rfl, rfl, rfl, rfl, rfl, rfl⟩
  cases op with
  | stop =>
      cases ran
      exact placed.stopped same rfl fun _ => Nat.zero_le _
  | jump =>
      rw [perform, bind_apply, pop_dropWords frame 0 enough] at ran
      exact placed_jumpTo (dropped 1) ran
  | jumpi =>
      rw [perform, bind_apply, pop_dropWords frame 0 (Nat.zero_lt_of_lt enough)] at ran
      simp only [bind_apply, pop_dropWords frame 1 enough, if_apply] at ran
      split at ran
      · cases ran
        have paused : (frame.dropWords 2).Paused := ⟨dropped 2, runs, size⟩
        exact paused.advance
      · exact placed_jumpTo (dropped 2) ran
  | push index => exact placed_push placed runs size ran
  | returning | revert =>
      rw [perform, bind_apply, popWindow_dropWords frame 0 enough] at ran
      cases ran
      exact placed.stopped same rfl fun _ => frame.memory.addressable_read _ _
  | _ => exact placed_behind ⟨placed, runs, size⟩ enough ran

end FrameAction

end ContractMachine
