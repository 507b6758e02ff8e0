import ContractMachine.Proofs.Frame.Windows

/-!
What is charged for the growth of memory is what the growth comes to. An instruction that ends
without a fault leaves every window that its operands name within memory, and memory no larger than
they ask for.
-/

namespace ContractMachine

theorem Word.toBytes_size (word : Word) : word.toBytes.size = 32 := Array.size_ofFn

theorem Context.dataCopy_size (context : Context) (offset : Word) (size : Nat) :
    (context.dataCopy offset size).size = size := by
  unfold dataCopy
  split
  · exact Bytes.window_size ..
  · exact Array.size_replicate

namespace Memory

def Holds (memory : Memory) (window : Window) : Prop :=
  window.size.index ≠ 0 → window.offset.index + window.size.index ≤ memory.size

variable {memory later : Memory} {window : Window} {windows : List Window}

theorem Holds.mono (held : memory.Holds window) (grown : memory.size ≤ later.size) :
    later.Holds window :=
  fun nonempty => Nat.le_trans (held nonempty) grown

theorem holds_extend (memory : Memory) (window : Window) :
    (memory.extend window.offset.index window.size.index).Holds window :=
  fun nonempty => memory.inside_extend _ nonempty

theorem holds_write (memory : Memory) (window : Window) {data : Bytes}
    (fits : data.size = window.size.index) :
    (memory.write window.offset.index data window.size.index).Holds window := by
  intro nonempty
  rw [write_size, fits, Nat.min_self]
  exact memory.inside_extend _ nonempty

theorem Touches.size_le (touches : memory.Touches windows later) : memory.size ≤ later.size := by
  induction touches with
  | none => exact Nat.le_refl _
  | extend before named ih => exact Nat.le_trans ih (size_le_extend _ _ _)
  | write before named data ih =>
      rw [write_size]
      exact Nat.le_trans ih (size_le_extend _ _ _)

/-- Where all the windows that were asked for are held, and no others touched, the growth comes to
the difference in cost. -/
theorem Touches.cost {fees : Fees} {growth : Nat} (touches : memory.Touches windows later)
    (whole : memory.size % 32 = 0) (held : ∀ window ∈ windows, later.Holds window)
    (grown : fees.growth memory.size (Window.needed windows) = .ok growth) :
    later.size % 32 = 0 ∧
    fees.memoryCost (later.size / 32) = fees.memoryCost (memory.size / 32) + growth := by
  obtain ⟨needed, grows, within⟩ :=
    Fees.paysFor_of_needed grown fun _ named => Window.le_needed named
  obtain ⟨narrow, charge⟩ := Fees.growth_spec grown
  have inside : ∀ window ∈ windows, window.Within (Window.needed windows) :=
    fun window named => Window.within_of_needed narrow (Window.le_needed named)
  obtain ⟨more, most, keeps⟩ := touches.size_bounds inside
  have least : Window.needed windows ≤ later.size := by
    refine Window.needed_le fun window named => ?_
    by_cases empty : window.size = 0
    · rw [memoryNeeded, if_pos empty]
      exact Nat.zero_le _
    · obtain ⟨offset, size, _⟩ := inside window named empty
      have positive : window.size.toNat ≠ 0 := fun none => empty (BitVec.eq_of_toNat_eq none)
      have here := held window named (by omega)
      rw [memoryNeeded, if_neg empty]
      omega
  have whole' := keeps whole
  refine ⟨whole', ?_⟩
  unfold wordsFor at most charge
  split at charge
  · have words : later.size / 32 = (Window.needed windows + 31) / 32 := by omega
    have less := fees.memoryCost_mono (Nat.div_le_div_right (c := 32) more)
    rw [words] at less ⊢
    omega
  · have same : later.size = memory.size := by omega
    rw [same, charge]
    rfl

end Memory

namespace FrameAction

variable {α β : Type} {frame middle : Frame} {window : Window}

/-- Once a window is held, what is done behind that leaves it so. -/
theorem holds_bind {action : FrameAction α} {next : α → FrameAction β} {value : α}
    (ran : action frame = .ok value middle) (held : middle.memory.Holds window)
    (rest : ∀ value, (next value).Stays []) :
      ((action >>= next).after frame).memory.Holds window := by
  rw [after_bind_of_ok ran]
  exact held.mono (rest value middle).memory.size_le

theorem holds_copyWindow (source : Frame → Bytes) (depth : Nat)
    (enough : depth + 2 < frame.stack.size) :
    ((copyWindow source).after (frame.dropWords depth)).memory.Holds
      ⟨frame.operand depth, frame.operand (depth + 2)⟩ := by
  rw [copyWindow, after_bind_of_ok (pop_dropWords frame depth (by omega)),
    after_bind_of_ok (pop_dropWords frame (depth + 1) (by omega)),
    after_bind_of_ok (pop_dropWords frame (depth + 2) enough)]
  exact Memory.holds_write _ ⟨frame.operand depth, frame.operand (depth + 2)⟩ (Bytes.window_size ..)

theorem holds_copyCallData (enough : 2 < frame.stack.size) :
    (copyCallData.after (frame.dropWords 0)).memory.Holds ⟨frame.operand 0, frame.operand 2⟩ := by
  rw [copyCallData, after_bind_of_ok (pop_dropWords frame 0 (by omega)),
    after_bind_of_ok (pop_dropWords frame 1 (by omega)),
      after_bind_of_ok (pop_dropWords frame 2 enough)]
  exact Memory.holds_write _ ⟨frame.operand 0, frame.operand 2⟩ (Context.dataCopy_size ..)

theorem holds_copyReturned {later : Frame} (enough : 2 < frame.stack.size)
    (ran : copyReturned (frame.dropWords 0) = .ok () later) :
    later.memory.Holds ⟨frame.operand 0, frame.operand 2⟩ := by
  simp only [copyReturned, bind_apply, pop_dropWords frame 0 (by omega),
    pop_dropWords frame 1 (by omega), pop_dropWords frame 2 enough, reads_apply] at ran
  split at ran
  · cases ran
  · rename_i present
    cases ran
    have fits : (frame.returned.extract (frame.operand 1).index
        ((frame.operand 1).index + (frame.operand 2).index)).size = (frame.operand 2).index := by
      have bytes : (frame.dropWords 3).returned = frame.returned := rfl
      rw [bytes] at present
      rw [Array.size_extract]
      omega
    exact Memory.holds_write _ ⟨frame.operand 0, frame.operand 2⟩ fits

theorem holds_log (environment : Environment) (ledger : Ledger) (topics : Fin 5) {later : Frame}
    (enough : topics.val + 2 ≤ frame.stack.size)
    (ran : compute environment ledger (.log topics) (frame.dropWords 0) = .ok () later) :
    later.memory.Holds ⟨frame.operand 0, frame.operand 1⟩ := by
  simp only [compute, bind_apply, ensureMutable_apply] at ran
  cases mutable : (frame.dropWords 0).context.isStatic with
  | true =>
      rw [mutable, if_pos rfl] at ran
      cases ran
  | false =>
      rw [mutable, if_neg Bool.false_ne_true] at ran
      simp only [pop_dropWords frame 0 (by omega), pop_dropWords frame 1 (by omega),
        popMany_dropWords frame 2 topics.val (by omega)] at ran
      cases ran
      exact frame.memory.holds_extend ⟨frame.operand 0, frame.operand 1⟩

theorem holds_popWindow (enough : 1 < frame.stack.size) (next : Bytes → FrameAction α)
    (rest : ∀ data, (next data).Stays []) :
    ((popWindow >>= next).after (frame.dropWords 0)).memory.Holds
      ⟨frame.operand 0, frame.operand 1⟩ :=
  holds_bind (popWindow_dropWords frame 0 enough)
    (frame.memory.holds_extend ⟨frame.operand 0, frame.operand 1⟩) rest

/-- An instruction that concerns the frame only, other than RETURN and REVERT, holds its windows in
the end. -/
theorem holds_compute (environment : Environment) (ledger : Ledger) {op : Opcode} {later : Frame}
    (enough : op.pops ≤ frame.stack.size) (goes : op.halts = false) (noCreation : op ≠ .create)
    (noCall : ∀ kind, op ≠ .call kind) (ran : compute environment ledger op frame = .ok () later) :
    ∀ window ∈ op.windows frame, later.memory.Holds window := by
  have left := after_of_ok ran
  -- Operands come off one by one; before the first none is gone.
  change (compute environment ledger op).after (frame.dropWords 0) = later at left
  have single {window : Window} (held : later.memory.Holds window) :
      ∀ other ∈ [window], later.memory.Holds other := by
    intro other named
    rw [List.mem_singleton.mp named]
    exact held
  cases op with
  | sha3 =>
      refine single ?_
      rw [← left]
      exact holds_popWindow enough _ fun _ => stays_push _
  | mload =>
      refine single ?_
      rw [← left, compute, after_bind_of_ok (pop_dropWords frame 0 enough)]
      exact holds_bind rfl (frame.memory.holds_extend ⟨frame.operand 0, 32⟩) fun _ => stays_push _
  | mstore =>
      refine single ?_
      rw [← left, compute, after_bind_of_ok (pop_dropWords frame 0 (Nat.zero_lt_of_lt enough)),
        after_bind_of_ok (pop_dropWords frame 1 enough)]
      exact frame.memory.holds_write ⟨frame.operand 0, 32⟩ (Word.toBytes_size _)
  | mstore8 =>
      refine single ?_
      rw [← left, compute, after_bind_of_ok (pop_dropWords frame 0 (Nat.zero_lt_of_lt enough)),
        after_bind_of_ok (pop_dropWords frame 1 enough)]
      exact frame.memory.holds_write ⟨frame.operand 0, 1⟩ rfl
  | copy source =>
      refine single ?_
      cases source with
      | callData =>
          rw [← left]
          exact holds_copyCallData enough
      | code =>
          rw [← left]
          exact holds_copyWindow _ 0 enough
      | returnData => exact holds_copyReturned enough ran
  | extCodeCopy =>
      refine single ?_
      rw [← left, compute, after_bind_of_ok (pop_dropWords frame 0 (Nat.zero_lt_of_lt enough))]
      exact holds_copyWindow _ 1 enough
  | log topics => exact single (holds_log environment ledger topics enough ran)
  | returning | revert => cases goes
  | create => exact absurd rfl noCreation
  | call kind => exact absurd rfl (noCall kind)
  | _ =>
      intro window named
      cases named

theorem holds_perform (environment : Environment) (ledger : Ledger) {op : Opcode} {later : Frame}
    (enough : op.pops ≤ frame.stack.size) (goes : op.halts = false) (noCreation : op ≠ .create)
    (noCall : ∀ kind, op ≠ .call kind) (ran : perform environment ledger op frame = .ok () later) :
    ∀ window ∈ op.windows frame, later.memory.Holds window := by
  have behind (ran : (compute environment ledger op >>= fun _ => advance) frame = .ok () later) :
      ∀ window ∈ op.windows frame, later.memory.Holds window := by
    rw [bind_apply] at ran
    cases computed : compute environment ledger op frame with
    | ok value middle =>
        rw [computed] at ran
        obtain rfl : middle.advance = later := (EStateM.Result.ok.inj ran).2
        have held := holds_compute environment ledger enough goes noCreation noCall computed
        exact held
    | error fault middle =>
        rw [computed] at ran
        cases ran
  cases op with
  | returning | revert => cases goes
  | stop | jump | jumpi | push index =>
      intro window named
      cases named
  | _ => exact behind ran

end FrameAction

end ContractMachine
