import ContractMachine.Proofs.Site.Call

/-!
What an instruction that goes on behind itself does to its frame: it works on the stack, reads and
writes memory in the windows that its operands name, and may add a log. Nothing else is moved, not
even by a fault.
-/

namespace ContractMachine

/-- A stretch of memory as operands name it, before it is narrowed. -/
structure Window where
  offset : Word
  size : Word

def Opcode.windows (frame : Frame) : Opcode → List Window
  | .mload | .mstore => [⟨frame.operand 0, 32⟩]
  | .mstore8 => [⟨frame.operand 0, 1⟩]
  | .sha3 | .log _ | .returning | .revert => [⟨frame.operand 0, frame.operand 1⟩]
  | .copy _ => [⟨frame.operand 0, frame.operand 2⟩]
  | .extCodeCopy => [⟨frame.operand 1, frame.operand 3⟩]
  | .create => [⟨frame.operand 1, frame.operand 2⟩]
  | .call kind =>
      [⟨frame.operand kind.firstWindow, frame.operand (kind.firstWindow + 1)⟩,
        ⟨frame.operand (kind.firstWindow + 2), frame.operand (kind.firstWindow + 3)⟩]
  | _ => []

theorem Opcode.windows_pay (op : Opcode) (frame : Frame) (price : Price) :
    op.windows (frame.pay price) = op.windows frame := by
  cases op <;> rfl

/-- What becomes of a memory that is read and written in the given windows only. To read extends as
to write. -/
inductive Memory.Touches (windows : List Window) (memory : Memory) : Memory → Prop where
  | none : Touches windows memory memory
  | extend {middle : Memory} (before : Touches windows memory middle) {offset size : Word}
      (named : ⟨offset, size⟩ ∈ windows) :
        Touches windows memory (middle.extend offset.index size.index)
  | write {middle : Memory} (before : Touches windows memory middle) {offset size : Word}
      (named : ⟨offset, size⟩ ∈ windows) (data : Bytes) :
      Touches windows memory (middle.write offset.index data size.index)

theorem Memory.Touches.trans {windows : List Window} {first second third : Memory}
    (before : first.Touches windows second) (after : second.Touches windows third) :
      first.Touches windows third := by
  induction after with
  | none => exact before
  | extend _ named ih => exact .extend ih named
  | write _ named data ih => exact .write ih named data

namespace Frame

structure Rests (frame later : Frame) : Prop where
  code : later.code = frame.code
  jumps : later.jumps = frame.jumps
  pc : later.pc = frame.pc
  stopped : later.stopped = frame.stopped
  returnData : later.outcome.returnData = frame.outcome.returnData
  fault : later.outcome.fault = frame.outcome.fault

theorem Rests.refl (frame : Frame) : frame.Rests frame := ⟨rfl, rfl, rfl, rfl, rfl, rfl⟩

theorem Rests.trans {first second third : Frame} (before : first.Rests second)
    (after : second.Rests third) : first.Rests third where
  code := after.code.trans before.code
  jumps := after.jumps.trans before.jumps
  pc := after.pc.trans before.pc
  stopped := after.stopped.trans before.stopped
  returnData := after.returnData.trans before.returnData
  fault := after.fault.trans before.fault

structure Stays (windows : List Window) (frame later : Frame) : Prop where
  rests : frame.Rests later
  memory : frame.memory.Touches windows later.memory

variable {windows : List Window}

theorem Stays.refl (frame : Frame) : frame.Stays windows frame := ⟨.refl frame, .none⟩

theorem Stays.trans {first second third : Frame} (before : first.Stays windows second)
    (after : second.Stays windows third) : first.Stays windows third :=
  ⟨before.rests.trans after.rests, before.memory.trans after.memory⟩

end Frame

namespace FrameAction

variable {α β : Type} {windows : List Window} {frame : Frame}

theorem after_of_ok {action : FrameAction α} {later : Frame} {value : α}
    (ran : action frame = .ok value later) : action.after frame = later := by
  rw [after, ran]

theorem after_bind_of_ok {action : FrameAction α} {later : Frame} {value : α}
    (ran : action frame = .ok value later) (next : α → FrameAction β) :
    (action >>= next).after frame = (next value).after later := by
  simp only [after, bind_apply, ran]

def Stays (windows : List Window) (action : FrameAction α) : Prop :=
  ∀ frame : Frame, frame.Stays windows (action.after frame)

/-- The second action is asked about only if the first ends without a fault. -/
theorem stays_of_bind {first : Frame} {action : FrameAction α} {next : α → FrameAction β}
    (before : first.Stays windows (action.after frame))
    (rest : ∀ value, (next value).Stays windows) :
    first.Stays windows ((action >>= next).after frame) := by
  unfold after at before ⊢
  rw [bind_apply]
  cases ran : action frame with
  | ok value middle =>
      rw [ran] at before
      exact before.trans (rest value middle)
  | error fault middle =>
      rw [ran] at before
      exact before

theorem Stays.bind {action : FrameAction α} {next : α → FrameAction β}
    (first : action.Stays windows) (second : ∀ value, (next value).Stays windows) :
    (action >>= next).Stays windows :=
  fun frame => stays_of_bind (first frame) second

theorem stays_pure (value : α) : (pure value : FrameAction α).Stays windows := .refl

theorem stays_reads (view : Frame → α) : (reads view).Stays windows := .refl

theorem stays_withStack (change : Stack → Except Fault Stack) :
    (withStack change).Stays windows := by
  intro frame
  unfold after withStack
  cases change frame.stack with
  | ok stack => exact ⟨⟨rfl, rfl, rfl, rfl, rfl, rfl⟩, .none⟩
  | error fault => exact .refl frame

theorem stays_push (word : Word) : (push word).Stays windows := stays_withStack _

theorem stays_pop : pop.Stays windows := by
  intro frame
  unfold after pop
  cases frame.stack.pop with
  | ok result => exact ⟨⟨rfl, rfl, rfl, rfl, rfl, rfl⟩, .none⟩
  | error fault => exact .refl frame

theorem popWindow_dropWords (frame : Frame) (depth : Nat) (enough : depth + 1 < frame.stack.size) :
    popWindow (frame.dropWords depth) =
      .ok (frame.memory.read (frame.operand depth).index (frame.operand (depth + 1)).index).1
        ((frame.dropWords (depth + 2)).reading (frame.operand depth).index
          (frame.operand (depth + 1)).index) := by
  rw [popWindow, bind_apply, pop_dropWords frame depth (by omega)]
  simp only [bind_apply, pop_dropWords frame (depth + 1) enough]
  rfl

/-- The bytes that are copied may be any; where they are copied to is named by two operands. -/
theorem stays_copyWindow (source : Frame → Bytes) (depth : Nat)
    (enough : depth + 2 < frame.stack.size)
    (named : ⟨frame.operand depth, frame.operand (depth + 2)⟩ ∈ windows) :
    frame.Stays windows ((copyWindow source).after (frame.dropWords depth)) := by
  rw [copyWindow, after_bind_of_ok (pop_dropWords frame depth (by omega)),
    after_bind_of_ok (pop_dropWords frame (depth + 1) (by omega)),
    after_bind_of_ok (pop_dropWords frame (depth + 2) enough)]
  exact ⟨⟨rfl, rfl, rfl, rfl, rfl, rfl⟩, .write .none named _⟩

theorem stays_copyCallData (enough : 2 < frame.stack.size)
    (named : ⟨frame.operand 0, frame.operand 2⟩ ∈ windows) :
    frame.Stays windows (copyCallData.after (frame.dropWords 0)) := by
  rw [copyCallData, after_bind_of_ok (pop_dropWords frame 0 (by omega)),
    after_bind_of_ok (pop_dropWords frame 1 (by omega)),
      after_bind_of_ok (pop_dropWords frame 2 enough)]
  exact ⟨⟨rfl, rfl, rfl, rfl, rfl, rfl⟩, .write .none named _⟩

theorem stays_copyReturned (enough : 2 < frame.stack.size)
    (named : ⟨frame.operand 0, frame.operand 2⟩ ∈ windows) :
    frame.Stays windows (copyReturned.after (frame.dropWords 0)) := by
  rw [copyReturned, after_bind_of_ok (pop_dropWords frame 0 (by omega)),
    after_bind_of_ok (pop_dropWords frame 1 (by omega)),
    after_bind_of_ok (pop_dropWords frame 2 enough),
    after_bind_of_ok (reads_apply _ _)]
  -- Bytes that were not returned are not copied, and memory is left alone.
  split
  · exact ⟨⟨rfl, rfl, rfl, rfl, rfl, rfl⟩, .none⟩
  · exact ⟨⟨rfl, rfl, rfl, rfl, rfl, rfl⟩, .write .none named _⟩

theorem stays_log (environment : Environment) (ledger : Ledger) (topics : Fin 5)
    (enough : topics.val + 2 ≤ frame.stack.size)
    (named : ⟨frame.operand 0, frame.operand 1⟩ ∈ windows) :
    frame.Stays windows ((compute environment ledger (.log topics)).after (frame.dropWords 0)) := by
  rw [compute]
  cases mutable : frame.context.isStatic with
  | true =>
      have refused :
          ensureMutable (frame.dropWords 0) = .error .staticViolation (frame.dropWords 0) := by
        rw [ensureMutable_apply]
        exact if_pos mutable
      rw [after, bind_apply, refused]
      exact .refl frame
  | false =>
      have passed : ensureMutable (frame.dropWords 0) = .ok () (frame.dropWords 0) := by
        rw [ensureMutable_apply]
        exact if_neg (ne_true_of_eq_false mutable)
      rw [after_bind_of_ok passed, after_bind_of_ok (pop_dropWords frame 0 (by omega)),
        after_bind_of_ok (pop_dropWords frame 1 (by omega)),
        after_bind_of_ok (popMany_dropWords frame 2 topics.val (by omega))]
      exact ⟨⟨rfl, rfl, rfl, rfl, rfl, rfl⟩, .extend .none named⟩

theorem stays_compute (environment : Environment) (ledger : Ledger) {op : Opcode}
    (enough : op.pops ≤ frame.stack.size) :
    frame.Stays (op.windows frame) ((compute environment ledger op).after frame) := by
  -- Operands come off one by one; before the first none is gone.
  change frame.Stays (op.windows frame) ((compute environment ledger op).after (frame.dropWords 0))
  cases op with
  | binary operation => exact (stays_pop.bind fun _ => stays_pop.bind fun _ => stays_push _) frame
  | ternary operation =>
      exact (stays_pop.bind fun _ => stays_pop.bind fun _ => stays_pop.bind fun _ => stays_push _)
        frame
  | signExtend =>
      refine (stays_pop.bind fun k => ?_) frame
      split
      · exact stays_pop.bind fun _ => stays_push _
      · exact stays_pure _
  | unary operation => exact (stays_pop.bind fun _ => stays_push _) frame
  | reading what => exact ((stays_reads _).bind fun _ => stays_push _) frame
  | balance | extCodeSize => exact (stays_pop.bind fun _ => stays_push _) frame
  | callDataLoad | blockHash | sload =>
    exact (stays_pop.bind fun _ => (stays_reads _).bind fun _ => stays_push _) frame
  | pop => exact (stays_pop.bind fun _ => stays_pure _) frame
  | dup index => exact stays_withStack (fun stack => stack.dup index.val) frame
  | swap index => exact stays_withStack (fun stack => stack.swap 0 (index.val + 1)) frame
  | sha3 =>
      have read :
          frame.Stays (Opcode.sha3.windows frame) (popWindow.after (frame.dropWords 0)) := by
        rw [after_of_ok (popWindow_dropWords frame 0 enough)]
        exact ⟨⟨rfl, rfl, rfl, rfl, rfl, rfl⟩, .extend .none (List.mem_singleton_self _)⟩
      exact stays_of_bind read fun _ => stays_push _
  | mload =>
      rw [compute, after_bind_of_ok (pop_dropWords frame 0 enough)]
      have read : frame.Stays (Opcode.mload.windows frame)
          ((withMemory fun memory => memory.readWord (frame.operand 0).index).after
            (frame.dropWords 1)) :=
        ⟨⟨rfl, rfl, rfl, rfl, rfl, rfl⟩, .extend .none (List.mem_singleton_self _)⟩
      exact stays_of_bind read fun _ => stays_push _
  | mstore =>
      rw [compute, after_bind_of_ok (pop_dropWords frame 0 (Nat.zero_lt_of_lt enough)),
        after_bind_of_ok (pop_dropWords frame 1 enough)]
      exact ⟨⟨rfl, rfl, rfl, rfl, rfl, rfl⟩, .write .none (List.mem_singleton_self _) _⟩
  | mstore8 =>
      rw [compute, after_bind_of_ok (pop_dropWords frame 0 (Nat.zero_lt_of_lt enough)),
        after_bind_of_ok (pop_dropWords frame 1 enough)]
      exact ⟨⟨rfl, rfl, rfl, rfl, rfl, rfl⟩, .write .none (List.mem_singleton_self _) _⟩
  | copy source =>
      cases source with
      | callData => exact stays_copyCallData enough (List.mem_singleton_self _)
      | code => exact stays_copyWindow _ 0 enough (List.mem_singleton_self _)
      | returnData => exact stays_copyReturned enough (List.mem_singleton_self _)
  | extCodeCopy =>
      rw [compute, after_bind_of_ok (pop_dropWords frame 0 (Nat.zero_lt_of_lt enough))]
      exact stays_copyWindow _ 1 enough (List.mem_singleton_self _)
  | log topics => exact stays_log environment ledger topics enough (List.mem_singleton_self _)
  | _ => exact .refl frame

end FrameAction

end ContractMachine
