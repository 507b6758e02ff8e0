import ContractMachine.Frame.Instruction

/-!
What an instruction that concerns one frame only may do to it: a chain of small changes, each to the
stack, the memory, the position or a part of the outcome that is not gas. `works_perform` shows it
of every such instruction, ended by a fault or not; what every small change keeps is kept by them
all. In particular a frame keeps its code, its jump table, its surroundings and the limit of its
stack.
-/

namespace ContractMachine

section

variable {σ α β : Type}

@[simp] theorem bind_apply (action : EStateM Fault σ α) (next : α → EStateM Fault σ β) (state : σ) :
    (action >>= next) state =
      match action state with
      | .ok value after => next value after
      | .error fault after => .error fault after := by
  simp only [bind, EStateM.bind]
  cases action state <;> rfl

@[simp] theorem map_apply (change : α → β) (action : EStateM Fault σ α) (state : σ) :
    (change <$> action) state =
      match action state with
      | .ok value after => .ok (change value) after
      | .error fault after => .error fault after := by
  simp only [Functor.map, EStateM.map]
  cases action state <;> rfl

@[simp] theorem pure_apply (value : α) (state : σ) :
    (pure value : EStateM Fault σ α) state = .ok value state := rfl

@[simp] theorem throw_apply (fault : Fault) (state : σ) :
    (throw fault : EStateM Fault σ α) state = .error fault state := rfl

@[simp] theorem if_apply (condition : Prop) [Decidable condition] (first second : EStateM Fault σ α)
    (state : σ) :
    (if condition then first else second) state =
      if condition then first state else second state := by
  split <;> rfl

end

namespace Frame

inductive Change (frame : Frame) : Frame → Prop where
  | stack (stack : Stack) (limit : stack.limit = frame.stack.limit) :
      Change frame { frame with stack := stack }
  | memory (memory : Memory) : Change frame { frame with memory := memory }
  | goTo (pc : Nat) : Change frame (frame.setPc pc)
  | stop : Change frame frame.stop
  | returnData (data : Bytes) :
      Change frame { frame with outcome := frame.outcome.setReturnData data }
  | revert : Change frame { frame with outcome := frame.outcome.setReverted }
  | log (log : Log) (mutable : frame.context.isStatic = false) :
      Change frame { frame with outcome := frame.outcome.addLog log }

inductive Changes (frame : Frame) : Frame → Prop where
  | none : Changes frame frame
  | more {middle later : Frame} (before : Changes frame middle) (change : Change middle later) :
      Changes frame later

theorem Change.changes {frame later : Frame} (change : Change frame later) : Changes frame later :=
  .more .none change

theorem Changes.trans {first second third : Frame} (before : Changes first second)
    (after : Changes second third) : Changes first third := by
  induction after with
  | none => exact before
  | more _ change ih => exact .more ih change

theorem Change.context {frame later : Frame} (change : frame.Change later) :
    later.context = frame.context := by
  cases change <;> rfl

theorem Changes.context {frame later : Frame} (changes : frame.Changes later) :
    later.context = frame.context := by
  induction changes with
  | none => rfl
  | more _ change ih => exact change.context.trans ih

end Frame

theorem Stack.push_limit {stack pushed : Stack} {word : Word}
    (done : stack.push word = .ok pushed) : pushed.limit = stack.limit := by
  unfold push at done
  split at done
  · cases done; rfl
  · cases done

theorem Stack.pop_limit {stack popped : Stack} {word : Word}
    (done : stack.pop = .ok (word, popped)) : popped.limit = stack.limit := by
  unfold pop at done
  split at done
  · cases done; rfl
  · cases done

theorem Stack.swap_limit {stack swapped : Stack} {i j : Nat} (done : stack.swap i j = .ok swapped) :
    swapped.limit = stack.limit := by
  unfold swap at done
  split at done
  · cases done; rfl
  · cases done

theorem Stack.dup_limit {stack pushed : Stack} {depth : Nat} (done : stack.dup depth = .ok pushed) :
    pushed.limit = stack.limit := by
  unfold dup at done
  cases found : stack.get depth with
  | error fault => rw [found] at done; cases done
  | ok word => rw [found] at done; exact push_limit done

namespace Frame

structure Silent (frame later : Frame) : Prop where
  changes : frame.Changes later
  logs : later.outcome.logs = frame.outcome.logs

theorem Silent.refl (frame : Frame) : frame.Silent frame := ⟨.none, rfl⟩

theorem Silent.trans {first second third : Frame} (before : first.Silent second)
    (after : second.Silent third) : first.Silent third :=
  ⟨before.changes.trans after.changes, after.logs.trans before.logs⟩

theorem Change.silent {frame later : Frame} (change : frame.Change later)
    (logs : later.outcome.logs = frame.outcome.logs) : frame.Silent later :=
  ⟨change.changes, logs⟩

end Frame

namespace FrameAction

variable {α β : Type}

def after (action : FrameAction α) (frame : Frame) : Frame :=
  match action frame with
  | .ok _ later => later
  | .error _ later => later

def Works (action : FrameAction α) : Prop := ∀ frame : Frame, frame.Changes (action.after frame)

theorem Works.ok {action : FrameAction α} (works : action.Works) {frame later : Frame} {value : α}
    (ran : action frame = .ok value later) : frame.Changes later := by
  have changes := works frame
  rwa [after, ran] at changes

theorem Works.error {action : FrameAction α} (works : action.Works) {frame later : Frame}
    {fault : Fault} (ran : action frame = .error fault later) : frame.Changes later := by
  have changes := works frame
  rwa [after, ran] at changes

def Silent (action : FrameAction α) : Prop := ∀ frame : Frame, frame.Silent (action.after frame)

theorem Works.bind {action : FrameAction α} {next : α → FrameAction β} (first : action.Works)
    (second : ∀ value, (next value).Works) : (action >>= next).Works := by
  intro frame
  unfold after
  rw [bind_apply]
  cases ran : action frame with
  | ok value middle => exact (first.ok ran).trans (second value middle)
  | error fault middle => exact first.error ran

theorem Silent.works {action : FrameAction α} (silent : action.Silent) : action.Works :=
  fun frame => (silent frame).changes

theorem Silent.ok {action : FrameAction α} (silent : action.Silent) {frame later : Frame}
    {value : α} (ran : action frame = .ok value later) : frame.Silent later := by
  have changes := silent frame
  rwa [after, ran] at changes

theorem Silent.error {action : FrameAction α} (silent : action.Silent) {frame later : Frame}
    {fault : Fault} (ran : action frame = .error fault later) : frame.Silent later := by
  have changes := silent frame
  rwa [after, ran] at changes

theorem Silent.bind {action : FrameAction α} {next : α → FrameAction β} (first : action.Silent)
    (second : ∀ value, (next value).Silent) : (action >>= next).Silent := by
  intro frame
  unfold after
  rw [bind_apply]
  cases ran : action frame with
  | ok value middle => exact (first.ok ran).trans (second value middle)
  | error fault middle => exact first.error ran

def WorksMutable (action : FrameAction α) : Prop :=
  ∀ frame : Frame, frame.context.isStatic = false → frame.Changes (action.after frame)

theorem Silent.bind_mutable {action : FrameAction α} {next : α → FrameAction β}
    (first : action.Silent) (second : ∀ value, (next value).WorksMutable) :
    (action >>= next).WorksMutable := by
  intro frame mutable
  unfold after
  rw [bind_apply]
  cases ran : action frame with
  | ok value middle =>
      have still : middle.context.isStatic = false := by
        rw [(first.ok ran).changes.context]
        exact mutable
      exact (first.ok ran).changes.trans (second value middle still)
  | error fault middle => exact (first.error ran).changes

theorem silent_pure (value : α) : (pure value : FrameAction α).Silent := .refl

theorem silent_throw (fault : Fault) : (throw fault : FrameAction α).Silent := .refl

theorem silent_reads (view : Frame → α) : (reads view).Silent := .refl

theorem silent_modify {change : Frame → Frame}
    (silent : ∀ frame : Frame, frame.Silent (change frame)) :
    (modify change : FrameAction PUnit).Silent := silent

theorem silent_withStack {change : Stack → Except Fault Stack}
    (same : ∀ stack changed, change stack = .ok changed → changed.limit = stack.limit) :
    (withStack change).Silent := by
  intro frame
  unfold after withStack
  cases changed : change frame.stack with
  | ok stack => exact (Frame.Change.stack stack (same frame.stack stack changed)).silent rfl
  | error fault => exact .refl frame

theorem silent_push (word : Word) : (push word).Silent :=
  silent_withStack fun _ _ => Stack.push_limit

theorem silent_pop : pop.Silent := by
  intro frame
  unfold after pop
  cases popped : frame.stack.pop with
  | ok result => exact (Frame.Change.stack result.2 (Stack.pop_limit popped)).silent rfl
  | error fault => exact .refl frame

theorem silent_popMany (count : Nat) : (popMany count).Silent := by
  induction count with
  | zero => exact silent_pure []
  | succ count ih => exact silent_pop.bind fun _ => ih.bind fun _ => silent_pure _

theorem silent_withMemory (change : Memory → α × Memory) : (withMemory change).Silent :=
  fun frame => (Frame.Change.memory (change frame.memory).2).silent rfl

theorem silent_changeMemory (change : Memory → Memory) : (changeMemory change).Silent :=
  silent_withMemory _

theorem silent_readMemory (offset size : Nat) : (readMemory offset size).Silent :=
  silent_withMemory _

theorem silent_popWindow : popWindow.Silent :=
  silent_pop.bind fun _ => silent_pop.bind fun _ => silent_readMemory _ _

theorem silent_advance : advance.Silent :=
  fun frame => (Frame.Change.goTo (frame.pc + 1)).silent rfl

theorem silent_fetch (size : Nat) : (update fun frame => frame.fetch size).Silent :=
  fun frame => (Frame.Change.goTo (Quantity.clamp (frame.pc + size))).silent rfl

theorem silent_jumpTo (destination : Word) : (jumpTo destination).Silent := by
  intro frame
  unfold after jumpTo
  cases frame.jumpTarget destination with
  | ok pc => exact (Frame.Change.goTo pc).silent rfl
  | error fault => exact .refl frame

theorem ensureMutable_apply (frame : Frame) :
    ensureMutable frame =
      if frame.context.isStatic then .error .staticViolation frame else .ok () frame := by
  cases mutable : frame.context.isStatic <;> simp [ensureMutable, reads, mutable]

/-- What follows the check is done by frames that have passed it. -/
theorem works_ensureMutable_bind {next : Unit → FrameAction α} (rest : (next ()).WorksMutable) :
    (ensureMutable >>= next).Works := by
  intro frame
  unfold after
  rw [bind_apply, ensureMutable_apply]
  cases mutable : frame.context.isStatic with
  | true => exact .none
  | false => exact rest frame mutable

theorem works_addLog (log : Log) : (changeOutcome fun outcome => outcome.addLog log).WorksMutable :=
  fun _ mutable => (Frame.Change.log log mutable).changes

theorem silent_copyWindow (source : Frame → Bytes) : (copyWindow source).Silent :=
  silent_pop.bind fun _ => silent_pop.bind fun _ => silent_pop.bind fun _ =>
    (silent_reads _).bind fun _ => silent_changeMemory _

theorem silent_copyCallData : copyCallData.Silent :=
  silent_pop.bind fun _ => silent_pop.bind fun _ => silent_pop.bind fun _ =>
    (silent_reads _).bind fun _ => silent_changeMemory _

theorem silent_copyReturned : copyReturned.Silent := by
  refine silent_pop.bind fun _ => silent_pop.bind fun _ => silent_pop.bind fun _ =>
    (silent_reads _).bind fun _ => ?_
  split
  -- The fault ends the action, but the rest of it is still there to be gone through.
  · exact (silent_throw _).bind fun _ => (silent_reads _).bind fun _ => silent_changeMemory _
  · exact (silent_reads _).bind fun _ => silent_changeMemory _

/-- No instruction but a log adds one. -/
theorem silent_compute (environment : Environment) (ledger : Ledger) {op : Opcode}
    (other : ∀ topics, op ≠ .log topics) : (compute environment ledger op).Silent := by
  cases op with
  | binary operation => exact silent_pop.bind fun _ => silent_pop.bind fun _ => silent_push _
  | ternary operation =>
      exact silent_pop.bind fun _ => silent_pop.bind fun _ => silent_pop.bind fun _ => silent_push _
  | signExtend =>
      -- From the 32nd byte on there is nothing to extend, and the second word stays where it is.
      refine silent_pop.bind fun k => ?_
      split
      · exact silent_pop.bind fun _ => silent_push _
      · exact silent_pure _
  | unary operation => exact silent_pop.bind fun _ => silent_push _
  | sha3 => exact silent_popWindow.bind fun _ => silent_push _
  | reading what => exact (silent_reads _).bind fun _ => silent_push _
  | balance => exact silent_pop.bind fun _ => silent_push _
  | callDataLoad => exact silent_pop.bind fun _ => (silent_reads _).bind fun _ => silent_push _
  | copy source =>
      cases source with
      | callData => exact silent_copyCallData
      | code => exact silent_copyWindow _
      | returnData => exact silent_copyReturned
  | extCodeSize => exact silent_pop.bind fun _ => silent_push _
  | extCodeCopy => exact silent_pop.bind fun _ => silent_copyWindow _
  | blockHash => exact silent_pop.bind fun _ => (silent_reads _).bind fun _ => silent_push _
  | pop => exact silent_pop.bind fun _ => silent_pure _
  | mload => exact silent_pop.bind fun _ => (silent_withMemory _).bind fun _ => silent_push _
  | mstore => exact silent_pop.bind fun _ => silent_pop.bind fun _ => silent_changeMemory _
  | mstore8 => exact silent_pop.bind fun _ => silent_pop.bind fun _ => silent_changeMemory _
  | sload => exact silent_pop.bind fun _ => (silent_reads _).bind fun _ => silent_push _
  | dup index => exact silent_withStack fun _ _ => Stack.dup_limit
  | swap index => exact silent_withStack fun _ _ => Stack.swap_limit
  | log topics => exact absurd rfl (other topics)
  | _ => exact silent_pure _

theorem silent_perform (environment : Environment) (ledger : Ledger) {op : Opcode}
    (other : ∀ topics, op ≠ .log topics) : (perform environment ledger op).Silent := by
  cases op with
  | stop =>
      refine silent_modify fun frame => ?_
      exact ⟨(Frame.Change.returnData #[]).changes.trans Frame.Change.stop.changes, rfl⟩
  | jump => exact silent_pop.bind fun _ => silent_jumpTo _
  | jumpi =>
      refine silent_pop.bind fun _ => silent_pop.bind fun _ => ?_
      split
      · exact silent_advance
      · exact silent_jumpTo _
  | push index => exact silent_advance.bind fun _ => (silent_fetch _).bind fun _ => silent_push _
  | returning =>
      refine silent_popWindow.bind fun data => silent_modify fun frame => ?_
      have returned := (Frame.Change.returnData data : frame.Change _).changes
      exact ⟨(returned.more (.goTo _)).more .stop, rfl⟩
  | revert =>
      refine silent_popWindow.bind fun data => silent_modify fun frame => ?_
      have returned := (Frame.Change.returnData data : frame.Change _).changes
      exact ⟨((returned.more .revert).more (.goTo _)).more .stop, rfl⟩
  | _ => exact (silent_compute environment ledger other).bind fun _ => silent_advance

theorem works_log (environment : Environment) (ledger : Ledger) (topics : Fin 5) :
    (perform environment ledger (.log topics)).Works := by
  have logs : (compute environment ledger (.log topics)).Works :=
    works_ensureMutable_bind <| silent_pop.bind_mutable fun _ => silent_pop.bind_mutable fun _ =>
      (silent_popMany _).bind_mutable fun _ => (silent_readMemory _ _).bind_mutable fun _ =>
        (silent_reads _).bind_mutable fun _ => works_addLog _
  exact logs.bind fun _ => silent_advance.works

theorem works_perform (environment : Environment) (ledger : Ledger) (op : Opcode) :
    (perform environment ledger op).Works := by
  by_cases logs : ∃ topics, op = .log topics
  · obtain ⟨topics, rfl⟩ := logs
    exact works_log environment ledger topics
  · exact (silent_perform environment ledger fun topics same => logs ⟨topics, same⟩).works

end FrameAction

structure Frame.Continues (frame later : Frame) : Prop where
  code : later.code = frame.code
  jumps : later.jumps = frame.jumps
  context : later.context = frame.context
  limit : later.stack.limit = frame.stack.limit

namespace Frame

theorem Continues.refl (frame : Frame) : frame.Continues frame := ⟨rfl, rfl, rfl, rfl⟩

theorem Continues.trans {first second third : Frame} (before : first.Continues second)
    (after : second.Continues third) : first.Continues third where
  code := after.code.trans before.code
  jumps := after.jumps.trans before.jumps
  context := after.context.trans before.context
  limit := after.limit.trans before.limit

theorem Continues.owner {frame later : Frame} (same : frame.Continues later) :
    later.owner = frame.owner :=
  congrArg Context.address same.context

theorem Change.continues {frame later : Frame} (change : frame.Change later) :
    frame.Continues later := by
  cases change with
  | stack stack limit => exact ⟨rfl, rfl, rfl, limit⟩
  | memory | goTo | stop | returnData | revert | log => exact ⟨rfl, rfl, rfl, rfl⟩

theorem Changes.continues {frame later : Frame} (changes : frame.Changes later) :
    frame.Continues later := by
  induction changes with
  | none => exact .refl frame
  | more _ change ih => exact ih.trans change.continues

/-- What no small change touches. Logs are added by frames that may modify state, and by no
others. -/
structure Spares (frame later : Frame) : Prop where
  gasUsed : later.outcome.gasUsed = frame.outcome.gasUsed
  fault : later.outcome.fault = frame.outcome.fault
  deletions : later.outcome.deletions = frame.outcome.deletions
  refundPool : later.outcome.refundPool = frame.outcome.refundPool
  logs : frame.context.isStatic = true → later.outcome.logs = frame.outcome.logs

theorem Change.spares {frame later : Frame} (change : frame.Change later) : frame.Spares later := by
  cases change with
  | log log mutable =>
      refine ⟨rfl, rfl, rfl, rfl, ?_⟩
      intro static
      rw [mutable] at static
      cases static
  | stack | memory | goTo | stop | returnData | revert => exact ⟨rfl, rfl, rfl, rfl, fun _ => rfl⟩

theorem Changes.spares {frame later : Frame} (changes : frame.Changes later) :
    frame.Spares later := by
  induction changes with
  | none => exact ⟨rfl, rfl, rfl, rfl, fun _ => rfl⟩
  | more before change ih =>
      have last := change.spares
      refine ⟨last.gasUsed.trans ih.gasUsed, last.fault.trans ih.fault,
        last.deletions.trans ih.deletions, last.refundPool.trans ih.refundPool, ?_⟩
      intro static
      have still : _ = true := (congrArg Context.isStatic before.context).trans static
      exact (last.logs still).trans (ih.logs static)

/-- No small change touches the records. -/
theorem Changes.records {frame later : Frame} (changes : frame.Changes later) :
    later.outcome.records = frame.outcome.records := by
  induction changes with
  | none => rfl
  | more before change ih =>
      refine Eq.trans ?_ ih
      cases change <;> rfl

theorem continues_advance (frame : Frame) : frame.Continues frame.advance := ⟨rfl, rfl, rfl, rfl⟩

theorem continues_pay (frame : Frame) (price : Price) : frame.Continues (frame.pay price) :=
  ⟨rfl, rfl, rfl, rfl⟩

theorem continues_halt (frame : Frame) (fault : Fault) : frame.Continues (frame.halt fault) :=
  ⟨rfl, rfl, rfl, rfl⟩

end Frame

end ContractMachine
