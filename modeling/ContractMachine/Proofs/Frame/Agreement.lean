import ContractMachine.Proofs.Frame.Compute

/-!
What an instruction learns from memory: the size, and the bytes in the windows that its operands
name. Of two frames that differ in nothing else it makes the same, and the memories that it leaves
agree where they have agreed.
-/

namespace ContractMachine

namespace Memory

/-- The memories have one size and hold the same bytes in the windows. -/
structure Agrees (windows : List Window) (memory other : Memory) : Prop where
  size : other.size = memory.size
  cells : ∀ window ∈ windows, ∀ i < window.size.index,
    other.cell (window.offset.index + i) = memory.cell (window.offset.index + i)

namespace Agrees

variable {windows : List Window} {memory other : Memory}

theorem extend (agrees : memory.Agrees windows other) (offset size : Nat) :
    (memory.extend offset size).Agrees windows (other.extend offset size) where
  size := by rw [extend_size, extend_size, agrees.size]
  cells window named i inside := by
    rw [extend_cell, extend_cell, agrees.cells window named i inside]

theorem write (agrees : memory.Agrees windows other) (offset : Nat) (data : Bytes) (size : Nat) :
    (memory.write offset data size).Agrees windows (other.write offset data size) where
  size := by rw [write_size, write_size, (agrees.extend _ _).size]
  cells window named i inside := by rw [write_cell, write_cell, agrees.cells window named i inside]

theorem read (agrees : memory.Agrees windows other) {offset size : Word}
    (named : ⟨offset, size⟩ ∈ windows) :
    (other.read offset.index size.index).1 = (memory.read offset.index size.index).1 := by
  refine Array.ext_getElem? fun i => ?_
  rw [read_getElem?, read_getElem?]
  split
  · rename_i inside
    rw [agrees.cells _ named i inside]
  · rfl

end Agrees

end Memory

inductive Frame.Agrees (windows : List Window) (frame : Frame) : Frame → Prop where
  | memory {other : Memory} (agrees : frame.memory.Agrees windows other) :
      Agrees windows frame { frame with memory := other }

section

variable {σ α β : Type} {related : σ → σ → Prop}

inductive Alike (related : σ → σ → Prop) :
    EStateM.Result Fault σ α → EStateM.Result Fault σ α → Prop where
  | ok (value : α) {state other : σ} (after : related state other) :
      Alike related (.ok value state) (.ok value other)
  | error (fault : Fault) {state other : σ} (after : related state other) :
      Alike related (.error fault state) (.error fault other)

def Respects (related : σ → σ → Prop) (action : EStateM Fault σ α) : Prop :=
  ∀ state other, related state other → Alike related (action state) (action other)

/-- The second action is asked about only for what the first one comes to. -/
theorem Alike.bind {action : EStateM Fault σ α} {next : α → EStateM Fault σ β} {state other : σ}
    (first : Alike related (action state) (action other))
    (rest : ∀ value here there, action state = .ok value here → related here there →
      Alike related (next value here) (next value there)) :
    Alike related ((action >>= next) state) ((action >>= next) other) := by
  rw [bind_apply, bind_apply]
  generalize action state = before, action other = beside at first rest
  cases first with
  | ok value after => exact rest value _ _ rfl after
  | error fault after => exact .error fault after

theorem Respects.bind {action : EStateM Fault σ α} {next : α → EStateM Fault σ β}
    (first : Respects related action) (rest : ∀ value, Respects related (next value)) :
    Respects related (action >>= next) :=
  fun state other start => (first state other start).bind fun value here there _ =>
    rest value here there

theorem respects_pure (value : α) : Respects related (pure value : EStateM Fault σ α) :=
  fun _ _ => .ok value

theorem respects_throw (fault : Fault) : Respects related (throw fault : EStateM Fault σ α) :=
  fun _ _ => .error fault

end

namespace FrameAction

variable {α : Type} {windows : List Window}

theorem respects_withStack (change : Stack → Except Fault Stack) :
    Respects (Frame.Agrees windows) (withStack change) := by
  rintro frame _ ⟨agrees⟩
  unfold withStack
  cases change frame.stack with
  | ok stack => exact .ok () (.memory agrees)
  | error fault => exact .error fault (.memory agrees)

theorem respects_push (word : Word) : Respects (Frame.Agrees windows) (push word) :=
  respects_withStack _

theorem respects_pop : Respects (Frame.Agrees windows) pop := by
  rintro frame _ ⟨agrees⟩
  unfold pop
  cases frame.stack.pop with
  | ok popped => exact .ok popped.1 (.memory agrees)
  | error fault => exact .error fault (.memory agrees)

theorem respects_popMany (count : Nat) : Respects (Frame.Agrees windows) (popMany count) := by
  induction count with
  | zero => exact respects_pure []
  | succ count ih =>
    exact respects_pop.bind fun word => ih.bind fun rest => respects_pure (word :: rest)

/-- What is seen of a frame must not be its memory. -/
theorem respects_reads {view : Frame → α}
    (blind : ∀ frame other, frame.Agrees windows other → view other = view frame) :
    Respects (Frame.Agrees windows) (reads view) := by
  intro frame other agrees
  rw [reads_apply, reads_apply, blind frame other agrees]
  exact .ok _ agrees

theorem respects_changeMemory {change : Memory → Memory}
    (keeps : ∀ {memory other : Memory}, memory.Agrees windows other →
      (change memory).Agrees windows (change other)) :
    Respects (Frame.Agrees windows) (changeMemory change) := by
  rintro frame _ ⟨agrees⟩
  exact .ok () (.memory (keeps agrees))

theorem respects_changeOutcome (change : Outcome → Outcome) :
    Respects (Frame.Agrees windows) (changeOutcome change) := by
  rintro frame _ ⟨agrees⟩
  exact .ok () (.memory agrees)

theorem respects_advance : Respects (Frame.Agrees windows) advance := by
  rintro frame _ ⟨agrees⟩
  exact .ok () (.memory agrees)

theorem respects_ensureMutable : Respects (Frame.Agrees windows) ensureMutable := by
  rintro frame _ ⟨agrees⟩
  rw [ensureMutable_apply, ensureMutable_apply]
  cases frame.context.isStatic with
  | true => exact .error _ (.memory agrees)
  | false => exact .ok () (.memory agrees)

theorem respects_ofExcept (result : Except Fault α) :
    Respects (Frame.Agrees windows) (ofExcept result) := by
  cases result with
  | ok value => exact respects_pure value
  | error fault => exact respects_throw fault

theorem respects_spend (gas : Nat) (cause : String) :
    Respects (Frame.Agrees windows) (spend gas cause) := by
  intro frame _ agrees
  cases agrees with
  | @memory other agrees =>
      have left : ({ frame with memory := other } : Frame).gasLeft = frame.gasLeft := rfl
      unfold spend Frame.spend
      rw [left]
      by_cases dear : frame.gasLeft < gas
      · rw [if_pos dear, if_pos dear]
        exact .error _ (.memory agrees)
      · rw [if_neg dear, if_neg dear]
        exact .ok () (.memory agrees)

theorem respects_jumpTo (destination : Word) :
    Respects (Frame.Agrees windows) (jumpTo destination) := by
  intro frame _ agrees
  cases agrees with
  | @memory other agrees =>
      have same : ({ frame with memory := other } : Frame).jumpTarget destination =
        frame.jumpTarget destination := rfl
      unfold jumpTo
      rw [same]
      cases frame.jumpTarget destination with
      | ok pc => exact .ok () (.memory agrees)
      | error fault => exact .error fault (.memory agrees)

theorem respects_write (offset : Nat) (data : Bytes) (size : Nat) :
    Respects (Frame.Agrees windows) (changeMemory fun memory => memory.write offset data size) :=
  respects_changeMemory fun agrees => agrees.write offset data size

theorem respects_copyWindow {source : Frame → Bytes}
    (blind : ∀ frame other, frame.Agrees windows other → source other = source frame) :
    Respects (Frame.Agrees windows) (copyWindow source) := by
  refine respects_pop.bind fun target => respects_pop.bind fun offset =>
    respects_pop.bind fun size => ?_
  refine (respects_reads ?_).bind fun data => respects_write _ _ _
  intro frame other agrees
  rw [blind frame other agrees]

theorem respects_copyCallData : Respects (Frame.Agrees windows) copyCallData := by
  refine respects_pop.bind fun target => respects_pop.bind fun offset =>
    respects_pop.bind fun size => ?_
  refine (respects_reads ?_).bind fun data => respects_write _ _ _
  rintro frame _ ⟨_⟩
  rfl

theorem respects_copyReturned : Respects (Frame.Agrees windows) copyReturned := by
  refine respects_pop.bind fun target => respects_pop.bind fun start =>
    respects_pop.bind fun count => ?_
  refine (respects_reads ?_).bind fun available => ?_
  · rintro frame _ ⟨_⟩
    rfl
  · split
    · exact respects_throw _
    · refine (respects_reads ?_).bind fun data => respects_write _ _ _
      rintro frame _ ⟨_⟩
      rfl

section

variable {frame other : Frame}

theorem alike_readMemory (agrees : frame.Agrees windows other) {offset size : Word}
    (named : ⟨offset, size⟩ ∈ windows) :
    Alike (Frame.Agrees windows) (readMemory offset.index size.index frame)
      (readMemory offset.index size.index other) := by
  cases agrees with
  | @memory other agrees =>
      unfold readMemory withMemory
      simp only [agrees.read named]
      exact .ok _ (.memory (agrees.extend _ _))

theorem alike_readWord (agrees : frame.Agrees windows other) {offset : Word}
    (named : ⟨offset, 32⟩ ∈ windows) :
    Alike (Frame.Agrees windows) (withMemory (fun memory => memory.readWord offset.index) frame)
      (withMemory (fun memory => memory.readWord offset.index) other) := by
  cases agrees with
  | @memory other agrees =>
      have same : (other.readWord offset.index).1 = (frame.memory.readWord offset.index).1 :=
        congrArg Word.ofBytes (agrees.read named)
      unfold withMemory
      simp only [same]
      exact .ok _ (.memory (agrees.extend offset.index 32))

/-- Operands come off one by one, each from the frame without those before it. -/
theorem alike_pop {β : Type} {next : Word → FrameAction β} {depth : Nat}
    (agrees : (frame.dropWords depth).Agrees windows other) (enough : depth < frame.stack.size)
    (rest : ∀ there, (frame.dropWords (depth + 1)).Agrees windows there →
      Alike (Frame.Agrees windows) (next (frame.operand depth) (frame.dropWords (depth + 1)))
        (next (frame.operand depth) there)) :
    Alike (Frame.Agrees windows) ((pop >>= next) (frame.dropWords depth))
      ((pop >>= next) other) := by
  refine (respects_pop _ _ agrees).bind ?_
  intro word here there popped after
  rw [pop_dropWords frame depth enough] at popped
  cases popped
  exact rest there after

theorem alike_popWindow {depth : Nat} (agrees : (frame.dropWords depth).Agrees windows other)
    (enough : depth + 1 < frame.stack.size)
    (named : ⟨frame.operand depth, frame.operand (depth + 1)⟩ ∈ windows) :
    Alike (Frame.Agrees windows) (popWindow (frame.dropWords depth)) (popWindow other) :=
  alike_pop agrees (Nat.lt_of_succ_lt enough) fun _ agrees =>
    alike_pop agrees enough fun _ agrees =>
    alike_readMemory agrees named

theorem alike_compute (environment : Environment) (ledger : Ledger) {op : Opcode}
    (enough : op.pops ≤ frame.stack.size) (agrees : frame.Agrees (op.windows frame) other) :
    Alike (Frame.Agrees (op.windows frame)) (compute environment ledger op frame)
      (compute environment ledger op other) := by
  change (frame.dropWords 0).Agrees (op.windows frame) other at agrees
  change Alike _ (compute environment ledger op (frame.dropWords 0)) _
  -- Where no memory is read, agreement is kept whatever the windows are; where it is, the window
  -- read is one of those that the operands name.
  cases op with
  | binary operation =>
    exact (respects_pop.bind fun _ => respects_pop.bind fun _ => respects_push _) _ _ agrees
  | ternary operation =>
      exact (respects_pop.bind fun _ => respects_pop.bind fun _ => respects_pop.bind fun _ =>
        respects_push _) _ _ agrees
  | signExtend =>
      refine (respects_pop.bind fun k => ?_) _ _ agrees
      split
      · exact respects_pop.bind fun _ => respects_push _
      · exact respects_pure _
  | unary operation => exact (respects_pop.bind fun _ => respects_push _) _ _ agrees
  | reading what =>
      refine ((respects_reads ?_).bind fun _ => respects_push _) _ _ agrees
      rintro frame _ ⟨agrees⟩
      cases what with
      | memorySize => exact congrArg Word.ofNat agrees.size
      | _ => rfl
  | balance | extCodeSize => exact (respects_pop.bind fun _ => respects_push _) _ _ agrees
  | callDataLoad | blockHash | sload =>
      refine (respects_pop.bind fun _ => (respects_reads ?_).bind fun _ => respects_push _) _ _
        agrees
      rintro frame _ ⟨_⟩
      rfl
  | pop => exact (respects_pop.bind fun _ => respects_pure _) _ _ agrees
  | dup index => exact respects_withStack (fun stack => stack.dup index.val) _ _ agrees
  | swap index => exact respects_withStack (fun stack => stack.swap 0 (index.val + 1)) _ _ agrees
  | sha3 =>
      refine (alike_popWindow agrees enough (List.mem_singleton_self _)).bind ?_
      intro data here there _ agrees
      exact respects_push _ _ _ agrees
  | mload =>
      refine alike_pop agrees enough fun there agrees => ?_
      refine (alike_readWord agrees (List.mem_singleton_self _)).bind ?_
      intro word here there _ agrees
      exact respects_push _ _ _ agrees
  | mstore | mstore8 =>
      exact (respects_pop.bind fun _ => respects_pop.bind fun _ => respects_write _ _ _) _ _ agrees
  | copy source =>
      cases source with
      | callData => exact respects_copyCallData _ _ agrees
      | code =>
          refine respects_copyWindow ?_ _ _ agrees
          rintro frame _ ⟨_⟩
          rfl
      | returnData => exact respects_copyReturned _ _ agrees
  | extCodeCopy =>
    exact (respects_pop.bind fun _ => respects_copyWindow fun _ _ _ => rfl) _ _ agrees
  | log topics =>
      refine (respects_ensureMutable _ _ agrees).bind ?_
      intro _ here there passed agrees
      rw [ensureMutable_apply] at passed
      split at passed
      · cases passed
      · cases passed
        have both : 1 < frame.stack.size := Nat.le_trans (Nat.le_add_left 2 topics.val) enough
        refine alike_pop agrees (Nat.lt_of_succ_lt both) fun _ agrees =>
          alike_pop agrees both fun _ agrees => ?_
        refine (respects_popMany topics.val _ _ agrees).bind fun words _ _ _ agrees => ?_
        refine (alike_readMemory agrees (List.mem_singleton_self _)).bind fun data _ _ _ agrees =>
          ?_
        refine ((respects_reads ?_).bind fun owner => respects_changeOutcome _) _ _ agrees
        rintro frame _ ⟨_⟩
        rfl
  | _ => exact .ok () agrees

/-- An instruction that concerns the frame only learns no more from memory than its windows hold. -/
theorem alike_perform (environment : Environment) (ledger : Ledger) {op : Opcode}
    (enough : op.pops ≤ frame.stack.size) (agrees : frame.Agrees (op.windows frame) other) :
    Alike (Frame.Agrees (op.windows frame)) (perform environment ledger op frame)
      (perform environment ledger op other) := by
  have behind := (alike_compute environment ledger enough agrees).bind fun _ here there _ agrees =>
    respects_advance here there agrees
  change (frame.dropWords 0).Agrees (op.windows frame) other at agrees
  cases op with
  | stop =>
      cases agrees with
      | memory agrees => exact .ok () (.memory agrees)
  | jump => exact (respects_pop.bind respects_jumpTo) _ _ agrees
  | jumpi =>
      refine (respects_pop.bind fun destination => respects_pop.bind fun condition => ?_) _ _ agrees
      split
      · exact respects_advance
      · exact respects_jumpTo destination
  | push index =>
      refine (respects_advance.bind fun _ => Respects.bind ?_ fun data => respects_push _) _ _
        agrees
      rintro frame _ ⟨agrees⟩
      exact .ok _ (.memory agrees)
  | returning | revert =>
      refine (alike_popWindow agrees enough (List.mem_singleton_self _)).bind ?_
      rintro data here _ _ ⟨agrees⟩
      exact .ok () (.memory agrees)
  | _ => exact behind

end

end FrameAction

namespace Frame

variable {frame : Frame} {other : Memory}

theorem growthFor_of_size (same : other.size = frame.memory.size) (fees : Fees)
    (offset size : Word) :
    ({ frame with memory := other } : Frame).growthFor fees offset size =
      frame.growthFor fees offset size := by
  simp only [growthFor, same]

theorem price_of_size (same : other.size = frame.memory.size) (fees : Fees) (ledger : Ledger)
    (op : Opcode) :
    ({ frame with memory := other } : Frame).price fees ledger op = frame.price fees ledger op := by
  have grown := growthFor_of_size same fees
  have worked (work : Nat) (offset size : Word) :
      ({ frame with memory := other } : Frame).workAndGrowth fees work offset size =
        frame.workAndGrowth fees work offset size := by
    simp only [workAndGrowth, grown]
  have copied (fixed : Nat) (offset size : Word) :
      ({ frame with memory := other } : Frame).copyPrice fees fixed offset size =
        frame.copyPrice fees fixed offset size := by
    simp only [copyPrice, grown]
  cases op with
  | mload | mstore | mstore8 | returning | revert | sha3 | create => simp only [price, worked]
  | copy | extCodeCopy => simp only [price, copied]
  | call kind =>
      simp only [price, callPrice, same]
      rfl
  | log topics =>
      simp only [price, logPrice, worked]
      rfl
  | binary operation => cases operation <;> rfl
  | _ => rfl

/-- A price is found from the size of memory and not from what it holds. -/
theorem quote_of_size (same : other.size = frame.memory.size) (fees : Fees) (ledger : Ledger) :
    ({ frame with memory := other } : Frame).quote fees ledger = frame.quote fees ledger := by
  have priced := price_of_size same fees ledger
  have left : ({ frame with memory := other } : Frame).gasLeft = frame.gasLeft := rfl
  have byte : ({ frame with memory := other } : Frame).opByte = frame.opByte := rfl
  simp only [quote, priced, left, byte]

end Frame

end ContractMachine
