import ContractMachine.Proofs.Checked.Price

/-!
Instructions whose slices and sums are checked. An action that is checked follows one that is not if
it comes to the same end, a value or a fault; what is put together from actions that follow follows.
Every instruction does, whatever its operands, since they are narrowed before they become positions
and lengths.
-/

namespace ContractMachine

abbrev CheckedAction (σ : Type) := EStateM Stop σ

section

variable {σ α β : Type}

namespace CheckedAction

def lift (action : EStateM Fault σ α) : CheckedAction σ α := fun state =>
  match action state with
  | .ok value after => .ok value after
  | .error fault after => .error (.fault fault) after

instance : MonadLift (EStateM Fault σ) (CheckedAction σ) := ⟨lift⟩

def reads? (view : σ → Checked α) : CheckedAction σ α := fun state =>
  match view state with
  | .ok value => .ok value state
  | .error stop => .error stop state

instance : MonadLift Checked (CheckedAction σ) := ⟨fun computed => reads? fun _ => computed⟩

def Follows (checked : CheckedAction σ α) (action : EStateM Fault σ α) (state : σ) : Prop :=
  checked state = (liftM action : CheckedAction σ α) state

section

variable {checked : CheckedAction σ α} {action : EStateM Fault σ α} {state after : σ} {value : α}
  {fault : Fault}

theorem liftM_of_ok (ran : action state = .ok value after) :
    (liftM action : CheckedAction σ α) state = .ok value after := by
  change lift action state = _
  rw [lift, ran]

theorem liftM_of_error (ran : action state = .error fault after) :
    (liftM action : CheckedAction σ α) state = .error (.fault fault) after := by
  change lift action state = _
  rw [lift, ran]

theorem Follows.ok (follows : Follows checked action state) (ran : action state = .ok value after) :
    checked state = .ok value after :=
  follows.trans (liftM_of_ok ran)

theorem Follows.error (follows : Follows checked action state)
    (ran : action state = .error fault after) :
    checked state = .error (.fault fault) after :=
  follows.trans (liftM_of_error ran)

theorem follows_self (action : EStateM Fault σ α) (state : σ) :
    Follows (liftM action) action state := rfl

end

theorem Follows.bind {checked : CheckedAction σ α}
    {action : EStateM Fault σ α} {next? : α → CheckedAction σ β} {next : α → EStateM Fault σ β}
    {state : σ} (first : Follows checked action state)
    (rest : ∀ value after, action state = .ok value after →
      Follows (next? value) (next value) after) :
    Follows (checked >>= next?) (action >>= next) state := by
  change EStateM.bind checked next? state = _
  rw [EStateM.bind]
  cases ran : action state with
  | ok value after =>
      have same : (action >>= next) state = next value after := by rw [bind_apply, ran]
      rw [first.ok ran]
      cases last : next value after with
      | ok result final =>
        exact ((rest value after ran).ok last).trans (liftM_of_ok (same.trans last)).symm
      | error fault final =>
        exact ((rest value after ran).error last).trans (liftM_of_error (same.trans last)).symm
  | error fault after =>
      have same : (action >>= next) state = .error fault after := by rw [bind_apply, ran]
      rw [first.error ran]
      exact (liftM_of_error same).symm

/-- After an action that has nothing to be checked. -/
theorem follows_bind {action : EStateM Fault σ α} {next? : α → CheckedAction σ β}
    {next : α → EStateM Fault σ β} {state : σ}
    (rest : ∀ value after, action state = .ok value after →
      Follows (next? value) (next value) after) :
    Follows ((liftM action : CheckedAction σ α) >>= next?) (action >>= next) state :=
  (follows_self action state).bind rest

/-- A number that is worked out with checks takes no step of its own. -/
theorem follows_checked {computed : Checked α} {value : α} {next? : α → CheckedAction σ β}
    {action : EStateM Fault σ β} {state : σ} (same : computed = .ok value)
    (rest : Follows (next? value) action state) :
    Follows ((liftM computed : CheckedAction σ α) >>= next?) action state := by
  subst same
  exact rest

theorem follows_reads {view? : σ → Checked α} {view : σ → α} {state : σ}
    (same : view? state = .ok (view state)) :
    Follows (reads? view?) (fun state => .ok (view state) state) state := by
  unfold Follows reads?
  rw [same]
  rfl

end CheckedAction

end

namespace FrameAction

open CheckedAction

variable {α : Type}

def update? (change : Frame → Checked (α × Frame)) : CheckedAction Frame α := fun frame =>
  match change frame with
  | .ok (value, changed) => .ok value changed
  | .error stop => .error stop frame

def withMemory? (change : Memory → Checked (α × Memory)) : CheckedAction Frame α := fun frame =>
  match change frame.memory with
  | .ok (value, memory) => .ok value { frame with memory := memory }
  | .error stop => .error stop frame

def readMemory? (offset size : Nat) : CheckedAction Frame Bytes :=
  withMemory? fun memory => memory.read? offset size

def changeMemory? (change : Memory → Checked Memory) : CheckedAction Frame Unit :=
  withMemory? fun memory => do
  let changed ← change memory
  .ok ((), changed)

def popWindow? : CheckedAction Frame Bytes := do
  let offset ← pop
  let size ← pop
  readMemory? offset.index size.index

def copyWindow? (source : Frame → Bytes) : CheckedAction Frame Unit := do
  let target ← pop
  let offset ← pop
  let size ← pop
  let data ← reads? fun frame => (source frame).window? offset.index size.index
  changeMemory? fun memory => memory.write? target.index data size.index

def copyCallData? : CheckedAction Frame Unit := do
  let target ← pop
  let offset ← pop
  let size ← pop
  let data ← reads? fun frame => frame.context.dataCopy? offset size.index
  changeMemory? fun memory => memory.write? target.index data size.index

def copyReturned? : CheckedAction Frame Unit := do
  let target ← pop
  let start ← pop
  let count ← pop
  let offset := start.index
  let size := count.index
  let available ← reads fun frame => frame.returned.size
  if available < offset + size then throw (.fault (.returnDataBounds offset size available))
  let data ← reads? fun frame => do
    let stop ← Checked.add offset size
    Checked.slice frame.returned offset stop
  changeMemory? fun memory => memory.write? target.index data size

def compute? (environment : Environment) (ledger : Ledger) : Opcode → CheckedAction Frame Unit
  | .sha3 => do
      let data ← popWindow?
      push (Keccak.hash data)
  | .callDataLoad => do
      let offset ← pop
      let word ← reads? fun frame => frame.context.dataWord? offset
      push word
  | .copy .callData => copyCallData?
  | .copy .code => copyWindow? fun frame => frame.code
  | .copy .returnData => copyReturned?
  | .extCodeCopy => do
      let address ← pop
      let code := ledger.code address.toAddress
      copyWindow? fun _ => code
  | .mload => do
      let offset ← pop
      let word ← withMemory? fun memory => do
        let (bytes, grown) ← memory.read? offset.index 32
        .ok (Word.ofBytes bytes, grown)
      push word
  | .mstore => do
      let offset ← pop
      let word ← pop
      changeMemory? fun memory => memory.write? offset.index word.toBytes 32
  | .mstore8 => do
      let offset ← pop
      let word ← pop
      changeMemory? fun memory => memory.write? offset.index #[word.byte 31] 1
  | .log topics => do
      ensureMutable
      let offset ← pop
      let size ← pop
      let words ← popMany topics.val
      let data ← readMemory? offset.index size.index
      let owner ← reads Frame.owner
      changeOutcome fun outcome => outcome.addLog ⟨owner, words, data⟩
  | op => compute environment ledger op

def perform? (environment : Environment) (ledger : Ledger) : Opcode → CheckedAction Frame Unit
  | .stop => perform environment ledger .stop
  | .jump => perform environment ledger .jump
  | .jumpi => perform environment ledger .jumpi
  | .push index => do
      advance
      let data ← update? fun frame => frame.fetch? (index.val + 1)
      push (Word.ofBytes data)
  | .returning => do
      let data ← popWindow?
      modify fun frame => { frame with outcome := frame.outcome.setReturnData data }.advance.stop
  | .revert => do
      let data ← popWindow?
      modify fun frame =>
        { frame with outcome := (frame.outcome.setReturnData data).setReverted }.advance.stop
  | op => do
      compute? environment ledger op
      advance

section

variable {frame : Frame}

theorem follows_update {change? : Frame → Checked (α × Frame)} {change : Frame → α × Frame}
    (same : change? frame = .ok (change frame)) :
      Follows (update? change?) (update change) frame := by
  unfold Follows update?
  rw [same]
  rfl

theorem follows_withMemory {change? : Memory → Checked (α × Memory)} {change : Memory → α × Memory}
    (same : ∀ memory, change? memory = .ok (change memory)) (frame : Frame) :
    Follows (withMemory? change?) (withMemory change) frame := by
  unfold Follows withMemory?
  rw [same]
  rfl

theorem follows_readMemory {offset size : Nat}
    (narrow : offset ≤ Word.indexLimit ∧ size ≤ Word.indexLimit) (frame : Frame) :
    Follows (readMemory? offset size) (readMemory offset size) frame :=
  follows_withMemory (fun memory => memory.read?_eq (Word.sum_le_limit narrow.1 narrow.2)) frame

theorem follows_changeMemory {change? : Memory → Checked Memory} {change : Memory → Memory}
    (same : ∀ memory, change? memory = .ok (change memory)) (frame : Frame) :
    Follows (changeMemory? change?) (changeMemory change) frame := by
  refine follows_withMemory (fun memory => ?_) frame
  rw [same]
  rfl

/-- What is written is at most as much as was asked for. -/
theorem follows_write {offset size : Nat} (data : Bytes)
    (narrow : offset ≤ Word.indexLimit ∧ size ≤ Word.indexLimit) (frame : Frame) :
    Follows (changeMemory? fun memory => memory.write? offset data size)
      (changeMemory fun memory => memory.write offset data size) frame := by
  have fits := Word.sum_le_limit narrow.1 (Nat.le_trans (Nat.min_le_left size data.size) narrow.2)
  exact follows_changeMemory (fun memory => memory.write?_eq fits) frame

theorem follows_popWindow (frame : Frame) : Follows popWindow? popWindow frame :=
  follows_bind fun offset _ _ => follows_bind fun size _ _ =>
    follows_readMemory ⟨offset.index_le, size.index_le⟩ _

theorem follows_copyWindow (source : Frame → Bytes) (frame : Frame) :
    Follows (copyWindow? source) (copyWindow source) frame := by
  refine follows_bind fun target _ _ => follows_bind fun offset _ _ =>
    follows_bind fun size after _ => ?_
  refine .bind (follows_reads ?view) fun data _ _ => ?write
  case view =>
    have fits := Word.sum_le_limit offset.index_le size.index_le
    exact (source after).window?_eq (Nat.le_trans (Nat.min_le_left _ _) fits)
  case write => exact follows_write data ⟨target.index_le, size.index_le⟩ _

theorem follows_copyCallData (frame : Frame) : Follows copyCallData? copyCallData frame := by
  refine follows_bind fun target _ _ => follows_bind fun offset _ _ =>
    follows_bind fun size after _ => ?_
  refine .bind (follows_reads ?view) fun data _ _ => ?write
  case view => exact after.context.dataCopy?_eq offset size.index_le
  case write => exact follows_write data ⟨target.index_le, size.index_le⟩ _

/-- What was returned is as long as the check before the slice has found it. -/
theorem follows_copyReturned (frame : Frame) : Follows copyReturned? copyReturned frame := by
  refine follows_bind fun target _ _ => follows_bind fun start _ _ =>
    follows_bind fun count after _ => ?_
  refine follows_bind fun available _ read => ?_
  cases read
  split
  · rfl
  · rename_i within
    refine .bind (follows_reads ?view) fun data _ _ => ?write
    case view =>
      rw [Checked.add_eq (Word.sum_le_limit start.index_le count.index_le), Checked.ok_bind]
      exact Checked.slice_eq (Nat.le_add_right _ _) (Nat.le_of_not_lt within)
    case write => exact follows_write data ⟨target.index_le, count.index_le⟩ _

theorem follows_compute (environment : Environment) (ledger : Ledger) (op : Opcode)
    (frame : Frame) :
    Follows (compute? environment ledger op) (compute environment ledger op) frame := by
  have whole : 32 ≤ Word.indexLimit := by decide
  cases op with
  | sha3 => exact (follows_popWindow frame).bind fun data after _ => follows_self _ after
  | callDataLoad =>
      refine follows_bind fun offset after _ => .bind (follows_reads ?_) fun data _ _ =>
        follows_self _ _
      exact after.context.dataWord?_eq offset
  | copy source =>
      cases source with
      | callData => exact follows_copyCallData frame
      | code => exact follows_copyWindow _ frame
      | returnData => exact follows_copyReturned frame
  | extCodeCopy => exact follows_bind fun address _ _ => follows_copyWindow _ _
  | mload =>
      refine follows_bind fun offset after _ => .bind (follows_withMemory ?_ _) fun data _ _ =>
        follows_self _ _
      intro memory
      rw [memory.read?_eq (Word.sum_le_limit offset.index_le whole)]
      rfl
  | mstore => exact follows_bind fun offset _ _ => follows_bind fun _ _ _ =>
      follows_write _ ⟨offset.index_le, whole⟩ _
  | mstore8 =>
      refine follows_bind fun offset _ _ => follows_bind fun _ _ _ => ?_
      exact follows_write _ ⟨offset.index_le, Nat.le_trans (by decide) whole⟩ _
  | log topics =>
      refine follows_bind fun _ _ _ => follows_bind fun offset _ _ => follows_bind fun size _ _ =>
        ?_
      refine follows_bind fun words _ _ =>
        .bind (follows_readMemory ⟨offset.index_le, size.index_le⟩ _) ?_
      exact fun data _ _ => follows_bind fun owner _ _ => follows_self _ _
  | _ => exact follows_self _ frame

theorem follows_perform (environment : Environment) (ledger : Ledger) (op : Opcode) {frame : Frame}
    (addressable : Code.Addressable frame.code) :
    Follows (perform? environment ledger op) (perform environment ledger op) frame := by
  cases op with
  | push index =>
      refine follows_bind fun _ after ran => .bind (follows_update ?_) fun data _ _ =>
        follows_self _ _
      cases ran
      exact frame.advance.fetch?_eq _ addressable
  | returning | revert => exact (follows_popWindow frame).bind fun data after _ => rfl
  | stop | jump | jumpi => exact follows_self _ frame
  | _ =>
    exact (follows_compute environment ledger _ frame).bind fun _ after _ => follows_self _ after

end

end FrameAction

end ContractMachine
