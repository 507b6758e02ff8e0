import ContractMachine.Proofs.Ledger.Below
import ContractMachine.Proofs.Site.Action
import ContractMachine.Site.Call

/-!
What becomes of a message call, case by case: it is refused, answered at once or given a frame of
its own, and in the end its outcome is taken over. In each case frame and ledger are given in full.
-/

namespace ContractMachine

/-- A precompile has no more to put out than one word or its input. -/
theorem Precompile.size_run_le (contract : Precompile) (input : Bytes) :
    (contract.run input).size ≤ max 32 input.size := by
  cases contract with
  | sha256 =>
      have digest : (Precompile.sha256.run input).size = 32 := Array.size_ofFn
      omega
  | identity => exact Nat.le_max_right _ _

namespace CallKind

def valueOperand (kind : CallKind) (frame : Frame) : Word :=
  if kind.hasValue then frame.operand 2 else 0

def firstWindow (kind : CallKind) : Nat := if kind.hasValue then 3 else 2

def message (kind : CallKind) (environment : Environment) (forwarded : Nat) (frame : Frame) :
    Message where
  kind := kind
  gas := forwarded + if kind.valueOperand frame = 0 then 0 else environment.config.fees.stipend
  codeAddress := (frame.operand 1).toAddress
  value := kind.valueOperand frame
  inOffset := (frame.operand kind.firstWindow).index
  inSize := (frame.operand (kind.firstWindow + 1)).index
  outOffset := (frame.operand (kind.firstWindow + 2)).index
  outSize := (frame.operand (kind.firstWindow + 3)).index

def reader (kind : CallKind) (frame : Frame) : Frame :=
  let offset := (frame.operand (kind.firstWindow + 2)).index
  let size := (frame.operand (kind.firstWindow + 3)).index
  { frame.dropWords (kind.firstWindow + 4) with
    memory := frame.memory.extend offset size
    outcome :=
      if kind.isStateless then frame.outcome else frame.outcome.touch (frame.operand 1).toAddress }

end CallKind

namespace Message

def fed (message : Message) (frame : Frame) : Frame :=
  (frame.setReturned #[]).reading message.inOffset message.inSize

def input (message : Message) (frame : Frame) : Bytes :=
  (frame.memory.read message.inOffset message.inSize).1

def opened (message : Message) (frame : Frame) (ledger : Ledger) : Ledger :=
  ledger.checkpoint.transfer frame.owner (message.account frame.owner) message.value

def recorded (message : Message) (frame : Frame) (ledger : Ledger) : Nat × Frame :=
  (message.fed frame).addRecord (.message message.kind) frame.owner
    (some (message.account frame.owner)) ((message.opened frame ledger).nonce frame.owner)
    message.value (message.input frame) message.gas

def callee (message : Message) (environment : Environment) (frame : Frame) (ledger : Ledger) :
    Frame :=
  Frame.start (ledger.code message.codeAddress)
    (SiteAction.calleeContext message (message.input frame) frame.context)
      environment.config.limits.stackSize

def answered (message : Message) (child : Outcome) (frame : Frame) : Frame :=
  let written :=
    { frame with
      memory := frame.memory.writeWithin message.outOffset child.returnData message.outSize }
  (written.setReturned child.returnData).giveBack (message.gas - child.gasUsed)

theorem continues_fed (message : Message) (frame : Frame) : frame.Continues (message.fed frame) :=
  ⟨rfl, rfl, rfl, rfl⟩

theorem continues_recorded (message : Message) (frame : Frame) (ledger : Ledger) :
    frame.Continues (message.recorded frame ledger).2 :=
  ⟨rfl, rfl, rfl, rfl⟩

theorem keeps_opened (message : Message) (frame : Frame) (ledger : Ledger) :
    ledger.checkpoint.KeepsBelow (message.opened frame ledger) :=
  (Ledger.writes_transfer ledger.checkpoint _ _ _).keepsBelow

end Message

namespace SiteAction

@[simp] theorem openCall_apply (message : Message) (frame : Frame) (ledger : Ledger) :
    openCall message ⟨frame, ledger⟩ = .ok () ⟨frame, message.opened frame ledger⟩ := rfl

theorem callAccount_eq (environment : Environment) (message : Message) {frame : Frame}
    (ledger : Ledger) (room : frame.HasRoom) :
    callAccount environment message ⟨frame, ledger⟩ =
      if environment.config.limits.callDepth ≤ frame.context.depth then
        .ok none ⟨((frame.setReturned #[]).put 0).giveBack message.gas, ledger⟩
      else if (ledger.balance frame.owner).toNat < message.value.toNat then
        .ok none ⟨((message.fed frame).put 0).giveBack message.gas, ledger⟩
      else if ledger.code message.codeAddress = #[] then
        .ok none ⟨((message.recorded frame ledger).2.put 1).giveBack message.gas,
          (message.opened frame ledger).commit⟩
      else
        .ok (some
          ⟨message.callee environment frame ledger,
            .call message (message.recorded frame ledger).1⟩)
          ⟨(message.recorded frame ledger).2, message.opened frame ledger⟩ := by
  by_cases deep : environment.config.limits.callDepth ≤ frame.context.depth
  · simp [callAccount, deep, room]
  · by_cases poor : (ledger.balance frame.owner).toNat < message.value.toNat
    · simp [callAccount, deep, poor, room]
      rfl
    · by_cases empty : ledger.code message.codeAddress = #[]
      · simp [callAccount, deep, poor, empty, room]
        exact ⟨rfl, rfl⟩
      · simp [callAccount, deep, poor, empty]
        exact ⟨⟨rfl, rfl⟩, rfl, rfl⟩

/-- The caller with the answer to its call: one and the output, zero and the output of a REVERT, or
zero alone. -/
def called (message : Message) (record : Nat) (child : Outcome) (frame : Frame) : Frame :=
  if child.succeeded then message.answered child ((frame.accepting child).put 1)
  else if child.fault.isNone then message.answered child ((frame.rejecting child record).put 0)
  else (frame.rejecting child record).put 0

theorem continues_called (message : Message) (record : Nat) (child : Outcome) (frame : Frame) :
    frame.Continues (called message record child frame) := by
  unfold called
  split
  · exact ⟨rfl, rfl, rfl, rfl⟩
  · split <;> exact ⟨rfl, rfl, rfl, rfl⟩

theorem words_called (message : Message) (record : Nat) (child : Outcome) (frame : Frame) :
    (called message record child frame).stack.words =
      (if child.succeeded then 1 else 0) :: frame.stack.words := by
  unfold called
  split
  · rfl
  · split <;> rfl

theorem settleCall_eq (message : Message) (record : Nat) (child : Outcome) {frame : Frame}
    (ledger : Ledger) (room : frame.HasRoom) :
    settleCall message record child ⟨frame, ledger⟩ =
      .ok ()
        ⟨called message record child frame,
          if child.succeeded then ledger.commit else ledger.rollback⟩ := by
  unfold called
  by_cases succeeded : child.succeeded = true
  · have fault : child.fault = none := (child.succeeded_iff.mp succeeded).1
    simp [settleCall, succeeded, fault, room]
    rfl
  · by_cases fault : child.fault = none
    · simp [settleCall, succeeded, fault, room]
      rfl
    · simp [settleCall, succeeded, fault, room]

def precompiled (message : Message) (contract : Precompile) (frame : Frame) : Frame :=
  let input := message.input frame
  (((message.fed frame).giveBack (message.gas - contract.price input)).put 1).setReturned
    (contract.run input)

theorem callPrecompile_eq (environment : Environment) (message : Message) (contract : Precompile)
    {frame : Frame} (ledger : Ledger) (room : frame.HasRoom) :
    callPrecompile environment message contract ⟨frame, ledger⟩ =
      if environment.config.limits.callDepth ≤ frame.context.depth then
        .ok () ⟨((frame.setReturned #[]).put 0).giveBack message.gas, ledger⟩
      else if (ledger.balance frame.owner).toNat < message.value.toNat then
        .ok () ⟨((frame.setReturned #[]).put 0).giveBack message.gas, ledger⟩
      else if message.gas < contract.price (message.input frame) then
        .ok () ⟨(message.fed frame).put 0, ledger⟩
      else onFrame (deliver environment message (contract.run (message.input frame)))
        ⟨precompiled message contract frame, (message.opened frame ledger).commit⟩ := by
  by_cases deep : environment.config.limits.callDepth ≤ frame.context.depth
  · simp [callPrecompile, deep, room]
  · by_cases poor : (ledger.balance frame.owner).toNat < message.value.toNat
    · simp [callPrecompile, deep, poor, room]
    · by_cases dear : message.gas < contract.price (message.input frame)
      · simp [callPrecompile, deep, poor, dear, room]
        -- The checkpoint is open by now, and nothing but the value has moved in it.
        have closed := (message.keeps_opened frame ledger).rollback
        have site : (⟨(message.fed frame).put 0, (message.opened frame ledger).rollback⟩ : Site) =
            ⟨(message.fed frame).put 0, ledger⟩ := by rw [closed]
        exact (if_pos dear).trans (congrArg (EStateM.Result.ok ()) site)
      · simp [callPrecompile, deep, poor, dear, room]
        exact if_neg dear

theorem continues_precompiled (message : Message) (contract : Precompile) (frame : Frame) :
    frame.Continues (precompiled message contract frame) :=
  ⟨rfl, rfl, rfl, rfl⟩

/-- The price of memory for an output is the caller's to pay, beyond the window of the call. -/
theorem deliver_eq (environment : Environment) (message : Message) (output : Bytes)
    (frame : Frame) :
    deliver environment message output frame =
      match environment.config.fees.growth frame.memory.size
          (memoryNeeded (Word.ofNat message.outOffset) (Word.ofNat output.size)) with
      | .error fault => .error fault frame
      | .ok growth =>
          if frame.gasLeft < growth then
            .error (.outOfGas "pre-compiled call output" growth frame.gasLeft) frame
          else
            .ok () { frame with
              outcome := frame.outcome.spend growth
              memory := (frame.memory.extend message.outOffset message.outSize).write
                message.outOffset output output.size } := by
  simp only [deliver, bind_apply, FrameAction.reads_apply]
  cases environment.config.fees.growth frame.memory.size
    (memoryNeeded (Word.ofNat message.outOffset) (Word.ofNat output.size)) with
  | error fault => rfl
  | ok growth =>
      simp only [FrameAction.ofExcept, pure_apply, FrameAction.spend, Frame.spend]
      by_cases dear : frame.gasLeft < growth
      · simp only [if_pos dear]
      · simp only [if_neg dear]
        rfl

theorem eq_of_deliver_error {environment : Environment} {message : Message} {output : Bytes}
    {frame later : Frame} {fault : Fault}
    (failed : deliver environment message output frame = .error fault later) : later = frame := by
  rw [deliver_eq] at failed
  split at failed
  · cases failed
    rfl
  · split at failed
    · cases failed
      rfl
    · cases failed

/-- An output is written if the memory for it can be paid for. -/
theorem deliver_spec {environment : Environment} {message : Message} {output : Bytes}
    {frame later : Frame} (ran : deliver environment message output frame = .ok () later) :
    ∃ growth, environment.config.fees.growth frame.memory.size
        (memoryNeeded (Word.ofNat message.outOffset) (Word.ofNat output.size)) = .ok growth ∧
      growth ≤ frame.gasLeft ∧
      later = { frame with
        outcome := frame.outcome.spend growth
        memory :=
          (frame.memory.extend message.outOffset message.outSize).write message.outOffset output
          output.size } := by
  rw [deliver_eq] at ran
  split at ran
  · cases ran
  · rename_i growth grows
    split at ran
    · cases ran
    · rename_i covered
      cases ran
      exact ⟨growth, grows, Nat.le_of_not_lt covered, rfl⟩

theorem continues_of_deliver {environment : Environment} {message : Message} {output : Bytes}
    {frame later : Frame} (ran : deliver environment message output frame = .ok () later) :
    frame.Continues later := by
  obtain ⟨_, _, _, rfl⟩ := deliver_spec ran
  exact ⟨rfl, rfl, rfl, rfl⟩

theorem stack_of_deliver {environment : Environment} {message : Message} {output : Bytes}
    {frame later : Frame} (ran : deliver environment message output frame = .ok () later) :
    later.stack = frame.stack := by
  obtain ⟨_, _, _, rfl⟩ := deliver_spec ran
  rfl

theorem readMessage_eq (environment : Environment) (kind : CallKind) (forwarded : Nat)
    {frame : Frame} (enough : (Opcode.call kind).pops ≤ frame.stack.size) :
    readMessage environment kind forwarded frame =
      if frame.context.isStatic = true ∧ kind = .call ∧ kind.valueOperand frame ≠ 0 then
        .error .staticViolation (frame.dropWords 3)
      else .ok (kind.message environment forwarded frame) (kind.reader frame) := by
  -- Operands come off one by one, each from the frame without those before it; before the first
  -- none is gone.
  change readMessage environment kind forwarded (frame.dropWords 0) = _
  cases kind <;>
    (simp only [Opcode.pops] at enough
     simp (disch := omega)
       [readMessage, FrameAction.pop_dropWords, CallKind.hasValue, CallKind.valueOperand,
       CallKind.message, CallKind.reader, CallKind.isStateless, CallKind.firstWindow])

end SiteAction

/-- The frame is at a call whose operands say `message`, and `caller` is the frame behind them. -/
structure Frame.Calls (frame : Frame) (environment : Environment) (ledger : Ledger)
    (kind : CallKind) (price : Price) (message : Message) (caller : Frame) : Prop where
  due : frame.Due environment ledger (.call kind) price
  read : SiteAction.readMessage environment kind price.forwarded (frame.pay price) =
    .ok message caller

namespace Frame.Calls

variable {environment : Environment} {frame caller : Frame} {ledger : Ledger} {kind : CallKind}
  {price : Price} {message : Message}

theorem eqs (calls : frame.Calls environment ledger kind price message caller) :
    message = kind.message environment price.forwarded (frame.pay price) ∧
    caller = kind.reader (frame.pay price) := by
  have read := calls.read
  rw [SiteAction.readMessage_eq environment kind price.forwarded calls.due.enough] at read
  split at read
  · cases read
  · cases read
    exact ⟨rfl, rfl⟩

theorem continues (calls : frame.Calls environment ledger kind price message caller) :
    frame.Continues caller := by
  rw [calls.eqs.2]
  exact ⟨rfl, rfl, rfl, rfl⟩

theorem runs (calls : frame.Calls environment ledger kind price message caller) :
    caller.stopped = false := by
  rw [calls.eqs.2]
  exact calls.due.runs

theorem words (calls : frame.Calls environment ledger kind price message caller) :
    caller.stack.words = frame.stack.words.drop (Opcode.call kind).pops := by
  rw [calls.eqs.2]
  cases kind <;> rfl

theorem room (calls : frame.Calls environment ledger kind price message caller) :
    caller.HasRoom := by
  have room := calls.due.room rfl
  rw [calls.eqs.2]
  cases kind <;> exact room

end Frame.Calls

theorem Frame.calls_of_quote {environment : Environment} {frame : Frame} {ledger : Ledger}
    {kind : CallKind} (runs : frame.stopped = false)
    (quoted : (frame.quote environment.config.fees ledger).toOption.map Prod.fst =
      some (.call kind))
    (mutable : frame.context.isStatic = false) :
    ∃ price : Price, frame.Calls environment ledger kind price
      (kind.message environment price.forwarded (frame.pay price))
        (kind.reader (frame.pay price)) := by
  obtain ⟨⟨op, price⟩, paid, rfl⟩ := Option.map_eq_some_iff.mp quoted
  have due : frame.Due environment ledger (.call kind) price := due_of_toOption runs paid
  refine ⟨price, due, ?_⟩
  have free : ¬ (frame.pay price).context.isStatic = true := ne_true_of_eq_false mutable
  rw [SiteAction.readMessage_eq environment kind price.forwarded due.enough]
  exact if_neg fun forbidden => free forbidden.1

end ContractMachine
