import ContractMachine.Machine
import ContractMachine.Proofs.Checked.Instruction
import ContractMachine.Proofs.Frame.Gas

/-!
Calls and creations whose slices and sums are checked. A call that is paid for hands on part of the
gas that is left, and the stipend is less than the price of the value that it comes with; the depth
of a new frame is below the limit; and what a frame waits for names positions that were narrowed
when the operands were read.
-/

namespace ContractMachine

structure Message.Narrow (message : Message) : Prop where
  input : message.inOffset ≤ Word.indexLimit ∧ message.inSize ≤ Word.indexLimit
  output : message.outOffset ≤ Word.indexLimit ∧ message.outSize ≤ Word.indexLimit

def Awaited.Narrow : Awaited → Prop
  | .call message _ => message.Narrow
  | .creation _ _ _ => True

theorem CallKind.narrow_message (kind : CallKind) (environment : Environment) (forwarded : Nat)
    (frame : Frame) :
    (kind.message environment forwarded frame).Narrow :=
  ⟨⟨Word.index_le _, Word.index_le _⟩, ⟨Word.index_le _, Word.index_le _⟩⟩

namespace SiteAction

open CheckedAction

section

variable {α : Type}

def onFrame? (action : CheckedAction Frame α) : CheckedAction Site α := fun site =>
  match site with
  | ⟨frame, ledger⟩ =>
      match action frame with
      | .ok value frame => .ok value ⟨frame, ledger⟩
      | .error stop frame => .error stop ⟨frame, ledger⟩

theorem follows_onFrame {checked : CheckedAction Frame α} {action : FrameAction α} {site : Site}
    (follows : Follows checked action site.frame) :
      Follows (onFrame? checked) (onFrame action) site := by
  obtain ⟨frame, ledger⟩ := site
  cases ran : action frame with
  | ok value after =>
      have whole : onFrame action ⟨frame, ledger⟩ = .ok value ⟨after, ledger⟩ := by
        rw [onFrame_apply, ran]
      have same : checked frame = .ok value after := follows.ok ran
      rw [Follows, liftM_of_ok whole, onFrame?, same]
  | error fault after =>
      have whole : onFrame action ⟨frame, ledger⟩ = .error fault ⟨after, ledger⟩ := by
        rw [onFrame_apply, ran]
      have same : checked frame = .error (.fault fault) after := follows.error ran
      rw [Follows, liftM_of_error whole, onFrame?, same]

def atDepthLimit? (environment : Environment) : CheckedAction Site Bool := reads? fun site =>
  if environment.config.limits.callDepth ≤ site.frame.context.depth then .ok true
  else do
    let _ ← Checked.add site.frame.context.depth 1
    .ok false

def readMessage? (environment : Environment) (kind : CallKind) (forwarded : Nat) :
    CheckedAction Frame Message := do
  let message ← readMessage environment kind forwarded
  let gas ← Checked.add forwarded (if message.value = 0 then 0 else environment.config.fees.stipend)
  pure { message with gas := gas }

def settleCall? (message : Message) (record : Nat) (child : Outcome) : CheckedAction Site Unit := do
  if child.succeeded then accept child 1 else reject child record
  if child.fault.isNone then
    onFrame? <| FrameAction.changeMemory? fun memory =>
      memory.writeWithin? message.outOffset child.returnData message.outSize
    onFrame (FrameAction.setReturned child.returnData)
    onFrame (FrameAction.giveBack (message.gas - child.gasUsed))

def callAccount? (environment : Environment) (message : Message) :
    CheckedAction Site (Option Spawn) := do
  onFrame (FrameAction.setReturned #[])
  if (← atDepthLimit? environment) then
    refuse message.gas
    pure none
  else
    let data ← onFrame? (FrameAction.readMemory? message.inOffset message.inSize)
    if (← cannotPay message.value) then
      refuse message.gas
      pure none
    else
      let code ← reads fun site => site.ledger.code message.codeAddress
      openCall message
      let caller ← owner
      let nonce ← reads fun site => site.ledger.nonce caller
      let record ← onFrame <| FrameAction.update fun frame =>
        frame.addRecord (.message message.kind) caller (some (message.account caller)) nonce
          message.value data message.gas
      if code.isEmpty then
        changeLedger Ledger.commit
        push 1
        onFrame (FrameAction.giveBack message.gas)
        pure none
      else
        let context ← reads fun site => calleeContext message data site.frame.context
        pure (some
          ⟨Frame.start code context environment.config.limits.stackSize, .call message record⟩)

def deliver? (environment : Environment) (message : Message) (output : Bytes) :
    CheckedAction Frame Unit := do
  let size ← FrameAction.reads fun frame => frame.memory.size
  let growth ← environment.config.fees.growth? size
    (memoryNeeded (Word.ofNat message.outOffset) (Word.ofNat output.size))
  FrameAction.spend growth "pre-compiled call output"
  FrameAction.changeMemory? fun memory =>
    (memory.extend message.outOffset message.outSize).write? message.outOffset output output.size

def callPrecompile? (environment : Environment) (message : Message) (contract : Precompile) :
    CheckedAction Site Unit := do
  onFrame (FrameAction.setReturned #[])
  if (← atDepthLimit? environment) then
    refuse message.gas
  else if (← cannotPay message.value) then
    refuse message.gas
  else
    let data ← onFrame? (FrameAction.readMemory? message.inOffset message.inSize)
    openCall message
    let price ← contract.price? data
    if message.gas < price then
      push 0
      changeLedger Ledger.rollback
    else
      let output := contract.run data
      let rest ← Checked.sub message.gas price
      onFrame (FrameAction.giveBack rest)
      push 1
      onFrame (FrameAction.setReturned output)
      changeLedger Ledger.commit
      onFrame? (deliver? environment message output)

def call? (environment : Environment) (kind : CallKind) (forwarded : Nat) :
    CheckedAction Site (Option Spawn) := do
  let message ← onFrame? (readMessage? environment kind forwarded)
  match environment.config.precompiles.find? message.codeAddress with
  | some contract => do
      callPrecompile? environment message contract
      pure none
  | none => callAccount? environment message

def create? (environment : Environment) : CheckedAction Site (Option Spawn) := do
  onFrame FrameAction.ensureMutable
  let value ← onFrame FrameAction.pop
  let offset ← onFrame FrameAction.pop
  let size ← onFrame FrameAction.pop
  onFrame (FrameAction.setReturned #[])
  if (← atDepthLimit? environment) then
    push 0
    pure none
  else if (← cannotPay value) then
    push 0
    pure none
  else
    let code ← onFrame? (FrameAction.readMemory? offset.index size.index)
    let gas ← reads? fun site => Gas.allButPart? site.frame.gasLeft
    onFrame (FrameAction.spend gas "internal create")
    createWith environment value code gas

def execute? (environment : Environment) (op : Opcode) (forwarded : Nat) :
    CheckedAction Site (Option Spawn) :=
  match op with
  | .create => do advanceUnless (← create? environment)
  | .call kind => do advanceUnless (← call? environment kind forwarded)
  | .suicide => execute environment .suicide forwarded
  | .sstore => execute environment .sstore forwarded
  | op => do
      let ledger ← reads fun site => site.ledger
      onFrame? (FrameAction.perform? environment ledger op)
      pure none

def settle? (environment : Environment) (awaited : Awaited) (child : Outcome) :
    CheckedAction Site Unit := do
  match awaited with
  | .call message record => settleCall? message record child
  | .creation address record gas => settleCreation environment address record gas child
  onFrame FrameAction.advance

end

section

variable {environment : Environment} {message : Message} {site : Site}

theorem follows_atDepthLimit (bounded : environment.config.limits.callDepth ≤ Quantity.limit)
    (site : Site) :
    Follows (atDepthLimit? environment) (atDepthLimit environment) site := by
  refine follows_reads ?_
  split
  · rename_i deep
    rw [decide_eq_true deep]
  · rename_i room
    rw [Checked.add_eq (by omega), Checked.ok_bind, decide_eq_false room]

theorem follows_settleCall (narrow : message.Narrow) (record : Nat) (child : Outcome)
    (site : Site) :
    Follows (settleCall? message record child) (settleCall message record child) site := by
  have fits := Word.sum_le_limit narrow.output.1 narrow.output.2
  have written (site : Site) : Follows (do
      onFrame? <| FrameAction.changeMemory? fun memory =>
        memory.writeWithin? message.outOffset child.returnData message.outSize
      onFrame (FrameAction.setReturned child.returnData)
      onFrame (FrameAction.giveBack (message.gas - child.gasUsed))) (do
      onFrame <| FrameAction.changeMemory fun memory =>
        memory.writeWithin message.outOffset child.returnData message.outSize
      onFrame (FrameAction.setReturned child.returnData)
      onFrame (FrameAction.giveBack (message.gas - child.gasUsed))) site := by
    refine .bind (follows_onFrame (FrameAction.follows_changeMemory ?_ _)) fun _ _ _ => ?_
    · exact fun memory => memory.writeWithin?_eq _ fits
    · exact follows_bind fun _ _ _ => follows_self _ _
  unfold settleCall? settleCall
  split
  · split <;> exact follows_bind fun _ _ _ => written _
  · split <;> exact follows_bind fun _ _ _ => rfl

theorem follows_callAccount (bounded : environment.config.limits.callDepth ≤ Quantity.limit)
    (narrow : message.Narrow) (site : Site) :
    Follows (callAccount? environment message) (callAccount environment message) site := by
  refine follows_bind fun _ _ _ => .bind (follows_atDepthLimit bounded _) fun deep _ _ => ?_
  split
  · exact follows_bind fun _ _ _ => rfl
  · refine .bind (follows_onFrame (FrameAction.follows_readMemory narrow.input _)) fun data _ _ =>
      ?_
    refine follows_bind fun poor _ _ => ?_
    split
    · exact follows_bind fun _ _ _ => rfl
    · refine follows_bind fun code _ _ => follows_bind fun _ _ _ => follows_bind fun caller _ _ =>
        ?_
      refine follows_bind fun nonce _ _ => follows_bind fun record _ _ => ?_
      split
      · exact follows_bind fun _ _ _ => follows_bind fun _ _ _ => follows_bind fun _ _ _ => rfl
      · exact follows_bind fun _ _ _ => rfl

theorem follows_deliver {output : Bytes} (standard : environment.config.fees = {})
    (narrow : message.Narrow) (short : output.size ≤ Word.indexLimit) (frame : Frame) :
    Follows (deliver? environment message output) (deliver environment message output) frame := by
  have fits :=
    Word.sum_le_limit narrow.output.1 (Nat.le_trans (Nat.min_le_left output.size output.size) short)
  refine follows_bind fun size _ _ => ?_
  rw [standard, Fees.growth?_eq]
  cases Fees.growth {} size
    (memoryNeeded (Word.ofNat message.outOffset) (Word.ofNat output.size)) with
  | error fault => rfl
  | ok growth =>
      refine follows_checked rfl (follows_bind fun _ _ _ => FrameAction.follows_changeMemory ?_ _)
      exact fun memory => (memory.extend _ _).write?_eq fits

theorem message_of_readMessage {kind : CallKind} {forwarded : Nat} {frame later : Frame}
    (enough : (Opcode.call kind).pops ≤ frame.stack.size)
    (read : readMessage environment kind forwarded frame = .ok message later) :
    message = kind.message environment forwarded frame := by
  rw [readMessage_eq environment kind forwarded enough] at read
  split at read <;> cases read
  rfl

theorem follows_readMessage {kind : CallKind} {forwarded : Nat} {frame : Frame}
    (enough : (Opcode.call kind).pops ≤ frame.stack.size)
    (fits : (kind.message environment forwarded frame).gas ≤ Quantity.limit) :
    Follows (readMessage? environment kind forwarded) (readMessage environment kind forwarded)
      frame := by
  rw [← bind_pure (readMessage environment kind forwarded)]
  refine follows_bind fun message after read => ?_
  obtain rfl := message_of_readMessage enough read
  exact follows_checked (Checked.add_eq fits) rfl

theorem follows_callPrecompile (standard : environment.config.fees = {})
    (bounded : environment.config.limits.callDepth ≤ Quantity.limit) (narrow : message.Narrow)
    (contract : Precompile) (site : Site) :
    Follows (callPrecompile? environment message contract)
      (callPrecompile environment message contract) site := by
  refine follows_bind fun _ _ _ => .bind (follows_atDepthLimit bounded _) fun deep reader _ => ?_
  split
  · exact follows_self _ _
  · refine follows_bind fun poor reader _ => ?_
    split
    · exact follows_self _ _
    · refine .bind (follows_onFrame (FrameAction.follows_readMemory narrow.input _))
        fun data after read => ?_
      have short : data.size ≤ Word.indexLimit := by
        have inside := reader.frame.memory.read_size_le message.inOffset message.inSize
        rw [readMemory_apply] at read
        cases read
        exact Nat.le_trans inside narrow.input.2
      refine follows_bind fun _ _ _ => follows_checked (contract.price?_eq short) ?_
      by_cases dear : message.gas < contract.price data
      · simp only [if_pos dear]
        exact follows_bind fun _ _ _ => follows_self _ _
      · have output : (contract.run data).size ≤ Word.indexLimit := by
          have part := contract.size_run_le data
          have whole : 32 ≤ Word.indexLimit := by decide
          omega
        simp only [if_neg dear]
        refine follows_checked (Checked.sub_eq (Nat.le_of_not_lt dear))
          (follows_bind fun _ _ _ => ?_)
        refine follows_bind fun _ _ _ => follows_bind fun _ _ _ => follows_bind fun _ _ _ => ?_
        exact follows_onFrame (follows_deliver standard narrow output _)

theorem follows_call {kind : CallKind} {forwarded : Nat} (standard : environment.config.fees = {})
    (bounded : environment.config.limits.callDepth ≤ Quantity.limit)
    (enough : (Opcode.call kind).pops ≤ site.frame.stack.size)
    (fits : (kind.message environment forwarded site.frame).gas ≤ Quantity.limit) :
    Follows (call? environment kind forwarded) (call environment kind forwarded) site := by
  refine .bind (follows_onFrame (follows_readMessage enough fits)) fun message after read => ?_
  have narrow : message.Narrow := by
    rw [onFrame_apply] at read
    cases taken : readMessage environment kind forwarded site.frame with
    | error fault later =>
        rw [taken] at read
        cases read
    | ok named later =>
        rw [taken] at read
        cases read
        rw [message_of_readMessage enough taken]
        exact kind.narrow_message environment forwarded site.frame
  cases environment.config.precompiles.find? message.codeAddress with
  | none => exact follows_callAccount bounded narrow after
  | some contract =>
    exact (follows_callPrecompile standard bounded narrow contract after).bind fun _ _ _ => rfl

theorem follows_create (bounded : environment.config.limits.callDepth ≤ Quantity.limit)
    (site : Site) :
    Follows (create? environment) (create environment) site := by
  refine follows_bind fun _ _ _ => follows_bind fun value _ _ => follows_bind fun offset _ _ => ?_
  refine follows_bind fun size _ _ => follows_bind fun _ _ _ =>
    .bind (follows_atDepthLimit bounded _) fun deep _ _ => ?_
  split
  · exact follows_bind fun _ _ _ => rfl
  · refine follows_bind fun poor _ _ => ?_
    split
    · exact follows_bind fun _ _ _ => rfl
    · refine .bind
        (follows_onFrame (FrameAction.follows_readMemory ⟨offset.index_le, size.index_le⟩ _))
        fun _ _ _ => ?_
      refine .bind (follows_reads (Gas.allButPart?_eq _)) fun gas _ _ => ?_
      exact follows_bind fun _ _ _ => follows_self _ _

/-- What is handed on by a call that can be paid for, with the stipend, is less than the gas that
was left. -/
theorem gas_message_le {frame : Frame} {ledger : Ledger} {kind : CallKind} {price : Price}
    (standard : environment.config.fees = {}) (left : frame.gasLeft ≤ Quantity.limit)
    (due : frame.Due environment ledger (.call kind) price) :
    (kind.message environment price.forwarded (frame.pay price)).gas ≤ Quantity.limit := by
  have quoted := due.quoted
  rw [standard] at quoted
  obtain ⟨_, priced, covered⟩ := Frame.quote_spec quoted
  have work := covers_default frame ledger (.call kind) price priced rfl
  have gas : (kind.message environment price.forwarded (frame.pay price)).gas =
      price.forwarded + frame.stipend environment.config.fees (.call kind) := rfl
  rw [gas, standard]
  unfold Price.total at covered
  omega

theorem follows_execute {frame : Frame} {ledger : Ledger} {op : Opcode} {price : Price}
    (standard : environment.config.fees = {})
    (bounded : environment.config.limits.callDepth ≤ Quantity.limit)
    (left : frame.gasLeft ≤ Quantity.limit) (addressable : Code.Addressable frame.code)
    (due : frame.Due environment ledger op price) :
    Follows (execute? environment op price.forwarded) (execute environment op price.forwarded)
      ⟨frame.pay price, ledger⟩ := by
  cases op with
  | create => exact (follows_create bounded _).bind fun spawn _ _ => follows_self _ _
  | call kind =>
      have fits := gas_message_le standard left due
      exact .bind (follows_call standard bounded due.enough fits) fun spawn _ _ => follows_self _ _
  | suicide | sstore => exact follows_self _ _
  | _ =>
      refine follows_bind fun ledger site read => ?_
      cases read
      exact (follows_onFrame (FrameAction.follows_perform environment _ _ addressable)).bind
        fun _ _ _ => rfl

theorem follows_settle {awaited : Awaited} (narrow : awaited.Narrow) (child : Outcome)
    (site : Site) :
    Follows (settle? environment awaited child) (settle environment awaited child) site := by
  cases awaited with
  | call message record =>
    exact (follows_settleCall narrow record child site).bind fun _ _ _ => follows_self _ _
  | creation address record gas => exact follows_bind fun _ _ _ => follows_self _ _

end

end SiteAction

end ContractMachine
