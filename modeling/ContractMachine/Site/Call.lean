import ContractMachine.Site

/-!
Message calls. A callee with code gets a frame of its own; one without code, or one that is not code
at all, is dealt with at once.
-/

namespace ContractMachine

def Message.account (message : Message) (caller : Address) : Address :=
  if message.kind.isStateless then caller else message.codeAddress

namespace SiteAction

/-- Reads the operands of a call. The gas asked for is already part of what is handed on. -/
def readMessage (environment : Environment) (kind : CallKind) (forwarded : Nat) :
    FrameAction Message := do
  let _ ← FrameAction.pop
  let codeAddress ← FrameAction.pop
  let value ← if kind.hasValue then FrameAction.pop else pure 0
  let isStatic ← FrameAction.reads fun frame => frame.context.isStatic
  if isStatic && kind = .call && value != 0 then throw .staticViolation
  let inOffset ← FrameAction.pop
  let inSize ← FrameAction.pop
  let outOffset ← FrameAction.pop
  let outSize ← FrameAction.pop
  -- The window of the output is there before the callee runs, filled or not.
  FrameAction.changeMemory fun memory => memory.extend outOffset.index outSize.index
  unless kind.isStateless do
    FrameAction.changeOutcome fun outcome => outcome.touch codeAddress.toAddress
  pure {
    kind := kind
    gas := forwarded + if value = 0 then 0 else environment.config.fees.stipend
    codeAddress := codeAddress.toAddress
    value := value
    inOffset := inOffset.index
    inSize := inSize.index
    outOffset := outOffset.index
    outSize := outSize.index }

def openCall (message : Message) : SiteAction Unit := do
  let caller ← owner
  changeLedger fun ledger =>
    ledger.checkpoint.transfer caller (message.account caller) message.value

/-- Takes over a call that is done; after a fault its gas is gone and nothing is returned. -/
def settleCall (message : Message) (record : Nat) (child : Outcome) : SiteAction Unit := do
  if child.succeeded then accept child 1 else reject child record
  if child.fault.isNone then
    onFrame <| FrameAction.changeMemory fun memory =>
      memory.writeWithin message.outOffset child.returnData message.outSize
    onFrame (FrameAction.setReturned child.returnData)
    onFrame (FrameAction.giveBack (message.gas - child.gasUsed))

def calleeContext (message : Message) (data : Bytes) (caller : Context) : Context :=
  caller.child
    (if message.kind.isDelegate then caller.caller else caller.address)
    (message.account caller.address)
    message.gas
    (if message.kind.isDelegate then caller.value else message.value)
    data
    (message.kind.isStatic || caller.isStatic)

/-- Calls the account at an address; without code there, moving the value is all. -/
def callAccount (environment : Environment) (message : Message) : SiteAction (Option Spawn) := do
  onFrame (FrameAction.setReturned #[])
  if (← atDepthLimit environment) then
    refuse message.gas
    pure none
  else
    let data ← onFrame (FrameAction.readMemory message.inOffset message.inSize)
    if (← cannotPay message.value) then
      refuse message.gas
      pure none
    else
      let code ← reads fun site => site.ledger.code message.codeAddress
      openCall message
      let caller ← owner
      let nonce ← reads fun site => site.ledger.nonce caller
      let record ← onFrame <| FrameAction.update fun frame =>
        frame.addRecord (.message message.kind) caller (some (message.account caller)) nonce
          message.value data message.gas
      if code.isEmpty then
        -- Nothing runs, so all the gas handed on comes back.
        changeLedger Ledger.commit
        push 1
        onFrame (FrameAction.giveBack message.gas)
        pure none
      else
        let context ← reads fun site => calleeContext message data site.frame.context
        pure (some
          ⟨Frame.start code context environment.config.limits.stackSize, .call message record⟩)

/-- Writes the output of a precompile in full and pays for memory past the window of the call. -/
def deliver (environment : Environment) (message : Message) (output : Bytes) :
    FrameAction Unit := do
  let size ← FrameAction.reads fun frame => frame.memory.size
  let growth ← FrameAction.ofExcept <| environment.config.fees.growth size
    (memoryNeeded (Word.ofNat message.outOffset) (Word.ofNat output.size))
  FrameAction.spend growth "pre-compiled call output"
  FrameAction.changeMemory fun memory =>
    (memory.extend message.outOffset message.outSize).write message.outOffset output output.size

def callPrecompile (environment : Environment) (message : Message) (contract : Precompile) :
    SiteAction Unit := do
  onFrame (FrameAction.setReturned #[])
  if (← atDepthLimit environment) then
    refuse message.gas
  else if (← cannotPay message.value) then
    refuse message.gas
  else
    let data ← onFrame (FrameAction.readMemory message.inOffset message.inSize)
    openCall message
    let price := contract.price data
    if message.gas < price then
      push 0
      changeLedger Ledger.rollback
    else
      let output := contract.run data
      onFrame (FrameAction.giveBack (message.gas - price))
      push 1
      onFrame (FrameAction.setReturned output)
      changeLedger Ledger.commit
      -- The checkpoint is closed before the output is paid for: the fault, if any, is the caller's
      -- own.
      onFrame (deliver environment message output)

def call (environment : Environment) (kind : CallKind) (forwarded : Nat) :
    SiteAction (Option Spawn) := do
  let message ← onFrame (readMessage environment kind forwarded)
  match environment.config.precompiles.find? message.codeAddress with
  | some contract => do
      callPrecompile environment message contract
      pure none
  | none => callAccount environment message

end SiteAction

end ContractMachine
