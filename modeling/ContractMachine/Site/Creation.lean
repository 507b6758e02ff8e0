import ContractMachine.Site

/-!
The creation of contracts by code. The new contract's code is what its first code returns, if that
can be paid for. Whatever becomes of it, the creator's nonce has moved on.
-/

namespace ContractMachine.SiteAction

def deposit (environment : Environment) (address : Address) (gas : Nat) (child : Outcome) :
    SiteAction Outcome :=
  match environment.config.deposit child.returnData.size (gas - child.gasUsed) with
  | .deploy price => do
      changeLedger fun ledger => ledger.setCode address child.returnData
      pure (child.spend price)
  | .deployEmpty => do
      changeLedger fun ledger => ledger.setCode address #[]
      pure child
  | .fail fault => pure (child.setFault fault)

/-- Takes over a creation that is done; after a fault its gas is gone. -/
def settleCreation (environment : Environment) (address : Address) (record gas : Nat)
    (child : Outcome) : SiteAction Unit := do
  let child ← if child.succeeded then deposit environment address gas child else pure child
  if child.succeeded then accept child (Word.ofAddress address) else reject child record
  if child.fault.isNone then
    if child.reverted then onFrame (FrameAction.setReturned child.returnData)
    onFrame (FrameAction.giveBack (gas - child.gasUsed))

def taken (address : Address) : Fault :=
  .failure ("Account already exists: 0x" ++ Address.digits address)

def createWith (environment : Environment) (value : Word) (code : Bytes) (gas : Nat) :
    SiteAction (Option Spawn) := do
  let creator ← owner
  let nonce ← reads fun site => site.ledger.nonce creator
  let address := Address.ofCreation creator nonce
  let inUse ← reads fun site => site.ledger.hasAccount address
  -- The creator's nonce moves before the checkpoint, so a rollback does not take it back.
  changeLedger fun ledger =>
    (((ledger.bumpNonce creator).checkpoint).bumpNonce address).transfer creator address value
  let nonceAfter ← reads fun site => site.ledger.nonce creator
  let record ← onFrame <| FrameAction.update fun frame =>
    frame.addRecord .create creator none nonceAfter value code gas
  if inUse then
    settleCreation environment address record gas { fault := some (taken address) }
    pure none
  else if code.isEmpty then
    settleCreation environment address record gas {}
    pure none
  else
    let context ← reads fun site => site.frame.context
    let child := context.child creator address gas value #[] false
    pure (some
      ⟨Frame.start code child environment.config.limits.stackSize, .creation address record gas⟩)

def create (environment : Environment) : SiteAction (Option Spawn) := do
  onFrame FrameAction.ensureMutable
  let value ← onFrame FrameAction.pop
  let offset ← onFrame FrameAction.pop
  let size ← onFrame FrameAction.pop
  onFrame (FrameAction.setReturned #[])
  if (← atDepthLimit environment) then
    push 0
    pure none
  else if (← cannotPay value) then
    push 0
    pure none
  else
    let code ← onFrame (FrameAction.readMemory offset.index size.index)
    let gas ← reads fun site => Gas.allButPart site.frame.gasLeft
    onFrame (FrameAction.spend gas "internal create")
    createWith environment value code gas

end ContractMachine.SiteAction
