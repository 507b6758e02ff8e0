import ContractMachine.Frame.Instruction

/-!
A frame at work on the ledger, what it leaves behind when it calls another one, and how much of the
code that a creation returns is deployed.
-/

namespace ContractMachine

structure Message where
  kind : CallKind
  -- What the callee gets, stipend included.
  gas : Nat
  codeAddress : Address
  value : Word
  inOffset : Nat
  inSize : Nat
  outOffset : Nat
  outSize : Nat
  deriving DecidableEq

inductive Awaited where
  | call (message : Message) (record : Nat)
  | creation (address : Address) (record gas : Nat)
  deriving DecidableEq

structure Spawn where
  frame : Frame
  awaited : Awaited

structure Site where
  frame : Frame
  ledger : Ledger

abbrev SiteAction := EStateM Fault Site

namespace SiteAction

def onFrame {α : Type} (action : FrameAction α) : SiteAction α := fun site =>
  match site with
  | ⟨frame, ledger⟩ =>
      match action frame with
      | .ok value frame => .ok value ⟨frame, ledger⟩
      | .error fault frame => .error fault ⟨frame, ledger⟩

def reads {α : Type} (view : Site → α) : SiteAction α := fun site => .ok (view site) site

def changeLedger (change : Ledger → Ledger) : SiteAction Unit :=
  modify fun site => { site with ledger := change site.ledger }

def push (word : Word) : SiteAction Unit := onFrame (FrameAction.push word)

def owner : SiteAction Address := reads fun site => site.frame.owner

def atDepthLimit (environment : Environment) : SiteAction Bool :=
  reads fun site => environment.config.limits.callDepth ≤ site.frame.context.depth

def cannotPay (value : Word) : SiteAction Bool :=
  reads fun site => (site.ledger.balance site.frame.owner).toNat < value.toNat

def refuse (gas : Nat) : SiteAction Unit := do
  push 0
  onFrame (FrameAction.giveBack gas)

def accept (child : Outcome) (result : Word) : SiteAction Unit := do
  onFrame (FrameAction.changeOutcome fun outcome => outcome.merge child)
  changeLedger Ledger.commit
  push result

/-- Takes over what is left of a child that did not: its records, rejected with the parent's own. -/
def reject (child : Outcome) (record : Nat) : SiteAction Unit := do
  onFrame (FrameAction.changeOutcome fun outcome =>
    (outcome.merge child.rejectRecords).rejectRecord record)
  changeLedger Ledger.rollback
  push 0

end SiteAction

inductive Deposit where
  | deploy (price : Nat)
  | deployEmpty
  | fail (fault : Fault)
  deriving DecidableEq

def Config.deposit (config : Config) (size left : Nat) : Deposit :=
  let price := Quantity.clamp (size * config.fees.createByte)
  if left < price then
    if config.limits.emptyCodeOnShortage then .deployEmpty
    else .fail (.outOfGas "No gas to return just created contract" price left)
  else if config.limits.codeSize < size then
    .fail (.outOfGas ("Contract size too large: " ++ toString size) price left)
  else .deploy price

end ContractMachine
