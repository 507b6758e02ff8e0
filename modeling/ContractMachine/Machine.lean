import ContractMachine.Site.Call
import ContractMachine.Site.Creation

/-!
The machine: the innermost frame, the frames that wait for it, and the ledger. A step executes one
instruction of the innermost frame or, when that has stopped, takes its outcome over into the frame
that waits for it. A run goes on until the last frame has stopped; `Reaches` says the same without
counting steps.
-/

namespace ContractMachine

structure Waiting where
  frame : Frame
  awaited : Awaited

structure Machine where
  frame : Frame
  -- The frames that wait, the caller of the innermost first.
  waiting : List Waiting := []
  ledger : Ledger

namespace SiteAction

/-- Removes the account at work and moves its balance. To itself the balance is lost. -/
def suicide : SiteAction Unit := do
  onFrame FrameAction.ensureMutable
  let word ← onFrame FrameAction.pop
  let beneficiary := word.toAddress
  let account ← owner
  let balance ← reads fun site => site.ledger.balance account
  let nonce ← reads fun site => site.ledger.nonce account
  let _ ← onFrame <| FrameAction.update fun frame =>
    frame.addRecord .suicide account (some beneficiary) nonce balance #[] 0
  changeLedger fun ledger =>
    if account = beneficiary then ledger.debit account balance
    else ledger.transfer account beneficiary balance
  onFrame (FrameAction.changeOutcome fun outcome => outcome.addDeletion account)
  onFrame (modify Frame.stop)

def store : SiteAction Unit := do
  onFrame FrameAction.ensureMutable
  let key ← onFrame FrameAction.pop
  let value ← onFrame FrameAction.pop
  let account ← owner
  changeLedger fun ledger => ledger.putSlot account key value
  onFrame FrameAction.advance

def advanceUnless : Option Spawn → SiteAction (Option Spawn)
  | some spawn => pure (some spawn)
  | none => do
      onFrame FrameAction.advance
      pure none

def execute (environment : Environment) (op : Opcode) (forwarded : Nat) :
    SiteAction (Option Spawn) :=
  match op with
  | .create => do advanceUnless (← create environment)
  | .call kind => do advanceUnless (← call environment kind forwarded)
  | .suicide => do
      suicide
      pure none
  | .sstore => do
      store
      pure none
  | op => do
      let ledger ← reads fun site => site.ledger
      onFrame (FrameAction.perform environment ledger op)
      pure none

def settle (environment : Environment) (awaited : Awaited) (child : Outcome) : SiteAction Unit := do
  match awaited with
  | .call message record => settleCall message record child
  | .creation address record gas => settleCreation environment address record gas child
  onFrame FrameAction.advance

end SiteAction

namespace Machine

def instruct (environment : Environment) (machine : Machine) : Machine :=
  match machine with
  | ⟨frame, waiting, ledger⟩ =>
      match frame.quote environment.config.fees ledger with
      | .error fault => ⟨frame.halt fault, waiting, ledger⟩
      | .ok (op, price) =>
          match SiteAction.execute environment op price.forwarded ⟨frame.pay price, ledger⟩ with
          | .ok none ⟨frame, ledger⟩ => ⟨frame, waiting, ledger⟩
          | .ok (some spawn) ⟨frame, ledger⟩ =>
              ⟨spawn.frame, ⟨frame, spawn.awaited⟩ :: waiting, ledger⟩
          | .error fault ⟨frame, ledger⟩ => ⟨frame.halt fault, waiting, ledger⟩

def resume (environment : Environment) (child : Frame) (parent : Waiting) (waiting : List Waiting)
    (ledger : Ledger) : Machine :=
  match SiteAction.settle environment parent.awaited child.outcome ⟨parent.frame, ledger⟩ with
  | .ok () ⟨frame, ledger⟩ => ⟨frame, waiting, ledger⟩
  | .error fault ⟨frame, ledger⟩ => ⟨frame.halt fault, waiting, ledger⟩

def finished (machine : Machine) : Bool := machine.frame.stopped && machine.waiting.isEmpty

def next (environment : Environment) (machine : Machine) : Machine :=
  if machine.frame.stopped then
    match machine with
    | ⟨frame, [], ledger⟩ => ⟨frame, [], ledger⟩
    | ⟨child, parent :: waiting, ledger⟩ => resume environment child parent waiting ledger
  else machine.instruct environment

def start (frame : Frame) (ledger : Ledger) : Machine := { frame, ledger }

def runFor (environment : Environment) : Nat → Machine → Machine
  | 0, machine => machine
  | fuel + 1, machine =>
      if machine.finished then machine else runFor environment fuel (machine.next environment)

/-- More steps than the gas of the first frame pays for. -/
def stepBound (machine : Machine) : Nat := 18446744073709551616 * (machine.frame.context.gas + 1)

def run (environment : Environment) (machine : Machine) : Machine :=
  machine.runFor environment machine.stepBound

inductive Reaches (environment : Environment) (first : Machine) : Machine → Prop where
  | here : Reaches environment first first
  | step {middle : Machine} (before : Reaches environment first middle)
      (runs : middle.finished = false) :
      Reaches environment first (middle.next environment)

theorem next_of_finished (environment : Environment) (machine : Machine)
    (done : machine.finished = true) : machine.next environment = machine := by
  obtain ⟨frame, waiting, ledger⟩ := machine
  cases waiting with
  | nil =>
      have stopped : frame.stopped = true := by simpa [finished] using done
      simp [next, stopped]
  | cons parent rest => simp [finished] at done

theorem Reaches.trans {environment : Environment} {first middle last : Machine}
    (before : Reaches environment first middle) (after : Reaches environment middle last) :
    Reaches environment first last := by
  induction after with
  | here => exact before
  | step _ runs ih => exact .step ih runs

theorem runFor_reaches (environment : Environment) (fuel : Nat) (machine : Machine) :
    Reaches environment machine (machine.runFor environment fuel) := by
  induction fuel generalizing machine with
  | zero => exact .here
  | succ fuel ih =>
      unfold runFor
      cases done : machine.finished with
      | true => exact .here
      | false => exact (Reaches.here.step done).trans (ih (machine.next environment))

end Machine

structure Event where
  pc : Nat
  mnemonic : String
  gasLeft : Nat
  depth : Nat
  deriving DecidableEq

namespace Machine

def event? (environment : Environment) (machine : Machine) : Option Event :=
  let frame := machine.frame
  if frame.stopped then none
  else
    match frame.quote environment.config.fees machine.ledger with
    | .error _ => none
    | .ok (op, price) =>
        some {
          pc := frame.pc
          mnemonic := op.mnemonic
          gasLeft := (frame.pay price).gasLeft
          depth := frame.context.depth }

def eventsFor (environment : Environment) (limit : Nat) : Nat → Machine → Array Event → Array Event
  | 0, _, seen => seen
  | fuel + 1, machine, seen =>
      if limit ≤ seen.size then seen
      else
        let seen := match machine.event? environment with
          | some event => seen.push event
          | none => seen
        if machine.finished then seen
        else eventsFor environment limit fuel (machine.next environment) seen

def events (environment : Environment) (limit : Nat) (machine : Machine) : Array Event :=
  eventsFor environment limit machine.stepBound machine #[]

end Machine

end ContractMachine
