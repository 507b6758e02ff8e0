import ContractMachine.Proofs.Checked.Site
import ContractMachine.Proofs.Machine.Alteration
import ContractMachine.Proofs.Machine.Gas
import ContractMachine.Proofs.Machine.Position

/-!
The machine with its slices and sums checked. A fault still ends a frame; a breach ends the machine.
Under the default fees, from a frame whose gas is a number of 64 bits, there is none: the checked
machine takes the steps of the machine that checks nothing, whatever the code, the call data and the
ledger.
-/

namespace ContractMachine.Machine

def stopped? (frame : Frame) (waiting : List Waiting) (ledger : Ledger) :
    Stop → Except Breach Machine
  | .fault fault => .ok ⟨frame.halt fault, waiting, ledger⟩
  | .breach breach => .error breach

def instruct? (environment : Environment) (machine : Machine) : Except Breach Machine :=
  match machine with
  | ⟨frame, waiting, ledger⟩ =>
      match frame.quote? environment.config.fees ledger with
      | .error stop => stopped? frame waiting ledger stop
      | .ok (op, price) =>
          match SiteAction.execute? environment op price.forwarded ⟨frame.pay price, ledger⟩ with
          | .ok none ⟨frame, ledger⟩ => .ok ⟨frame, waiting, ledger⟩
          | .ok (some spawn) ⟨frame, ledger⟩ =>
              .ok ⟨spawn.frame, ⟨frame, spawn.awaited⟩ :: waiting, ledger⟩
          | .error stop ⟨frame, ledger⟩ => stopped? frame waiting ledger stop

def resume? (environment : Environment) (child : Frame) (parent : Waiting) (waiting : List Waiting)
    (ledger : Ledger) : Except Breach Machine :=
  match SiteAction.settle? environment parent.awaited child.outcome ⟨parent.frame, ledger⟩ with
  | .ok () ⟨frame, ledger⟩ => .ok ⟨frame, waiting, ledger⟩
  | .error stop ⟨frame, ledger⟩ => stopped? frame waiting ledger stop

def next? (environment : Environment) (machine : Machine) : Except Breach Machine :=
  if machine.frame.stopped then
    match machine with
    | ⟨frame, [], ledger⟩ => .ok ⟨frame, [], ledger⟩
    | ⟨child, parent :: waiting, ledger⟩ => resume? environment child parent waiting ledger
  else machine.instruct? environment

def runFor? (environment : Environment) : Nat → Machine → Except Breach Machine
  | 0, machine => .ok machine
  | fuel + 1, machine =>
      if machine.finished then .ok machine
      else do
        let later ← machine.next? environment
        runFor? environment fuel later

/-- What a step needs so that it breaches nothing. -/
structure Guarded (machine : Machine) : Prop where
  left : machine.frame.gasLeft ≤ Quantity.limit
  code : Code.Addressable machine.frame.code
  waiting : ∀ parent ∈ machine.waiting, parent.awaited.Narrow

section

variable {environment : Environment} {root : Frame} {ledger : Ledger} {machine : Machine}

theorem instruct?_eq (standard : environment.config.fees = {})
    (bounded : environment.config.limits.callDepth ≤ Quantity.limit) (guarded : machine.Guarded)
    (runs : machine.frame.stopped = false) :
      machine.instruct? environment = .ok (machine.instruct environment) := by
  obtain ⟨frame, waiting, ledger⟩ := machine
  have quoted :
      frame.quote? environment.config.fees ledger =
        liftM (frame.quote environment.config.fees ledger) := by
    rw [standard]
    exact Frame.quote?_eq guarded.left
  unfold instruct? instruct
  simp only [quoted]
  cases priced : frame.quote environment.config.fees ledger with
  | error fault => rfl
  | ok paid =>
      obtain ⟨op, price⟩ := paid
      have follows :=
        SiteAction.follows_execute standard bounded guarded.left guarded.code ⟨runs, priced⟩
      cases ran : SiteAction.execute environment op price.forwarded ⟨frame.pay price, ledger⟩ with
      | ok spawn site =>
          simp only [Checked.liftM_ok, follows.ok ran, ran]
          cases spawn <;> rfl
      | error fault site =>
          simp only [Checked.liftM_ok, follows.error ran, ran]
          rfl

theorem resume?_eq {child : Frame} {parent : Waiting} (waiting : List Waiting)
    (narrow : parent.awaited.Narrow) :
    resume? environment child parent waiting ledger =
      .ok (resume environment child parent waiting ledger) := by
  have follows : CheckedAction.Follows (SiteAction.settle? environment parent.awaited child.outcome)
      (SiteAction.settle environment parent.awaited child.outcome) ⟨parent.frame, ledger⟩ :=
    SiteAction.follows_settle narrow child.outcome _
  unfold resume? resume
  cases ran : SiteAction.settle environment parent.awaited child.outcome ⟨parent.frame, ledger⟩ with
  | ok value site => simp only [follows.ok ran]
  | error fault site =>
      simp only [follows.error ran]
      rfl

theorem next?_eq (standard : environment.config.fees = {})
    (bounded : environment.config.limits.callDepth ≤ Quantity.limit) (guarded : machine.Guarded) :
    machine.next? environment = .ok (machine.next environment) := by
  unfold next? next
  cases stopped : machine.frame.stopped with
  | false => exact instruct?_eq standard bounded guarded stopped
  | true =>
      obtain ⟨frame, waiting, ledger⟩ := machine
      cases waiting with
      | nil => rfl
      | cons parent waiting => exact resume?_eq waiting (guarded.waiting parent List.mem_cons_self)

/-- A run breaches nothing if no step of it does. -/
theorem runFor?_eq (fuel : Nat)
    (step : ∀ later, Reaches environment machine later →
      later.next? environment = .ok (later.next environment)) :
    machine.runFor? environment fuel = .ok (machine.runFor environment fuel) := by
  induction fuel generalizing machine with
  | zero => rfl
  | succ fuel ih =>
      unfold runFor? runFor
      cases done : machine.finished with
      | true => rfl
      | false =>
          rw [step machine .here]
          exact ih fun later reached => step later ((Reaches.here.step done).trans reached)

theorem Enters.narrow {frame : Frame} {awaited : Awaited} {owner : Address} {kept after : Ledger}
    (enters : Enters environment frame ledger awaited owner kept after) : awaited.Narrow := by
  cases enters with
  | @call kind price message caller calls granted record =>
      rw [Awaited.Narrow, calls.eqs.1]
      exact kind.narrow_message environment price.forwarded (frame.pay price)
  | creation creates granted free creation record gas => trivial

theorem Alters.narrow {later : Machine} (alters : Alters environment machine later)
    (narrow : ∀ parent ∈ machine.waiting, parent.awaited.Narrow) : ∀ parent ∈ later.waiting,
    parent.awaited.Narrow := by
  cases alters with
  | level same leaves => exact narrow
  | down same enters => exact List.forall_mem_cons.mpr ⟨enters.narrow, narrow⟩
  | up child parent waiting ledger => exact (List.forall_mem_cons.mp narrow).2

theorem narrow_of_reaches (reached : Reaches environment (start root ledger) machine) :
    ∀ parent ∈ machine.waiting, parent.awaited.Narrow := by
  induction reached with
  | here => exact List.forall_mem_nil _
  | step before runs ih => exact (alters_next (nested_of_reaches before) runs).narrow ih

theorem guarded_of_reaches (standard : environment.config.fees = {}) (solvent : root.Solvent)
    (placed : root.Placed) (known : ∀ address, Code.Addressable (ledger.code address))
    (reached : Reaches environment (start root ledger) machine) : machine.Guarded := by
  have covers : environment.config.fees.Covers 1 := by
    rw [standard]
    exact covers_default
  have funded : Funded machine.frame machine.waiting :=
    Funded.reaches (.root solvent) covers (.root (.refl root)) reached
  refine ⟨?_, (placed_of_reaches placed known reached).1.work.addressable,
    narrow_of_reaches reached⟩
  exact Nat.le_trans (Nat.sub_le _ _) funded.solvent.bounded

/-- Under the default fees no step of a run breaches anything: no slice leaves its byte string,
nothing is copied to a place of another length, and no sum, difference or product leaves the 64
bits, whatever the code and its data are and however much gas it is given. -/
theorem runs_breach_nothing (standard : environment.config.fees = {})
    (bounded : environment.config.limits.callDepth ≤ Quantity.limit) {code : Bytes}
    {context : Context} {stackLimit gas : Nat} (given : context.gas ≤ Quantity.limit)
    (paid : gas ≤ context.gas) (addressable : Code.Addressable code)
    (known : ∀ address, Code.Addressable (ledger.code address)) (fresh : root =
      { Frame.start code context stackLimit with outcome := ({} : Outcome).spend gas }) :
    (∀ machine, Reaches environment (start root ledger) machine →
      machine.next? environment = .ok (machine.next environment)) ∧
    ∀ steps, (start root ledger).runFor? environment steps =
      .ok ((start root ledger).runFor environment steps) := by
  have solvent : root.Solvent := by
    have exact : (({} : Outcome).spend gas).gasUsed = gas :=
      (congrArg Quantity.clamp (Nat.zero_add gas)).trans
        ((Quantity.clamp_eq_iff gas).mpr (Nat.le_trans paid given))
    rw [fresh]
    refine (Frame.solvent_start code stackLimit given).of_goes rfl ?_ rfl
    rw [exact]
    exact paid
  have placed : root.Placed := by
    rw [fresh]
    exact (Frame.placed_start addressable context stackLimit).rests ⟨rfl, rfl, rfl, rfl, rfl, rfl⟩
  have step (machine : Machine) (reached : Reaches environment (start root ledger) machine) :
      machine.next? environment = .ok (machine.next environment) :=
    next?_eq standard bounded (guarded_of_reaches standard solvent placed known reached)
  refine ⟨step, ?_⟩
  intro steps
  exact runFor?_eq steps step

theorem paidFrame_breaches_nothing :
    ({} : Environment).config.fees = {} ∧ paidFrame.context.gas ≤ Quantity.limit ∧
    21000 ≤ paidFrame.context.gas ∧
    ((start paidFrame calledLedger).runFor {} 10).frame.pc = 4 ∧
    ((start paidFrame calledLedger).runFor {} 10).next? {} =
      .ok (((start paidFrame calledLedger).runFor {} 10).next {}) ∧
    (start paidFrame calledLedger).runFor? {} 10 =
      .ok ((start paidFrame calledLedger).runFor {} 10) := by
  have standard : ({} : Environment).config.fees = {} := rfl
  have given : paidFrame.context.gas ≤ Quantity.limit := by decide
  have paid : 21000 ≤ paidFrame.context.gas := by decide
  have addressable : Code.Addressable callingFrame.code := by decide
  have fresh : paidFrame = { Frame.start callingFrame.code callingFrame.context 1024 with
    outcome := ({} : Outcome).spend 21000 } := rfl
  have there : ((start paidFrame calledLedger).runFor {} 10).frame.pc = 4 := by decide +kernel
  obtain ⟨step, run⟩ :=
    runs_breach_nothing standard (by decide) given paid addressable addressable_calledLedger fresh
  exact ⟨standard, given, paid, there, step _ (runFor_reaches {} 10 _), run 10⟩

end

end ContractMachine.Machine
