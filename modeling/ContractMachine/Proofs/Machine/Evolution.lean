import ContractMachine.Proofs.Ledger.Evolution
import ContractMachine.Proofs.Machine.Nesting

/-!
The ledger under a run. Every step is one of the moves that `Ledger.Evolves` allows: a checkpoint is
closed only when a frame that waits has opened it, so that those open at the start stay open, and
the only code that is deployed is what a creation has returned, if it is not too long.
-/

namespace ContractMachine

variable {base : Nat} {codes : Bytes → Prop} {environment : Environment} {frame : Frame}
  {ledger : Ledger}

theorem Message.evolves_opened (message : Message) (frame : Frame) (ledger : Ledger) :
    ledger.Evolves base codes (message.opened frame ledger) :=
  (Ledger.Evolves.checkpoint .none).trans (Ledger.evolves_transfer _ _ _ _)

theorem Message.evolves_closed (message : Message) (frame : Frame) (stays : base ≤ ledger.depth) :
    ledger.Evolves base codes (message.opened frame ledger).commit := by
  refine .commit (message.evolves_opened frame ledger) ?_
  rw [(message.keeps_opened frame ledger).depth, Ledger.depth_checkpoint]
  exact Nat.lt_succ_of_le stays

theorem Creation.evolves_opened (creation : Creation) (frame : Frame) (ledger : Ledger) :
    ledger.Evolves base codes (creation.opened frame ledger) :=
  ((Ledger.Evolves.checkpoint (Ledger.evolves_bumpNonce ledger frame.owner)).trans
    (Ledger.evolves_bumpNonce _ _)).trans (Ledger.evolves_transfer _ _ _ _)

namespace SiteAction

theorem evolves_emptied (frame : Frame) (ledger : Ledger) :
    ledger.Evolves base codes (emptied frame ledger) := by
  unfold emptied
  split
  · exact Ledger.evolves_debit ledger _ _
  · exact Ledger.evolves_transfer ledger _ _ _

theorem evolves_deployed (environment : Environment) (address : Address) (gas : Nat)
    {child : Outcome} (ledger : Ledger) (empty : codes #[])
    (known : child.succeeded = true → environment.config.Fits child.returnData →
      codes child.returnData) :
    ledger.Evolves base codes (deployed environment address gas child ledger) := by
  unfold deployed
  split
  · rename_i succeeded
    split
    · rename_i price decided
      exact Ledger.evolves_setCode ledger address (known succeeded (Config.fits_of_deploy decided))
    · exact Ledger.evolves_setCode ledger address empty
    · exact .none
  · exact .none

theorem evolves_settledAtOnce (environment : Environment) (creation : Creation) {child : Outcome}
    (frame : Frame) (stays : base ≤ ledger.depth) (empty : codes #[])
    (known : child.succeeded = true → environment.config.Fits child.returnData →
      codes child.returnData) :
    ledger.Evolves base codes (settledAtOnce environment creation child frame ledger).ledger := by
  have opened : ledger.Evolves base codes (creation.opened frame ledger) :=
    creation.evolves_opened frame ledger
  have written :=
    opened.trans
    (evolves_deployed environment (Creation.address frame ledger) creation.gas _ empty known)
  have above : base < (deployed environment (Creation.address frame ledger) creation.gas child
      (creation.opened frame ledger)).depth := by
    have bumped : (ledger.bumpNonce frame.owner).depth = ledger.depth :=
      (Ledger.writes_bumpNonce ledger _).depth
    rw [(writes_deployed _ _ _ _ _).depth, (creation.keeps_opened frame ledger).depth,
      Ledger.depth_checkpoint, bumped]
    exact Nat.lt_succ_of_le stays
  simp only [settledAtOnce]
  split
  · exact .commit written above
  · exact .rollback written above

end SiteAction

theorem Awaited.evolves_closed (environment : Environment) (awaited : Awaited) {child : Outcome}
    (above : base < ledger.depth) (empty : codes #[])
    (known : child.succeeded = true → environment.config.Fits child.returnData →
      codes child.returnData) :
    ledger.Evolves base codes (awaited.closed environment child ledger) := by
  have written : ledger.Evolves base codes (awaited.written environment child ledger) := by
    cases awaited with
    | call message record => exact .none
    | creation address record gas =>
      exact SiteAction.evolves_deployed environment address gas ledger empty known
  have still : base < (awaited.written environment child ledger).depth := by
    rw [(awaited.writes_written environment child ledger).depth]
    exact above
  unfold closed
  split
  · exact .commit written still
  · exact .rollback written still

namespace Machine

variable {waiting : List Waiting} {root : Frame} {machine later : Machine}

theorem Sends.evolves {message : Message} {caller : Frame}
    (sends : Sends environment message caller waiting ledger later) (stays : base ≤ ledger.depth) :
    ledger.Evolves base codes later.ledger := by
  cases sends with
  | refused | drained => exact .none
  | delivered | overdrawn | passed => exact message.evolves_closed caller stays
  | entered => exact message.evolves_opened caller ledger

theorem Makes.evolves (makes : Makes environment frame waiting ledger later)
    (stays : base ≤ ledger.depth) (empty : codes #[]) : ledger.Evolves base codes later.ledger := by
  cases makes with
  | refused refused => exact .none
  | @collided granted inUse site settled =>
      have left : ledger.Evolves base codes site.ledger := by
        rw [settled]
        exact SiteAction.evolves_settledAtOnce environment _ _ stays empty fun _ _ => empty
      exact left
  | @passed granted free bare site settled =>
      have left : ledger.Evolves base codes site.ledger := by
        rw [settled]
        exact SiteAction.evolves_settledAtOnce environment _ _ stays empty fun _ _ => empty
      exact left
  | entered granted free code ready asked => exact Creation.evolves_opened _ _ ledger

theorem Executes.evolves (executes : Executes environment frame waiting ledger later)
    (stays : base ≤ ledger.depth) (empty : codes #[]) : ledger.Evolves base codes later.ledger := by
  cases executes with
  | unpaid | worked | failed => exact .none
  | stored due mutable => exact .putSlot .none frame.owner _ _
  | removed due mutable => exact SiteAction.evolves_emptied frame ledger
  | sent calls sends => exact sends.evolves stays
  | made creates makes => exact makes.evolves stays empty

/-- One step, with the code that the frame at work may return to be deployed when it succeeds. -/
theorem evolves_next {entry : Nat} (nested : Nested environment root machine.frame machine.waiting)
    (counted : machine.ledger.depth = entry + machine.waiting.length)
    (runs : machine.finished = false) (empty : codes #[])
    (known : machine.frame.outcome.succeeded = true →
      environment.config.Fits machine.frame.outcome.returnData →
      codes machine.frame.outcome.returnData) :
    machine.ledger.Evolves entry codes (machine.next environment).ledger := by
  obtain ⟨frame, waiting, ledger⟩ := machine
  cases stopped : frame.stopped with
  | false =>
      rw [next_running waiting stopped]
      have stays : entry ≤ ledger.depth := Nat.le.intro counted.symm
      exact (executes_instruct waiting stopped).evolves stays empty
  | true =>
      obtain ⟨parent, waiting, rfl, goes⟩ := next_of_stopped nested runs stopped
      rw [goes]
      have above : entry < ledger.depth := by
        simp only [List.length_cons] at counted
        omega
      exact parent.awaited.evolves_closed environment above empty known

/-- A run. All code that it deploys is short enough. -/
theorem evolves_within_limit (reached : Reaches environment (start root ledger) machine) :
    ledger.Evolves ledger.depth environment.config.Fits machine.ledger := by
  induction reached with
  | here => exact .none
  | step before runs ih =>
      have step := evolves_next (nested_of_reaches before) (depth_of_reaches before) runs
        environment.config.fits_empty fun _ fits => fits
      exact ih.trans step

theorem evolves_of_reaches (reached : Reaches environment (start root ledger) machine) :
    ledger.Evolves ledger.depth (fun _ => True) machine.ledger :=
  (evolves_within_limit reached).imp fun _ _ => trivial

end Machine

end ContractMachine
