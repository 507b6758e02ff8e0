import ContractMachine.Proofs.Machine.Gas
import Mathlib.Algebra.GroupWithZero.Nat

/-!
Runs end. What the frames have left of their gas, taken together, never grows: gas that comes back
to a frame is gas that its child had left. It stays the same only when a frame stops or is taken
over, and there are no more frames to do that than were paid for (`load_next`).
-/

namespace ContractMachine.Machine

def gasLeft (machine : Machine) : Nat :=
  machine.frame.gasLeft + (machine.waiting.map fun parent => parent.frame.gasLeft).sum

/-- A bound on the steps that are left. Making a frame is paid for with gas, so that the frame
itself may count for less: it has to stop and to be taken over. -/
def load (machine : Machine) : Nat :=
  3 * machine.gasLeft + 2 * machine.waiting.length + if machine.frame.stopped then 0 else 1

section

variable {environment : Environment} {root : Frame} {machine later : Machine}

/-- Gas is never made on the way from frame to frame. -/
theorem Pays.gasLeft_le {least : Nat} (pays : Pays environment least machine later)
    (funded : Funded machine.frame machine.waiting) : later.gasLeft ≤ machine.gasLeft := by
  cases pays with
  | @level frame later waiting ledger after runs same solvent paid =>
      have used : frame.outcome.gasUsed ≤ later.outcome.gasUsed :=
        Nat.le_trans (Nat.le_add_right _ _) paid
      simp only [gasLeft, Frame.gasLeft]
      rw [same]
      omega
  | @down frame parent child awaited waiting ledger after runs same solvent goes paid fresh unused
      handed =>
      have within := solvent.within
      rw [same] at within
      simp only [gasLeft, Frame.gasLeft, List.map_cons, List.sum_cons]
      rw [same, unused, handed]
      omega
  | @up child later parent waiting ledger after stopped same solvent back =>
      cases funded with
      | child outer inner goes handed paid =>
          have above := outer.solvent.within
          have part := inner.within
          simp only [gasLeft, Frame.gasLeft, List.map_cons, List.sum_cons]
          simp only at handed
          rw [same]
          rw [handed] at part ⊢
          omega

theorem gasLeft_of_reaches {least : Nat} {first : Machine}
    (covers : environment.config.fees.Covers least)
    (nested : Nested environment root first.frame first.waiting)
    (funded : Funded first.frame first.waiting) (reached : Reaches environment first machine) :
    machine.gasLeft ≤ first.gasLeft := by
  induction reached with
  | here => exact Nat.le_refl _
  | step before runs ih =>
      have paying := funded.reaches covers nested before
      exact Nat.le_trans
        ((pays_next covers (nested.reaches before) paying runs).gasLeft_le paying) ih

theorem Pays.load (pays : Pays environment 1 machine later)
    (funded : Funded machine.frame machine.waiting) : later.load < machine.load := by
  cases pays with
  | @level frame later waiting ledger after runs same solvent paid =>
      have within := solvent.within
      simp only [Machine.load, gasLeft, Frame.gasLeft, runs, Bool.false_eq_true, if_false]
      rw [same] at within ⊢
      -- A frame that goes on has paid something; one that stops need not have.
      cases stopped : later.stopped with
      | true =>
          rw [stopped, if_pos rfl] at paid
          rw [if_pos rfl]
          omega
      | false =>
          rw [stopped, if_neg Bool.false_ne_true] at paid
          rw [if_neg Bool.false_ne_true]
          omega
  | @down frame parent child awaited waiting ledger after runs same solvent goes paid fresh unused
      handed =>
      have within := solvent.within
      rw [same] at within
      have flag : (if child.stopped then 0 else 1) ≤ 1 := by split <;> omega
      simp only [Machine.load, gasLeft, Frame.gasLeft, runs, Bool.false_eq_true, if_false,
        List.map_cons, List.sum_cons, List.length_cons]
      rw [same, unused, handed]
      omega
  | @up child later parent waiting ledger after stopped same solvent back =>
      cases funded with
      | child outer inner goes handed paid =>
          have above := outer.solvent.within
          have within := solvent.within
          have part := inner.within
          have flag : (if later.stopped then 0 else 1) ≤ 1 := by split <;> omega
          simp only [Machine.load, gasLeft, Frame.gasLeft, stopped, if_true, List.map_cons,
            List.sum_cons, List.length_cons]
          simp only at handed
          rw [same] at within ⊢
          rw [handed] at part ⊢
          omega

theorem load_next (covers : environment.config.fees.Covers 1)
    (nested : Nested environment root machine.frame machine.waiting)
    (funded : Funded machine.frame machine.waiting) (runs : machine.finished = false) :
    (machine.next environment).load < machine.load :=
  (pays_next covers nested funded runs).load funded

/-- As many steps as the load allows bring the run to its end. -/
theorem finished_runFor (covers : environment.config.fees.Covers 1)
    (nested : Nested environment root machine.frame machine.waiting)
    (funded : Funded machine.frame machine.waiting) {fuel : Nat} (enough : machine.load ≤ fuel) :
    (machine.runFor environment fuel).finished = true := by
  induction fuel generalizing machine with
  | zero =>
      cases done : machine.finished with
      | true => exact done
      | false =>
          -- Without a load there is no step to take.
          have falls := load_next covers nested funded done
          omega
  | succ fuel ih =>
      rw [runFor]
      cases done : machine.finished with
      | true => exact done
      | false =>
          have falls := load_next covers nested funded done
          have stays := nested.reaches (Reaches.here.step done)
          have pays := funded.reaches covers nested (Reaches.here.step done)
          exact ih stays pays (by omega)

theorem load_start (root : Frame) (ledger : Ledger) :
    (start root ledger).load ≤ 3 * root.gasLeft + 1 := by
  change 3 * (root.gasLeft + 0) + 2 * 0 + (if root.stopped then 0 else 1) ≤ 3 * root.gasLeft + 1
  split <;> omega

theorem enough_steps (root : Frame) (ledger : Ledger) :
    3 * root.gasLeft + 1 ≤ (start root ledger).stepBound := by
  have part : root.gasLeft ≤ root.context.gas := Nat.sub_le _ _
  have bound : (start root ledger).stepBound = 18446744073709551616 * (root.context.gas + 1) := rfl
  omega

/-- Where every instruction that goes on costs more than its stipend, a run ends and is carried
through. -/
theorem finished_of_covers (covers : environment.config.fees.Covers 1) (solvent : root.Solvent)
    (ledger : Ledger) :
    ((start root ledger).runFor environment (3 * root.gasLeft + 1)).finished = true ∧
      (start root ledger).run environment =
        (start root ledger).runFor environment (3 * root.gasLeft + 1) := by
  have nested : Nested environment root (start root ledger).frame (start root ledger).waiting :=
    .root (.refl root)
  have funded : Funded (start root ledger).frame (start root ledger).waiting := .root solvent
  have done := finished_runFor covers nested funded (load_start root ledger)
  exact ⟨done, run_of_finished (enough_steps root ledger) done⟩

/-- Under the default fees every run ends, whatever the code, the ledger, the limits and the
precompiles: after three steps for each unit of gas, and one, no frame waits and the root has
stopped. The root may be fresh (`Frame.solvent_start`) or have spent part of its gas. -/
theorem run_ends_under_default_fees (environment : Environment)
    (fees : environment.config.fees = {}) {root : Frame} (solvent : root.Solvent)
    (ledger : Ledger) :
    ∃ last, last = (start root ledger).runFor environment (3 * root.gasLeft + 1) ∧
      Reaches environment (start root ledger) last ∧ last.waiting = [] ∧ last.frame.stopped = true ∧
      root.Continues last.frame ∧ (start root ledger).run environment = last := by
  have covers : environment.config.fees.Covers 1 := by
    rw [fees]
    exact covers_default
  have reached := runFor_reaches environment (3 * root.gasLeft + 1) (start root ledger)
  obtain ⟨ended, whole⟩ := finished_of_covers covers solvent ledger
  rw [finished, Bool.and_eq_true, List.isEmpty_iff] at ended
  obtain ⟨stopped, alone⟩ := ended
  have nested := nested_of_reaches reached
  rw [alone] at nested
  refine ⟨_, rfl, reached, alone, stopped, ?_, whole⟩
  cases nested with
  | root same => exact same

theorem run_ends_for_callingFrame :
    callingFrame.Solvent ∧ ∃ last, Reaches {} (start callingFrame calledLedger) last ∧
    last.waiting = [] ∧
      last.frame.stopped = true ∧ (start callingFrame calledLedger).run {} = last := by
  have solvent : callingFrame.Solvent := Frame.solvent_start _ _ (by decide)
  obtain ⟨last, _, reached, alone, stopped, _, whole⟩ :=
    run_ends_under_default_fees {} rfl solvent calledLedger
  exact ⟨solvent, last, reached, alone, stopped, whole⟩

end

end ContractMachine.Machine
