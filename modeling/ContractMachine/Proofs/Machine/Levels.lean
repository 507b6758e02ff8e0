import ContractMachine.Proofs.Machine.Nesting

/-!
Invariants of a frame against the ledger from before its checkpoint. Every frame that was made while
another one lives has such a ledger below it; a step that carries the invariant over at the frames
that take part in it carries it over at every level (`Carries.levels`), and so does a run.
-/

namespace ContractMachine.Machine

inductive Lives (environment : Environment) (first : Machine) : Machine → Prop where
  | here : Lives environment first first
  | step {middle : Machine} (before : Lives environment first middle)
      (runs : middle.finished = false)
      (inside : first.waiting.length ≤ (middle.next environment).waiting.length) :
      Lives environment first (middle.next environment)

/-- The frame and those that wait above `outer` meet an invariant, each with the ledger as the
checkpoints of the frames above it leave it and the one from before its own checkpoint. The last of
them is `root`, and below it lies `base`. The frames that wait meet a condition of their own. -/
inductive Levels (holds : Frame → Ledger → Ledger → Prop) (waits : Waiting → Prop)
    (outer : List Waiting) (root : Frame) (base : Ledger) : Frame → List Waiting → Ledger →
    Prop where
  | last {frame : Frame} {ledger : Ledger} (same : root.Continues frame)
      (here : holds frame ledger base) :
      Levels holds waits outer root base frame outer ledger
  | above {frame : Frame} {parent : Waiting} {waiting : List Waiting} {ledger : Ledger}
      (tracked : 0 < ledger.depth)
      (lower : Levels holds waits outer root base parent.frame waiting (ledger.below 1))
      (asks : waits parent) (here : holds frame ledger (ledger.below 1)) :
      Levels holds waits outer root base frame (parent :: waiting) ledger

inductive Carries (holds : Frame → Ledger → Ledger → Prop) (waits : Waiting → Prop) :
    Machine → Machine → Prop where
  | level {frame later : Frame} {waiting : List Waiting} {ledger after : Ledger}
      (same : frame.Continues later) (keeps : ledger.KeepsBelow after)
      (carries : ∀ below, holds frame ledger below → holds later after below) :
      Carries holds waits ⟨frame, waiting, ledger⟩ ⟨later, waiting, after⟩
  | down {frame child : Frame} {parent : Waiting} {waiting : List Waiting}
      {ledger kept after : Ledger} (same : frame.Continues parent.frame)
      (before : ledger.KeepsBelow kept) (opened : kept.checkpoint.KeepsBelow after)
      (carries : ∀ below, holds frame ledger below →
        waits parent ∧ holds parent.frame kept below ∧ holds child after kept) :
      Carries holds waits ⟨frame, waiting, ledger⟩ ⟨child, parent :: waiting, after⟩
  | up {child later : Frame} {parent : Waiting} {waiting : List Waiting} {ledger after : Ledger}
      (same : parent.frame.Continues later) (closes : ledger.Closes after)
      (carries : ∀ below, 0 < ledger.depth → waits parent → holds child ledger (ledger.below 1) →
        holds parent.frame (ledger.below 1) below → holds later after below) :
      Carries holds waits ⟨child, parent :: waiting, ledger⟩ ⟨later, waiting, after⟩

section

variable {environment : Environment} {holds : Frame → Ledger → Ledger → Prop}
  {waits : Waiting → Prop} {outer waiting : List Waiting} {base ledger after : Ledger}
  {root frame later : Frame} {first machine last : Machine}

theorem Levels.here (levels : Levels holds waits outer root base frame waiting ledger) :
    ∃ below, holds frame ledger below := by
  cases levels with
  | last same here => exact ⟨_, here⟩
  | above tracked lower asks here => exact ⟨_, here⟩

/-- What happens at the innermost frame alone does not matter to those below it. -/
theorem Levels.level (levels : Levels holds waits outer root base frame waiting ledger)
    (same : frame.Continues later) (keeps : ledger.KeepsBelow after)
    (carries : ∀ below, holds frame ledger below → holds later after below) :
    Levels holds waits outer root base later waiting after := by
  cases levels with
  | last before here => exact .last (before.trans same) (carries _ here)
  | above tracked lower asks here =>
      have kept : after.below 1 = ledger.below 1 := keeps.below tracked 0
      rw [← kept] at lower here
      exact .above (Nat.lt_of_lt_of_eq tracked keeps.depth.symm) lower asks (carries _ here)

/-- When a checkpoint is closed, what lay below it is on top. -/
theorem Levels.closed {mid : Ledger} (levels : Levels holds waits outer root base frame waiting mid)
    (under : ledger.below 1 = mid) (same : frame.Continues later) (closes : ledger.Closes after)
    (carries : ∀ below, holds frame mid below → holds later after below) :
    Levels holds waits outer root base later waiting after := by
  cases levels with
  | last before here => exact .last (before.trans same) (carries _ here)
  | above tracked lower asks here =>
      have deep : 1 < ledger.depth := by
        rw [← under, Ledger.depth_below] at tracked
        omega
      have kept : after.below 1 = mid.below 1 := by
        rw [← under, Ledger.below_below]
        exact closes.below deep 0
      have still : 0 < after.depth := by
        rw [closes.depth]
        omega
      rw [← kept] at lower here
      exact .above still lower asks (carries _ here)

theorem Carries.levels (carries : Carries holds waits machine last)
    (inside : outer.length ≤ last.waiting.length)
    (levels : Levels holds waits outer root base machine.frame machine.waiting machine.ledger) :
    Levels holds waits outer root base last.frame last.waiting last.ledger := by
  cases carries with
  | level same keeps carries => exact Levels.level levels same keeps carries
  | @down frame child parent waiting ledger kept after same before opened carries =>
      obtain ⟨below, here⟩ := Levels.here levels
      obtain ⟨asks, _, fresh⟩ := carries below here
      have under : after.below 1 = kept := opened.below (Nat.succ_pos _) 0
      have tracked : 0 < after.depth := by
        rw [opened.depth]
        exact Nat.succ_pos _
      have lower := Levels.level levels same before fun below here => (carries below here).2.1
      rw [← under] at lower fresh
      exact .above tracked lower asks fresh
  | @up child later parent waiting ledger after same closes carries =>
      -- More frames wait than `outer` has, so that the child is not the last one.
      have more : outer.length < (parent :: waiting).length := Nat.lt_succ_of_le inside
      generalize whole : parent :: waiting = all at levels more
      cases levels with
      | last before here => exact absurd more (Nat.lt_irrefl _)
      | above tracked lower asks here =>
          cases whole
          exact lower.closed rfl same closes fun below parentHere =>
            carries below tracked asks here parentHere

theorem Lives.reaches (lives : Lives environment first machine) :
    Reaches environment first machine := by
  induction lives with
  | here => exact .here
  | step before runs inside ih => exact .step ih runs

/-- The first frame of a run lives as long as the run. -/
theorem lives_of_reaches (reached : Reaches environment (start root ledger) machine) :
    Lives environment (start root ledger) machine := by
  induction reached with
  | here => exact .here
  | step before runs ih => exact .step ih runs (Nat.zero_le _)

theorem lives_runFor (fuel : Nat)
    (inside : ∀ steps ≤ fuel,
      first.waiting.length ≤ (first.runFor environment steps).waiting.length) :
    Lives environment first (first.runFor environment fuel) := by
  induction fuel with
  | zero => exact .here
  | succ fuel ih =>
      have before := ih fun steps within => inside steps (Nat.le_succ_of_le within)
      have more := inside (fuel + 1) (Nat.le_refl _)
      rw [runFor_succ] at more ⊢
      cases done : (first.runFor environment fuel).finished with
      | true => rwa [next_of_finished environment _ done]
      | false => exact .step before done more

/-- What every step carries over holds as long as the first frame lives, at every level above it. -/
theorem levels_of_lives (lives : Lives environment first machine)
    (nested : Nested environment root first.frame first.waiting)
    (step : ∀ middle : Machine, Nested environment root middle.frame middle.waiting →
      middle.finished = false →
      Carries holds waits middle (middle.next environment))
    (here : holds first.frame first.ledger base) :
    Levels holds waits first.waiting first.frame base machine.frame machine.waiting
      machine.ledger := by
  induction lives with
  | here => exact .last (.refl _) here
  | step before runs inside ih =>
    exact (step _ (nested.reaches before.reaches) runs).levels inside ih

end

end ContractMachine.Machine
