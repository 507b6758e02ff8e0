import ContractMachine.Proofs.Ledger.Supply
import ContractMachine.Proofs.Machine.Effects

/-!
No step adds to the sum of the balances. A value is moved where it is there, the sum lies below the
limit of a single balance, and so nothing is cut off, neither where it is taken nor where it goes.
Only a frame that notes a deletion may lower the sum: what an account leaves to itself when it is
removed is lost.
-/

namespace ContractMachine

namespace SiteAction

variable {environment : Environment} {ledger : Ledger}

/-- What an account is emptied of goes to another one, or it is gone. -/
theorem supply_emptied_le (frame : Frame) (bounded : ledger.supply ≤ Word.limit) :
    (emptied frame ledger).supply ≤ ledger.supply := by
  unfold emptied
  split
  · have debited := ledger.supply_debit frame.owner (Nat.le_refl (ledger.balance frame.owner).toNat)
    omega
  · exact Nat.le_of_eq (ledger.supply_transfer frame.owner _ bounded (Nat.le_refl _))

theorem supply_deployed (address : Address) (gas : Nat) (child : Outcome) :
    (deployed environment address gas child ledger).supply = ledger.supply := by
  unfold deployed
  split
  · split
    · exact ledger.supply_setCode address _
    · exact ledger.supply_setCode address _
    · rfl
  · rfl

end SiteAction

section

variable {environment : Environment} {frame : Frame} {ledger : Ledger}

theorem Message.Fair.supply_opened {message : Message} (fair : message.Fair frame ledger)
    (bounded : ledger.supply ≤ Word.limit) :
      (message.opened frame ledger).supply = ledger.supply := by
  have tracked := ledger.supply_checkpoint
  have covered := fair.covered
  rw [← ledger.balance_checkpoint] at covered
  rw [← tracked] at bounded
  exact (Ledger.supply_transfer _ _ _ bounded covered).trans tracked

theorem Creation.supply_opened {creation : Creation}
    (covered : creation.value.toNat ≤ (ledger.balance frame.owner).toNat)
    (bounded : ledger.supply ≤ Word.limit) :
    (creation.opened frame ledger).supply = ledger.supply := by
  have bumped :
      ((ledger.bumpNonce frame.owner).checkpoint.bumpNonce (address frame ledger)).supply =
        ledger.supply :=
    (Ledger.supply_bumpNonce _ _).trans
      ((Ledger.supply_checkpoint _).trans (Ledger.supply_bumpNonce _ _))
  rw [← ledger.balance_bumpNonce frame.owner, ← Ledger.balance_checkpoint,
    ← Ledger.balance_bumpNonce _ (address frame ledger)] at covered
  rw [← bumped] at bounded
  exact (Ledger.supply_transfer _ _ _ bounded covered).trans bumped

theorem SiteAction.supply_settledAtOnce {creation : Creation} (child : Outcome)
    (covered : creation.value.toNat ≤ (ledger.balance frame.owner).toNat)
    (bounded : ledger.supply ≤ Word.limit) :
    (settledAtOnce environment creation child frame ledger).ledger.supply = ledger.supply := by
  cases done : (deposited environment creation.gas child).succeeded with
  | false =>
      rw [ledger_settledAtOnce environment creation frame ledger done]
      exact ledger.supply_bumpNonce frame.owner
  | true =>
      simp only [settledAtOnce, done, if_true]
      exact (Ledger.supply_commit _).trans
        ((supply_deployed _ _ _).trans (Creation.supply_opened covered bounded))

end

theorem AddressSet.union_eq_nil {set other : AddressSet} (empty : set.union other = []) :
    set = [] ∧ other = [] := by
  induction other generalizing set with
  | nil => exact ⟨empty, rfl⟩
  | cons address rest ih =>
      obtain ⟨inserted, -⟩ := ih empty
      exact absurd inserted (AddressSet.insert_ne_nil set address)

namespace Machine

structure Conserved (frame : Frame) (ledger below : Ledger) : Prop where
  bounded : below.supply ≤ Word.limit
  falls : ledger.supply ≤ below.supply
  kept : frame.outcome.deletions = [] → ledger.supply = below.supply

section

variable {environment : Environment} {frame later : Frame} {ledger after below : Ledger}

theorem Conserved.within (conserved : Conserved frame ledger below) : ledger.supply ≤ Word.limit :=
  Nat.le_trans conserved.falls conserved.bounded

theorem conserved_here (bounded : below.supply ≤ Word.limit) (same : ledger.supply = below.supply) :
    Conserved frame ledger below :=
  ⟨bounded, Nat.le_of_eq same, fun _ => same⟩

theorem Conserved.of_same (conserved : Conserved frame ledger below)
    (deletions : later.outcome.deletions = frame.outcome.deletions)
    (same : after.supply = ledger.supply) : Conserved later after below where
  bounded := conserved.bounded
  falls := Nat.le_trans (Nat.le_of_eq same) conserved.falls
  kept := fun none => same.trans (conserved.kept (deletions.symm.trans none))

theorem conserved_answered {child : Frame} {parent : Waiting} (tracked : 0 < ledger.depth)
    (inner : Conserved child ledger (ledger.below 1))
    (outer : Conserved parent.frame (ledger.below 1) below) :
    Conserved (parent.awaited.answered environment child.outcome parent.frame).advance
      (parent.awaited.closed environment child.outcome ledger) below := by
  have written : (parent.awaited.written environment child.outcome ledger).supply =
      ledger.supply := by
    cases parent.awaited with
    | call message record => rfl
    | creation address record gas => exact SiteAction.supply_deployed _ _ _
  have deletions :
      (parent.awaited.answered environment child.outcome parent.frame).outcome.deletions =
      (parent.awaited.taken environment child.outcome parent.frame.outcome).deletions := by
    rw [Awaited.outcome_answered]
    rfl
  rw [Awaited.deletions_taken] at deletions
  cases succeeded : (parent.awaited.final environment child.outcome).succeeded with
  | true =>
      rw [succeeded, if_pos rfl] at deletions
      rw [Awaited.closed, succeeded, if_pos rfl]
      have committed :=
        (Ledger.supply_commit (parent.awaited.written environment child.outcome ledger)).trans
        written
      refine ⟨outer.bounded, ?_, ?_⟩
      · rw [committed]
        exact Nat.le_trans inner.falls outer.falls
      · intro none
        change (parent.awaited.answered environment child.outcome parent.frame).outcome.deletions =
          [] at none
        rw [deletions] at none
        obtain ⟨own, taken⟩ := AddressSet.union_eq_nil none
        rw [committed]
        exact (inner.kept taken).trans (outer.kept own)
  | false =>
      rw [succeeded, if_neg Bool.false_ne_true] at deletions
      rw [Awaited.closed, succeeded, if_neg Bool.false_ne_true]
      have restored :=
        (parent.awaited.writes_written environment child.outcome ledger).same_below tracked 0
      rw [Ledger.rollback_eq_below, restored]
      exact outer.of_same deletions rfl

theorem preserves_conserved : Preserves environment Conserved fun _ => True where
  quiet := by
    intro frame later ledger below discreet conserved
    exact conserved.of_same discreet.deletions rfl
  stored := by
    intro frame later ledger below key value mutable discreet conserved
    exact conserved.of_same discreet.deletions (ledger.supply_putSlot _ _ _)
  removed := by
    intro frame later ledger below mutable deleted conserved
    have falls := SiteAction.supply_emptied_le frame conserved.within
    exact ⟨conserved.bounded, Nat.le_trans falls conserved.falls, fun none => absurd none deleted⟩
  sent := by
    intro frame later ledger below message fair discreet conserved
    have sent := (Ledger.supply_commit _).trans (fair.supply_opened conserved.within)
    exact conserved.of_same discreet.deletions sent
  called := by
    intro frame caller child ledger below message record fair discreet fresh inherits conserved
    refine ⟨trivial, conserved.of_same discreet.deletions rfl, ?_⟩
    exact conserved_here conserved.within (fair.supply_opened conserved.within)
  settled := by
    intro frame creator later ledger below creation child mutable covered deletions conserved
    exact conserved.of_same deletions
      (SiteAction.supply_settledAtOnce child covered conserved.within)
  made := by
    intro frame creator caller child ledger below creation awaited mutable covered deletions fresh
      conserved
    have bumped := ledger.supply_bumpNonce creator.owner
    have opened := Creation.supply_opened covered conserved.within
    refine ⟨trivial, conserved.of_same deletions bumped, ?_⟩
    exact conserved_here (Nat.le_trans (Nat.le_of_eq bumped) conserved.within)
      (opened.trans bumped.symm)
  answered := by
    intro child parent ledger below tracked asks inner outer
    exact conserved_answered tracked inner outer

/-- With no more than the limit about, a run adds nothing to the balances; if it ends without a
deletion, it has taken nothing from them either. -/
theorem conserved_of_reaches {root : Frame} {base : Ledger} {machine : Machine}
    (bounded : base.supply ≤ Word.limit) (reached : Reaches environment (start root base) machine)
    (ended : machine.waiting = []) :
    Conserved machine.frame machine.ledger base := by
  have levels :=
    preserves_conserved.levels (lives_of_reaches reached) (.root (.refl root))
    (conserved_here bounded rfl)
  generalize machine.frame = frame at levels ⊢
  generalize machine.ledger = ledger at levels ⊢
  rw [ended] at levels
  cases levels with
  | last same here => exact here

end

end Machine

end ContractMachine
