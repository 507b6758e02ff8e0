import ContractMachine.Ledger.Reading

/-!
What lies below the newest checkpoints. A write reaches the newest layer only, so whatever is
written while a checkpoint is open, the ledger without its newest layers stays as it was.
-/

namespace ContractMachine.Ledger

inductive Writes (ledger : Ledger) : Ledger → Prop where
  | none : Writes ledger ledger
  | write {later : Ledger} (before : Writes ledger later) (address : Address) (patch : Patch) :
      Writes ledger (later.write address patch)

theorem Writes.trans {first second third : Ledger} (before : Writes first second)
    (after : Writes second third) : Writes first third := by
  induction after with
  | none => exact before
  | write _ address patch ih => exact .write ih address patch

theorem writes_update (ledger : Ledger) (address : Address) (change : Account → Account) :
    Writes ledger (ledger.update address change) :=
  .write .none address _

theorem writes_putSlot (ledger : Ledger) (address : Address) (key value : Word) :
    Writes ledger (ledger.putSlot address key value) :=
  .write .none address _

theorem writes_debit (ledger : Ledger) (address : Address) (value : Word) :
    Writes ledger (ledger.debit address value) :=
  writes_update ledger address _

theorem writes_credit (ledger : Ledger) (address : Address) (value : Word) :
    Writes ledger (ledger.credit address value) :=
  writes_update ledger address _

theorem writes_transfer (ledger : Ledger) (source target : Address) (value : Word) :
    Writes ledger (ledger.transfer source target value) :=
  (writes_debit ledger source value).trans (writes_credit (ledger.debit source value) target value)

theorem writes_bumpNonce (ledger : Ledger) (address : Address) :
    Writes ledger (ledger.bumpNonce address) :=
  writes_update ledger address _

theorem writes_setCode (ledger : Ledger) (address : Address) (code : Bytes) :
    Writes ledger (ledger.setCode address code) :=
  writes_update ledger address _

theorem Writes.depth {ledger later : Ledger} (writes : Writes ledger later) :
    later.depth = ledger.depth := by
  induction writes with
  | none => rfl
  | write _ address patch ih => exact (depth_write _ address patch).trans ih

def below (ledger : Ledger) (count : Nat) : Ledger :=
  { ledger with layers := ledger.layers.drop count }

theorem depth_below (ledger : Ledger) (count : Nat) :
    (ledger.below count).depth = ledger.depth - count :=
  List.length_drop

theorem below_below (ledger : Ledger) (inner outer : Nat) :
    (ledger.below inner).below outer = ledger.below (inner + outer) := by
  simp only [below, List.drop_drop]

theorem rollback_eq_below (ledger : Ledger) : ledger.rollback = ledger.below 1 := by
  obtain ⟨holdings, layers⟩ := ledger
  cases layers <;> rfl

theorem below_write (ledger : Ledger) (address : Address) (patch : Patch) (count : Nat)
    (tracked : 0 < ledger.depth) :
    (ledger.write address patch).below (count + 1) = ledger.below (count + 1) := by
  obtain ⟨holdings, layers⟩ := ledger
  cases layers with
  | nil => exact absurd tracked (Nat.lt_irrefl 0)
  | cons layer rest => rfl

theorem Writes.same_below {ledger later : Ledger} (writes : Writes ledger later)
    (tracked : 0 < ledger.depth) (count : Nat) :
    later.below (count + 1) = ledger.below (count + 1) := by
  induction writes with
  | none => rfl
  | write before address patch ih =>
      -- No write closes a checkpoint, so one is open still.
      have still : 0 < _ := Nat.lt_of_lt_of_eq tracked before.depth.symm
      exact (below_write _ address patch count still).trans ih

theorem below_checkpoint (ledger : Ledger) (count : Nat) :
    ledger.checkpoint.below (count + 1) = ledger.below count := rfl

/-- The layer that takes a committed one over is the newest then. -/
theorem below_commit (ledger : Ledger) (count : Nat) (nested : 1 < ledger.depth) :
    ledger.commit.below (count + 1) = ledger.below (count + 2) := by
  obtain ⟨holdings, layers⟩ := ledger
  match layers with
  | [] => exact absurd nested (Nat.not_lt_zero 1)
  | [layer] => exact absurd nested (Nat.lt_irrefl 1)
  | newer :: older :: rest => rfl

theorem below_rollback (ledger : Ledger) (count : Nat) :
    ledger.rollback.below count = ledger.below (count + 1) := by
  obtain ⟨holdings, layers⟩ := ledger
  cases layers with
  -- Without a checkpoint there is nothing to roll back, and nothing to drop either.
  | nil => simp [below, rollback, rollback?]
  | cons layer rest => rfl

/-- `later` has the same checkpoints open, and below the newest one nothing has changed. -/
structure KeepsBelow (ledger later : Ledger) : Prop where
  depth : later.depth = ledger.depth
  below : 0 < ledger.depth → ∀ count, later.below (count + 1) = ledger.below (count + 1)

theorem KeepsBelow.refl (ledger : Ledger) : KeepsBelow ledger ledger := ⟨rfl, fun _ _ => rfl⟩

theorem KeepsBelow.trans {first second third : Ledger} (before : KeepsBelow first second)
    (after : KeepsBelow second third) : KeepsBelow first third where
  depth := after.depth.trans before.depth
  below := by
    intro tracked count
    have still : 0 < second.depth := Nat.lt_of_lt_of_eq tracked before.depth.symm
    exact (after.below still count).trans (before.below tracked count)

theorem Writes.keepsBelow {ledger later : Ledger} (writes : Writes ledger later) :
    KeepsBelow ledger later :=
  ⟨writes.depth, writes.same_below⟩

/-- What is kept of a checkpoint reaches the one below it and no further. -/
theorem KeepsBelow.commit {ledger inner : Ledger} (keeps : KeepsBelow ledger.checkpoint inner) :
    KeepsBelow ledger inner.commit where
  depth := by
    rw [depth_commit, keeps.depth, depth_checkpoint]
    exact Nat.add_sub_cancel _ 1
  below := by
    intro tracked count
    have nested : 1 < inner.depth := by
      rw [keeps.depth, depth_checkpoint]
      exact Nat.succ_lt_succ tracked
    rw [below_commit inner count nested, keeps.below (Nat.succ_pos _), below_checkpoint]

theorem rollback_of_below {ledger inner : Ledger}
    (same : inner.below 1 = ledger.checkpoint.below 1) : inner.rollback = ledger := by
  rw [rollback_eq_below, same]
  rfl

theorem KeepsBelow.rollback {ledger inner : Ledger} (keeps : KeepsBelow ledger.checkpoint inner) :
    inner.rollback = ledger :=
  rollback_of_below (keeps.below (Nat.succ_pos _) 0)

structure Opens (ledger later : Ledger) : Prop where
  depth : later.depth = ledger.depth + 1
  below : 0 < ledger.depth → ∀ count, later.below (count + 2) = ledger.below (count + 1)

structure Closes (ledger later : Ledger) : Prop where
  depth : later.depth = ledger.depth - 1
  below : 1 < ledger.depth → ∀ count, later.below (count + 1) = ledger.below (count + 2)

theorem KeepsBelow.opens {ledger base later : Ledger} (before : KeepsBelow ledger base)
    (after : KeepsBelow base.checkpoint later) : Opens ledger later where
  depth := by rw [after.depth, depth_checkpoint, before.depth]
  below := by
    intro tracked count
    rw [after.below (Nat.succ_pos _), below_checkpoint, before.below tracked]

theorem Writes.closes_commit {ledger written : Ledger} (writes : Writes ledger written) :
    Closes ledger written.commit where
  depth := by rw [depth_commit, writes.depth]
  below := by
    intro nested count
    rw [below_commit written count (Nat.lt_of_lt_of_eq nested writes.depth.symm),
      writes.same_below (Nat.lt_of_succ_lt nested)]

theorem Writes.closes_rollback {ledger written : Ledger} (writes : Writes ledger written) :
    Closes ledger written.rollback where
  depth := by rw [depth_rollback, writes.depth]
  below := by
    intro nested count
    rw [below_rollback, writes.same_below (Nat.lt_of_succ_lt nested)]

end ContractMachine.Ledger
