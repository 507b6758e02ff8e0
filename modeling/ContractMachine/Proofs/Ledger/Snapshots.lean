import ContractMachine.Ledger.Reading

/-!
A ledger keeps differences: patches with removals, wipes and emptied slots, layer on layer. The
reference kept beside it here keeps none: a snapshot is everything that can be read, a checkpoint
doubles the newest snapshot, a commit drops the one below it and a rollback drops the newest.
`snapshots_perform` shows that every operation does the same to both; a run of any operations
therefore answers and reads the same.
-/

namespace ContractMachine

structure Snapshot where
  account : Address → Option Account := fun _ => none
  slot : Address → Word → Option Word := fun _ _ => none

namespace Snapshot

def update (snapshot : Snapshot) (address : Address) (change : Account → Account) : Snapshot :=
  { snapshot with
    account := fun other =>
      if other = address then some (change ((snapshot.account address).getD {})) else
        snapshot.account other }

theorem update_update (snapshot : Snapshot) (address : Address) (first second : Account → Account) :
    (snapshot.update address first).update address second =
      snapshot.update address (second ∘ first) := by
  simp only [update, if_true, Option.getD_some]
  congr 1
  funext other
  split <;> rfl

def putSlot (snapshot : Snapshot) (address : Address) (key value : Word) : Snapshot :=
  { snapshot with
    slot := fun other asked =>
      if other = address ∧ asked = key then (if value = 0 then none else some value)
      else snapshot.slot other asked }

def delete (snapshot : Snapshot) (address : Address) : Snapshot where
  account := fun other => if other = address then none else snapshot.account other
  slot := fun other asked => if other = address then none else snapshot.slot other asked

end Snapshot

structure Snapshots where
  current : Snapshot := {}
  older : List Snapshot := []

inductive LedgerOperation where
  | update (address : Address) (change : Account → Account)
  | putSlot (address : Address) (key value : Word)
  | delete (address : Address)
  | checkpoint
  | commit
  | rollback

namespace Snapshots

def bottom (snapshots : Snapshots) : Snapshot := snapshots.older.getLastD snapshots.current

def perform (snapshots : Snapshots) : LedgerOperation → Option Bool × Snapshots
  | .update address change =>
      (none, { snapshots with current := snapshots.current.update address change })
  | .putSlot address key value =>
      (none, { snapshots with current := snapshots.current.putSlot address key value })
  | .delete address => (none, { snapshots with current := snapshots.current.delete address })
  | .checkpoint => (none, { snapshots with older := snapshots.current :: snapshots.older })
  | .commit =>
      match snapshots.older with
      | [] => (some false, snapshots)
      | _ :: older => (some true, { current := snapshots.current, older := older })
  | .rollback =>
      match snapshots.older with
      | [] => (some false, snapshots)
      | newest :: older => (some true, { current := newest, older := older })

def performAll (snapshots : Snapshots) : List LedgerOperation → List (Option Bool) × Snapshots
  | [] => ([], snapshots)
  | operation :: rest =>
      let (answer, after) := snapshots.perform operation
      let (answers, last) := after.performAll rest
      (answer :: answers, last)

end Snapshots

namespace Ledger

def perform (ledger : Ledger) : LedgerOperation → Option Bool × Ledger
  | .update address change => (none, ledger.update address change)
  | .putSlot address key value => (none, ledger.putSlot address key value)
  | .delete address => (none, ledger.delete address)
  | .checkpoint => (none, ledger.checkpoint)
  | .commit => (some ledger.commit?.isSome, ledger.commit)
  | .rollback => (some ledger.rollback?.isSome, ledger.rollback)

def performAll (ledger : Ledger) : List LedgerOperation → List (Option Bool) × Ledger
  | [] => ([], ledger)
  | operation :: rest =>
      let (answer, after) := ledger.perform operation
      let (answers, last) := after.performAll rest
      (answer :: answers, last)

def snapshot (ledger : Ledger) : Snapshot := ⟨ledger.account?, ledger.slot?⟩

def olderSnapshots (holdings : Holdings) : List Layer → List Snapshot
  | [] => []
  | _ :: rest => snapshot ⟨holdings, rest⟩ :: olderSnapshots holdings rest

def snapshots (ledger : Ledger) : Snapshots where
  current := ledger.snapshot
  older := olderSnapshots ledger.holdings ledger.layers

theorem olderSnapshots_length (holdings : Holdings) (layers : List Layer) :
    (olderSnapshots holdings layers).length = layers.length := by
  induction layers with
  | nil => rfl
  | cons layer rest ih => rw [olderSnapshots, List.length_cons, List.length_cons, ih]

theorem bottom_snapshots (ledger : Ledger) :
    ledger.snapshots.bottom = snapshot ⟨ledger.holdings, []⟩ := by
  obtain ⟨holdings, layers⟩ := ledger
  suffices last : ∀ current, (olderSnapshots holdings layers).getLastD current =
      if layers = [] then current else snapshot ⟨holdings, []⟩ by
    unfold Snapshots.bottom snapshots
    rw [last]
    split
    · rename_i none
      rw [none]
    · rfl
  -- What is taken for an empty list changes from layer to layer.
  induction layers with
  | nil => intro current; rfl
  | cons layer rest ih =>
      intro current
      rw [olderSnapshots, List.getLastD_cons, ih, if_neg (List.cons_ne_nil layer rest)]
      split
      · rename_i none
        rw [none]
      · rfl

theorem snapshot_eq {ledger : Ledger} {expected : Snapshot}
    (accounts : ∀ address, ledger.account? address = expected.account address)
    (slots : ∀ address key, ledger.slot? address key = expected.slot address key) :
    ledger.snapshot = expected :=
  congr (congrArg Snapshot.mk (funext accounts)) (funext fun address => funext (slots address))

theorem snapshot_update (ledger : Ledger) (address : Address) (change : Account → Account) :
    (ledger.update address change).snapshot = ledger.snapshot.update address change :=
  snapshot_eq (fun other => account?_update ledger address other change)
    (fun other key => slot?_update ledger address other change key)

theorem snapshot_putSlot (ledger : Ledger) (address : Address) (key value : Word) :
    (ledger.putSlot address key value).snapshot = ledger.snapshot.putSlot address key value :=
  snapshot_eq (fun other => account?_putSlot ledger address other key value)
    (fun other asked => slot?_putSlot ledger address other key asked value)

theorem snapshot_delete (ledger : Ledger) (address : Address) :
    (ledger.delete address).snapshot = ledger.snapshot.delete address :=
  snapshot_eq (fun other => account?_delete ledger address other)
    (fun other key => slot?_delete ledger address other key)

theorem snapshot_checkpoint (ledger : Ledger) : ledger.checkpoint.snapshot = ledger.snapshot :=
  snapshot_eq (account?_checkpoint ledger) (slot?_checkpoint ledger)

theorem snapshot_commit (ledger : Ledger) : ledger.commit.snapshot = ledger.snapshot :=
  snapshot_eq (account?_commit ledger) (slot?_commit ledger)

/-- A write is made in the newest layer, or in the holdings when there is none: what lies below
stays as it is. -/
theorem snapshots_write (ledger : Ledger) (address : Address) (patch : Patch) {expected : Snapshot}
    (current : (ledger.write address patch).snapshot = expected) :
    (ledger.write address patch).snapshots = { ledger.snapshots with current := expected } := by
  subst current
  obtain ⟨holdings, layers⟩ := ledger
  cases layers with
  | nil => rfl
  | cons layer rest => rfl

theorem snapshots_perform (ledger : Ledger) (operation : LedgerOperation) :
    ledger.snapshots.perform operation =
      ((ledger.perform operation).1, (ledger.perform operation).2.snapshots) := by
  cases operation with
  | update address change =>
      have written := snapshots_write ledger address _ (snapshot_update ledger address change)
      exact congrArg (Prod.mk none) written.symm
  | putSlot address key value =>
      have written := snapshots_write ledger address _ (snapshot_putSlot ledger address key value)
      exact congrArg (Prod.mk none) written.symm
  | delete address =>
      have written := snapshots_write ledger address _ (snapshot_delete ledger address)
      exact congrArg (Prod.mk none) written.symm
  | checkpoint =>
      simp only [Snapshots.perform, perform, snapshots, snapshot_checkpoint]
      rfl
  | commit =>
      have same := snapshot_commit ledger
      obtain ⟨holdings, layers⟩ := ledger
      -- The last layer goes into the holdings, any other one into the layer below it.
      match layers with
      | [] => rfl
      | [layer] =>
          simp only [Snapshots.perform, perform, snapshots, same]
          rfl
      | newer :: older :: rest =>
          simp only [Snapshots.perform, perform, snapshots, same]
          rfl
  | rollback =>
      obtain ⟨holdings, layers⟩ := ledger
      cases layers with
      | nil => rfl
      | cons layer rest => rfl

theorem snapshots_performAll (ledger : Ledger) (operations : List LedgerOperation) :
    ledger.snapshots.performAll operations =
      ((ledger.performAll operations).1, (ledger.performAll operations).2.snapshots) := by
  induction operations generalizing ledger with
  | nil => rfl
  | cons operation rest ih =>
      simp only [Snapshots.performAll, performAll, snapshots_perform, ih]

/-- While a checkpoint is open, only the commit of the last one reaches the holdings. -/
theorem holdings_perform (ledger : Ledger) (operation : LedgerOperation)
    (tracked : 0 < ledger.depth) (stays : operation = .commit → 1 < ledger.depth) :
    (ledger.perform operation).2.holdings = ledger.holdings := by
  obtain ⟨holdings, layers⟩ := ledger
  match layers with
  | [] => exact absurd tracked (Nat.lt_irrefl 0)
  | [layer] =>
      cases operation with
      | commit => exact absurd (stays rfl) (Nat.lt_irrefl 1)
      | update | putSlot | delete | checkpoint | rollback => rfl
  | newer :: older :: rest => cases operation <;> rfl

/-- After any operations on an empty ledger, the answers, the depth and everything read are those of
the snapshots; no slot reads as zero; and the holdings are the snapshot at the bottom, which nothing
done under an open checkpoint touches before the last commit. -/
theorem performAll_matches_snapshots (operations : List LedgerOperation) :
    let ledger := (performAll {} operations).2
    let snapshots := (Snapshots.performAll {} operations).2
    (performAll {} operations).1 = (Snapshots.performAll {} operations).1 ∧
    ledger.depth = snapshots.older.length ∧
    (∀ address, ledger.account? address = snapshots.current.account address) ∧
    (∀ address key, ledger.slot? address key = snapshots.current.slot address key) ∧
    (∀ address key, ledger.slot? address key ≠ some 0) ∧
    (∀ address, (Holdings.holding ledger.holdings address).account =
      snapshots.bottom.account address) ∧
    (∀ address key, (Holdings.holding ledger.holdings address).slots[key]? =
      snapshots.bottom.slot address key) ∧
    (∀ operation, 0 < ledger.depth → (operation = .commit → 1 < ledger.depth) →
      (ledger.perform operation).2.holdings = ledger.holdings) := by
  intro ledger snapshots
  have run := snapshots_performAll {} operations
  have empty : Ledger.snapshots {} = {} := by
    have accounts : ∀ address, account? {} address = none := fun _ => by
      simp [account?, accountIn, Holdings.holding]
    have slots : ∀ address key, slot? {} address key = none := fun _ _ => by
      simp [slot?, slotIn, Holdings.holding]
    exact congrArg (fun current => Snapshots.mk current []) (snapshot_eq accounts slots)
  rw [empty] at run
  have shown : snapshots = ledger.snapshots := congrArg Prod.snd run
  have bottom := bottom_snapshots ledger
  rw [shown]
  refine ⟨(congrArg Prod.fst run).symm, ?_, fun _ => rfl, fun _ _ => rfl, slot?_ne_zero ledger, ?_,
    ?_, holdings_perform ledger⟩
  · exact (olderSnapshots_length ledger.holdings ledger.layers).symm
  · intro address
    rw [bottom]
    rfl
  · intro address key
    rw [bottom]
    rfl

end Ledger

end ContractMachine
