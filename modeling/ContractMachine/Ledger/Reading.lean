import ContractMachine.Ledger

/-!
What is read of a ledger after each operation on it. A write changes what its patch names and
nothing else; opening and committing a checkpoint change nothing that is read; rolling back drops
every write since the checkpoint was opened.
-/

namespace ContractMachine

theorem compare_ne_eq {n : Nat} {first second : BitVec n} (different : second ≠ first) :
    compare first second ≠ .eq :=
  fun equal => different (Std.LawfulEqCmp.eq_of_compare equal).symm

namespace Layer

theorem patch_write (layer : Layer) (address other : Address) (patch : Patch) :
    Layer.patch (Layer.write layer address patch) other =
      if other = address then patch.onto (Layer.patch layer address) else
        Layer.patch layer other := by
  unfold write
  rw [Layer.patch, Std.TreeMap.getElem?_insert]
  by_cases same : other = address
  · subst same
    simp
  · simp [compare_ne_eq same, same, Layer.patch]

theorem account_onto (newer older : Layer) (address : Address) :
    (Layer.patch (Layer.onto newer older) address).account =
      (Layer.patch newer address).account.or (Layer.patch older address).account := by
  unfold onto
  rw [Layer.patch, Std.TreeMap.getElem?_union, Std.TreeMap.getElem?_map]
  cases named : newer[address]? with
  | some patch => simp [Layer.patch, named, Patch.account_onto]
  | none => simp [Layer.patch, named]

theorem slot?_onto (newer older : Layer) (address : Address) (key : Word) :
    (Layer.patch (Layer.onto newer older) address).slot? key =
      ((Layer.patch newer address).slot? key).or ((Layer.patch older address).slot? key) := by
  unfold onto
  rw [Layer.patch, Std.TreeMap.getElem?_union, Std.TreeMap.getElem?_map]
  cases named : newer[address]? with
  | some patch => simp [Layer.patch, named, Patch.slot?_onto]
  | none => simp [Layer.patch, named, Patch.slot?_empty]

end Layer

namespace Holdings

theorem holding_write (holdings : Holdings) (address other : Address) (patch : Patch) :
    Holdings.holding (Holdings.write holdings address patch) other =
      if other = address then patch.apply (Holdings.holding holdings address)
      else Holdings.holding holdings other := by
  unfold write
  rw [Holdings.holding, Std.TreeMap.getElem?_insert]
  by_cases same : other = address
  · subst same
    simp
  · simp [compare_ne_eq same, same, Holdings.holding]

theorem account_applyLayer (holdings : Holdings) (layer : Layer) (address : Address) :
    (Holdings.holding (Holdings.applyLayer holdings layer) address).account =
      (Layer.patch layer address).account.getD (Holdings.holding holdings address).account := by
  unfold applyLayer
  rw [Holdings.holding, Std.TreeMap.getElem?_union, Std.TreeMap.getElem?_map]
  cases named : layer[address]? with
  | some patch => simp [Layer.patch, named, Patch.apply]
  | none => simp [Layer.patch, named, Holdings.holding]

theorem slot_applyLayer (holdings : Holdings) (layer : Layer) (address : Address) (key : Word) :
    (Holdings.holding (Holdings.applyLayer holdings layer) address).slots[key]? =
      ((Layer.patch layer address).slot? key).getD
        (Holdings.holding holdings address).slots[key]? := by
  unfold applyLayer
  rw [Holdings.holding, Std.TreeMap.getElem?_union, Std.TreeMap.getElem?_map]
  cases named : layer[address]? with
  | some patch => simp [Layer.patch, named, Patch.slots_apply]
  | none => simp [Layer.patch, named, Patch.slot?_empty, Holdings.holding]

end Holdings

namespace Ledger

theorem accountIn_cons (holdings : Holdings) (address : Address) (layer : Layer)
    (rest : List Layer) :
    accountIn holdings address (layer :: rest) =
      (Layer.patch layer address).account.getD (accountIn holdings address rest) := by
  rw [accountIn]
  cases (Layer.patch layer address).account <;> rfl

theorem slotIn_cons (holdings : Holdings) (address : Address) (key : Word) (layer : Layer)
    (rest : List Layer) :
    slotIn holdings address key (layer :: rest) =
      ((Layer.patch layer address).slot? key).getD (slotIn holdings address key rest) := by
  rw [slotIn]
  cases (Layer.patch layer address).slot? key <;> rfl

theorem account?_checkpoint (ledger : Ledger) (address : Address) :
    ledger.checkpoint.account? address = ledger.account? address := by
  unfold account? checkpoint
  rw [accountIn_cons]
  simp [Layer.patch]

theorem slot?_checkpoint (ledger : Ledger) (address : Address) (key : Word) :
    ledger.checkpoint.slot? address key = ledger.slot? address key := by
  unfold slot? checkpoint
  rw [slotIn_cons]
  simp [Layer.patch, Patch.slot?_empty]

theorem account?_commit (ledger : Ledger) (address : Address) :
    ledger.commit.account? address = ledger.account? address := by
  obtain ⟨holdings, layers⟩ := ledger
  unfold account? commit commit?
  match layers with
  | [] => rfl
  | [layer] =>
      simp only [Option.getD_some, accountIn_cons]
      exact Holdings.account_applyLayer holdings layer address
  | newer :: older :: rest =>
      simp only [Option.getD_some, accountIn_cons, Layer.account_onto]
      cases (Layer.patch newer address).account <;> simp

theorem slot?_commit (ledger : Ledger) (address : Address) (key : Word) :
    ledger.commit.slot? address key = ledger.slot? address key := by
  obtain ⟨holdings, layers⟩ := ledger
  unfold slot? commit commit?
  match layers with
  | [] => rfl
  | [layer] =>
      simp only [Option.getD_some, slotIn_cons]
      exact Holdings.slot_applyLayer holdings layer address key
  | newer :: older :: rest =>
      simp only [Option.getD_some, slotIn_cons, Layer.slot?_onto]
      cases (Layer.patch newer address).slot? key <;> simp

theorem depth_checkpoint (ledger : Ledger) : ledger.checkpoint.depth = ledger.depth + 1 := rfl

theorem depth_commit (ledger : Ledger) : ledger.commit.depth = ledger.depth - 1 := by
  obtain ⟨holdings, layers⟩ := ledger
  match layers with
  | [] => rfl
  | [layer] => rfl
  | newer :: older :: rest => rfl

theorem depth_rollback (ledger : Ledger) : ledger.rollback.depth = ledger.depth - 1 := by
  obtain ⟨holdings, layers⟩ := ledger
  cases layers <;> rfl

theorem depth_write (ledger : Ledger) (address : Address) (patch : Patch) :
    (ledger.write address patch).depth = ledger.depth := by
  obtain ⟨holdings, layers⟩ := ledger
  cases layers <;> rfl

theorem account?_write (ledger : Ledger) (address other : Address) (patch : Patch) :
    (ledger.write address patch).account? other =
      if other = address then patch.account.getD (ledger.account? address) else
        ledger.account? other := by
  obtain ⟨holdings, layers⟩ := ledger
  unfold account? write
  cases layers with
  | nil =>
      simp only [accountIn, Holdings.holding_write]
      split <;> rfl
  | cons layer rest =>
      simp only [accountIn_cons, Layer.patch_write]
      by_cases same : other = address
      · subst same
        rw [if_pos rfl, if_pos rfl, Patch.account_onto]
        cases patch.account <;> simp
      · rw [if_neg same, if_neg same]

theorem slot?_write (ledger : Ledger) (address other : Address) (patch : Patch) (key : Word) :
    (ledger.write address patch).slot? other key =
      if other = address then (patch.slot? key).getD (ledger.slot? address key)
      else ledger.slot? other key := by
  obtain ⟨holdings, layers⟩ := ledger
  unfold slot? write
  cases layers with
  | nil =>
      simp only [slotIn, Holdings.holding_write]
      split
      · exact Patch.slots_apply patch _ key
      · rfl
  | cons layer rest =>
      simp only [slotIn_cons, Layer.patch_write]
      by_cases same : other = address
      · subst same
        rw [if_pos rfl, if_pos rfl, Patch.slot?_onto]
        cases patch.slot? key <;> simp
      · rw [if_neg same, if_neg same]

theorem account?_update (ledger : Ledger) (address other : Address) (change : Account → Account) :
    (ledger.update address change).account? other =
      if other = address then some (change ((ledger.account? address).getD {}))
      else ledger.account? other :=
  account?_write ledger address other _

theorem slot?_update (ledger : Ledger) (address other : Address) (change : Account → Account)
    (key : Word) :
    (ledger.update address change).slot? other key = ledger.slot? other key := by
  unfold update
  rw [slot?_write]
  split
  · rename_i same
    subst same
    simp [Patch.ofAccount, Patch.slot?]
  · rfl

theorem account?_putSlot (ledger : Ledger) (address other : Address) (key value : Word) :
    (ledger.putSlot address key value).account? other = ledger.account? other := by
  unfold putSlot
  rw [account?_write]
  split
  · rename_i same
    subst same
    rfl
  · rfl

theorem slot?_putSlot (ledger : Ledger) (address other : Address) (key asked value : Word) :
    (ledger.putSlot address key value).slot? other asked =
      if other = address ∧ asked = key then (if value = 0 then none else some value)
      else ledger.slot? other asked := by
  unfold putSlot
  rw [slot?_write]
  by_cases sameAddress : other = address
  · subst sameAddress
    by_cases sameKey : asked = key
    · subst sameKey
      simp [Patch.ofSlot, Patch.slot?]
    · simp [Patch.ofSlot, Patch.slot?, compare_ne_eq sameKey, sameKey]
  · simp [sameAddress]

theorem account?_delete (ledger : Ledger) (address other : Address) :
    (ledger.delete address).account? other =
      if other = address then none else ledger.account? other :=
  account?_write ledger address other _

theorem slot?_delete (ledger : Ledger) (address other : Address) (key : Word) :
    (ledger.delete address).slot? other key =
      if other = address then none else ledger.slot? other key := by
  unfold delete
  rw [slot?_write]
  simp [Patch.removal, Patch.slot?]

theorem slot?_ne_zero (ledger : Ledger) (address : Address) (key : Word) :
    ledger.slot? address key ≠ some 0 := by
  obtain ⟨holdings, layers⟩ := ledger
  unfold slot?
  induction layers with
  | nil => exact (Holdings.holding holdings address).nonzero key
  | cons layer rest ih =>
      rw [slotIn_cons]
      cases held : (Layer.patch layer address).slot? key with
      | none => exact ih
      | some value =>
          intro zero
          exact Patch.slot?_ne_zero _ key (held.trans (congrArg some zero))

theorem account_view (ledger : Ledger) (address : Address) :
    (Holdings.holding ledger.view address).account = ledger.account? address := by
  obtain ⟨holdings, layers⟩ := ledger
  unfold view account?
  induction layers with
  | nil => rfl
  | cons layer rest ih =>
      rw [accountIn_cons, ← ih]
      exact Holdings.account_applyLayer _ layer address

theorem slot_view (ledger : Ledger) (address : Address) (key : Word) :
    (Holdings.holding ledger.view address).slots[key]? = ledger.slot? address key := by
  obtain ⟨holdings, layers⟩ := ledger
  unfold view slot?
  induction layers with
  | nil => rfl
  | cons layer rest ih =>
      rw [slotIn_cons, ← ih]
      exact Holdings.slot_applyLayer _ layer address key

end Ledger

end ContractMachine
