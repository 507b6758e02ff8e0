import Mathlib.Algebra.BigOperators.Fin
import Mathlib.Algebra.Order.BigOperators.Group.Finset
import ContractMachine.Ledger.Reading

/-!
The sum of all balances. An update changes it by as much as it changes the one balance, and no
balance is larger.
-/

namespace ContractMachine.Ledger

def supply (ledger : Ledger) : Nat := ∑ i : Fin (2 ^ 160), (ledger.balance (BitVec.ofFin i)).toNat

theorem balance_le_supply (ledger : Ledger) (address : Address) :
    (ledger.balance address).toNat ≤ ledger.supply := by
  have bound :=
    Finset.single_le_sum (f := fun i : Fin (2 ^ 160) => (ledger.balance (BitVec.ofFin i)).toNat)
    (fun _ _ => Nat.zero_le _) (Finset.mem_univ address.toFin)
  exact bound

theorem balance_update (ledger : Ledger) (address other : Address) (change : Account → Account) :
    (ledger.update address change).balance other =
      if other = address then (change ((ledger.account? address).getD {})).balance else
        ledger.balance other := by
  unfold balance
  rw [account?_update]
  split <;> rfl

theorem balance_update_same (ledger : Ledger) (address other : Address) {change : Account → Account}
    (same : ∀ account, (change account).balance = account.balance) :
    (ledger.update address change).balance other = ledger.balance other := by
  rw [balance_update]
  split
  · rename_i here
    subst here
    exact same _
  · rfl

theorem balance_bumpNonce (ledger : Ledger) (address other : Address) :
    (ledger.bumpNonce address).balance other = ledger.balance other :=
  balance_update_same ledger address other fun _ => rfl

theorem balance_checkpoint (ledger : Ledger) (address : Address) :
    ledger.checkpoint.balance address = ledger.balance address := by
  unfold balance
  rw [account?_checkpoint]

def supplyBeside (ledger : Ledger) (address : Address) : Nat :=
  ∑ i ∈ Finset.univ.erase address.toFin, (ledger.balance (BitVec.ofFin i)).toNat

theorem supply_split (ledger : Ledger) (address : Address) :
    ledger.supply = (ledger.balance address).toNat + ledger.supplyBeside address :=
  (Finset.add_sum_erase Finset.univ (fun i => (ledger.balance (BitVec.ofFin i)).toNat)
    (Finset.mem_univ address.toFin)).symm

/-- Where no other balance has changed, the sum has changed by as much as this one. -/
theorem supply_of_others {ledger later : Ledger} (address : Address)
    (same : ∀ other, other ≠ address → later.balance other = ledger.balance other) :
    later.supply + (ledger.balance address).toNat =
      ledger.supply + (later.balance address).toNat := by
  have beside : later.supplyBeside address = ledger.supplyBeside address := by
    refine Finset.sum_congr rfl fun i member => ?_
    have other : BitVec.ofFin i ≠ address := by
      intro here
      exact (Finset.mem_erase.mp member).1 (congrArg BitVec.toFin here)
    rw [same _ other]
  rw [supply_split later address, supply_split ledger address, beside]
  omega

theorem supply_congr {ledger later : Ledger}
    (same : ∀ address, later.balance address = ledger.balance address) :
    later.supply = ledger.supply :=
  Finset.sum_congr rfl fun i _ => congrArg BitVec.toNat (same (BitVec.ofFin i))

theorem supply_update (ledger : Ledger) (address : Address) (change : Account → Account) :
    (ledger.update address change).supply + (ledger.balance address).toNat =
      ledger.supply + (change ((ledger.account? address).getD {})).balance.toNat := by
  have others := supply_of_others address fun other different =>
    (balance_update ledger address other change).trans (if_neg different)
  rwa [balance_update, if_pos rfl] at others

theorem supply_setCode (ledger : Ledger) (address : Address) (code : Bytes) :
    (ledger.setCode address code).supply = ledger.supply :=
  supply_congr fun other => balance_update_same ledger address other fun _ => rfl

theorem supply_bumpNonce (ledger : Ledger) (address : Address) :
    (ledger.bumpNonce address).supply = ledger.supply :=
  supply_congr (balance_bumpNonce ledger address)

theorem supply_putSlot (ledger : Ledger) (address : Address) (key value : Word) :
    (ledger.putSlot address key value).supply = ledger.supply := by
  refine supply_congr fun other => ?_
  unfold balance
  rw [account?_putSlot]

theorem supply_checkpoint (ledger : Ledger) : ledger.checkpoint.supply = ledger.supply :=
  supply_congr (balance_checkpoint ledger)

theorem supply_commit (ledger : Ledger) : ledger.commit.supply = ledger.supply := by
  refine supply_congr fun address => ?_
  unfold balance
  rw [account?_commit]

/-- An account that is removed takes its balance with it. -/
theorem supply_delete_le (ledger : Ledger) (address : Address) :
    (ledger.delete address).supply ≤ ledger.supply := by
  have removed : ((ledger.delete address).balance address).toNat = 0 := by
    unfold balance
    rw [account?_delete, if_pos rfl]
    rfl
  have others : (ledger.delete address).supply + _ = ledger.supply + _ :=
    supply_of_others address fun other different => by
      unfold balance
      rw [account?_delete, if_neg different]
  omega

theorem supply_foldl_delete_le (addresses : List Address) (ledger : Ledger) :
    (addresses.foldl delete ledger).supply ≤ ledger.supply := by
  induction addresses generalizing ledger with
  | nil => exact Nat.le_refl _
  | cons address rest ih =>
    rw [List.foldl_cons]
    exact Nat.le_trans (ih _) (supply_delete_le ledger address)

theorem supply_debit (ledger : Ledger) (address : Address) {value : Word}
    (covered : value.toNat ≤ (ledger.balance address).toNat) :
    (ledger.debit address value).supply + value.toNat = ledger.supply := by
  have debited :=
    supply_update ledger address fun account =>
      { account with balance := account.balance.clampedSub value }
  rw [Word.clampedSub_toNat] at debited
  change (ledger.debit address value).supply + _ =
    ledger.supply + ((ledger.balance address).toNat - _) at debited
  omega

/-- With no more than the limit about, nothing that is credited is cut off. -/
theorem supply_credit (ledger : Ledger) (address : Address) {value : Word}
    (bounded : ledger.supply + value.toNat ≤ Word.limit) :
    (ledger.credit address value).supply = ledger.supply + value.toNat := by
  have within := ledger.balance_le_supply address
  have credited :=
    supply_update ledger address fun account =>
      { account with balance := account.balance.clampedAdd value }
  rw [Word.clampedAdd_toNat] at credited
  change (ledger.credit address value).supply + _ =
    ledger.supply + min ((ledger.balance address).toNat + _) _ at credited
  omega

/-- A transfer of what is there moves it and does no more, to the account itself or to another. -/
theorem supply_transfer (ledger : Ledger) (source target : Address) {value : Word}
    (bounded : ledger.supply ≤ Word.limit) (covered : value.toNat ≤ (ledger.balance source).toNat) :
    (ledger.transfer source target value).supply = ledger.supply := by
  have debited := supply_debit ledger source covered
  rw [transfer,
    supply_credit (ledger.debit source value) target (Nat.le_trans (Nat.le_of_eq debited) bounded),
    debited]

theorem supply_empty : supply {} = 0 := by
  refine Finset.sum_eq_zero fun i _ => ?_
  have none : account? {} (BitVec.ofFin i) = none := by simp [account?, accountIn, Holdings.holding]
  rw [balance, none]
  rfl

theorem supply_credit_empty (address : Address) (value : Word) :
    (credit {} address value).supply = value.toNat := by
  have credited :=
    supply_update {} address fun account =>
      { account with balance := account.balance.clampedAdd value }
  have none : account? {} address = none := by simp [account?, accountIn, Holdings.holding]
  have zero : (balance {} address).toNat = 0 := by rw [balance, none]; rfl
  have within := value.toNat_le_limit
  rw [supply_empty, zero, none, Nat.add_zero, Nat.zero_add, Option.getD_none,
    Word.clampedAdd_toNat] at credited
  exact credited.trans (by simpa using within)

-- Unfolded on a ledger that is known, the sum is evaluated address by address.
attribute [irreducible] supply

end ContractMachine.Ledger
