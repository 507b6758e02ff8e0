import ContractMachine.Word
import Std.Data.TreeMap

/-!
Accounts, what the ledger holds for an address, and a patch: what a checkpoint says about one
address. A patch may name a new account or its removal, wipe all older storage, and name single
slots, zero for a slot that is emptied. `onto` puts a patch on top of an older one, `apply` on top
of a holding.
-/

namespace ContractMachine

structure Account where
  balance : Word := 0
  nonce : UInt64 := 0
  code : Bytes := #[]
  deriving DecidableEq

abbrev Slots := Std.TreeMap Word Word

/-- Storage is kept for an address, whether or not there is an account. -/
structure Holding where
  account : Option Account := none
  slots : Slots := {}
  nonzero : ∀ key : Word, slots[key]? ≠ some 0 := by
    intro key
    simp

structure Patch where
  -- None: the account is as it was. Some none: there is none.
  account : Option (Option Account) := none
  -- Slots that are not named are empty.
  wiped : Bool := false
  slots : Slots := {}

namespace Patch

def ofAccount (account : Account) : Patch := { account := some (some account) }

def ofSlot (key value : Word) : Patch := { slots := ({} : Slots).insert key value }

def removal : Patch := { account := some none, wiped := true }

def slot? (patch : Patch) (key : Word) : Option (Option Word) :=
  match patch.slots[key]? with
  | some value => some (if value = 0 then none else some value)
  | none => if patch.wiped then some none else none

def onto (newer older : Patch) : Patch where
  account := newer.account.or older.account
  wiped := newer.wiped || older.wiped
  slots := if newer.wiped then newer.slots else older.slots ∪ newer.slots

def apply (patch : Patch) (holding : Holding) : Holding where
  account := patch.account.getD holding.account
  slots := ((if patch.wiped then {} else holding.slots) ∪ patch.slots).filter fun _ value =>
    value != 0
  nonzero := by
    intro key
    rw [Std.TreeMap.getElem?_filter']
    simp

theorem slot?_empty (key : Word) : ({} : Patch).slot? key = none := by
  simp [slot?]

theorem slot?_ne_zero (patch : Patch) (key : Word) : patch.slot? key ≠ some (some 0) := by
  unfold slot?
  cases patch.slots[key]? with
  | some value => by_cases zero : value = 0#256 <;> simp [zero]
  | none => cases patch.wiped <;> simp

theorem slot?_onto (newer older : Patch) (key : Word) :
    (newer.onto older).slot? key = (newer.slot? key).or (older.slot? key) := by
  unfold slot? onto
  cases newer.wiped with
  | true => cases held : newer.slots[key]? <;> simp [held]
  | false =>
      simp only [Bool.false_or, Bool.false_eq_true, if_false, Std.TreeMap.getElem?_union]
      cases newer.slots[key]? <;> simp

theorem account_onto (newer older : Patch) :
    (newer.onto older).account = newer.account.or older.account := rfl

theorem slots_apply (patch : Patch) (holding : Holding) (key : Word) :
    (patch.apply holding).slots[key]? = (patch.slot? key).getD holding.slots[key]? := by
  have present := holding.nonzero key
  unfold apply slot?
  rw [Std.TreeMap.getElem?_filter', Std.TreeMap.getElem?_union]
  cases patch.slots[key]? with
  | some value => by_cases zero : value = 0#256 <;> simp [zero]
  | none =>
      cases patch.wiped with
      | true => simp
      | false =>
          cases found : holding.slots[key]? with
          | none => simp [found]
          | some value =>
              have nonzero : value ≠ 0#256 := fun zero => present (found.trans (congrArg some zero))
              simp [found, nonzero]

end Patch

end ContractMachine
