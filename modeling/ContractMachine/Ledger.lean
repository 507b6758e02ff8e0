import ContractMachine.Ledger.Patch

/-!
The ledger: holdings by address and, on top of them, one layer of patches for every open checkpoint.
Reading looks from the newest layer down; writing goes to the newest layer. A committed layer is put
on top of the one below, or of the holdings; a layer that is rolled back is dropped.
-/

namespace ContractMachine

abbrev Layer := Std.TreeMap Address Patch

abbrev Holdings := Std.TreeMap Address Holding

namespace Layer

def patch (layer : Layer) (address : Address) : Patch := (layer[address]?).getD {}

def write (layer : Layer) (address : Address) (patch : Patch) : Layer :=
  layer.insert address (patch.onto (Layer.patch layer address))

def onto (newer older : Layer) : Layer :=
  older ∪ newer.map fun address patch => patch.onto (Layer.patch older address)

end Layer

namespace Holdings

def holding (holdings : Holdings) (address : Address) : Holding := (holdings[address]?).getD {}

def write (holdings : Holdings) (address : Address) (patch : Patch) : Holdings :=
  holdings.insert address (patch.apply (Holdings.holding holdings address))

def applyLayer (holdings : Holdings) (layer : Layer) : Holdings :=
  holdings ∪ layer.map fun address patch => patch.apply (Holdings.holding holdings address)

end Holdings

structure Ledger where
  holdings : Holdings := {}
  -- One for each open checkpoint, the newest first.
  layers : List Layer := []

namespace Ledger

def depth (ledger : Ledger) : Nat := ledger.layers.length

def checkpoint (ledger : Ledger) : Ledger := { ledger with layers := {} :: ledger.layers }

def commit? (ledger : Ledger) : Option Ledger :=
  match ledger.layers with
  | [] => none
  | [layer] => some { holdings := Holdings.applyLayer ledger.holdings layer, layers := [] }
  | newer :: older :: rest => some { ledger with layers := Layer.onto newer older :: rest }

def rollback? (ledger : Ledger) : Option Ledger :=
  match ledger.layers with
  | [] => none
  | _ :: rest => some { ledger with layers := rest }

def commit (ledger : Ledger) : Ledger := ledger.commit?.getD ledger

def rollback (ledger : Ledger) : Ledger := ledger.rollback?.getD ledger

def accountIn (holdings : Holdings) (address : Address) : List Layer → Option Account
  | [] => (Holdings.holding holdings address).account
  | layer :: rest =>
      match (Layer.patch layer address).account with
      | some account => account
      | none => accountIn holdings address rest

def slotIn (holdings : Holdings) (address : Address) (key : Word) : List Layer → Option Word
  | [] => (Holdings.holding holdings address).slots[key]?
  | layer :: rest =>
      match (Layer.patch layer address).slot? key with
      | some value => value
      | none => slotIn holdings address key rest

def account? (ledger : Ledger) (address : Address) : Option Account :=
  accountIn ledger.holdings address ledger.layers

def slot? (ledger : Ledger) (address : Address) (key : Word) : Option Word :=
  slotIn ledger.holdings address key ledger.layers

def view (ledger : Ledger) : Holdings :=
  ledger.layers.foldr (fun layer holdings => Holdings.applyLayer holdings layer) ledger.holdings

def write (ledger : Ledger) (address : Address) (patch : Patch) : Ledger :=
  match ledger.layers with
  | [] => { ledger with holdings := Holdings.write ledger.holdings address patch }
  | layer :: rest => { ledger with layers := Layer.write layer address patch :: rest }

def update (ledger : Ledger) (address : Address) (change : Account → Account) : Ledger :=
  ledger.write address (.ofAccount (change ((ledger.account? address).getD {})))

/-- Writing zero empties the slot. -/
def putSlot (ledger : Ledger) (address : Address) (key value : Word) : Ledger :=
  ledger.write address (.ofSlot key value)

def delete (ledger : Ledger) (address : Address) : Ledger := ledger.write address .removal

def hasAccount (ledger : Ledger) (address : Address) : Bool := (ledger.account? address).isSome

def balance (ledger : Ledger) (address : Address) : Word :=
  ((ledger.account? address).getD {}).balance

def nonce (ledger : Ledger) (address : Address) : UInt64 :=
  ((ledger.account? address).getD {}).nonce

def code (ledger : Ledger) (address : Address) : Bytes := ((ledger.account? address).getD {}).code

def setBalance (ledger : Ledger) (address : Address) (balance : Word) : Ledger :=
  ledger.update address fun account => { account with balance := balance }

def setNonce (ledger : Ledger) (address : Address) (nonce : UInt64) : Ledger :=
  ledger.update address fun account => { account with nonce := nonce }

def setCode (ledger : Ledger) (address : Address) (code : Bytes) : Ledger :=
  ledger.update address fun account => { account with code := code }

def credit (ledger : Ledger) (address : Address) (value : Word) : Ledger :=
  ledger.update address fun account => { account with balance := account.balance.clampedAdd value }

def debit (ledger : Ledger) (address : Address) (value : Word) : Ledger :=
  ledger.update address fun account => { account with balance := account.balance.clampedSub value }

def transfer (ledger : Ledger) (source target : Address) (value : Word) : Ledger :=
  (ledger.debit source value).credit target value

def nextNonce (nonce : UInt64) : UInt64 := if nonce = 0xffffffffffffffff then nonce else nonce + 1

def bumpNonce (ledger : Ledger) (address : Address) : Ledger :=
  ledger.update address fun account => { account with nonce := nextNonce account.nonce }

end Ledger

end ContractMachine
