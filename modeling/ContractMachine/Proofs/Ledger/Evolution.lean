import ContractMachine.Proofs.Ledger.Below

/-!
What every ledger under a run keeps. Code moves balances, raises nonces, deploys code, fills slots,
and opens and closes checkpoints on top of those that it found open; it never puts an old account
back by itself. A condition that every such move of an account keeps therefore holds at every level
at once, so that it still holds when a checkpoint is rolled back (`Throughout.evolves`).
-/

namespace ContractMachine

/-- What is done to an account while code runs. The code that may be deployed meets a condition. -/
inductive Account.Moves (codes : Bytes → Prop) (account : Account) : Account → Prop where
  | balance (balance : Word) : Moves codes account { account with balance := balance }
  | nonce : Moves codes account { account with nonce := Ledger.nextNonce account.nonce }
  | code (code : Bytes) (known : codes code) : Moves codes account { account with code := code }

theorem Account.Moves.imp {codes others : Bytes → Prop} {account moved : Account}
    (moves : account.Moves codes moved) (implies : ∀ code, codes code → others code) :
    account.Moves others moved := by
  cases moves with
  | balance balance => exact .balance balance
  | nonce => exact .nonce
  | code code known => exact .code code (implies code known)

namespace Ledger

/-- What becomes of a ledger while more than `base` checkpoints are open whenever one is closed. -/
inductive Evolves (base : Nat) (codes : Bytes → Prop) (ledger : Ledger) : Ledger → Prop where
  | none : Evolves base codes ledger ledger
  | update {later : Ledger} (before : Evolves base codes ledger later) (address : Address)
      {change : Account → Account}
      (moves : ∀ account : Account, account.Moves codes (change account)) :
      Evolves base codes ledger (later.update address change)
  | putSlot {later : Ledger} (before : Evolves base codes ledger later) (address : Address)
      (key value : Word) :
      Evolves base codes ledger (later.putSlot address key value)
  | checkpoint {later : Ledger} (before : Evolves base codes ledger later) :
      Evolves base codes ledger later.checkpoint
  | commit {later : Ledger} (before : Evolves base codes ledger later)
      (above : base < later.depth) :
      Evolves base codes ledger later.commit
  | rollback {later : Ledger} (before : Evolves base codes ledger later)
      (above : base < later.depth) :
      Evolves base codes ledger later.rollback

section

variable {base : Nat} {codes : Bytes → Prop} {first second third : Ledger}

theorem Evolves.trans (before : Evolves base codes first second)
    (after : Evolves base codes second third) : Evolves base codes first third := by
  induction after with
  | none => exact before
  | update _ address moves ih => exact .update ih address moves
  | putSlot _ address key value ih => exact .putSlot ih address key value
  | checkpoint _ ih => exact .checkpoint ih
  | commit _ above ih => exact .commit ih above
  | rollback _ above ih => exact .rollback ih above

/-- Fewer checkpoints that stay open allow for more. -/
theorem Evolves.mono {fewer : Nat} (evolves : Evolves base codes first second)
    (less : fewer ≤ base) : Evolves fewer codes first second := by
  induction evolves with
  | none => exact .none
  | update _ address moves ih => exact .update ih address moves
  | putSlot _ address key value ih => exact .putSlot ih address key value
  | checkpoint _ ih => exact .checkpoint ih
  | commit _ above ih => exact .commit ih (Nat.lt_of_le_of_lt less above)
  | rollback _ above ih => exact .rollback ih (Nat.lt_of_le_of_lt less above)

/-- More code that may be deployed allows for more. -/
theorem Evolves.imp {others : Bytes → Prop} (evolves : Evolves base codes first second)
    (implies : ∀ code, codes code → others code) : Evolves base others first second := by
  induction evolves with
  | none => exact .none
  | update _ address moves ih => exact .update ih address fun account => (moves account).imp implies
  | putSlot _ address key value ih => exact .putSlot ih address key value
  | checkpoint _ ih => exact .checkpoint ih
  | commit _ above ih => exact .commit ih above
  | rollback _ above ih => exact .rollback ih above

/-- The checkpoints that stay open are not closed. -/
theorem Evolves.depth (evolves : Evolves base codes first second) (stays : base ≤ first.depth) :
    base ≤ second.depth := by
  induction evolves with
  | none => exact stays
  | update _ address _ ih =>
      rw [Ledger.update, depth_write]
      exact ih
  | putSlot _ address key value ih =>
      rw [Ledger.putSlot, depth_write]
      exact ih
  | checkpoint _ ih => exact Nat.le_succ_of_le ih
  | commit _ above ih =>
      rw [depth_commit]
      omega
  | rollback _ above ih =>
      rw [depth_rollback]
      omega

variable (ledger : Ledger)

theorem evolves_debit (address : Address) (value : Word) :
    Evolves base codes ledger (ledger.debit address value) :=
  .update .none address fun _ => .balance _

theorem evolves_credit (address : Address) (value : Word) :
    Evolves base codes ledger (ledger.credit address value) :=
  .update .none address fun _ => .balance _

theorem evolves_transfer (source target : Address) (value : Word) :
    Evolves base codes ledger (ledger.transfer source target value) :=
  (evolves_debit ledger source value).trans (evolves_credit _ target value)

theorem evolves_bumpNonce (address : Address) :
    Evolves base codes ledger (ledger.bumpNonce address) :=
  .update .none address fun _ => .nonce

theorem evolves_setCode (address : Address) {code : Bytes} (known : codes code) :
    Evolves base codes ledger (ledger.setCode address code) :=
  .update .none address fun _ => .code code known

end

/-- The accounts meet a condition in the ledger and wherever a rollback may lead, with `base`
checkpoints left open. -/
def Throughout (base : Nat) (meets : Address → Account → Prop) (ledger : Ledger) : Prop :=
  ∀ level, base + level ≤ ledger.depth →
    ∀ address, meets address (((ledger.below level).account? address).getD {})

section

variable {base : Nat} {codes : Bytes → Prop} {meets : Address → Account → Prop}
  {ledger later : Ledger}

theorem below_zero (ledger : Ledger) : ledger.below 0 = ledger := rfl

theorem Throughout.here (throughout : ledger.Throughout base meets) (stays : base ≤ ledger.depth)
    (address : Address) :
    meets address ((ledger.account? address).getD {}) :=
  throughout 0 stays address

theorem throughout_here (holds : ∀ address, meets address ((ledger.account? address).getD {})) :
    ledger.Throughout ledger.depth meets := by
  intro level within
  have top : level = 0 := by omega
  subst top
  exact holds

theorem Throughout.update (throughout : ledger.Throughout base meets) (stays : base ≤ ledger.depth)
    (address : Address) {change : Account → Account}
    (keeps : ∀ address account, meets address account → meets address (change account)) :
    (ledger.update address change).Throughout base meets := by
  intro level within other
  have same : (ledger.update address change).depth = ledger.depth := depth_write ledger address _
  rw [same] at within
  cases level with
  | zero =>
      have read := throughout.here stays other
      rw [below_zero, account?_update]
      split
      · rename_i changed
        subst changed
        exact keeps other _ read
      · exact read
  | succ level =>
      rw [Ledger.update, below_write ledger address _ level (by omega)]
      exact throughout (level + 1) within other

theorem Throughout.putSlot (throughout : ledger.Throughout base meets) (stays : base ≤ ledger.depth)
    (address : Address) (key value : Word) :
    (ledger.putSlot address key value).Throughout base meets := by
  intro level within other
  have same : (ledger.putSlot address key value).depth = ledger.depth :=
    depth_write ledger address _
  rw [same] at within
  cases level with
  | zero =>
      rw [below_zero, account?_putSlot]
      exact throughout.here stays other
  | succ level =>
      rw [Ledger.putSlot, below_write ledger address _ level (by omega)]
      exact throughout (level + 1) within other

theorem Throughout.checkpoint (throughout : ledger.Throughout base meets)
    (stays : base ≤ ledger.depth) : ledger.checkpoint.Throughout base meets := by
  intro level within other
  rw [depth_checkpoint] at within
  cases level with
  | zero =>
      rw [below_zero, account?_checkpoint]
      exact throughout.here stays other
  | succ level => exact throughout level (by omega) other

theorem Throughout.commit (throughout : ledger.Throughout base meets)
    (above : base < ledger.depth) : ledger.commit.Throughout base meets := by
  intro level within other
  rw [depth_commit] at within
  cases level with
  | zero =>
      rw [below_zero, account?_commit]
      exact throughout.here (Nat.le_of_lt above) other
  | succ level =>
      rw [below_commit ledger level (by omega)]
      exact throughout (level + 2) (by omega) other

theorem Throughout.rollback (throughout : ledger.Throughout base meets)
    (above : base < ledger.depth) : ledger.rollback.Throughout base meets := by
  intro level within other
  rw [depth_rollback] at within
  rw [below_rollback]
  exact throughout (level + 1) (by omega) other

/-- What every move of an account keeps, a run keeps at every level. -/
theorem Throughout.evolves (throughout : ledger.Throughout base meets) (stays : base ≤ ledger.depth)
    (evolves : ledger.Evolves base codes later)
    (keeps : ∀ {address : Address} {account moved : Account}, account.Moves codes moved →
      meets address account → meets address moved) : later.Throughout base meets := by
  induction evolves with
  | none => exact throughout
  | update before address moves ih =>
    exact ih.update (before.depth stays) address fun _ account => keeps (moves account)
  | putSlot before address key value ih => exact ih.putSlot (before.depth stays) address key value
  | checkpoint before ih => exact ih.checkpoint (before.depth stays)
  | commit before above ih => exact ih.commit above
  | rollback before above ih => exact ih.rollback above

theorem le_nextNonce (nonce : UInt64) : nonce ≤ nextNonce nonce := by
  unfold nextNonce
  split
  · exact UInt64.le_refl nonce
  · rename_i below
    have bound := nonce.toNat_lt
    have less : nonce.toNat ≠ 18446744073709551615 := fun full => below (UInt64.toNat_inj.mp full)
    rw [UInt64.le_iff_toNat_le, UInt64.toNat_add]
    have one : (1 : UInt64).toNat = 1 := rfl
    omega

theorem lt_nextNonce {nonce : UInt64} (below : nonce ≠ 0xffffffffffffffff) :
    nonce < nextNonce nonce := by
  have bound := nonce.toNat_lt
  have less : nonce.toNat ≠ 18446744073709551615 := fun full => below (UInt64.toNat_inj.mp full)
  rw [nextNonce, if_neg below, UInt64.lt_iff_toNat_lt, UInt64.toNat_add]
  have one : (1 : UInt64).toNat = 1 := rfl
  omega

/-- No move lowers the nonce of an account. -/
theorem le_nonce_of_moves {account moved : Account} (moves : account.Moves codes moved) :
    account.nonce ≤ moved.nonce := by
  cases moves with
  | balance balance => exact UInt64.le_refl _
  | nonce => exact le_nextNonce account.nonce
  | code code known => exact UInt64.le_refl _

/-- Whatever is rolled back on the way, no nonce falls. -/
theorem Evolves.nonce_le (evolves : ledger.Evolves ledger.depth codes later) (address : Address) :
    ledger.nonce address ≤ later.nonce address := by
  have start : ledger.Throughout ledger.depth fun address account =>
      ledger.nonce address ≤ account.nonce :=
    throughout_here fun address => UInt64.le_refl _
  have all :=
    start.evolves (Nat.le_refl _) evolves fun moves met =>
      UInt64.le_trans met (le_nonce_of_moves moves)
  exact all.here (evolves.depth (Nat.le_refl _)) address

/-- Whatever is rolled back on the way, code that was not there before is code that may be
deployed. -/
theorem Evolves.code_eq_or (evolves : ledger.Evolves ledger.depth codes later) (address : Address) :
    later.code address = ledger.code address ∨ codes (later.code address) := by
  have start : ledger.Throughout ledger.depth fun address account =>
      account.code = ledger.code address ∨ codes account.code :=
    throughout_here fun address => .inl rfl
  have all := start.evolves (Nat.le_refl _) evolves ?keeps
  case keeps =>
    intro address account moved moves met
    cases moves with
    | balance balance => exact met
    | nonce => exact met
    | code code known => exact .inr known
  exact all.here (evolves.depth (Nat.le_refl _)) address

end

end Ledger

end ContractMachine
