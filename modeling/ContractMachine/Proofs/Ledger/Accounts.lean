import ContractMachine.Ledger.Reading

/-!
Which addresses have an account, and where slots are filled. Every write but a removal leaves the
accounts that there are, and a removal takes the slots of an account with it. A slot makes no
account, however: that none is filled where there is no account (`Housed`) rests on who fills it.
-/

namespace ContractMachine.Ledger

section

variable (ledger : Ledger) (address other : Address)

theorem hasAccount_update (change : Account → Account) :
    (ledger.update address change).hasAccount other =
      (decide (other = address) || ledger.hasAccount other) := by
  rw [hasAccount, account?_update]
  by_cases same : other = address
  · rw [if_pos same, decide_eq_true same]
    rfl
  · rw [if_neg same, decide_eq_false same]
    rfl

theorem hasAccount_transfer (value : Word) (source target : Address) :
    (ledger.transfer source target value).hasAccount other =
      (decide (other = target) || (decide (other = source) || ledger.hasAccount other)) := by
  rw [transfer, credit, hasAccount_update, debit, hasAccount_update]

/-- Whoever is paid has an account then, if it is paid nothing too. -/
theorem hasAccount_payee (value : Word) (source target : Address) :
    (ledger.transfer source target value).hasAccount target = true := by
  rw [hasAccount_transfer, decide_eq_true rfl, Bool.true_or]

variable {address other} in
theorem hasAccount_update_of_ne (elsewhere : address ≠ other) (change : Account → Account) :
    (ledger.update address change).hasAccount other = ledger.hasAccount other := by
  rw [hasAccount_update, decide_eq_false elsewhere.symm, Bool.false_or]

variable {other} in
theorem hasAccount_transfer_of_ne {source target : Address} (giver : source ≠ other)
    (taker : target ≠ other) (value : Word) :
    (ledger.transfer source target value).hasAccount other = ledger.hasAccount other := by
  rw [hasAccount_transfer, decide_eq_false taker.symm, decide_eq_false giver.symm, Bool.false_or,
    Bool.false_or]

theorem hasAccount_putSlot (key value : Word) :
    (ledger.putSlot address key value).hasAccount other = ledger.hasAccount other := by
  rw [hasAccount, account?_putSlot]
  rfl

theorem hasAccount_delete :
    (ledger.delete address).hasAccount other =
      (!decide (other = address) && ledger.hasAccount other) := by
  rw [hasAccount, account?_delete]
  by_cases same : other = address
  · rw [if_pos same, decide_eq_true same]
    rfl
  · rw [if_neg same, decide_eq_false same]
    rfl

theorem hasAccount_checkpoint :
    ledger.checkpoint.hasAccount address = ledger.hasAccount address := by
  rw [hasAccount, account?_checkpoint]
  rfl

theorem hasAccount_commit : ledger.commit.hasAccount address = ledger.hasAccount address := by
  rw [hasAccount, account?_commit]
  rfl

end

theorem nonce_delete (ledger : Ledger) {address other : Address} (different : other ≠ address) :
    (ledger.delete address).nonce other = ledger.nonce other := by
  rw [nonce, account?_delete, if_neg different]
  rfl

theorem nonce_foldl_delete (ledger : Ledger) {removed : List Address} {address : Address}
    (kept : address ∉ removed) :
    (removed.foldl Ledger.delete ledger).nonce address = ledger.nonce address := by
  induction removed generalizing ledger with
  | nil => rfl
  | cons first rest ih =>
      have other : address ≠ first := fun same => kept (same ▸ List.mem_cons_self)
      have later : address ∉ rest := fun among => kept (List.mem_cons_of_mem first among)
      exact (ih (ledger.delete first) later).trans (ledger.nonce_delete other)

theorem nonce_credit (ledger : Ledger) (address other : Address) (value : Word) :
    (ledger.credit address value).nonce other = ledger.nonce other := by
  rw [nonce, credit, account?_update]
  split
  · rename_i same
    rw [same]
    rfl
  · rfl

theorem nonce_debit (ledger : Ledger) (address other : Address) (value : Word) :
    (ledger.debit address value).nonce other = ledger.nonce other := by
  rw [nonce, debit, account?_update]
  split
  · rename_i same
    rw [same]
    rfl
  · rfl

theorem nonce_bumpNonce (ledger : Ledger) (address other : Address) :
    (ledger.bumpNonce address).nonce other =
      if other = address then nextNonce (ledger.nonce address) else ledger.nonce other := by
  rw [nonce, bumpNonce, account?_update]
  split <;> rfl

theorem nonce_commit (ledger : Ledger) (address : Address) :
    ledger.commit.nonce address = ledger.nonce address := by
  rw [nonce, account?_commit]
  rfl

theorem code_commit (ledger : Ledger) (address : Address) :
    ledger.commit.code address = ledger.code address := by
  rw [code, account?_commit]
  rfl

theorem nonce_of_absent {ledger : Ledger} {address : Address}
    (absent : ledger.hasAccount address = false) : ledger.nonce address = 0 := by
  have none : ledger.account? address = none :=
    Option.not_isSome_iff_eq_none.mp (ne_true_of_eq_false absent)
  rw [nonce, none]
  rfl

theorem code_of_absent {ledger : Ledger} {address : Address}
    (absent : ledger.hasAccount address = false) : ledger.code address = #[] := by
  have none : ledger.account? address = none :=
    Option.not_isSome_iff_eq_none.mp (ne_true_of_eq_false absent)
  rw [code, none]
  rfl

theorem code_setCode (ledger : Ledger) (address : Address) (bytes : Bytes) :
    (ledger.setCode address bytes).code address = bytes := by
  rw [code, setCode, account?_update, if_pos rfl]
  rfl

theorem code_setCode_of_ne (ledger : Ledger) {address other : Address} (elsewhere : address ≠ other)
    (bytes : Bytes) :
    (ledger.setCode address bytes).code other = ledger.code other := by
  rw [code, setCode, account?_update, if_neg elsewhere.symm]
  rfl

theorem code_update {ledger : Ledger} {change : Account → Account}
    (keeps : ∀ account : Account, (change account).code = account.code) (address other : Address) :
    (ledger.update address change).code other = ledger.code other := by
  rw [code, account?_update]
  split
  · rename_i same
    rw [same]
    exact keeps _
  · rfl

theorem code_debit (ledger : Ledger) (address other : Address) (value : Word) :
    (ledger.debit address value).code other = ledger.code other := by
  rw [debit, code_update]
  intro account
  rfl

theorem code_credit (ledger : Ledger) (address other : Address) (value : Word) :
    (ledger.credit address value).code other = ledger.code other := by
  rw [credit, code_update]
  intro account
  rfl

theorem code_transfer (ledger : Ledger) (source target other : Address) (value : Word) :
    (ledger.transfer source target value).code other = ledger.code other := by
  rw [transfer, code_credit, code_debit]

theorem code_bumpNonce (ledger : Ledger) (address other : Address) :
    (ledger.bumpNonce address).code other = ledger.code other := by
  rw [bumpNonce, code_update]
  intro account
  rfl

theorem code_putSlot (ledger : Ledger) (address other : Address) (key value : Word) :
    (ledger.putSlot address key value).code other = ledger.code other := by
  rw [code, account?_putSlot]
  rfl

theorem code_checkpoint (ledger : Ledger) (address : Address) :
    ledger.checkpoint.code address = ledger.code address := by
  rw [code, account?_checkpoint]
  rfl

theorem code_delete (ledger : Ledger) (address other : Address) :
    (ledger.delete address).code other = ledger.code other ∨
    (ledger.delete address).code other = #[] := by
  rw [code, account?_delete]
  split
  · exact .inr rfl
  · exact .inl rfl

theorem code_foldl_delete (ledger : Ledger) (removed : List Address) (address : Address) :
    (removed.foldl Ledger.delete ledger).code address = ledger.code address ∨
      (removed.foldl Ledger.delete ledger).code address = #[] := by
  induction removed generalizing ledger with
  | nil => exact .inl rfl
  | cons first rest ih =>
      rcases ih (ledger.delete first) with same | gone
      · rcases ledger.code_delete first address with kept | empty
        · exact .inl (same.trans kept)
        · exact .inr (same.trans empty)
      · exact .inr gone

def Grows (before after : Ledger) : Prop :=
  ∀ address, before.hasAccount address = true → after.hasAccount address = true

structure Retains (before after : Ledger) : Prop where
  grows : Grows before after
  slots : ∀ address key, after.slot? address key = before.slot? address key

section

variable {first second third ledger : Ledger}

theorem Grows.trans (before : Grows first second) (after : Grows second third) :
    Grows first third :=
  fun address here => after address (before address here)

theorem Retains.refl (ledger : Ledger) : Retains ledger ledger :=
  ⟨fun _ here => here, fun _ _ => rfl⟩

theorem Retains.trans (before : Retains first second) (after : Retains second third) :
    Retains first third where
  grows := before.grows.trans after.grows
  slots := fun address key => (after.slots address key).trans (before.slots address key)

theorem retains_update (ledger : Ledger) (address : Address) (change : Account → Account) :
    Retains ledger (ledger.update address change) where
  grows := by
    intro other here
    rw [hasAccount_update, here, Bool.or_true]
  slots := fun other key => slot?_update ledger address other change key

theorem retains_debit (ledger : Ledger) (address : Address) (value : Word) :
    Retains ledger (ledger.debit address value) :=
  retains_update ledger address _

theorem retains_credit (ledger : Ledger) (address : Address) (value : Word) :
    Retains ledger (ledger.credit address value) :=
  retains_update ledger address _

theorem retains_transfer (ledger : Ledger) (source target : Address) (value : Word) :
    Retains ledger (ledger.transfer source target value) :=
  (retains_debit ledger source value).trans (retains_credit _ target value)

theorem retains_bumpNonce (ledger : Ledger) (address : Address) :
    Retains ledger (ledger.bumpNonce address) :=
  retains_update ledger address _

theorem retains_setCode (ledger : Ledger) (address : Address) (code : Bytes) :
    Retains ledger (ledger.setCode address code) :=
  retains_update ledger address _

theorem retains_checkpoint (ledger : Ledger) : Retains ledger ledger.checkpoint where
  grows := fun address here => (hasAccount_checkpoint ledger address).trans here
  slots := slot?_checkpoint ledger

theorem retains_commit (ledger : Ledger) : Retains ledger ledger.commit where
  grows := fun address here => (hasAccount_commit ledger address).trans here
  slots := slot?_commit ledger

theorem grows_putSlot (ledger : Ledger) (address : Address) (key value : Word) :
    Grows ledger (ledger.putSlot address key value) :=
  fun other here => (hasAccount_putSlot ledger address other key value).trans here

/-- At an address all is as it was, save for what its owner pays and the nonce that it uses, should
it be that of `maker`. -/
structure Untouched (maker address : Address) (before after : Ledger) : Prop where
  account : address ≠ maker → after.account? address = before.account? address
  code : after.code address = before.code address
  slots : ∀ key, after.slot? address key = before.slot? address key

variable {maker address : Address}

theorem Untouched.refl (ledger : Ledger) : Untouched maker address ledger ledger :=
  ⟨fun _ => rfl, rfl, fun _ => rfl⟩

theorem Untouched.trans (before : Untouched maker address first second)
    (after : Untouched maker address second third) : Untouched maker address first third where
  account := fun other => (after.account other).trans (before.account other)
  code := after.code.trans before.code
  slots := fun key => (after.slots key).trans (before.slots key)

theorem untouched_bumpNonce (ledger : Ledger) :
    Untouched maker address ledger (ledger.bumpNonce maker) where
  account := by
    intro other
    rw [bumpNonce, account?_update, if_neg other]
  code := code_bumpNonce ledger maker address
  slots := slot?_update ledger maker address _

theorem untouched_debit (ledger : Ledger) (value : Word) :
    Untouched maker address ledger (ledger.debit maker value) where
  account := by
    intro other
    rw [debit, account?_update, if_neg other]
  code := code_debit ledger maker address value
  slots := slot?_update ledger maker address _

theorem untouched_checkpoint (ledger : Ledger) :
    Untouched maker address ledger ledger.checkpoint where
  account := fun _ => account?_checkpoint ledger address
  code := code_checkpoint ledger address
  slots := slot?_checkpoint ledger address

theorem untouched_commit (ledger : Ledger) : Untouched maker address ledger ledger.commit where
  account := fun _ => account?_commit ledger address
  code := code_commit ledger address
  slots := slot?_commit ledger address

/-- Every address where a slot is filled has an account. -/
def Housed (ledger : Ledger) : Prop :=
  ∀ address key value, ledger.slot? address key = some value → ledger.hasAccount address = true

/-- Where there is no account, every slot is empty. -/
theorem Housed.empty (housed : ledger.Housed) {address : Address}
    (absent : ledger.hasAccount address = false) (key : Word) :
    ledger.slot? address key = none := by
  cases held : ledger.slot? address key with
  | none => rfl
  | some value =>
      rw [housed address key value held] at absent
      cases absent

theorem Retains.housed (retains : Retains first second) (housed : first.Housed) :
    second.Housed := by
  intro address key value held
  rw [retains.slots] at held
  exact retains.grows address (housed address key value held)

theorem Housed.putSlot (housed : ledger.Housed) {address : Address}
    (here : ledger.hasAccount address = true) (key value : Word) :
    (ledger.putSlot address key value).Housed := by
  intro other asked word held
  rw [hasAccount_putSlot]
  rw [slot?_putSlot] at held
  split at held
  · rename_i same
    rw [same.1]
    exact here
  · exact housed other asked word held

theorem Housed.delete (housed : ledger.Housed) (address : Address) :
    (ledger.delete address).Housed := by
  intro other key value held
  rw [slot?_delete] at held
  split at held
  · cases held
  · rename_i elsewhere
    rw [hasAccount_delete, decide_eq_false elsewhere, housed other key value held]
    rfl

theorem Housed.foldl_delete (housed : ledger.Housed) (addresses : List Address) :
    (addresses.foldl Ledger.delete ledger).Housed := by
  induction addresses generalizing ledger with
  | nil => exact housed
  | cons address rest ih => exact ih (housed.delete address)

end

end ContractMachine.Ledger
