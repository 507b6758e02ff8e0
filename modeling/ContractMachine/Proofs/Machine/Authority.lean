import ContractMachine.Proofs.Ledger.Supply
import ContractMachine.Proofs.Machine.Alteration

/-!
What a run may do to an account on whose behalf nothing happens in it: it may give it value. A frame
writes slots, moves nonces and takes value at its own account alone, and otherwise writes where it
makes a contract; what lies elsewhere is as it was, however checkpoints are kept and dropped.
-/

namespace ContractMachine

namespace Ledger

structure Unharmed (address : Address) (before after : Ledger) : Prop where
  nonce : after.nonce address = before.nonce address
  code : after.code address = before.code address
  slot : ∀ key, after.slot? address key = before.slot? address key
  balance : (before.balance address).toNat ≤ (after.balance address).toNat

section

variable {address other : Address} {ledger : Ledger}

theorem Unharmed.refl (address : Address) (ledger : Ledger) : Unharmed address ledger ledger :=
  ⟨rfl, rfl, fun _ => rfl, Nat.le_refl _⟩

theorem Unharmed.trans {first second third : Ledger} (before : Unharmed address first second)
    (after : Unharmed address second third) : Unharmed address first third where
  nonce := after.nonce.trans before.nonce
  code := after.code.trans before.code
  slot := fun key => (after.slot key).trans (before.slot key)
  balance := Nat.le_trans before.balance after.balance

theorem unharmed_of_reads {later : Ledger}
    (account : later.account? address = ledger.account? address)
    (slot : ∀ key, later.slot? address key = ledger.slot? address key) :
    Unharmed address ledger later := by
  refine ⟨?_, ?_, slot, ?_⟩
  · rw [nonce, account]
    rfl
  · rw [code, account]
    rfl
  · rw [balance, balance, account]

theorem unharmed_update (elsewhere : other ≠ address) (change : Account → Account) :
    Unharmed address ledger (ledger.update other change) := by
  refine unharmed_of_reads ?_ fun key => slot?_update ledger other address change key
  rw [account?_update, if_neg elsewhere.symm]

theorem unharmed_putSlot (elsewhere : other ≠ address) (key value : Word) :
    Unharmed address ledger (ledger.putSlot other key value) := by
  refine unharmed_of_reads (account?_putSlot ledger other address key value) ?_
  intro asked
  rw [slot?_putSlot]
  exact if_neg fun same => elsewhere same.1.symm

theorem unharmed_credit (ledger : Ledger) (address other : Address) (value : Word) :
    Unharmed address ledger (ledger.credit other value) := by
  by_cases here : other = address
  · subst here
    have account : (ledger.credit other value).account? other = some _ :=
      (account?_update ledger other other _).trans (if_pos rfl)
    refine ⟨?_, ?_, fun key => slot?_update ledger other other _ key, ?_⟩
    · rw [nonce, account]
      rfl
    · rw [code, account]
      rfl
    · -- A balance that is cut off is cut off at the largest one.
      have bounded := (ledger.balance other).toNat_le_limit
      have more :
          (ledger.credit other value).balance other = (ledger.balance other).clampedAdd value := by
        rw [balance, account]
        rfl
      rw [more, Word.clampedAdd_toNat]
      omega
  · exact unharmed_update here _

theorem unharmed_transfer (elsewhere : other ≠ address) (target : Address) (value : Word) :
    Unharmed address ledger (ledger.transfer other target value) := by
  have debited : Unharmed address ledger (ledger.debit other value) := unharmed_update elsewhere _
  exact debited.trans (unharmed_credit _ address target value)

theorem unharmed_checkpoint (address : Address) (ledger : Ledger) :
    Unharmed address ledger ledger.checkpoint :=
  unharmed_of_reads (account?_checkpoint ledger address) (slot?_checkpoint ledger address)

theorem unharmed_commit (address : Address) (ledger : Ledger) :
    Unharmed address ledger ledger.commit :=
  unharmed_of_reads (account?_commit ledger address) (slot?_commit ledger address)

end

end Ledger

section

variable {environment : Environment} {address : Address} {frame : Frame} {ledger : Ledger}

theorem SiteAction.unharmed_emptied (elsewhere : frame.owner ≠ address) :
    ledger.Unharmed address (emptied frame ledger) := by
  unfold emptied
  split
  · exact Ledger.unharmed_update elsewhere _
  · exact Ledger.unharmed_transfer elsewhere _ _

theorem SiteAction.unharmed_deployed (environment : Environment) {made : Address}
    (elsewhere : made ≠ address) (gas : Nat) (child : Outcome) :
    ledger.Unharmed address (deployed environment made gas child ledger) := by
  unfold deployed
  split
  · split
    · exact Ledger.unharmed_update elsewhere _
    · exact Ledger.unharmed_update elsewhere _
    · exact .refl address ledger
  · exact .refl address ledger

theorem Message.unharmed_opened (message : Message) (elsewhere : frame.owner ≠ address) :
    ledger.Unharmed address (message.opened frame ledger) :=
  (Ledger.unharmed_checkpoint address ledger).trans (Ledger.unharmed_transfer elsewhere _ _)

theorem Creation.unharmed_opened (creation : Creation) (elsewhere : frame.owner ≠ address)
    (unmade : Creation.address frame ledger ≠ address) :
      ledger.Unharmed address (creation.opened frame ledger) := by
  have bumped : ledger.Unharmed address (ledger.bumpNonce frame.owner) :=
    Ledger.unharmed_update elsewhere _
  have tracked := bumped.trans (Ledger.unharmed_checkpoint address _)
  have made : Ledger.Unharmed address (ledger.bumpNonce frame.owner).checkpoint
      ((ledger.bumpNonce frame.owner).checkpoint.bumpNonce (Creation.address frame ledger)) :=
    Ledger.unharmed_update unmade _
  exact (tracked.trans made).trans (Ledger.unharmed_transfer elsewhere _ _)

theorem SiteAction.unharmed_settledAtOnce (creation : Creation) (child : Outcome)
    (elsewhere : frame.owner ≠ address) (unmade : Creation.address frame ledger ≠ address) :
    ledger.Unharmed address (settledAtOnce environment creation child frame ledger).ledger := by
  cases done : (deposited environment creation.gas child).succeeded with
  | false =>
      rw [ledger_settledAtOnce environment creation frame ledger done]
      exact Ledger.unharmed_update elsewhere _
  | true =>
      have written := (creation.unharmed_opened elsewhere unmade).trans
        (unharmed_deployed environment unmade creation.gas child)
      simp only [settledAtOnce, done, if_true]
      exact written.trans (Ledger.unharmed_commit address _)

end

def Awaited.created? : Awaited → Option Address
  | .call _ _ => none
  | .creation address _ _ => some address

theorem Awaited.unharmed_written (environment : Environment) {awaited : Awaited} {address : Address}
    (unmade : awaited.created? ≠ some address) (child : Outcome) (ledger : Ledger) :
    ledger.Unharmed address (awaited.written environment child ledger) := by
  cases awaited with
  | call message record => exact .refl address ledger
  | creation made record gas =>
      have elsewhere : made ≠ address := fun same => unmade (congrArg some same)
      exact SiteAction.unharmed_deployed environment elsewhere gas child

namespace Machine

/-- Something is done on behalf of an account: the frame at work is the account's, or it makes a
contract there. -/
inductive ActsFor (environment : Environment) (machine : Machine) (address : Address) : Prop where
  | owner (owner : machine.frame.owner = address)
  | creation {price : Price} (creates : machine.frame.Creates environment machine.ledger price)
      (granted : ¬ machine.frame.Refused environment machine.ledger (machine.frame.operand 0))
      (made : Creation.address machine.frame machine.ledger = address)

abbrev CarriesUnharmed (address : Address) (base : Ledger) : Machine → Machine → Prop :=
  Carries (fun _ ledger _ => base.Unharmed address ledger) fun parent =>
    parent.awaited.created? ≠ some address

section

variable {environment : Environment} {address owner : Address} {base : Ledger} {root : Frame}
  {ledger kept after : Ledger} {awaited : Awaited} {machine : Machine}

theorem Leaves.unharmed (leaves : Leaves environment machine.frame machine.ledger after)
    (uninvolved : ¬ ActsFor environment machine address) :
      machine.ledger.Unharmed address after := by
  have elsewhere : machine.frame.owner ≠ address := fun owner => uninvolved (.owner owner)
  cases leaves with
  | same => exact .refl address machine.ledger
  | stored key value => exact Ledger.unharmed_putSlot elsewhere key value
  | removed due mutable => exact SiteAction.unharmed_emptied elsewhere
  | @sent kind price message caller calls granted =>
      exact (message.unharmed_opened elsewhere).trans (Ledger.unharmed_commit address _)
  | settled creates granted creation child =>
      have unmade : Creation.address machine.frame machine.ledger ≠ address :=
        fun made => uninvolved (.creation creates granted made)
      exact SiteAction.unharmed_settledAtOnce creation child elsewhere unmade

theorem Enters.unharmed
    (enters : Enters environment machine.frame machine.ledger awaited owner kept after)
    (uninvolved : ¬ ActsFor environment machine address) :
    awaited.created? ≠ some address ∧ machine.ledger.Unharmed address kept ∧
    machine.ledger.Unharmed address after := by
  have elsewhere : machine.frame.owner ≠ address := fun owner => uninvolved (.owner owner)
  cases enters with
  | @call kind price message caller calls granted record =>
      exact ⟨(Option.some_ne_none address).symm, .refl address machine.ledger,
        message.unharmed_opened elsewhere⟩
  | creation creates granted free creation record gas =>
      have unmade : Creation.address machine.frame machine.ledger ≠ address :=
        fun made => uninvolved (.creation creates granted made)
      exact ⟨fun same => unmade (Option.some.inj same), Ledger.unharmed_update elsewhere _,
        creation.unharmed_opened elsewhere unmade⟩

theorem carries_unharmed_next (nested : Nested environment root machine.frame machine.waiting)
    (runs : machine.finished = false) (uninvolved : ¬ ActsFor environment machine address) :
    CarriesUnharmed address base machine (machine.next environment) := by
  refine (alters_next nested runs).carries (fun _ later _ => base.Unharmed address later)
    (fun awaited => awaited.created? ≠ some address) ?level ?down ?up
  case level => exact fun leaves before => before.trans (leaves.unharmed uninvolved)
  case down =>
    intro awaited owner kept after below enters before
    obtain ⟨unmade, lower, opened⟩ := enters.unharmed uninvolved
    exact ⟨unmade, before.trans lower, before.trans opened⟩
  case up =>
    intro awaited child owner creator ledger below unmade inner _
    have written := Awaited.unharmed_written environment unmade child ledger
    exact (inner.trans written).trans (Ledger.unharmed_commit address _)

/-- A run does nothing to an account on whose behalf nothing is done in it, but to give it value:
its nonce, its code and its slots are as before, and its balance is no lower. -/
theorem uninvolved_account_is_unharmed {last : Machine}
    (reached : Reaches environment (start root ledger) last)
    (uninvolved : ∀ middle, Reaches environment (start root ledger) middle →
      Reaches environment middle last → ¬ ActsFor environment middle address) :
    last.ledger.nonce address = ledger.nonce address ∧
    last.ledger.code address = ledger.code address ∧
      (∀ key, last.ledger.slot? address key = ledger.slot? address key) ∧
      (ledger.balance address).toNat ≤ (last.ledger.balance address).toNat := by
  have levels : Levels (fun _ later _ => ledger.Unharmed address later)
      (fun parent => parent.awaited.created? ≠ some address) [] root ledger last.frame last.waiting
        last.ledger := by
    induction reached with
    | here => exact .last (.refl root) (.refl address ledger)
    | @step middle before runs ih =>
        have earlier := ih fun first reached after => uninvolved first reached (.step after runs)
        have now := uninvolved middle before (.step .here runs)
        exact (carries_unharmed_next (nested_of_reaches before) runs now).levels
          (Nat.zero_le _) earlier
  obtain ⟨_, unharmed⟩ := levels.here
  exact ⟨unharmed.nonce, unharmed.code, unharmed.slot, unharmed.balance⟩

end

/-- A machine acts for no other account if neither the frame at work is the account's nor the
instruction is a creation. -/
theorem not_actsFor {environment : Environment} {machine : Machine} {address : Address}
    (elsewhere : machine.frame.owner ≠ address)
    (instruction : (machine.frame.quote environment.config.fees machine.ledger).toOption.map
      Prod.fst ≠ some .create) :
    ¬ ActsFor environment machine address := by
  intro acts
  cases acts with
  | owner owner => exact elsewhere owner
  | creation creates granted made =>
      rw [creates.due.quoted] at instruction
      exact instruction rfl

-- The account at eleven has value, code and a slot.
def besideLedger : Ledger := ((calledLedger.setCode 11 #[0xfe]).credit 11 5).putSlot 11 1 9

theorem uninvolved_account_beside_callingFrame :
    ∃ last, Reaches {} (start callingFrame besideLedger) last ∧ last.finished = true ∧
      (∀ middle, Reaches {} (start callingFrame besideLedger) middle → Reaches {} middle last →
        ¬ ActsFor {} middle 11) ∧
      last.ledger.nonce 11 = 0 ∧ last.ledger.code 11 = #[0xfe] ∧
      last.ledger.slot? 11 1 = some 9 ∧ 5 ≤ (last.ledger.balance 11).toNat := by
  have reached := runFor_reaches {} 13 (start callingFrame besideLedger)
  have done : ((start callingFrame besideLedger).runFor {} 13).finished = true := by decide +kernel
  have elsewhere : ∀ fuel ≤ 13,
      ((start callingFrame besideLedger).runFor {} fuel).frame.owner ≠ 11 ∧
      ((((start callingFrame besideLedger).runFor {} fuel).frame.quote {}
        ((start callingFrame besideLedger).runFor {} fuel).ledger).toOption.map Prod.fst) ≠
          some .create := by
    decide +kernel
  have uninvolved : ∀ middle, Reaches {} (start callingFrame besideLedger) middle →
      Reaches {} middle ((start callingFrame besideLedger).runFor {} 13) →
      ¬ ActsFor {} middle 11 := by
    intro middle before _
    obtain ⟨fuel, within, rfl⟩ := runFor_within done before
    exact not_actsFor (elsewhere fuel within).1 (elsewhere fuel within).2
  obtain ⟨nonce, code, slots, balance⟩ := uninvolved_account_is_unharmed reached uninvolved
  have before : besideLedger.nonce 11 = 0 ∧ besideLedger.code 11 = #[0xfe] ∧
      besideLedger.slot? 11 1 = some 9 ∧ (besideLedger.balance 11).toNat = 5 := by
    decide +kernel
  refine ⟨_, reached, done, uninvolved, nonce.trans before.1, code.trans before.2.1,
    (slots 1).trans before.2.2.1, ?_⟩
  rw [← before.2.2.2]
  exact balance

end Machine

end ContractMachine
