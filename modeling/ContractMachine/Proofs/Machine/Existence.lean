import ContractMachine.Proofs.Ledger.Accounts
import ContractMachine.Proofs.Machine.Alteration
import ContractMachine.Proofs.Machine.Authority

/-!
Where accounts come from. An account is made for the owner of a frame at work, for a contract and
for whoever is paid, were it nothing at all; nothing else in a run makes one. No step takes an
account away but by a rollback, so that an account stays as long as the frame lives in which it was
made.
-/

namespace ContractMachine

section

variable (environment : Environment) (frame : Frame) (ledger : Ledger)

theorem SiteAction.retains_emptied : ledger.Retains (emptied frame ledger) := by
  unfold emptied
  split
  · exact Ledger.retains_debit ledger _ _
  · exact Ledger.retains_transfer ledger _ _ _

theorem SiteAction.retains_deployed (made : Address) (gas : Nat) (child : Outcome) :
    ledger.Retains (deployed environment made gas child ledger) := by
  unfold deployed
  split
  · split
    · exact Ledger.retains_setCode ledger _ _
    · exact Ledger.retains_setCode ledger _ _
    · exact .refl ledger
  · exact .refl ledger

theorem Message.retains_opened (message : Message) : ledger.Retains (message.opened frame ledger) :=
  (Ledger.retains_checkpoint ledger).trans (Ledger.retains_transfer _ _ _ _)

theorem Creation.retains_opened (creation : Creation) :
    (ledger.bumpNonce frame.owner).Retains (creation.opened frame ledger) := by
  have tracked := Ledger.retains_checkpoint (ledger.bumpNonce frame.owner)
  exact (tracked.trans (Ledger.retains_bumpNonce _ _)).trans (Ledger.retains_transfer _ _ _ _)

/-- A creation that makes no frame is kept as a whole, or it leaves the nonce of its creator. -/
theorem SiteAction.settledAtOnce_cases (creation : Creation) (child : Outcome) :
    (settledAtOnce environment creation child frame ledger).ledger =
        (deployed environment (Creation.address frame ledger) creation.gas child
          (creation.opened frame ledger)).commit ∨
      (settledAtOnce environment creation child frame ledger).ledger =
        ledger.bumpNonce frame.owner := by
  cases done : (deposited environment creation.gas child).succeeded with
  | true =>
      refine .inl ?_
      simp only [settledAtOnce, done, if_true]
  | false => exact .inr (ledger_settledAtOnce environment creation frame ledger done)

theorem SiteAction.retains_settledAtOnce (creation : Creation) (child : Outcome) :
    ledger.Retains (settledAtOnce environment creation child frame ledger).ledger := by
  have bumped := Ledger.retains_bumpNonce ledger frame.owner
  rcases settledAtOnce_cases environment frame ledger creation child with kept | dropped
  · rw [kept]
    have opened := bumped.trans (creation.retains_opened frame ledger)
    exact (opened.trans (retains_deployed environment _ _ _ child)).trans (Ledger.retains_commit _)
  · rw [dropped]
    exact bumped

theorem Awaited.retains_written (awaited : Awaited) (child : Outcome) :
    ledger.Retains (awaited.written environment child ledger) := by
  cases awaited with
  | call message record => exact .refl ledger
  | creation made record gas => exact SiteAction.retains_deployed environment ledger made gas child

end

section

variable (environment : Environment) {frame : Frame} {ledger : Ledger} {made address : Address}

theorem SiteAction.hasAccount_deployed (elsewhere : made ≠ address) (gas : Nat) (child : Outcome) :
    (deployed environment made gas child ledger).hasAccount address =
      ledger.hasAccount address := by
  unfold deployed
  split
  · split
    · exact Ledger.hasAccount_update_of_ne ledger elsewhere _
    · exact Ledger.hasAccount_update_of_ne ledger elsewhere _
    · rfl
  · rfl

theorem Creation.hasAccount_opened (creation : Creation) (elsewhere : frame.owner ≠ address)
    (unmade : Creation.address frame ledger ≠ address) :
    (creation.opened frame ledger).hasAccount address = ledger.hasAccount address := by
  rw [opened, Ledger.hasAccount_transfer_of_ne _ elsewhere unmade, Ledger.bumpNonce,
    Ledger.hasAccount_update_of_ne _ unmade, Ledger.hasAccount_checkpoint]
  exact Ledger.hasAccount_update_of_ne ledger elsewhere _

theorem Awaited.hasAccount_written {awaited : Awaited} (unmade : awaited.created? ≠ some address)
    (child : Outcome) :
    (awaited.written environment child ledger).hasAccount address = ledger.hasAccount address := by
  cases awaited with
  | call message record => rfl
  | creation made record gas =>
      have elsewhere : made ≠ address := fun same => unmade (congrArg some same)
      exact SiteAction.hasAccount_deployed environment elsewhere gas child

end

namespace Machine

section

variable {environment : Environment} {root frame : Frame} {ledger kept after : Ledger}
  {awaited : Awaited} {owner address : Address} {first machine last : Machine}

theorem Leaves.retains (leaves : Leaves environment frame ledger after) :
    ledger.Retains after ∨ ∃ key value, after = ledger.putSlot frame.owner key value := by
  cases leaves with
  | same => exact .inl (.refl ledger)
  | stored key value => exact .inr ⟨key, value, rfl⟩
  | removed due mutable => exact .inl (SiteAction.retains_emptied frame ledger)
  | @sent kind price message caller calls granted =>
      exact .inl ((message.retains_opened frame ledger).trans (Ledger.retains_commit _))
  | settled creates granted creation child =>
      exact .inl (SiteAction.retains_settledAtOnce environment frame ledger creation child)

theorem Leaves.grows (leaves : Leaves environment frame ledger after) : ledger.Grows after := by
  rcases leaves.retains with retains | ⟨key, value, rfl⟩
  · exact retains.grows
  · exact Ledger.grows_putSlot ledger frame.owner key value

theorem Enters.retains (enters : Enters environment frame ledger awaited owner kept after) :
    ledger.Retains kept ∧ kept.Retains after := by
  cases enters with
  | @call kind price message caller calls granted record =>
    exact ⟨.refl ledger, message.retains_opened frame ledger⟩
  | creation creates granted free creation record gas =>
      exact ⟨Ledger.retains_bumpNonce ledger _, creation.retains_opened frame ledger⟩

/-- As long as a frame lives, the accounts are there that were there when it was first seen. -/
theorem grows_of_lives (lives : Lives environment first machine)
    (nested : Nested environment root first.frame first.waiting) :
      first.ledger.Grows machine.ledger := by
  have levels :
      Levels (fun _ later _ => first.ledger.Grows later) (fun _ => True) first.waiting first.frame
      first.ledger
      machine.frame machine.waiting machine.ledger :=
    levels_of_lives lives nested ?step fun _ here => here
  case step =>
    intro middle nested runs
    refine (alters_next nested runs).carries (fun _ later _ => first.ledger.Grows later)
      (fun _ => True) ?level ?down ?up
    case level => exact fun leaves before => before.trans leaves.grows
    case down =>
      intro awaited owner kept after below enters before
      have grown := before.trans enters.retains.1.grows
      exact ⟨trivial, grown, grown.trans enters.retains.2.grows⟩
    case up =>
      intro awaited child owner creator ledger below _ inner _
      have written := awaited.retains_written environment ledger child
      exact inner.trans (written.trans (Ledger.retains_commit _)).grows
  obtain ⟨_, grown⟩ := levels.here
  exact grown

inductive Transfers (environment : Environment) (machine : Machine) (target : Address) :
    Word → Prop where
  | call {kind : CallKind} {price : Price} {message : Message} {caller : Frame}
      (calls : machine.frame.Calls environment machine.ledger kind price message caller)
      (granted : ¬ machine.frame.Refused environment machine.ledger message.value)
      (received : message.account machine.frame.owner = target) :
        Transfers environment machine target message.value
  | removal {price : Price} (due : machine.frame.Due environment machine.ledger .suicide price)
      (mutable : machine.frame.context.isStatic = false)
      (received : (machine.frame.operand 0).toAddress = target) :
      Transfers environment machine target (machine.ledger.balance machine.frame.owner)

theorem Transfers.amount {value : Word} (transfers : Transfers environment machine address value) :
    value = machine.frame.operand 2 ∨ value = 0 ∨
    value = machine.ledger.balance machine.frame.owner := by
  cases transfers with
  | @call kind price message caller calls granted received =>
      rw [calls.eqs.1]
      cases kind with
      | call | callCode => exact .inl rfl
      | delegateCall | staticCall => exact .inr (.inl rfl)
  | removal due mutable received => exact .inr (.inr rfl)

theorem Transfers.target {value : Word} (transfers : Transfers environment machine address value) :
    address = machine.frame.owner ∨ address = (machine.frame.operand 1).toAddress ∨
      address = (machine.frame.operand 0).toAddress := by
  cases transfers with
  | @call kind price message caller calls granted received =>
      subst received
      rw [calls.eqs.1]
      cases kind with
      | callCode | delegateCall => exact .inl rfl
      | call | staticCall => exact .inr (.inl rfl)
  | removal due mutable received => exact .inr (.inr received.symm)

structure Ignores (environment : Environment) (machine : Machine) (address : Address) : Prop where
  uninvolved : ¬ ActsFor environment machine address
  unpaid : ∀ value, ¬ Transfers environment machine address value

theorem Leaves.hasAccount_of_ignores
    (leaves : Leaves environment machine.frame machine.ledger after)
    (ignores : Ignores environment machine address) :
    after.hasAccount address = machine.ledger.hasAccount address := by
  have elsewhere : machine.frame.owner ≠ address := fun owner => ignores.uninvolved (.owner owner)
  cases leaves with
  | same => rfl
  | stored key value => exact Ledger.hasAccount_putSlot _ _ _ _ _
  | removed due mutable =>
      have other : (machine.frame.operand 0).toAddress ≠ address :=
        fun received => ignores.unpaid _ (.removal due mutable received)
      unfold SiteAction.emptied
      split
      · exact Ledger.hasAccount_update_of_ne _ elsewhere _
      · exact Ledger.hasAccount_transfer_of_ne _ elsewhere other _
  | @sent kind price message caller calls granted =>
      have other : message.account machine.frame.owner ≠ address :=
        fun received => ignores.unpaid _ (.call calls granted received)
      rw [Ledger.hasAccount_commit, Message.opened,
        Ledger.hasAccount_transfer_of_ne _ elsewhere other, Ledger.hasAccount_checkpoint]
  | settled creates granted creation child =>
      have unmade : Creation.address machine.frame machine.ledger ≠ address :=
        fun made => ignores.uninvolved (.creation creates granted made)
      rcases SiteAction.settledAtOnce_cases environment machine.frame machine.ledger creation
        child with kept | dropped
      · rw [kept, Ledger.hasAccount_commit, SiteAction.hasAccount_deployed environment unmade,
          creation.hasAccount_opened elsewhere unmade]
      · rw [dropped]
        exact Ledger.hasAccount_update_of_ne _ elsewhere _

theorem Enters.hasAccount_of_ignores
    (enters : Enters environment machine.frame machine.ledger awaited owner kept after)
    (ignores : Ignores environment machine address) :
    awaited.created? ≠ some address ∧ kept.hasAccount address = machine.ledger.hasAccount address ∧
      after.hasAccount address = machine.ledger.hasAccount address := by
  have elsewhere : machine.frame.owner ≠ address := fun owner => ignores.uninvolved (.owner owner)
  cases enters with
  | @call kind price message caller calls granted record =>
      have other : message.account machine.frame.owner ≠ address :=
        fun received => ignores.unpaid _ (.call calls granted received)
      refine ⟨(Option.some_ne_none address).symm, rfl, ?_⟩
      rw [Message.opened, Ledger.hasAccount_transfer_of_ne _ elsewhere other,
        Ledger.hasAccount_checkpoint]
  | creation creates granted free creation record gas =>
      have unmade : Creation.address machine.frame machine.ledger ≠ address :=
        fun made => ignores.uninvolved (.creation creates granted made)
      exact ⟨fun same => unmade (Option.some.inj same),
        Ledger.hasAccount_update_of_ne _ elsewhere _, creation.hasAccount_opened elsewhere unmade⟩

theorem absent_of_reaches (reached : Reaches environment (start root ledger) last)
    (absent : ledger.hasAccount address = false)
    (ignores : ∀ middle, Reaches environment (start root ledger) middle →
      Reaches environment middle last →
      Ignores environment middle address) : last.ledger.hasAccount address = false := by
  -- A rollback leads to the ledger of an outer level, so the account is absent there too.
  have levels : Levels (fun _ later _ => later.hasAccount address = false)
      (fun parent => parent.awaited.created? ≠ some address) [] root ledger last.frame last.waiting
        last.ledger := by
    induction reached with
    | here => exact .last (.refl root) absent
    | @step middle before runs ih =>
        have earlier := ih fun first reached after => ignores first reached (.step after runs)
        have now := ignores middle before (.step .here runs)
        have alters := alters_next (nested_of_reaches before) runs
        refine (alters.carries (fun _ later _ => later.hasAccount address = false)
          (fun awaited => awaited.created? ≠ some address) ?level ?down ?up).levels (Nat.zero_le _)
            earlier
        case level => exact fun leaves still => (leaves.hasAccount_of_ignores now).trans still
        case down =>
          intro awaited owner kept after below enters still
          obtain ⟨unmade, lower, fresh⟩ := enters.hasAccount_of_ignores now
          exact ⟨unmade, lower.trans still, fresh.trans still⟩
        case up =>
          intro awaited child owner creator ledger below unmade inner _
          rw [Ledger.hasAccount_commit, awaited.hasAccount_written environment unmade]
          exact inner
  obtain ⟨_, still⟩ := levels.here
  exact still

/-- The frame at work makes a call that is neither refused nor short of the gas for a precompile. -/
structure Serves (environment : Environment) (machine : Machine) (message : Message)
    (caller : Frame) : Prop where
  calls : ∃ kind price, machine.frame.Calls environment machine.ledger kind price message caller
  granted : ¬ machine.frame.Refused environment machine.ledger message.value
  paid : ∀ contract, environment.config.precompiles.find? message.codeAddress = some contract →
    contract.price (message.input caller) ≤ message.gas

/-- Where there is no account there is no code, so that the call makes no frame. -/
theorem Serves.pays_absent {message : Message} {caller : Frame}
    (serves : Serves environment machine message caller)
    (absent : machine.ledger.hasAccount message.codeAddress = false) :
    (machine.next environment).waiting = machine.waiting ∧
      (machine.next environment).ledger = (message.opened machine.frame machine.ledger).commit := by
  obtain ⟨kind, price, calls⟩ := serves.calls
  have granted : ¬ caller.Refused environment machine.ledger message.value :=
    mt calls.continues.refused.mp serves.granted
  have sends := sends_next machine.waiting calls
  rw [← message.opened_of_continues calls.continues]
  change Sends environment message caller machine.waiting machine.ledger
    (machine.next environment) at sends
  generalize machine.next environment = later at sends
  cases sends with
  | refused refused read => exact absurd refused granted
  | drained _ found dear => exact absurd (serves.paid _ found) (Nat.not_le.mpr dear)
  | delivered _ found paid ran => exact ⟨rfl, rfl⟩
  | overdrawn _ found paid ran => exact ⟨rfl, rfl⟩
  | passed _ found empty => exact ⟨rfl, rfl⟩
  | entered _ found code => exact absurd (Ledger.code_of_absent absent) code

/-- A run makes no account at an address where there is none as long as nothing is done on its
behalf and no value is moved to it, not even none. A call that moves none does make one, however:
once it is carried out, whoever is called exists as long as the caller's frame lives. -/
theorem account_exists_once_paid (reached : Reaches environment (start root ledger) last) :
    (∀ address, ledger.hasAccount address = false →
      (∀ middle, Reaches environment (start root ledger) middle → Reaches environment middle last →
        Ignores environment middle address) → last.ledger.hasAccount address = false) ∧
    ∀ message caller, Serves environment last message caller → message.kind.isStateless = false →
      last.ledger.hasAccount message.codeAddress = false →
        (last.next environment).waiting = last.waiting ∧
          ∀ later, Lives environment (last.next environment) later →
            later.ledger.hasAccount message.codeAddress = true := by
  refine ⟨fun address absent => absent_of_reaches reached absent, ?_⟩
  intro message caller serves elsewhere absent
  obtain ⟨level, paid⟩ := serves.pays_absent absent
  refine ⟨level, ?_⟩
  intro later lives
  have called : message.account last.frame.owner = message.codeAddress :=
    if_neg (ne_true_of_eq_false elsewhere)
  have made : (last.next environment).ledger.hasAccount message.codeAddress = true := by
    rw [paid, Ledger.hasAccount_commit, Message.opened, called]
    exact Ledger.hasAccount_payee _ _ _ _
  obtain ⟨kind, price, calls⟩ := serves.calls
  have runs : last.finished = false := by
    rw [finished, calls.due.runs]
    rfl
  exact grows_of_lives lives (nested_of_reaches (.step reached runs)) _ made

end

/-- Where `callingFrame` runs with no account about, it calls an absent address with no value. Then
there is an account. -/
theorem account_exists_for_nothing :
    ¬ ∀ (environment : Environment) (root : Frame) (ledger : Ledger) (address : Address)
      (last : Machine),
      Reaches environment (start root ledger) last → last.finished = true →
      ledger.hasAccount address = false →
      (∀ middle, Reaches environment (start root ledger) middle → Reaches environment middle last →
        ¬ ActsFor environment middle address ∧ ∀ value, Transfers environment middle address value →
          value = 0) →
      last.ledger.hasAccount address = false := by
  intro claim
  have reached := runFor_reaches {} 9 (start callingFrame {})
  have done : ((start callingFrame {}).runFor {} 9).finished = true := by decide +kernel
  have exist : ((start callingFrame {}).runFor {} 9).ledger.hasAccount 10 = true := by
    decide +kernel
  have nothing : ∀ fuel ≤ 9, ((start callingFrame {}).runFor {} fuel).frame.owner ≠ 10 ∧
      (((start callingFrame {}).runFor {} fuel).frame.quote {}
        ((start callingFrame {}).runFor {} fuel).ledger).toOption.map Prod.fst ≠ some .create ∧
      ((start callingFrame {}).runFor {} fuel).frame.operand 2 = 0 ∧
      ((start callingFrame {}).runFor {} fuel).ledger.balance
        ((start callingFrame {}).runFor {} fuel).frame.owner = 0 := by
    decide +kernel
  have absent := claim {} callingFrame {} 10 _ reached done rfl ?free
  case free =>
    intro middle before _
    obtain ⟨fuel, within, rfl⟩ := runFor_within done before
    obtain ⟨elsewhere, instruction, value, balance⟩ := nothing fuel within
    refine ⟨not_actsFor elsewhere instruction, ?_⟩
    intro amount transfers
    rcases transfers.amount with same | same | same
    · exact same.trans value
    · exact same
    · exact same.trans balance
  rw [exist] at absent
  cases absent

theorem account_exists_once_callingFrame_calls :
    (∃ last, Reaches {} (start callingFrame calledLedger) last ∧ last.finished = true ∧
      calledLedger.hasAccount 11 = false ∧ last.ledger.hasAccount 11 = false) ∧
    ∃ last message caller, Reaches {} (start callingFrame {}) last ∧ Serves {} last message caller ∧
      last.ledger.hasAccount message.codeAddress = false ∧ message.value = 0 ∧
      (last.next {}).ledger.hasAccount message.codeAddress = true := by
  constructor
  · have reached := runFor_reaches {} 13 (start callingFrame calledLedger)
    have done : ((start callingFrame calledLedger).runFor {} 13).finished = true := by
      decide +kernel
    have absent : calledLedger.hasAccount 11 = false := by decide +kernel
    have elsewhere : ∀ fuel ≤ 13, ((start callingFrame calledLedger).runFor {} fuel).frame.owner ≠
        11 ∧
        (((start callingFrame calledLedger).runFor {} fuel).frame.quote {}
          ((start callingFrame calledLedger).runFor {} fuel).ledger).toOption.map Prod.fst ≠
            some .create ∧
        (((start callingFrame calledLedger).runFor {} fuel).frame.operand 1).toAddress ≠ 11 ∧
        (((start callingFrame calledLedger).runFor {} fuel).frame.operand 0).toAddress ≠ 11 := by
      decide +kernel
    refine ⟨_, reached, done, absent, (account_exists_once_paid reached).1 11 absent ?_⟩
    intro middle before _
    obtain ⟨fuel, within, rfl⟩ := runFor_within done before
    obtain ⟨owner, instruction, callee, heir⟩ := elsewhere fuel within
    refine ⟨not_actsFor owner instruction, ?_⟩
    intro value transfers
    rcases transfers.target with same | same | same
    · exact owner same.symm
    · exact callee same.symm
    · exact heir same.symm
  · have reached := runFor_reaches {} 7 (start callingFrame {})
    have runs : ((start callingFrame {}).runFor {} 7).frame.stopped = false := by decide +kernel
    have mutable : ((start callingFrame {}).runFor {} 7).frame.context.isStatic = false := by
      decide +kernel
    have next : (((start callingFrame {}).runFor {} 7).frame.quote ({} : Environment).config.fees
        ((start callingFrame {}).runFor {} 7).ledger).toOption.map Prod.fst =
          some (.call .call) := by decide +kernel
    have callee : (((start callingFrame {}).runFor {} 7).frame.operand 1).toAddress = 10 := by
      decide +kernel
    have value : ((start callingFrame {}).runFor {} 7).frame.operand 2 = 0 := by decide +kernel
    have granted : ¬ ((start callingFrame {}).runFor {} 7).frame.Refused {}
        ((start callingFrame {}).runFor {} 7).ledger 0 := by decide +kernel
    have absent : ((start callingFrame {}).runFor {} 7).ledger.hasAccount 10 = false := by
      decide +kernel
    generalize (start callingFrame {}).runFor {} 7 = last at *
    obtain ⟨price, calls⟩ := Frame.calls_of_quote runs next mutable
    have serves : Serves {} last (CallKind.message .call {} price.forwarded (last.frame.pay price))
        (CallKind.reader .call (last.frame.pay price)) := by
      refine ⟨⟨_, _, calls⟩, ?_, ?_⟩
      · change ¬ last.frame.Refused {} last.ledger (last.frame.operand 2)
        rwa [value]
      · change ∀ contract, PrecompileChoice.standard.find? (last.frame.operand 1).toAddress =
          some contract → _
        rw [callee]
        intro contract found
        cases found
    have known : (CallKind.message .call {} price.forwarded (last.frame.pay price)).codeAddress =
        10 := callee
    rw [← known] at absent
    obtain ⟨_, stays⟩ := (account_exists_once_paid reached).2 _ _ serves rfl absent
    exact ⟨last, _, _, reached, serves, absent, value, stays _ .here⟩

end Machine

end ContractMachine
