import ContractMachine.Proofs.Machine.Existence
import ContractMachine.Proofs.Machine.Settlement

/-!
Where code comes from. While an account is there its code is what it was, for a contract is made
where there is no account, and nothing but the end of its creation writes its code. A creation that
ends without a failure writes what its first code has returned, at its price, or nothing where the
gas does not suffice; one that fails leaves the address alone.
-/

namespace ContractMachine

/-- Of a creation that succeeds it does not matter what was there before. -/
theorem Deposit.Settles.of_succeeded {decision : Deposit} {child done : Outcome}
    {before other code : Bytes} (settles : decision.Settles child before done code)
    (succeeded : done.succeeded = true) : decision.Settles child other done code := by
  cases settles with
  | deploy sound used => exact .deploy sound used
  | deployEmpty sound used => exact .deployEmpty sound used
  | fail faulty used =>
      rw [Outcome.succeeded, faulty] at succeeded
      cases succeeded

section

variable (environment : Environment) {frame : Frame} {ledger : Ledger} (address : Address)

theorem Message.code_opened (message : Message) :
    (message.opened frame ledger).code address = ledger.code address := by
  rw [opened, Ledger.code_transfer, Ledger.code_checkpoint]

theorem Creation.code_opened (creation : Creation) :
    (creation.opened frame ledger).code address = ledger.code address := by
  rw [opened, Ledger.code_transfer, Ledger.code_bumpNonce, Ledger.code_checkpoint,
    Ledger.code_bumpNonce]

theorem SiteAction.code_emptied : (emptied frame ledger).code address = ledger.code address := by
  unfold emptied
  split
  · exact Ledger.code_debit ledger _ _ _
  · exact Ledger.code_transfer ledger _ _ _ _

variable {made address : Address}

theorem SiteAction.code_deployed (elsewhere : made ≠ address) (gas : Nat) (child : Outcome) :
    (deployed environment made gas child ledger).code address = ledger.code address := by
  unfold deployed
  split
  · split
    · exact Ledger.code_setCode_of_ne ledger elsewhere _
    · exact Ledger.code_setCode_of_ne ledger elsewhere _
    · rfl
  · rfl

theorem Awaited.code_written {awaited : Awaited} (unmade : awaited.created? ≠ some address)
    (child : Outcome) :
    (awaited.written environment child ledger).code address = ledger.code address := by
  cases awaited with
  | call message record => rfl
  | creation made record gas =>
      have elsewhere : made ≠ address := fun same => unmade (congrArg some same)
      exact SiteAction.code_deployed environment elsewhere gas child

/-- Without a success nothing is deployed, and with one it is not where there is an account. -/
theorem SiteAction.code_settledAtOnce (creation : Creation) {child : Outcome}
    (free : child.succeeded = true → ledger.hasAccount (Creation.address frame ledger) = false)
    (here : ledger.hasAccount address = true) :
    (settledAtOnce environment creation child frame ledger).ledger.code address =
      ledger.code address := by
  rcases settledAtOnce_cases environment frame ledger creation child with kept | dropped
  · rw [kept, Ledger.code_commit]
    cases succeeded : child.succeeded with
    | true =>
        have elsewhere : Creation.address frame ledger ≠ address := by
          intro same
          have absent := free succeeded
          rw [same, here] at absent
          cases absent
        rw [code_deployed environment elsewhere, creation.code_opened]
    | false =>
        rw [deployed, if_neg (ne_true_of_eq_false succeeded)]
        exact creation.code_opened address
  · rw [dropped]
    exact Ledger.code_bumpNonce ledger _ _

end

namespace Machine

structure HasCode (address : Address) (code : Bytes) (ledger : Ledger) : Prop where
  account : ledger.hasAccount address = true
  code : ledger.code address = code

section

variable {environment : Environment} {root frame : Frame} {waiting : List Waiting}
  {ledger kept after : Ledger} {awaited : Awaited} {owner address : Address} {price : Price}
  {first machine last before later : Machine} {child : Outcome} {code : Bytes}

theorem Leaves.hasCode (leaves : Leaves environment frame ledger after)
    (holds : HasCode address code ledger) :
    HasCode address code after := by
  refine ⟨leaves.grows address holds.account, ?_⟩
  rw [← holds.code]
  cases leaves with
  | same => rfl
  | stored key value => exact Ledger.code_putSlot ledger _ _ _ _
  | removed due mutable => exact SiteAction.code_emptied address
  | @sent kind price message caller calls granted => rw [Ledger.code_commit, message.code_opened]
  | settled creates granted creation child free =>
      exact SiteAction.code_settledAtOnce environment creation free holds.account

/-- To enter a frame writes no code, and what will be written is not where there is an account. -/
theorem Enters.hasCode (enters : Enters environment frame ledger awaited owner kept after)
    (holds : HasCode address code ledger) :
    awaited.created? ≠ some address ∧ HasCode address code kept ∧ HasCode address code after := by
  obtain ⟨before, opened⟩ := enters.retains
  have stays := before.grows address holds.account
  have there := opened.grows address stays
  cases enters with
  | @call kind price message caller calls granted record =>
      have unmade : (Awaited.call message record).created? ≠ some address :=
        (Option.some_ne_none address).symm
      exact ⟨unmade, holds, there, (message.code_opened address).trans holds.code⟩
  | creation creates granted free creation record gas =>
      have unmade : Creation.address frame ledger ≠ address := by
        intro same
        rw [same, holds.account] at free
        cases free
      have lower : HasCode address code (ledger.bumpNonce frame.owner) :=
        ⟨stays, (Ledger.code_bumpNonce ledger _ _).trans holds.code⟩
      refine ⟨fun same => unmade (Option.some.inj same), lower, there, ?_⟩
      exact (creation.code_opened address).trans holds.code

/-- As long as a frame lives, the accounts that were there when it was first seen keep the code they
had. -/
theorem code_of_lives (lives : Lives environment first machine)
    (nested : Nested environment root first.frame first.waiting)
    (here : first.ledger.hasAccount address = true) :
    machine.ledger.code address = first.ledger.code address := by
  have levels : Levels (fun _ later _ => HasCode address (first.ledger.code address) later)
      (fun parent => parent.awaited.created? ≠ some address) first.waiting first.frame first.ledger
        machine.frame
      machine.waiting machine.ledger :=
    levels_of_lives lives nested ?step ⟨here, rfl⟩
  case step =>
    intro middle nested runs
    refine (alters_next nested runs).carries
      (fun _ later _ => HasCode address (first.ledger.code address) later)
      (fun awaited => awaited.created? ≠ some address) ?level ?down ?up
    case level => exact fun leaves holds => leaves.hasCode holds
    case down => exact fun enters holds => enters.hasCode holds
    case up =>
      intro awaited child owner creator ledger below unmade inner _
      have retains :=
        (awaited.retains_written environment ledger child).trans (Ledger.retains_commit _)
      refine ⟨retains.grows address inner.account, ?_⟩
      rw [Ledger.code_commit, awaited.code_written environment unmade]
      exact inner.code
  obtain ⟨_, holds⟩ := levels.here
  exact holds.code

theorem untouched_of_fails (fails : Fails environment before .create later)
    (nested : Nested environment root before.frame before.waiting) (address : Address) :
    Ledger.Untouched before.frame.owner address before.ledger later.ledger := by
  rw [(fails.restores nested).ledger, keptByFailure, keptByCreation]
  split
  · exact .refl _
  · exact Ledger.untouched_bumpNonce _

inductive Constructs (environment : Environment) (before : Machine) (price : Price) :
    Outcome → Machine → Prop where
  | atOnce (creates : before.frame.Creates environment before.ledger price)
      (granted : ¬ before.frame.Refused environment before.ledger (before.frame.operand 0))
      (free : before.ledger.hasAccount (Creation.address before.frame before.ledger) = false)
      (empty : (Creation.asked (before.frame.pay price)).code.isEmpty = true) :
      Constructs environment before price {} (before.next environment)
  | child {last : Machine} {parent : Waiting}
      (creates : before.frame.Creates environment before.ledger price)
      (stays : Stays environment before.waiting.length (before.next environment) last)
      (back : last.waiting = parent :: before.waiting) (stopped : last.frame.stopped = true)
      (sound : ¬ Awaited.Failed environment last.frame.outcome parent.awaited) :
      Constructs environment before price last.frame.outcome (last.next environment)

/-- What a creation that has succeeded comes to. The address of the contract is pushed, its code is
what was decided on what `child` has returned, and the creator gets back what is left of the gas
that it has set aside. -/
structure Deploys (environment : Environment) (before : Machine) (price : Price) (child : Outcome)
    (after : Machine) : Prop where
  waiting : after.waiting = before.waiting
  words : after.frame.stack.words =
    Word.ofAddress (Creation.address before.frame before.ledger) :: before.frame.stack.words.drop
      Opcode.create.pops
  deposits : ∃ decision done, environment.config.Decides child.returnData.size
      ((Creation.asked (before.frame.pay price)).gas - child.gasUsed) decision ∧
    decision.Settles child (before.ledger.code (Creation.address before.frame before.ledger)) done
      (after.ledger.code (Creation.address before.frame before.ledger)) ∧
    done.succeeded = true ∧
    after.frame.outcome.gasUsed = (Creation.creator (before.frame.pay price)).outcome.gasUsed -
      ((Creation.asked (before.frame.pay price)).gas - done.gasUsed)

/-- However the creator has come to wait, it goes on with what has been decided. -/
theorem deploys_answered {parent : Frame} {written : Ledger} {record : Nat}
    (asked : awaited =
      .creation (Creation.address frame ledger) record (Creation.asked (frame.pay price)).gas)
    (used : parent.outcome.gasUsed = (Creation.creator (frame.pay price)).outcome.gasUsed)
    (words : parent.stack.words = frame.stack.words.drop Opcode.create.pops)
    (sound : (awaited.final environment child).succeeded = true) :
    Deploys environment ⟨frame, waiting, ledger⟩ price child
      ⟨(awaited.answered environment child parent).advance, waiting,
        (awaited.written environment child written).commit⟩ := by
  subst asked
  have succeeded : child.succeeded = true := SiteAction.succeeded_of_deposited sound
  refine ⟨rfl, ?words, _, _, environment.config.decides_deposit _ _, ?settles, sound, ?gas⟩
  case words =>
    have answered := Awaited.words_answered environment
      (.creation (Creation.address frame ledger) record (Creation.asked (frame.pay price)).gas)
        child parent
    rw [if_pos sound, words] at answered
    exact answered
  case settles =>
    rw [Ledger.code_commit]
    exact (SiteAction.settles_deposited environment _ _ parent written succeeded).of_succeeded sound
  case gas =>
    have done :
        (SiteAction.deposited environment (Creation.asked (frame.pay price)).gas child).succeeded =
          true :=
      sound
    change (SiteAction.created _ record _ _ parent).outcome.gasUsed = _
    rw [SiteAction.outcome_created, Outcome.goOn, if_pos done, Outcome.giveBack,
      Outcome.merge_gasUsed, used]
    rfl

/-- A creation without code that is granted at a free address is settled at once. -/
theorem Makes.deploys_of_bare (makes : Makes environment (frame.pay price) waiting ledger later)
    (granted : ¬ frame.Refused environment ledger (frame.operand 0))
    (free : ledger.hasAccount (Creation.address frame ledger) = false)
    (empty : (Creation.asked (frame.pay price)).code.isEmpty = true) :
    Deploys environment ⟨frame, waiting, ledger⟩ price {} later := by
  cases makes with
  | refused refused => exact absurd refused granted
  | collided _ inUse =>
      have absent : ledger.hasAccount (Creation.address (frame.pay price) ledger) = false := free
      rw [absent] at inUse
      cases inUse
  | @passed _ _ _ site settled =>
      have nothing := SiteAction.deposited_empty environment (Creation.asked (frame.pay price)).gas
      have sound :
          (SiteAction.deposited environment (Creation.asked (frame.pay price)).gas {}).succeeded =
            true := by
        rw [nothing]
        rfl
      rw [settled, SiteAction.frame_settledAtOnce]
      simp only [SiteAction.settledAtOnce, sound, if_true]
      exact deploys_answered rfl rfl rfl sound
  | entered _ _ code =>
      rw [empty] at code
      cases code

/-- There is code to run, unless the creation comes to its end at once. -/
theorem Makes.empty_of_level (makes : Makes environment frame waiting ledger later)
    (level : later.waiting = waiting)
    (granted : ¬ frame.Refused environment ledger (frame.operand 0))
    (free : ledger.hasAccount (Creation.address frame ledger) = false) :
    (Creation.asked frame).code.isEmpty = true := by
  cases makes with
  | refused refused => exact absurd refused granted
  | collided _ inUse =>
      rw [free] at inUse
      cases inUse
  | passed _ _ empty => exact empty
  | entered granted free code =>
      have longer := congrArg List.length level
      simp only [List.length_cons] at longer
      omega

theorem Constructs.deploys (constructs : Constructs environment before price child later)
    (nested : Nested environment root before.frame before.waiting) :
    Deploys environment before price child later := by
  obtain ⟨frame, waiting, ledger⟩ := before
  cases constructs with
  | atOnce creates granted free empty =>
    exact (makes_next waiting creates).deploys_of_bare granted free empty
  | @child last parent creates stays back stopped sound =>
      have inside := nested_next nested creates.due.runs ledger
      have makes := makes_next waiting creates
      obtain ⟨asking, entered, ⟨record, gas, asked⟩, words, opened⟩ :=
        makes.enters stays.first_inside
      obtain ⟨waiter, waits, handed, used⟩ := makes.hands stays.first_inside
      obtain ⟨same, _, _⟩ := back_at_child inside entered opened stays back
      subst same
      have one : parent = waiter := (List.cons.inj (entered.symm.trans waits)).1
      subst one
      have whole : gas = (Creation.asked (frame.pay price)).gas := by
        rw [asked] at handed
        exact handed
      rw [whole] at asked
      have succeeded : (parent.awaited.final environment last.frame.outcome).succeeded = true := by
        cases final : (parent.awaited.final environment last.frame.outcome).succeeded with
        | true => rfl
        | false => exact absurd (Awaited.failed_of_final final) sound
      rw [next_at_child (inside.reaches stays.reaches) back stopped, Awaited.closed,
        if_pos succeeded]
      exact deploys_answered asked used words succeeded

/-- A creation that comes to its end has failed or has made its contract. -/
theorem Completes.fails_or_constructs (completes : Completes environment before .create later) :
    Fails environment before .create later ∨ ∃ price child,
    Constructs environment before price child later := by
  obtain ⟨frame, waiting, ledger⟩ := before
  cases completes with
  | atOnce asks level =>
      cases asks with
      | @creation price creates =>
          by_cases refused : frame.Refused environment ledger (frame.operand 0)
          · exact .inl (.refusedCreation creates refused)
          · cases inUse : ledger.hasAccount (Creation.address frame ledger) with
            | true => exact .inl (.collided creates inUse)
            | false =>
                have empty := (makes_next waiting creates).empty_of_level level refused inUse
                exact .inr ⟨price, {}, .atOnce creates refused inUse empty⟩
  | @child last parent asks stays back stopped =>
      by_cases failed : Awaited.Failed environment last.frame.outcome parent.awaited
      · exact .inl (.child asks stays back stopped failed)
      · cases asks with
        | creation creates => exact .inr ⟨_, _, .child creates stays back stopped failed⟩

end

-- Puts code that returns one zero into memory, and makes a contract with it.
def creatingFrame : Frame :=
  { callingFrame with code :=
    #[0x64, 0x60, 1, 0x60, 0, 0xf3, 0x60, 0, 0x52, 0x60, 5, 0x60, 27, 0x60, 0, 0xf0] }

def beforeCreation : Machine := (start creatingFrame {}).runFor {} 6

def afterCreation : Machine := ((beforeCreation.next {}).runFor {} 3).next {}

theorem afterCreation_completes : Completes {} beforeCreation .create afterCreation := by
  have quoted : (beforeCreation.frame.quote {} beforeCreation.ledger).toOption.map Prod.fst =
      some .create := by
    decide +kernel
  obtain ⟨⟨op, price⟩, paid, rfl⟩ := Option.map_eq_some_iff.mp quoted
  have creates : beforeCreation.frame.Creates {} beforeCreation.ledger price :=
    ⟨Frame.due_of_toOption (by decide +kernel) paid, by decide +kernel⟩
  have stays : Stays {} 0 (beforeCreation.next {}) ((beforeCreation.next {}).runFor {} 3) :=
    stays_runFor 3 (by decide +kernel)
  obtain ⟨parent, waits⟩ : ∃ parent, ((beforeCreation.next {}).runFor {} 3).waiting = [parent] :=
    List.length_eq_one_iff.mp (by decide +kernel)
  exact .child (.creation creates) stays waits (by decide +kernel)

end Machine

end ContractMachine
