import ContractMachine.Proofs.Machine.Gas
import ContractMachine.Proofs.Machine.Levels

/-!
What the steps of a machine leave behind: logs, deletions and refunds in the outcomes of frames, and
writes in the ledger. `affects_next` names every step by what it writes. Logs, deletions, slots and
new contracts are for frames that may modify state only, and no value is moved that is not there.
-/

namespace ContractMachine

/-- Nothing that a transaction keeps of a frame: no log, no deletion and no refund. -/
structure Outcome.Effectless (outcome : Outcome) : Prop where
  logs : outcome.logs = #[]
  deletions : outcome.deletions = []
  refundPool : outcome.refundPool = 0

namespace Frame

/-- The frame has noted no deletion; if it may not modify state, it has noted nothing. -/
structure Discreet (frame later : Frame) : Prop where
  same : frame.Continues later
  deletions : later.outcome.deletions = frame.outcome.deletions
  effectless : frame.context.isStatic = true → frame.outcome.Effectless → later.outcome.Effectless

section

variable {environment : Environment} {frame middle later caller : Frame} {ledger : Ledger}
  {op : Opcode} {price : Price} {kind : CallKind} {message : Message}

theorem Discreet.trans (before : frame.Discreet middle) (after : middle.Discreet later) :
    frame.Discreet later where
  same := before.same.trans after.same
  deletions := after.deletions.trans before.deletions
  effectless := by
    intro static effectless
    have still : middle.context.isStatic = true :=
      (congrArg Context.isStatic before.same.context).trans static
    exact after.effectless still (before.effectless static effectless)

theorem discreet_of_same (same : frame.Continues later)
    (logs : later.outcome.logs = frame.outcome.logs)
    (deletions : later.outcome.deletions = frame.outcome.deletions)
    (refundPool : later.outcome.refundPool = frame.outcome.refundPool) : frame.Discreet later where
  same := same
  deletions := deletions
  effectless := fun _ effectless =>
    ⟨logs.trans effectless.logs, deletions.trans effectless.deletions,
      refundPool.trans effectless.refundPool⟩

/-- What would have been refunded is gone when the frame is stopped by force, even what the
instruction at fault has added. -/
theorem discreet_halt (fault : Fault) (same : frame.Continues later)
    (deletions : later.outcome.deletions = frame.outcome.deletions)
    (logs : frame.context.isStatic = true → later.outcome.logs = frame.outcome.logs) :
    frame.Discreet (later.halt fault) where
  same := same.trans (later.continues_halt fault)
  deletions := deletions
  effectless := fun static effectless =>
    ⟨(logs static).trans effectless.logs, deletions.trans effectless.deletions, rfl⟩

theorem Due.discreet_pay (due : frame.Due environment ledger op price) (other : op ≠ .sstore) :
    frame.Discreet (frame.pay price) where
  same := frame.continues_pay price
  deletions := rfl
  effectless := by
    intro _ effectless
    have free := (least_le_work (quote_spec due.quoted).2.1).2 other
    refine ⟨effectless.logs, effectless.deletions, ?_⟩
    change Quantity.clamp (frame.outcome.refundPool + price.refund) = 0
    rw [effectless.refundPool, free]
    rfl

theorem Changes.discreet (changes : frame.Changes later) : frame.Discreet later where
  same := changes.continues
  deletions := changes.spares.deletions
  effectless := fun static effectless =>
    ⟨(changes.spares.logs static).trans effectless.logs,
      changes.spares.deletions.trans effectless.deletions,
      changes.spares.refundPool.trans effectless.refundPool⟩

theorem Calls.discreet (calls : frame.Calls environment ledger kind price message caller) :
    frame.Discreet caller := by
  have paid := calls.due.discreet_pay Opcode.noConfusion
  refine paid.trans ?_
  rw [calls.eqs.2]
  cases kind <;> exact discreet_of_same ⟨rfl, rfl, rfl, rfl⟩ rfl rfl rfl

end

end Frame

/-- The value of the call is there to be moved; a frame that may not modify state moves it
nowhere. -/
structure Message.Fair (message : Message) (frame : Frame) (ledger : Ledger) : Prop where
  covered : message.value.toNat ≤ (ledger.balance frame.owner).toNat
  static : frame.context.isStatic = true → message.value = 0 ∨
  message.account frame.owner = frame.owner

theorem Frame.Calls.fair {environment : Environment} {frame caller : Frame} {ledger : Ledger}
    {kind : CallKind} {price : Price} {message : Message}
    (calls : frame.Calls environment ledger kind price message caller)
    (granted : ¬ caller.Refused environment ledger message.value) : message.Fair frame ledger where
  covered := by
    rw [← calls.continues.owner]
    exact Nat.le_of_not_lt fun poor => granted (.inr poor)
  static := by
    intro static
    have read := calls.read
    rw [SiteAction.readMessage_eq environment kind price.forwarded calls.due.enough] at read
    split at read
    · cases read
    · rename_i allowed
      cases read
      cases kind with
      | call =>
          exact .inl (Decidable.byContradiction fun value => allowed ⟨static, rfl, value⟩)
      | callCode => exact .inr rfl
      | delegateCall | staticCall => exact .inl rfl

theorem AddressSet.insert_ne_nil (set : AddressSet) (address : Address) :
    set.insert address ≠ [] := by
  unfold AddressSet.insert
  split
  · exact List.cons_ne_nil _ _
  · split
    · exact List.cons_ne_nil _ _
    · split <;> exact List.cons_ne_nil _ _

namespace Machine

inductive Affects (environment : Environment) : Machine → Machine → Prop where
  | quiet {frame later : Frame} {waiting : List Waiting} {ledger : Ledger}
      (discreet : frame.Discreet later) :
      Affects environment ⟨frame, waiting, ledger⟩ ⟨later, waiting, ledger⟩
  | stored {frame later : Frame} {waiting : List Waiting} {ledger : Ledger} (key value : Word)
      (mutable : frame.context.isStatic = false) (discreet : frame.Discreet later) :
      Affects environment ⟨frame, waiting, ledger⟩
        ⟨later, waiting, ledger.putSlot frame.owner key value⟩
  | removed {frame later : Frame} {waiting : List Waiting} {ledger : Ledger}
      (same : frame.Continues later) (mutable : frame.context.isStatic = false)
      (deleted : later.outcome.deletions ≠ []) :
      Affects environment ⟨frame, waiting, ledger⟩ ⟨later, waiting, SiteAction.emptied frame ledger⟩
  -- A call that makes no frame has moved its value.
  | sent {frame later : Frame} {waiting : List Waiting} {ledger : Ledger} {message : Message}
      (fair : message.Fair frame ledger) (discreet : frame.Discreet later) :
      Affects environment ⟨frame, waiting, ledger⟩
        ⟨later, waiting, (message.opened frame ledger).commit⟩
  | called {frame caller child : Frame} {waiting : List Waiting} {ledger : Ledger}
      {message : Message} {record : Nat} (fair : message.Fair frame ledger)
      (discreet : frame.Discreet caller) (fresh : child.outcome = {})
      (inherits : frame.context.isStatic = true → child.context.isStatic = true) :
      Affects environment ⟨frame, waiting, ledger⟩
        ⟨child, ⟨caller, .call message record⟩ :: waiting, message.opened frame ledger⟩
  -- A creation that makes no frame: the address is taken, or there is no code to run.
  | settled {frame creator later : Frame} {waiting : List Waiting} {ledger : Ledger}
      {creation : Creation} {child : Outcome} (same : frame.Continues later)
      (mutable : frame.context.isStatic = false)
      (covered : creation.value.toNat ≤ (ledger.balance creator.owner).toNat)
      (deletions : later.outcome.deletions = frame.outcome.deletions) :
      Affects environment ⟨frame, waiting, ledger⟩
        ⟨later, waiting,
          (SiteAction.settledAtOnce environment creation child creator ledger).ledger⟩
  | made {frame creator caller child : Frame} {waiting : List Waiting} {ledger : Ledger}
      {creation : Creation} {awaited : Awaited} (same : frame.Continues caller)
      (mutable : frame.context.isStatic = false)
      (covered : creation.value.toNat ≤ (ledger.balance creator.owner).toNat)
      (deletions : caller.outcome.deletions = frame.outcome.deletions)
      (fresh : child.outcome = {}) :
      Affects environment ⟨frame, waiting, ledger⟩
        ⟨child, ⟨caller, awaited⟩ :: waiting, creation.opened creator ledger⟩
  | answered {child : Frame} {parent : Waiting} {waiting : List Waiting} {ledger : Ledger} :
      Affects environment ⟨child, parent :: waiting, ledger⟩
        ⟨(parent.awaited.answered environment child.outcome parent.frame).advance, waiting,
          parent.awaited.closed environment child.outcome ledger⟩

section

variable {environment : Environment} {root frame caller : Frame} {waiting : List Waiting}
  {ledger : Ledger} {kind : CallKind} {price : Price} {message : Message} {machine later : Machine}

theorem Sends.affects (sends : Sends environment message caller waiting ledger later)
    (calls : frame.Calls environment ledger kind price message caller) :
    Affects environment ⟨frame, waiting, ledger⟩ later := by
  have opened : message.opened caller ledger = message.opened frame ledger := by
    rw [Message.opened, Message.opened, calls.continues.owner]
  -- From the caller on, an answer touches neither logs nor deletions nor refunds.
  have answer {other : Frame} (same : caller.Continues other)
      (logs : other.outcome.logs = caller.outcome.logs)
      (deletions : other.outcome.deletions = caller.outcome.deletions)
      (refundPool : other.outcome.refundPool = caller.outcome.refundPool) : frame.Discreet other :=
    calls.discreet.trans (Frame.discreet_of_same same logs deletions refundPool)
  cases sends with
  | @refused refused reader read =>
      rcases read with rfl | rfl <;> exact .quiet (answer ⟨rfl, rfl, rfl, rfl⟩ rfl rfl rfl)
  | drained granted found dear => exact .quiet (answer ⟨rfl, rfl, rfl, rfl⟩ rfl rfl rfl)
  | @delivered contract granted found paid later ran =>
      obtain ⟨growth, _, _, delivered⟩ := SiteAction.deliver_spec ran
      have outcome := congrArg Frame.outcome delivered
      have same :=
        (SiteAction.continues_precompiled message contract caller).trans
        (SiteAction.continues_of_deliver ran)
      rw [opened]
      exact .sent (calls.fair granted) (answer (same.trans later.continues_advance)
        ((congrArg Outcome.logs outcome).trans rfl) ((congrArg Outcome.deletions outcome).trans rfl)
        ((congrArg Outcome.refundPool outcome).trans rfl))
  | @overdrawn contract granted found paid later fault ran =>
      rw [SiteAction.eq_of_deliver_error ran, opened]
      have halted :=
        Frame.discreet_halt fault (SiteAction.continues_precompiled message contract caller) rfl
        fun _ => rfl
      exact .sent (calls.fair granted) (calls.discreet.trans halted)
  | passed granted found empty =>
      rw [opened]
      exact .sent (calls.fair granted) (answer ⟨rfl, rfl, rfl, rfl⟩ rfl rfl rfl)
  | entered granted found code =>
      rw [opened]
      refine .called (calls.fair granted) (answer ⟨rfl, rfl, rfl, rfl⟩ rfl rfl rfl) rfl ?_
      intro static
      have inherited : caller.context.isStatic = true :=
        (congrArg Context.isStatic calls.continues.context).trans static
      change (message.kind.isStatic || caller.context.isStatic) = true
      rw [inherited, Bool.or_true]

theorem Makes.affects (makes : Makes environment (frame.pay price) waiting ledger later)
    (creates : frame.Creates environment ledger price) :
      Affects environment ⟨frame, waiting, ledger⟩ later := by
  have covered
      (granted : ¬ (frame.pay price).Refused environment ledger ((frame.pay price).operand 0)) :
      (Creation.asked (frame.pay price)).value.toNat ≤
        (ledger.balance (Creation.creator (frame.pay price)).owner).toNat :=
    Nat.le_of_not_lt fun poor => granted (.inr poor)
  -- An outcome without deletions adds none to those of the creator.
  have unchanged {child : Outcome} {site : Site} (fresh : child.deletions = []) (done : site =
      SiteAction.settledAtOnce environment (Creation.asked (frame.pay price)) child
        (Creation.creator (frame.pay price)) ledger) :
      site.frame.advance.outcome.deletions = frame.outcome.deletions := by
    change site.frame.outcome.deletions = _
    rw [done, SiteAction.frame_settledAtOnce, Awaited.outcome_answered]
    change (Awaited.taken environment child _ _).deletions = _
    rw [Awaited.deletions_taken, fresh]
    split <;> rfl
  have same := (frame.continues_pay price).trans (Creation.continues_creator (frame.pay price))
  have answered (child : Outcome) := same.trans (SiteAction.continues_settledAtOnce environment
    (Creation.asked (frame.pay price)) child (Creation.creator (frame.pay price)) ledger)
  cases makes with
  | refused refused =>
      have paid := creates.due.discreet_pay Opcode.noConfusion
      exact .quiet (paid.trans (Frame.discreet_of_same ⟨rfl, rfl, rfl, rfl⟩ rfl rfl rfl))
  | collided granted inUse done =>
      have deletions := unchanged rfl done
      subst done
      exact .settled ((answered _).trans (Frame.continues_advance _)) creates.mutable
        (covered granted) deletions
  | passed granted free empty done =>
      have deletions := unchanged rfl done
      subst done
      exact .settled ((answered _).trans (Frame.continues_advance _)) creates.mutable
        (covered granted) deletions
  | entered granted free code made asked =>
      subst made asked
      exact .made (same.trans (Creation.continues_recorded _ _ _)) creates.mutable
        (covered granted) rfl rfl

theorem Executes.affects (executes : Executes environment frame waiting ledger later) :
    Affects environment ⟨frame, waiting, ledger⟩ later := by
  cases executes with
  | unpaid fault quoted => exact .quiet (Frame.discreet_halt fault (.refl frame) rfl fun _ => rfl)
  | @worked op price later due changes alone ran =>
      have other : op ≠ .sstore := by
        rintro rfl
        cases alone
      exact .quiet ((due.discreet_pay other).trans changes.discreet)
  | @failed op price later due changes fault =>
      have same := (frame.continues_pay price).trans changes.continues
      exact .quiet (Frame.discreet_halt fault same changes.spares.deletions changes.spares.logs)
  | @stored price due mutable =>
      refine .stored _ _ mutable ⟨⟨rfl, rfl, rfl, rfl⟩, rfl, ?_⟩
      intro static
      rw [mutable] at static
      cases static
  | removed due mutable =>
    exact .removed ⟨rfl, rfl, rfl, rfl⟩ mutable (AddressSet.insert_ne_nil _ _)
  | sent calls sends => exact sends.affects calls
  | made creates makes => exact makes.affects creates

theorem affects_next (nested : Nested environment root machine.frame machine.waiting)
    (runs : machine.finished = false) :
    Affects environment machine (machine.next environment) := by
  obtain ⟨frame, waiting, ledger⟩ := machine
  cases stopped : frame.stopped with
  | false =>
      rw [next_running waiting stopped]
      exact (executes_instruct waiting stopped).affects
  | true =>
      obtain ⟨parent, waiting, rfl, goes⟩ := next_of_stopped nested runs stopped
      rw [goes]
      exact .answered

end

/-- What there is to show of an invariant of frames, their ledgers and the ledgers below: that it is
kept by each of the writes that a step can be. -/
structure Preserves (environment : Environment) (holds : Frame → Ledger → Ledger → Prop)
    (waits : Waiting → Prop) : Prop where
  quiet : ∀ {frame later : Frame} {ledger below : Ledger}, frame.Discreet later →
    holds frame ledger below → holds later ledger below
  stored : ∀ {frame later : Frame} {ledger below : Ledger} (key value : Word),
  frame.context.isStatic = false →
    frame.Discreet later → holds frame ledger below →
      holds later (ledger.putSlot frame.owner key value) below
  removed : ∀ {frame later : Frame} {ledger below : Ledger}, frame.context.isStatic = false →
    later.outcome.deletions ≠ [] → holds frame ledger below →
      holds later (SiteAction.emptied frame ledger) below
  sent : ∀ {frame later : Frame} {ledger below : Ledger} {message : Message},
  message.Fair frame ledger →
    frame.Discreet later → holds frame ledger below →
      holds later (message.opened frame ledger).commit below
  called : ∀ {frame caller child : Frame} {ledger below : Ledger} {message : Message}
    {record : Nat},
    message.Fair frame ledger → frame.Discreet caller → child.outcome = {} →
    (frame.context.isStatic = true → child.context.isStatic = true) → holds frame ledger below →
      waits ⟨caller, .call message record⟩ ∧ holds caller ledger below ∧
      holds child (message.opened frame ledger) ledger
  settled :
    ∀ {frame creator later : Frame} {ledger below : Ledger} {creation : Creation} {child : Outcome},
    frame.context.isStatic = false → creation.value.toNat ≤ (ledger.balance creator.owner).toNat →
    later.outcome.deletions = frame.outcome.deletions → holds frame ledger below →
      holds later (SiteAction.settledAtOnce environment creation child creator ledger).ledger below
  made : ∀ {frame creator caller child : Frame} {ledger below : Ledger} {creation : Creation}
    {awaited : Awaited},
    frame.context.isStatic = false → creation.value.toNat ≤ (ledger.balance creator.owner).toNat →
    caller.outcome.deletions = frame.outcome.deletions → child.outcome = {} →
    holds frame ledger below →
      waits ⟨caller, awaited⟩ ∧ holds caller (ledger.bumpNonce creator.owner) below ∧
        holds child (creation.opened creator ledger) (ledger.bumpNonce creator.owner)
  answered : ∀ {child : Frame} {parent : Waiting} {ledger below : Ledger}, 0 < ledger.depth →
  waits parent →
    holds child ledger (ledger.below 1) → holds parent.frame (ledger.below 1) below →
      holds (parent.awaited.answered environment child.outcome parent.frame).advance
        (parent.awaited.closed environment child.outcome ledger) below

section

variable {environment : Environment} {holds : Frame → Ledger → Ledger → Prop}
  {waits : Waiting → Prop} {root : Frame} {base : Ledger} {first machine later : Machine}

theorem Affects.carries (affects : Affects environment machine later)
    (preserves : Preserves environment holds waits) : Carries holds waits machine later := by
  cases affects with
  | quiet discreet => exact .level discreet.same (.refl _) fun _ => preserves.quiet discreet
  | @stored frame later waiting ledger key value mutable discreet =>
      have written := Ledger.writes_putSlot ledger frame.owner key value
      exact .level discreet.same written.keepsBelow fun _ =>
        preserves.stored key value mutable discreet
  | removed same mutable deleted =>
      exact .level same (SiteAction.writes_emptied _ _).keepsBelow fun _ =>
        preserves.removed mutable deleted
  | @sent frame later waiting ledger message fair discreet =>
      exact .level discreet.same (message.keeps_opened frame ledger).commit fun _ =>
        preserves.sent fair discreet
  | @called frame caller child waiting ledger message record fair discreet fresh inherits =>
      exact .down discreet.same (.refl ledger) (message.keeps_opened frame ledger) fun _ =>
        preserves.called fair discreet fresh inherits
  | @settled frame creator later waiting ledger creation child same mutable covered deletions =>
      have bumped := (Ledger.writes_bumpNonce ledger creator.owner).keepsBelow
      have keeps := SiteAction.keeps_settledAtOnce environment creation child creator ledger
      exact .level same (bumped.trans keeps) fun _ => preserves.settled mutable covered deletions
  | @made frame creator caller child waiting ledger creation awaited same mutable covered deletions
      fresh =>
      have bumped := (Ledger.writes_bumpNonce ledger creator.owner).keepsBelow
      exact .down same bumped (creation.keeps_opened creator ledger) fun _ =>
        preserves.made mutable covered deletions fresh
  | @answered child parent waiting ledger =>
      have same := parent.awaited.continues_answered environment child.outcome parent.frame
      exact .up (same.trans (Frame.continues_advance _))
        (parent.awaited.closes_closed environment child.outcome ledger)
        fun _ => preserves.answered

/-- An invariant that every write keeps holds as long as the first frame lives. -/
theorem Preserves.levels (preserves : Preserves environment holds waits)
    (lives : Lives environment first machine)
    (nested : Nested environment root first.frame first.waiting)
    (here : holds first.frame first.ledger base) :
    Levels holds waits first.waiting first.frame base machine.frame machine.waiting
      machine.ledger := by
  refine levels_of_lives lives nested ?_ here
  intro middle nested runs
  exact (affects_next nested runs).carries preserves

end

end Machine

end ContractMachine
