import ContractMachine.Proofs.Machine.Levels

/-!
Steps by what they do to the ledger and on whose behalf. A step that stays in its frame leaves it in
one of five ways (`Leaves`), a step into a new frame in one of two (`Enters`), and a step back keeps
what the child has done or drops it. An invariant of a frame's owner and its ledger is carried by
every step if it is by these.
-/

namespace ContractMachine

theorem Frame.Continues.refused {frame later : Frame} {environment : Environment} {ledger : Ledger}
    {value : Word} (same : frame.Continues later) : later.Refused environment ledger value ↔
    frame.Refused environment ledger value := by
  unfold Frame.Refused
  rw [same.context, same.owner]

section

variable {frame later : Frame} (same : frame.Continues later) (ledger : Ledger)

include same

theorem Message.opened_of_continues (message : Message) :
    message.opened later ledger = message.opened frame ledger := by
  unfold Message.opened
  rw [same.owner]

theorem Creation.address_of_continues : address later ledger = address frame ledger := by
  unfold address
  rw [same.owner]

theorem Creation.opened_of_continues (creation : Creation) :
    creation.opened later ledger = creation.opened frame ledger := by
  unfold opened
  rw [address_of_continues same, same.owner]

theorem SiteAction.ledger_settledAtOnce_of_continues (environment : Environment)
    (creation : Creation) (child : Outcome) :
    (settledAtOnce environment creation child later ledger).ledger =
      (settledAtOnce environment creation child frame ledger).ledger := by
  simp only [settledAtOnce, Creation.address_of_continues same, creation.opened_of_continues same]

end

/-- When a checkpoint is closed, what is written in it is kept, or what lay below it is back. -/
theorem Awaited.closed_cases (environment : Environment) (awaited : Awaited) (child : Outcome)
    {ledger : Ledger} (tracked : 0 < ledger.depth) :
    awaited.closed environment child ledger = (awaited.written environment child ledger).commit ∨
      awaited.closed environment child ledger = ledger.below 1 := by
  unfold closed
  split
  · exact .inl rfl
  · refine .inr ?_
    rw [Ledger.rollback_eq_below]
    exact (awaited.writes_written environment child ledger).same_below tracked 0

namespace Machine

/-- What a step that makes no frame leaves of the ledger. -/
inductive Leaves (environment : Environment) (frame : Frame) (ledger : Ledger) : Ledger → Prop where
  | same : Leaves environment frame ledger ledger
  | stored (key value : Word) :
      Leaves environment frame ledger (ledger.putSlot frame.owner key value)
  | removed {price : Price} (due : frame.Due environment ledger .suicide price)
      (mutable : frame.context.isStatic = false) :
        Leaves environment frame ledger (SiteAction.emptied frame ledger)
  | sent {kind : CallKind} {price : Price} {message : Message} {caller : Frame}
      (calls : frame.Calls environment ledger kind price message caller)
      (granted : ¬ frame.Refused environment ledger message.value) :
      Leaves environment frame ledger (message.opened frame ledger).commit
  | settled {price : Price} (creates : frame.Creates environment ledger price)
      (granted : ¬ frame.Refused environment ledger (frame.operand 0)) (creation : Creation)
      (child : Outcome)
      (free : child.succeeded = true → ledger.hasAccount (Creation.address frame ledger) = false) :
      Leaves environment frame ledger
        (SiteAction.settledAtOnce environment creation child frame ledger).ledger

/-- A step into a new frame: what is waited for, who owns the new frame, what lies below its
checkpoint and what it begins with. -/
inductive Enters (environment : Environment) (frame : Frame) (ledger : Ledger) :
    Awaited → Address → Ledger → Ledger → Prop where
  | call {kind : CallKind} {price : Price} {message : Message} {caller : Frame}
      (calls : frame.Calls environment ledger kind price message caller)
      (granted : ¬ frame.Refused environment ledger message.value) (record : Nat) :
      Enters environment frame ledger (.call message record) (message.account frame.owner) ledger
        (message.opened frame ledger)
  | creation {price : Price} (creates : frame.Creates environment ledger price)
      (granted : ¬ frame.Refused environment ledger (frame.operand 0))
      (free : ledger.hasAccount (Creation.address frame ledger) = false) (creation : Creation)
      (record gas : Nat) :
      Enters environment frame ledger (.creation (Creation.address frame ledger) record gas)
        (Creation.address frame ledger) (ledger.bumpNonce frame.owner)
          (creation.opened frame ledger)

inductive Alters (environment : Environment) : Machine → Machine → Prop where
  | level {frame later : Frame} {waiting : List Waiting} {ledger after : Ledger}
      (same : frame.Continues later) (leaves : Leaves environment frame ledger after) :
      Alters environment ⟨frame, waiting, ledger⟩ ⟨later, waiting, after⟩
  | down {frame caller child : Frame} {awaited : Awaited} {waiting : List Waiting}
      {ledger kept after : Ledger} (same : frame.Continues caller)
      (enters : Enters environment frame ledger awaited child.owner kept after) :
      Alters environment ⟨frame, waiting, ledger⟩ ⟨child, ⟨caller, awaited⟩ :: waiting, after⟩
  | up (child : Frame) (parent : Waiting) (waiting : List Waiting) (ledger : Ledger) :
      Alters environment ⟨child, parent :: waiting, ledger⟩
        ⟨(parent.awaited.answered environment child.outcome parent.frame).advance, waiting,
          parent.awaited.closed environment child.outcome ledger⟩

section

variable {environment : Environment} {root frame caller : Frame} {waiting : List Waiting}
  {ledger kept after : Ledger} {kind : CallKind} {price : Price} {message : Message}
  {awaited : Awaited} {owner : Address} {machine later : Machine}

theorem Leaves.keepsBelow (leaves : Leaves environment frame ledger after) :
    ledger.KeepsBelow after := by
  cases leaves with
  | same => exact .refl ledger
  | stored key value => exact (Ledger.writes_putSlot ledger _ _ _).keepsBelow
  | removed due mutable => exact (SiteAction.writes_emptied frame ledger).keepsBelow
  | @sent kind price message caller calls granted =>
    exact (message.keeps_opened frame ledger).commit
  | settled creates granted creation child =>
      have bumped := (Ledger.writes_bumpNonce ledger frame.owner).keepsBelow
      exact bumped.trans (SiteAction.keeps_settledAtOnce environment creation child frame ledger)

theorem Enters.keepsBelow (enters : Enters environment frame ledger awaited owner kept after) :
    ledger.KeepsBelow kept ∧ kept.checkpoint.KeepsBelow after := by
  cases enters with
  | @call kind price message caller calls granted record =>
    exact ⟨.refl ledger, message.keeps_opened frame ledger⟩
  | creation creates granted free creation record gas =>
      exact ⟨(Ledger.writes_bumpNonce ledger frame.owner).keepsBelow,
        creation.keeps_opened frame ledger⟩

theorem Sends.alters (sends : Sends environment message caller waiting ledger later)
    (calls : frame.Calls environment ledger kind price message caller) :
    Alters environment ⟨frame, waiting, ledger⟩ later := by
  have behind : frame.Continues caller := calls.continues
  have answered {other : Frame} (same : caller.Continues other)
      (granted : ¬ caller.Refused environment ledger message.value) :
      Alters environment ⟨frame, waiting, ledger⟩
        ⟨other, waiting, (message.opened caller ledger).commit⟩ := by
    rw [message.opened_of_continues behind]
    exact .level (behind.trans same) (.sent calls (mt behind.refused.mpr granted))
  cases sends with
  | @refused refused reader read =>
    rcases read with rfl | rfl <;> exact .level (behind.trans ⟨rfl, rfl, rfl, rfl⟩) .same
  | drained granted found dear => exact .level (behind.trans ⟨rfl, rfl, rfl, rfl⟩) .same
  | @delivered contract granted found paid later ran =>
      have same :=
        (SiteAction.continues_precompiled message contract caller).trans
        (SiteAction.continues_of_deliver ran)
      exact answered (same.trans later.continues_advance) granted
  | @overdrawn contract granted found paid later fault ran =>
      rw [SiteAction.eq_of_deliver_error ran]
      have same := SiteAction.continues_precompiled message contract caller
      exact answered (same.trans (Frame.continues_halt _ fault)) granted
  | passed granted found empty => exact answered ⟨rfl, rfl, rfl, rfl⟩ granted
  | entered granted found code =>
      have owned : (message.callee environment caller ledger).owner = message.account frame.owner :=
        congrArg message.account behind.owner
      have enters :
          Enters environment frame ledger (.call message (message.recorded caller ledger).1)
          (message.callee environment caller ledger).owner ledger
            (message.opened caller ledger) := by
        rw [owned, message.opened_of_continues behind]
        exact .call calls (mt behind.refused.mpr granted) _
      exact .down (behind.trans (message.continues_recorded caller ledger)) enters

theorem Makes.alters (makes : Makes environment (frame.pay price) waiting ledger later)
    (creates : frame.Creates environment ledger price) :
      Alters environment ⟨frame, waiting, ledger⟩ later := by
  have same := (frame.continues_pay price).trans (Creation.continues_creator (frame.pay price))
  have atOnce (granted : ¬ frame.Refused environment ledger (frame.operand 0)) {child : Outcome}
      (free : child.succeeded = true → ledger.hasAccount (Creation.address frame ledger) = false)
      {site : Site}
      (settled : site =
        SiteAction.settledAtOnce environment (Creation.asked (frame.pay price)) child
        (Creation.creator (frame.pay price)) ledger) :
      Alters environment ⟨frame, waiting, ledger⟩ ⟨site.frame.advance, waiting, site.ledger⟩ := by
    have answered :=
      SiteAction.continues_settledAtOnce environment (Creation.asked (frame.pay price)) child
      (Creation.creator (frame.pay price)) ledger
    have leaves : Leaves environment frame ledger site.ledger := by
      rw [settled, SiteAction.ledger_settledAtOnce_of_continues same]
      exact .settled creates granted _ child free
    rw [← settled] at answered
    exact .level ((same.trans answered).trans site.frame.continues_advance) leaves
  cases makes with
  | refused refused => exact .level ⟨rfl, rfl, rfl, rfl⟩ .same
  | @collided granted inUse site settled =>
      have failed :
          Outcome.succeeded { fault := some (SiteAction.taken (Creation.address frame ledger)) } ≠
            true :=
        Bool.false_ne_true
      exact atOnce granted (fun succeeded => absurd succeeded failed) settled
  | passed granted free empty settled => exact atOnce granted (fun _ => free) settled
  | @entered granted free code creator ready creation asked =>
      subst ready
      have enters : Enters environment frame ledger
          (.creation (Creation.address frame ledger)
            (creation.recorded (Creation.creator (frame.pay price)) ledger).1
            creation.gas) (Creation.address frame ledger) (ledger.bumpNonce frame.owner)
            (creation.opened (Creation.creator (frame.pay price)) ledger) := by
        rw [creation.opened_of_continues same]
        exact .creation creates granted free creation _ _
      exact .down (same.trans (creation.continues_recorded _ ledger)) enters

theorem Executes.alters (executes : Executes environment frame waiting ledger later) :
    Alters environment ⟨frame, waiting, ledger⟩ later := by
  cases executes with
  | unpaid fault quoted => exact .level (frame.continues_halt fault) .same
  | worked due changes => exact .level ((frame.continues_pay _).trans changes.continues) .same
  | failed due changes fault =>
      have same := (frame.continues_pay _).trans changes.continues
      exact .level (same.trans (Frame.continues_halt _ fault)) .same
  | stored due mutable => exact .level ⟨rfl, rfl, rfl, rfl⟩ (.stored _ _)
  | removed due mutable => exact .level ⟨rfl, rfl, rfl, rfl⟩ (.removed due mutable)
  | sent calls sends => exact sends.alters calls
  | made creates makes => exact makes.alters creates

theorem alters_next (nested : Nested environment root machine.frame machine.waiting)
    (runs : machine.finished = false) :
    Alters environment machine (machine.next environment) := by
  obtain ⟨frame, waiting, ledger⟩ := machine
  cases stopped : frame.stopped with
  | false =>
      rw [next_running waiting stopped]
      exact (executes_instruct waiting stopped).alters
  | true =>
      obtain ⟨parent, waiting, rfl, goes⟩ := next_of_stopped nested runs stopped
      rw [goes]
      exact .up frame parent waiting ledger

/-- What an invariant of owners and ledgers has to bear of a step for the step to carry it over. Of
a child that did not succeed nothing is left that it would have to bear. -/
theorem Alters.carries (holds : Address → Ledger → Ledger → Prop) (waits : Awaited → Prop)
    (alters : Alters environment machine later)
    (level : ∀ {after below : Ledger}, Leaves environment machine.frame machine.ledger after →
      holds machine.frame.owner machine.ledger below → holds machine.frame.owner after below)
    (down : ∀ {awaited : Awaited} {owner : Address} {kept after below : Ledger},
      Enters environment machine.frame machine.ledger awaited owner kept after →
      holds machine.frame.owner machine.ledger below →
        waits awaited ∧ holds machine.frame.owner kept below ∧ holds owner after kept)
    (up : ∀ {awaited : Awaited} {child : Outcome} {owner creator : Address} {ledger below : Ledger},
      waits awaited →
      holds owner ledger (ledger.below 1) → holds creator (ledger.below 1) below →
        holds creator (awaited.written environment child ledger).commit below) :
    Carries (fun frame => holds frame.owner) (fun parent => waits parent.awaited) machine
      later := by
  cases alters with
  | @level frame later waiting ledger after same leaves =>
      refine .level same leaves.keepsBelow ?_
      intro below here
      rw [same.owner]
      exact level leaves here
  | @down frame caller child awaited waiting ledger kept after same enters =>
      refine .down same enters.keepsBelow.1 enters.keepsBelow.2 ?_
      intro below here
      obtain ⟨asks, parent, fresh⟩ := down enters here
      rw [← same.owner] at parent
      exact ⟨asks, parent, fresh⟩
  | up child parent waiting ledger =>
      have same := (parent.awaited.continues_answered environment child.outcome parent.frame).trans
        (Frame.continues_advance _)
      refine .up same (parent.awaited.closes_closed environment child.outcome ledger) ?_
      intro below tracked asks inner outer
      rw [same.owner]
      rcases parent.awaited.closed_cases environment child.outcome tracked with kept | dropped
      · rw [kept]
        exact up asks inner outer
      · rw [dropped]
        exact outer

end

end Machine

end ContractMachine
