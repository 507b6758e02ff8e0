import ContractMachine.Proofs.Frame.Gas
import ContractMachine.Proofs.Machine.Answer
import ContractMachine.Proofs.Machine.Nesting

/-!
Gas on its way from frame to frame. A frame that waits has paid for what it has handed on and gets
back what its child has not consumed, so that no frame ever uses more than it was given. `pays_next`
says this of every step, with `least` for the gas that a step uses up at the least: nothing under a
schedule whose stipend is covered by the price of a call, something under the default one.
-/

namespace ContractMachine

def Frame.Covered (frame : Frame) (environment : Environment) (ledger : Ledger) (least : Nat) :
    Prop :=
  ∀ (op : Opcode) (price : Price), frame.Due environment ledger op price → op.halts = false →
    frame.stipend environment.config.fees op + least ≤ price.work

theorem Fees.Covers.covered {environment : Environment} {least : Nat}
    (covers : environment.config.fees.Covers least) (frame : Frame) (ledger : Ledger) :
    frame.Covered environment ledger least := by
  intro op price due goes
  exact covers frame ledger op price (Frame.quote_spec due.quoted).2.1 goes

namespace Frame.Calls

variable {environment : Environment} {frame caller : Frame} {ledger : Ledger} {kind : CallKind}
  {price : Price} {message : Message}

theorem message_gas (calls : frame.Calls environment ledger kind price message caller) :
    message.gas = price.forwarded + frame.stipend environment.config.fees (.call kind) := by
  rw [calls.eqs.1]
  rfl

theorem gasUsed (calls : frame.Calls environment ledger kind price message caller)
    (solvent : frame.Solvent) :
    caller.outcome.gasUsed = frame.outcome.gasUsed + price.total := by
  have paid := solvent.gasUsed_pay calls.due.quoted
  rw [calls.eqs.2, ← paid]
  cases kind <;> rfl

theorem fault (calls : frame.Calls environment ledger kind price message caller) :
    caller.outcome.fault = frame.outcome.fault := by
  rw [calls.eqs.2]
  cases kind <;> rfl

theorem solvent (calls : frame.Calls environment ledger kind price message caller)
    (solvent : frame.Solvent) : caller.Solvent := by
  have paid := (solvent.pay calls.due).within
  rw [solvent.gasUsed_pay calls.due.quoted] at paid
  refine solvent.of_goes calls.continues.context ?_
    (calls.fault.trans (solvent.goes calls.due.runs))
  rw [calls.gasUsed solvent]
  exact paid

/-- The caller has paid for all that it hands on, the stipend included. -/
theorem charged {least : Nat} (calls : frame.Calls environment ledger kind price message caller)
    (covered : frame.Covered environment ledger least) (solvent : frame.Solvent) :
    frame.outcome.gasUsed + least + message.gas ≤ caller.outcome.gasUsed := by
  have work := covered (.call kind) price calls.due rfl
  rw [calls.gasUsed solvent, calls.message_gas, Price.total]
  omega

end Frame.Calls

/-- An instruction that ends a frame by itself stops it, if it ends without a fault. -/
theorem FrameAction.stopped_of_perform {environment : Environment} {ledger : Ledger} {op : Opcode}
    {frame later : Frame} (alone : op.isAlone = true) (halts : op.halts = true)
    (ran : perform environment ledger op frame = .ok () later) : later.stopped = true := by
  have behind {change : Bytes → Frame → Frame}
      (stops : ∀ data other, (change data other).stopped = true)
      (ran : (do let data ← popWindow; modify (change data) : FrameAction Unit) frame =
        .ok () later) :
      later.stopped = true := by
    rw [bind_apply] at ran
    split at ran
    · cases ran
      exact stops _ _
    · cases ran
  cases op with
  | stop =>
      cases ran
      rfl
  | returning | revert => exact behind (fun _ _ => rfl) ran
  | suicide => cases alone
  | _ => cases halts

theorem Config.le_of_deploy {config : Config} {size left price : Nat}
    (decision : config.deposit size left = .deploy price) : price ≤ left := by
  simp only [deposit] at decision
  split at decision
  · split at decision <;> cases decision
  · split at decision
    · cases decision
    · rename_i covered _
      cases decision
      exact Nat.le_of_not_lt covered

namespace Awaited

section

variable (environment : Environment) (awaited : Awaited) (child : Outcome) (frame : Frame)

theorem gasUsed_answered :
    (awaited.answered environment child frame).outcome.gasUsed =
      frame.outcome.gasUsed - (awaited.gas - awaited.consumed environment child) := by
  rw [outcome_answered, Outcome.giveBack, taken_gasUsed]

theorem fault_answered :
    (awaited.answered environment child frame).outcome.fault = frame.outcome.fault := by
  rw [outcome_answered, Outcome.giveBack, taken_fault]

end

variable (environment : Environment) (awaited : Awaited) {child : Outcome}

/-- The deposit of a creation is paid from what its code has left, so that the sum is exact. -/
theorem gasUsed_final (within : child.gasUsed ≤ awaited.gas)
    (bounded : awaited.gas ≤ Quantity.limit) :
    child.gasUsed ≤ (awaited.final environment child).gasUsed ∧
      (awaited.final environment child).gasUsed ≤ awaited.gas := by
  cases awaited with
  | call message record => exact ⟨Nat.le_refl _, within⟩
  | creation address record gas =>
      simp only [final, SiteAction.deposited, Awaited.gas] at *
      split
      · cases decision : environment.config.deposit child.returnData.size (gas - child.gasUsed) with
        | deploy price =>
            have covered := Config.le_of_deploy decision
            have exact : (child.spend price).gasUsed = child.gasUsed + price :=
              (Quantity.clamp_eq_iff _).mpr (by omega)
            simp only [exact]
            omega
        | deployEmpty => exact ⟨Nat.le_refl _, within⟩
        | fail fault => exact ⟨Nat.le_refl _, within⟩
      · exact ⟨Nat.le_refl _, within⟩

theorem consumed_bounds (within : child.gasUsed ≤ awaited.gas)
    (bounded : awaited.gas ≤ Quantity.limit) :
    child.gasUsed ≤ awaited.consumed environment child ∧
    awaited.consumed environment child ≤ awaited.gas := by
  unfold consumed
  split
  · exact gasUsed_final environment awaited within bounded
  · exact ⟨within, Nat.le_refl _⟩

end Awaited

theorem Creation.gas_settledAtOnce (environment : Environment) (creation : Creation)
    (child : Outcome) (frame : Frame) (ledger : Ledger) :
    (SiteAction.settledAtOnce environment creation child frame ledger).frame.outcome.gasUsed =
        frame.outcome.gasUsed -
          (creation.gas - (creation.awaited frame ledger).consumed environment child) ∧
      (SiteAction.settledAtOnce environment creation child frame ledger).frame.outcome.fault =
        frame.outcome.fault := by
  rw [SiteAction.frame_settledAtOnce]
  exact ⟨Awaited.gasUsed_answered _ _ _ _, Awaited.fault_answered _ _ _ _⟩

namespace Machine

/-- What a step does to the gas of the frames that take part in it. -/
inductive Pays (environment : Environment) (least : Nat) : Machine → Machine → Prop where
  | level {frame later : Frame} {waiting : List Waiting} {ledger after : Ledger}
      (runs : frame.stopped = false) (same : later.context = frame.context)
      (solvent : later.Solvent)
      (paid : frame.outcome.gasUsed + (if later.stopped then 0 else least) ≤
        later.outcome.gasUsed) :
      Pays environment least ⟨frame, waiting, ledger⟩ ⟨later, waiting, after⟩
  | down {frame parent child : Frame} {awaited : Awaited} {waiting : List Waiting}
      {ledger after : Ledger} (runs : frame.stopped = false) (same : parent.context = frame.context)
      (solvent : parent.Solvent) (goes : parent.outcome.fault = none)
      (paid : frame.outcome.gasUsed + least + awaited.gas ≤ parent.outcome.gasUsed)
      (fresh : child.Solvent) (unused : child.outcome.gasUsed = 0)
      (handed : child.context.gas = awaited.gas) :
      Pays environment least ⟨frame, waiting, ledger⟩ ⟨child, ⟨parent, awaited⟩ :: waiting, after⟩
  | up {child later : Frame} {parent : Waiting} {waiting : List Waiting} {ledger after : Ledger}
      (stopped : child.stopped = true) (same : later.context = parent.frame.context)
      (solvent : later.Solvent)
      (back : parent.frame.outcome.gasUsed + child.outcome.gasUsed ≤ later.outcome.gasUsed +
        parent.awaited.gas) :
      Pays environment least ⟨child, parent :: waiting, ledger⟩ ⟨later, waiting, after⟩

section

variable {environment : Environment} {least : Nat} {frame caller later : Frame}
  {waiting : List Waiting} {ledger after : Ledger} {reached : Machine}

theorem pays_level (later : Frame) (runs : frame.stopped = false)
    (same : later.context = frame.context) (solvent : later.Solvent)
    (paid : frame.outcome.gasUsed + least ≤ later.outcome.gasUsed) :
    Pays environment least ⟨frame, waiting, ledger⟩ ⟨later, waiting, after⟩ := by
  refine .level runs same solvent ?_
  split <;> omega

/-- A frame that is stopped by a fault has used what it was given. -/
theorem pays_halt (later : Frame) (fault : Fault) (runs : frame.stopped = false)
    (same : later.context = frame.context) (solvent : later.Solvent)
    (used : frame.outcome.gasUsed ≤ frame.context.gas) :
    Pays environment least ⟨frame, waiting, ledger⟩ ⟨later.halt fault, waiting, after⟩ := by
  refine .level runs same (solvent.halt fault) ?_
  have stopped : (later.halt fault).stopped = true := rfl
  rw [solvent.gasUsed_halt, same, stopped, if_pos rfl]
  exact used

/-- What becomes of a caller that hands `gas` on, whatever it has paid for that: no more comes
back. -/
inductive HandsOn (gas : Nat) (caller : Frame) (waiting : List Waiting) : Machine → Prop where
  | level {later : Frame} {after : Ledger} (same : later.context = caller.context)
      (solvent : later.Solvent) (back : caller.outcome.gasUsed ≤ later.outcome.gasUsed + gas) :
      HandsOn gas caller waiting ⟨later, waiting, after⟩
  | down {parent child : Frame} {awaited : Awaited} {after : Ledger}
      (same : parent.context = caller.context) (solvent : parent.Solvent)
      (goes : parent.outcome.fault = none) (kept : parent.outcome.gasUsed = caller.outcome.gasUsed)
      (handed : awaited.gas = gas) (fresh : child.Solvent) (unused : child.outcome.gasUsed = 0)
      (given : child.context.gas = gas) :
      HandsOn gas caller waiting ⟨child, ⟨parent, awaited⟩ :: waiting, after⟩

theorem Sends.handsOn {message : Message}
    (sends : Sends environment message caller waiting ledger reached) (solvent : caller.Solvent)
    (goes : caller.outcome.fault = none) (bounded : message.gas ≤ Quantity.limit) :
    HandsOn message.gas caller waiting reached := by
  have limit := solvent.within
  -- A caller that goes on at the same level has got back a part of what it has handed on.
  have returns (other : Frame) (gas : Nat) (part : gas ≤ message.gas)
      (context : other.context = caller.context) (fault : other.outcome.fault = none)
      (left : other.outcome.gasUsed = caller.outcome.gasUsed - gas) :
      other.Solvent ∧ caller.outcome.gasUsed ≤ other.outcome.gasUsed + message.gas :=
    ⟨solvent.of_goes context (by omega) fault, by omega⟩
  cases sends with
  | @refused refused reader read =>
      have kept : reader.context = caller.context ∧ reader.outcome = caller.outcome := by
        rcases read with rfl | rfl <;> exact ⟨rfl, rfl⟩
      have left : ((reader.put 0).giveBack message.gas).advance.outcome.gasUsed =
          caller.outcome.gasUsed - message.gas :=
        congrArg (fun outcome : Outcome => outcome.gasUsed - message.gas) kept.2
      obtain ⟨level, back⟩ :=
        returns ((reader.put 0).giveBack message.gas).advance message.gas (Nat.le_refl _)
        kept.1 ((congrArg Outcome.fault kept.2).trans goes) left
      exact .level kept.1 level back
  | drained granted found dear =>
      obtain ⟨level, back⟩ :=
        returns ((message.fed caller).put 0).advance 0 (Nat.zero_le _) rfl goes rfl
      exact .level rfl level back
  | @delivered contract granted found covered later ran =>
      obtain ⟨level, back⟩ := returns (SiteAction.precompiled message contract caller)
        (message.gas - contract.price (message.input caller)) (Nat.sub_le _ _) rfl goes rfl
      obtain ⟨growth, _, left, delivered⟩ := SiteAction.deliver_spec ran
      have outcome := congrArg Frame.outcome delivered
      have kept := (SiteAction.continues_of_deliver ran).context
      obtain ⟨spent, used⟩ := level.of_spend goes left kept outcome
      have fault : later.outcome.fault = none := by
        rw [outcome]
        exact goes
      have more : caller.outcome.gasUsed ≤ later.advance.outcome.gasUsed + message.gas := by
        change caller.outcome.gasUsed ≤ later.outcome.gasUsed + message.gas
        omega
      exact .level kept (spent.of_goes rfl spent.within fault) more
  | @overdrawn contract granted found covered later fault ran =>
      rw [SiteAction.eq_of_deliver_error ran]
      obtain ⟨level, _⟩ := returns (SiteAction.precompiled message contract caller)
        (message.gas - contract.price (message.input caller)) (Nat.sub_le _ _) rfl goes rfl
      have same :=
        ((SiteAction.continues_precompiled message contract caller).trans
          (Frame.continues_halt _ fault)).context
      refine .level same (level.halt fault) ?_
      rw [level.gasUsed_halt]
      exact Nat.le_trans limit (Nat.le_add_right _ _)
  | passed granted found empty =>
      obtain ⟨level, back⟩ :=
        returns (((message.recorded caller ledger).2.put 1).giveBack message.gas).advance
        message.gas (Nat.le_refl _) rfl goes rfl
      exact .level rfl level back
  | entered granted found code =>
      obtain ⟨level, _⟩ := returns (message.recorded caller ledger).2 0 (Nat.zero_le _) rfl goes rfl
      exact .down rfl level goes rfl rfl (Frame.solvent_start _ _ bounded) rfl rfl

theorem Sends.pays {message : Message}
    (sends : Sends environment message caller waiting ledger reached) (runs : frame.stopped = false)
    (same : caller.context = frame.context) (solvent : caller.Solvent)
    (goes : caller.outcome.fault = none)
    (charged : frame.outcome.gasUsed + least + message.gas ≤ caller.outcome.gasUsed) :
    Pays environment least ⟨frame, waiting, ledger⟩ reached := by
  have bounded : message.gas ≤ Quantity.limit := by
    have within := solvent.within
    have most := solvent.bounded
    omega
  cases sends.handsOn solvent goes bounded with
  | @level later after context level back =>
      have more : frame.outcome.gasUsed + least ≤ later.outcome.gasUsed := by omega
      exact pays_level later runs (context.trans same) level more
  | @down parent child awaited after context level goes kept handed fresh unused given =>
      rw [← handed, ← kept] at charged
      exact .down runs (context.trans same) level goes charged fresh unused
        (given.trans handed.symm)

/-- The creator when the gas for its creation is set aside. -/
theorem solvent_creator (solvent : frame.Solvent) (goes : frame.outcome.fault = none) :
    (Creation.creator frame).Solvent ∧
      (Creation.creator frame).outcome.gasUsed = frame.outcome.gasUsed +
        (Creation.asked frame).gas :=
  solvent.of_spend goes (Nat.sub_le _ _) rfl rfl

theorem Makes.pays {paid : Frame} (makes : Makes environment paid waiting ledger reached)
    (runs : frame.stopped = false) (same : paid.context = frame.context) (solvent : paid.Solvent)
    (goes : paid.outcome.fault = none)
    (charged : frame.outcome.gasUsed + least ≤ paid.outcome.gasUsed) :
    Pays environment least ⟨frame, waiting, ledger⟩ reached := by
  obtain ⟨ready, setAside⟩ := solvent_creator solvent goes
  -- Whatever the creation comes to, at most what was set aside for it comes back.
  have settled (child : Outcome) : Pays environment least ⟨frame, waiting, ledger⟩
      ⟨(SiteAction.settledAtOnce environment (Creation.asked paid) child (Creation.creator paid)
        ledger).frame.advance, waiting,
        (SiteAction.settledAtOnce environment (Creation.asked paid) child (Creation.creator paid)
          ledger).ledger⟩ := by
    obtain ⟨used, fault⟩ :=
      Creation.gas_settledAtOnce environment (Creation.asked paid) child (Creation.creator paid)
        ledger
    have kept :=
      SiteAction.continues_settledAtOnce environment (Creation.asked paid) child
      (Creation.creator paid) ledger
    have within := ready.within
    have most :
        (SiteAction.settledAtOnce environment (Creation.asked paid) child (Creation.creator paid)
          ledger).frame.outcome.gasUsed ≤ (Creation.creator paid).context.gas := by omega
    have more :
        frame.outcome.gasUsed + least ≤
          (SiteAction.settledAtOnce environment (Creation.asked paid) child
            (Creation.creator paid) ledger).frame.outcome.gasUsed := by omega
    exact pays_level _ runs (kept.context.trans same)
      (ready.of_goes kept.context most (fault.trans goes)) more
  cases makes with
  | refused refused =>
      have level : ((Creation.reader paid).put 0).advance.Solvent :=
        solvent.of_goes rfl solvent.within goes
      exact pays_level _ runs same level charged
  | collided granted inUse done =>
      subst done
      exact settled _
  | passed granted free empty done =>
      subst done
      exact settled _
  | @entered granted free code creator made creation asked =>
      subst made asked
      have level : ((Creation.asked paid).recorded (Creation.creator paid) ledger).2.Solvent :=
        ready.of_goes rfl ready.within goes
      have within := ready.within
      have most := ready.bounded
      have bounded : (Creation.asked paid).gas ≤ Quantity.limit := by omega
      refine .down runs same level goes ?_ (Frame.solvent_start _ _ bounded) rfl rfl
      change frame.outcome.gasUsed + least + (Creation.asked paid).gas ≤
        (Creation.creator paid).outcome.gasUsed
      omega

theorem Executes.pays (executes : Executes environment frame waiting ledger reached)
    (covers : frame.Covered environment ledger least) (solvent : frame.Solvent)
    (runs : frame.stopped = false) :
    Pays environment least ⟨frame, waiting, ledger⟩ reached := by
  have goes := solvent.goes runs
  have covered {op : Opcode} {price : Price} (due : frame.Due environment ledger op price)
      (on : op.halts = false) :
      frame.outcome.gasUsed + least ≤ frame.outcome.gasUsed + price.total := by
    have work := covers op price due on
    rw [Price.total]
    omega
  -- A frame that has failed has used all its gas; any other has paid at least the price.
  cases executes with
  | unpaid fault quoted => exact pays_halt frame fault runs rfl solvent solvent.within
  | @worked op price later due changes alone ran =>
      obtain ⟨level, used⟩ := solvent.of_changes due changes
      refine .level runs changes.context level ?_
      rw [used]
      cases halts : op.halts with
      | true =>
          rw [FrameAction.stopped_of_perform alone halts ran, if_pos rfl]
          exact Nat.le_add_right _ _
      | false =>
          have on := covered due halts
          split <;> omega
  | @failed op price later due changes fault =>
      exact pays_halt later fault runs changes.context
        (solvent.of_changes due changes).1 solvent.within
  | @stored price due mutable =>
      have moved := (frame.pay price).changes_dropWords 2
      obtain ⟨level, used⟩ := solvent.of_changes due (moved.trans (Frame.Change.goTo _).changes)
      exact pays_level _ runs rfl level (Nat.le_trans (covered due rfl) (Nat.le_of_eq used.symm))
  | @removed price due mutable =>
      have level : (SiteAction.removing (frame.pay price) ledger).Solvent :=
        (solvent.pay due).of_goes rfl (solvent.pay due).within goes
      refine .level runs rfl level ?_
      change frame.outcome.gasUsed + 0 ≤ (frame.pay price).outcome.gasUsed
      rw [solvent.gasUsed_pay due.quoted]
      exact Nat.le_add_right _ _
  | @sent kind price message caller later calls sends =>
      exact sends.pays runs calls.continues.context (calls.solvent solvent) (calls.fault.trans goes)
        (calls.charged covers solvent)
  | @made price later creates makes =>
      refine makes.pays runs rfl (solvent.pay creates.due) goes ?_
      rw [solvent.gasUsed_pay creates.due.quoted]
      exact covered creates.due rfl

end

/-- Every frame is solvent, and those that wait have paid for what their children were given. -/
inductive Funded : Frame → List Waiting → Prop where
  | root {frame : Frame} (solvent : frame.Solvent) : Funded frame []
  | child {frame : Frame} {parent : Waiting} {waiting : List Waiting}
      (outer : Funded parent.frame waiting) (solvent : frame.Solvent)
      (goes : parent.frame.outcome.fault = none) (handed : frame.context.gas = parent.awaited.gas)
      (paid : parent.awaited.gas ≤ parent.frame.outcome.gasUsed) : Funded frame (parent :: waiting)

theorem Funded.solvent {frame : Frame} {waiting : List Waiting} (funded : Funded frame waiting) :
    frame.Solvent := by
  cases funded with
  | root solvent => exact solvent
  | child outer solvent => exact solvent

theorem Funded.later {frame later : Frame} {waiting : List Waiting} (funded : Funded frame waiting)
    (same : later.context = frame.context) (solvent : later.Solvent) : Funded later waiting := by
  cases funded with
  | root before => exact .root solvent
  | child outer before goes handed paid =>
      rw [← same] at handed
      exact .child outer solvent goes handed paid

section

variable {environment : Environment} {least : Nat} {root : Frame} {machine later : Machine}

theorem Pays.funded (pays : Pays environment least machine later)
    (funded : Funded machine.frame machine.waiting) : Funded later.frame later.waiting := by
  cases pays with
  | level runs same solvent paid => exact funded.later same solvent
  | @down frame parent child awaited waiting ledger after runs same solvent goes paid fresh unused
      handed =>
      have covered : awaited.gas ≤ parent.outcome.gasUsed := by omega
      exact .child (funded.later same solvent) fresh goes handed covered
  | up stopped same solvent back =>
      cases funded with
      | child outer before goes handed paid => exact outer.later same solvent

theorem pays_next (covers : environment.config.fees.Covers least)
    (nested : Nested environment root machine.frame machine.waiting)
    (funded : Funded machine.frame machine.waiting) (runs : machine.finished = false) :
    Pays environment least machine (machine.next environment) := by
  obtain ⟨frame, waiting, ledger⟩ := machine
  cases stopped : frame.stopped with
  | false =>
      rw [next_running waiting stopped]
      exact (executes_instruct waiting stopped).pays
        (covers.covered frame ledger) funded.solvent stopped
  | true =>
      obtain ⟨parent, waiting, rfl, moved⟩ := next_of_stopped nested runs stopped
      rw [moved]
      cases funded with
      | child above solvent goes handed paid =>
          have within := solvent.within
          have most := solvent.bounded
          rw [handed] at within most
          have consumed :
              frame.outcome.gasUsed ≤ parent.awaited.consumed environment frame.outcome ∧
              parent.awaited.consumed environment frame.outcome ≤ parent.awaited.gas :=
            parent.awaited.consumed_bounds environment within most
          have used := parent.awaited.gasUsed_answered environment frame.outcome parent.frame
          have kept :=
            (parent.awaited.continues_answered environment frame.outcome parent.frame).context
          have fault :=
            (parent.awaited.fault_answered environment frame.outcome parent.frame).trans goes
          have bound := above.solvent.within
          have level :
              (parent.awaited.answered environment frame.outcome parent.frame).advance.Solvent :=
            above.solvent.of_goes kept (Nat.le_trans (Nat.le_of_eq used) (by omega)) fault
          refine .up stopped kept level ?_
          change parent.frame.outcome.gasUsed + frame.outcome.gasUsed ≤
            (parent.awaited.answered environment frame.outcome parent.frame).outcome.gasUsed +
              parent.awaited.gas
          omega

theorem Funded.reaches {first : Machine} (funded : Funded first.frame first.waiting)
    (covers : environment.config.fees.Covers least)
    (nested : Nested environment root first.frame first.waiting)
    (reached : Reaches environment first machine) : Funded machine.frame machine.waiting := by
  induction reached with
  | here => exact funded
  | step before runs ih => exact (pays_next covers (nested.reaches before) ih runs).funded ih

end

end Machine

end ContractMachine
