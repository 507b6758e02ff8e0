import ContractMachine.Proofs.Machine.Atomicity
import ContractMachine.Proofs.Machine.Gas

/-!
Gas is settled to the unit. Where the stipend is covered by the price of a call, no sum or
difference of gas is ever cut off (`Clips` lists them all), and a call or creation costs its caller
what the instruction itself costs and what its child has consumed, less the stipend.
-/

namespace ContractMachine

namespace Frame

def Overspends (frame : Frame) (gas : Nat) : Prop :=
  Quantity.limit < frame.outcome.gasUsed + gas ∨ frame.context.gas < frame.outcome.gasUsed + gas

theorem Solvent.not_overspends {frame : Frame} (solvent : frame.Solvent) {gas : Nat}
    (left : gas ≤ frame.gasLeft) : ¬ frame.Overspends gas := by
  have within := solvent.within
  have bounded := solvent.bounded
  unfold gasLeft at left
  rintro (exceeds | exceeds) <;> omega

end Frame

namespace Awaited

inductive Clips (environment : Environment) (child outcome : Outcome) : Awaited → Prop where
  | left (awaited : Awaited) (exceeds : awaited.gas < child.gasUsed) :
      Clips environment child outcome awaited
  | deposit {address : Address} {record gas price : Nat}
      (decision : environment.config.deposit child.returnData.size (gas - child.gasUsed) =
        .deploy price)
      (exceeds : Quantity.limit < child.gasUsed + price) :
        Clips environment child outcome (.creation address record gas)
  | final (awaited : Awaited) (exceeds : awaited.gas < (awaited.final environment child).gasUsed) :
      Clips environment child outcome awaited
  | back (awaited : Awaited)
      (exceeds : outcome.gasUsed < awaited.gas - (awaited.final environment child).gasUsed) :
      Clips environment child outcome awaited

theorem not_clips {environment : Environment} {child outcome : Outcome} {awaited : Awaited}
    (within : child.gasUsed ≤ awaited.gas) (bounded : awaited.gas ≤ Quantity.limit)
    (paid : awaited.gas ≤ outcome.gasUsed) : ¬ awaited.Clips environment child outcome := by
  intro clips
  have final := awaited.gasUsed_final environment within bounded
  cases clips with
  | left _ exceeds => omega
  | deposit decision exceeds =>
      have part := Config.le_of_deploy decision
      simp only [Awaited.gas] at within bounded
      omega
  | final _ exceeds => omega
  | back _ exceeds => omega

end Awaited

namespace Machine

def frames (machine : Machine) : List Frame := machine.frame :: machine.waiting.map Waiting.frame

inductive Clips (environment : Environment) (machine : Machine) : Prop where
  | left {frame : Frame} (member : frame ∈ machine.frames)
      (exceeds : frame.context.gas < frame.outcome.gasUsed) :
      Clips environment machine
  | charge {op : Opcode} {price : Price}
      (due : machine.frame.Due environment machine.ledger op price)
      (exceeds : machine.frame.Overspends price.total) : Clips environment machine
  -- The frame is stopped by force at an instruction that it cannot pay for.
  | unpaid {fault : Fault}
      (quoted : machine.frame.quote environment.config.fees machine.ledger = .error fault)
      (runs : machine.frame.stopped = false)
      (exceeds : machine.frame.Overspends machine.frame.gasLeft) :
      Clips environment machine
  -- The frame is stopped by force when its instruction fails, whatever has become of it by then.
  | failed {op : Opcode} {price : Price} {fault : Fault} {later : Frame} {after : Ledger}
      (due : machine.frame.Due environment machine.ledger op price)
      (failed : SiteAction.execute environment op price.forwarded
        ⟨machine.frame.pay price, machine.ledger⟩ =
        .error fault ⟨later, after⟩)
      (exceeds : later.Overspends later.gasLeft) : Clips environment machine
  -- All that was handed on comes back: from a call that is refused, or to an account without code.
  | handed {kind : CallKind} {price : Price} {message : Message} {caller : Frame}
      (calls : machine.frame.Calls environment machine.ledger kind price message caller)
      (exceeds : caller.outcome.gasUsed < message.gas) : Clips environment machine
  -- What a precompile does not cost comes back.
  | spare {kind : CallKind} {price : Price} {message : Message} {caller : Frame}
      (contract : Precompile)
      (calls : machine.frame.Calls environment machine.ledger kind price message caller)
      (exceeds : caller.outcome.gasUsed < message.gas - contract.price (message.input caller)) :
      Clips environment machine
  -- The output of a precompile is paid for.
  | output {kind : CallKind} {price : Price} {message : Message} {caller : Frame}
      {contract : Precompile} {growth : Nat}
      (calls : machine.frame.Calls environment machine.ledger kind price message caller)
      (paid : growth ≤ (SiteAction.precompiled message contract caller).gasLeft)
      (exceeds : (SiteAction.precompiled message contract caller).Overspends growth) :
      Clips environment machine
  | setAside {price : Price} (creates : machine.frame.Creates environment machine.ledger price)
      (exceeds : (machine.frame.pay price).Overspends
        (Creation.asked (machine.frame.pay price)).gas) :
      Clips environment machine
  -- A creation ends without a frame of its own: there is no code to run, or the address is taken.
  | atOnce {price : Price} (creates : machine.frame.Creates environment machine.ledger price)
      (fault : Option Fault)
      (clips : Awaited.Clips environment { fault := fault }
        (Creation.creator (machine.frame.pay price)).outcome
        ((Creation.asked (machine.frame.pay price)).awaited
          (Creation.creator (machine.frame.pay price)) machine.ledger)) :
      Clips environment machine
  -- A frame that has stopped is taken over by the one that waits for it.
  | taken {parent : Waiting} {waiting : List Waiting} (waits : machine.waiting = parent :: waiting)
      (stopped : machine.frame.stopped = true)
      (clips : parent.awaited.Clips environment machine.frame.outcome parent.frame.outcome) :
        Clips environment machine

theorem Funded.mem {frame other : Frame} {waiting : List Waiting} (funded : Funded frame waiting)
    (member : other ∈ frame :: waiting.map Waiting.frame) : other.Solvent := by
  induction funded with
  | root solvent =>
      rw [List.mem_singleton.mp member]
      exact solvent
  | child outer solvent goes handed paid ih =>
      rcases List.mem_cons.mp member with rfl | waits
      · exact solvent
      · exact ih waits

section

variable {environment : Environment} {root frame caller later : Frame} {waiting : List Waiting}
  {ledger after : Ledger} {op : Opcode} {kind : CallKind} {price : Price} {message : Message}
  {machine : Machine} {fault : Fault}

/-- The caller of a precompile when it has been given back what the precompile does not cost. -/
theorem solvent_precompiled (contract : Precompile) (solvent : caller.Solvent)
    (goes : caller.outcome.fault = none) :
    (SiteAction.precompiled message contract caller).Solvent :=
  solvent.of_goes rfl (Nat.le_trans (Nat.sub_le _ _) solvent.within) goes

theorem changes_of_failed_alone (execution : SiteAction.execute environment op price.forwarded = do
      let ledger ← SiteAction.reads fun site => site.ledger
      SiteAction.onFrame (FrameAction.perform environment ledger op)
      pure none)
    (failed : SiteAction.execute environment op price.forwarded ⟨frame, ledger⟩ =
      .error fault ⟨later, after⟩) :
    frame.Changes later := by
  rw [execution] at failed
  simp only [bind_apply, SiteAction.reads_apply, SiteAction.onFrame_apply] at failed
  cases ran : FrameAction.perform environment ledger op frame with
  | ok value changed => rw [ran] at failed; cases failed
  | error cause changed =>
      rw [ran] at failed
      cases failed
      exact (FrameAction.works_perform environment ledger op).error ran

theorem advanceUnless_ends (spawn : Option Spawn) (site : Site) :
    ∃ result last, SiteAction.advanceUnless spawn site = .ok result last := by
  cases spawn with
  | none => exact ⟨_, _, rfl⟩
  | some spawn => exact ⟨_, _, rfl⟩

theorem callAccount_ends (environment : Environment) (message : Message) (room : caller.HasRoom)
    (ledger : Ledger) :
    ∃ result last, SiteAction.callAccount environment message ⟨caller, ledger⟩ =
      .ok result last := by
  rw [SiteAction.callAccount_eq environment message ledger room]
  split
  · exact ⟨_, _, rfl⟩
  · split
    · exact ⟨_, _, rfl⟩
    · split <;> exact ⟨_, _, rfl⟩

theorem createWith_ends (environment : Environment) (creation : Creation) (room : caller.HasRoom)
    (ledger : Ledger) :
    ∃ result last,
      SiteAction.createWith environment creation.value creation.code creation.gas ⟨caller, ledger⟩ =
      .ok result last := by
  rw [SiteAction.createWith_eq environment creation ledger room]
  split
  · exact ⟨_, _, rfl⟩
  · split <;> exact ⟨_, _, rfl⟩

/-- A precompile that has been paid fails its caller only when the output is delivered. -/
theorem precompiled_of_failed {contract : Precompile} (room : caller.HasRoom)
    (failed : SiteAction.callPrecompile environment message contract ⟨caller, ledger⟩ =
      .error fault ⟨later, after⟩) :
    later = SiteAction.precompiled message contract caller := by
  rw [SiteAction.callPrecompile_eq environment message contract ledger room] at failed
  split at failed
  · cases failed
  · split at failed
    · cases failed
    · split at failed
      · cases failed
      · rw [SiteAction.onFrame_apply] at failed
        cases ran : SiteAction.deliver environment message (contract.run (message.input caller))
            (SiteAction.precompiled message contract caller) with
        | ok value other => rw [ran] at failed; cases failed
        | error cause other =>
            rw [ran] at failed
            cases failed
            exact SiteAction.eq_of_deliver_error ran

theorem solvent_of_failed_call (due : frame.Due environment ledger (.call kind) price)
    (solvent : frame.Solvent)
    (failed : SiteAction.execute environment (.call kind) price.forwarded
      ⟨frame.pay price, ledger⟩ = .error fault ⟨later, after⟩) : later.Solvent := by
  simp only [SiteAction.execute, SiteAction.call, bind_apply, SiteAction.onFrame_apply] at failed
  cases read : SiteAction.readMessage environment kind price.forwarded (frame.pay price) with
  | error cause other =>
      rw [read] at failed
      cases failed
      rw [SiteAction.readMessage_eq environment kind price.forwarded due.enough] at read
      -- Operands are there to be read; all that can be wrong is a value sent from a static frame.
      split at read
      · cases read
        exact (solvent.of_changes due ((frame.pay price).changes_dropWords 3)).1
      · cases read
  | ok message caller =>
      have calls : frame.Calls environment ledger kind price message caller := ⟨due, read⟩
      simp only [read] at failed
      cases found : environment.config.precompiles.find? message.codeAddress with
      | none =>
          obtain ⟨spawn, site, ended⟩ := callAccount_ends environment message calls.room ledger
          obtain ⟨result, last, advanced⟩ := advanceUnless_ends spawn site
          simp only [found, ended, advanced] at failed
          cases failed
      | some contract =>
          simp only [found, bind_apply, pure_apply] at failed
          cases ran : SiteAction.callPrecompile environment message contract ⟨caller, ledger⟩ with
          | ok value site => rw [ran] at failed; cases failed
          | error cause site =>
              rw [ran] at failed
              cases failed
              rw [precompiled_of_failed calls.room ran]
              exact solvent_precompiled contract (calls.solvent solvent)
                (calls.fault.trans (solvent.goes due.runs))

theorem solvent_of_failed_create (due : frame.Due environment ledger .create price)
    (solvent : frame.Solvent)
    (failed : SiteAction.execute environment .create price.forwarded ⟨frame.pay price, ledger⟩ =
      .error fault ⟨later, after⟩) : later.Solvent := by
  have room : (Creation.creator (frame.pay price)).HasRoom := due.room rfl
  obtain ⟨spawn, site, ended⟩ :=
    createWith_ends environment (Creation.asked (frame.pay price)) room ledger
  obtain ⟨result, last, advanced⟩ := advanceUnless_ends spawn site
  simp only [SiteAction.execute, bind_apply,
    SiteAction.create_eq environment ledger due.enough (due.room rfl)] at failed
  by_cases static : (frame.pay price).context.isStatic = true
  · rw [if_pos static] at failed
    cases failed
    exact solvent.pay due
  · by_cases refused : (frame.pay price).Refused environment ledger ((frame.pay price).operand 0)
    · rw [if_neg static, if_pos refused] at failed
      cases failed
    · rw [if_neg static, if_neg refused, ended] at failed
      simp only [advanced] at failed
      cases failed

theorem solvent_of_failed (due : frame.Due environment ledger op price) (solvent : frame.Solvent)
    (failed : SiteAction.execute environment op price.forwarded ⟨frame.pay price, ledger⟩ =
      .error fault ⟨later, after⟩) : later.Solvent := by
  cases op with
  | create => exact solvent_of_failed_create due solvent failed
  | call kind => exact solvent_of_failed_call due solvent failed
  | sstore =>
      simp only [SiteAction.execute, bind_apply, SiteAction.store_eq ledger due.enough] at failed
      by_cases static : (frame.pay price).context.isStatic = true
      · rw [if_pos static] at failed
        cases failed
        exact solvent.pay due
      · rw [if_neg static] at failed
        cases failed
  | suicide =>
      simp only [SiteAction.execute, bind_apply, SiteAction.suicide_eq ledger due.enough] at failed
      by_cases static : (frame.pay price).context.isStatic = true
      · rw [if_pos static] at failed
        cases failed
        exact solvent.pay due
      · rw [if_neg static] at failed
        cases failed
  | _ => exact (solvent.of_changes due (changes_of_failed_alone rfl failed)).1

/-- No sum or difference of gas is cut off. -/
theorem Funded.not_clips (funded : Funded machine.frame machine.waiting)
    (covers : environment.config.fees.Covers 0) : ¬ Clips environment machine := by
  have solvent := funded.solvent
  intro clips
  cases clips with
  | left member exceeds => exact absurd (funded.mem member).within (Nat.not_le_of_lt exceeds)
  | charge due exceeds => exact solvent.not_overspends (Frame.quote_spec due.quoted).2.2 exceeds
  | unpaid quoted runs exceeds => exact solvent.not_overspends (Nat.le_refl _) exceeds
  | failed due failed exceeds =>
    exact (solvent_of_failed due solvent failed).not_overspends (Nat.le_refl _) exceeds
  | handed calls exceeds =>
      have charged := calls.charged (covers.covered _ _) solvent
      omega
  | spare contract calls exceeds =>
      have charged := calls.charged (covers.covered _ _) solvent
      omega
  | output calls paid exceeds =>
      have goes := calls.fault.trans (solvent.goes calls.due.runs)
      exact (solvent_precompiled _ (calls.solvent solvent) goes).not_overspends paid exceeds
  | setAside creates exceeds =>
    exact (solvent.pay creates.due).not_overspends (Nat.sub_le _ _) exceeds
  | atOnce creates fault clips =>
      obtain ⟨ready, setAside⟩ :=
        solvent_creator (solvent.pay creates.due) (solvent.goes creates.due.runs)
      have within := ready.within
      have bounded := ready.bounded
      refine Awaited.not_clips (Nat.zero_le _) ?_ ?_ clips
      · change (Creation.asked _).gas ≤ _
        omega
      · change (Creation.asked _).gas ≤ _
        omega
  | taken waits stopped clips =>
      rw [waits] at funded
      cases funded with
      | child outer inner goes handed paid =>
          have within := inner.within
          have bounded := inner.bounded
          rw [handed] at within bounded
          exact Awaited.not_clips within bounded paid clips

end

end Machine

inductive Message.Consumes (environment : Environment) (message : Message) (caller : Frame)
    (ledger : Ledger) : Nat → Prop where
  | refused (refused : caller.Refused environment ledger message.value) :
      Consumes environment message caller ledger 0
  | withoutCode (granted : ¬ caller.Refused environment ledger message.value)
      (found : environment.config.precompiles.find? message.codeAddress = none)
      (empty : ledger.code message.codeAddress = #[]) : Consumes environment message caller ledger 0
  -- A precompile costs its price and the memory that its output needs.
  | precompile {contract : Precompile} {growth : Nat}
      (granted : ¬ caller.Refused environment ledger message.value)
      (found : environment.config.precompiles.find? message.codeAddress = some contract)
      (paid : contract.price (message.input caller) ≤ message.gas)
      (grows : environment.config.fees.growth
        (SiteAction.precompiled message contract caller).memory.size
        (memoryNeeded (Word.ofNat message.outOffset)
          (Word.ofNat (contract.run (message.input caller)).size)) = .ok growth) :
      Consumes environment message caller ledger (contract.price (message.input caller) + growth)
  | drained {contract : Precompile} (granted : ¬ caller.Refused environment ledger message.value)
      (found : environment.config.precompiles.find? message.codeAddress = some contract)
      (dear : message.gas < contract.price (message.input caller)) :
        Consumes environment message caller ledger message.gas

inductive Creation.Consumes (environment : Environment) (frame : Frame) (ledger : Ledger) :
    Nat → Prop where
  | refused (refused : frame.Refused environment ledger (frame.operand 0)) :
      Consumes environment frame ledger 0
  | withoutCode (granted : ¬ frame.Refused environment ledger (frame.operand 0))
      (free : ledger.hasAccount (address frame ledger) = false)
      (empty : (asked frame).code.isEmpty = true) :
      Consumes environment frame ledger 0
  | collided (granted : ¬ frame.Refused environment ledger (frame.operand 0))
      (inUse : ledger.hasAccount (address frame ledger) = true) :
        Consumes environment frame ledger (asked frame).gas

namespace Machine

/-- The gas that the call or creation that `before` is at has consumed when it has come to its end,
of what was handed on or set aside for it. -/
inductive Consumes (environment : Environment) (before : Machine) :
    Opcode → Nat → Machine → Prop where
  | call {kind : CallKind} {price : Price} {message : Message} {caller : Frame} {consumed : Nat}
      (calls : before.frame.Calls environment before.ledger kind price message caller)
      (consumes : message.Consumes environment caller before.ledger consumed) :
      Consumes environment before (.call kind) consumed (before.next environment)
  | creation {price : Price} {consumed : Nat}
      (creates : before.frame.Creates environment before.ledger price)
      (consumes : Creation.Consumes environment (before.frame.pay price) before.ledger consumed) :
      Consumes environment before .create consumed (before.next environment)
  -- Success or REVERT: what the child has used, with the deposit.
  | child {op : Opcode} {last : Machine} {parent : Waiting}
      (asks : Asks environment before.frame before.ledger op)
      (stays : Stays environment before.waiting.length (before.next environment) last)
      (back : last.waiting = parent :: before.waiting) (stopped : last.frame.stopped = true)
      (sound : (parent.awaited.final environment last.frame.outcome).fault = none) :
      Consumes environment before op (parent.awaited.final environment last.frame.outcome).gasUsed
        (last.next environment)
  -- A fault of the child or of the deposit: all that the child was given.
  | lost {op : Opcode} {last : Machine} {parent : Waiting}
      (asks : Asks environment before.frame before.ledger op)
      (stays : Stays environment before.waiting.length (before.next environment) last)
      (back : last.waiting = parent :: before.waiting) (stopped : last.frame.stopped = true)
      (faulty : (parent.awaited.final environment last.frame.outcome).fault.isSome = true) :
      Consumes environment before op last.frame.context.gas (last.next environment)

section

variable {environment : Environment} {root frame caller : Frame} {waiting : List Waiting}
  {ledger : Ledger} {op : Opcode} {kind : CallKind} {price : Price} {message : Message}
  {machine later : Machine}

theorem Sends.consumes (sends : Sends environment message caller waiting ledger later)
    (level : later.waiting = waiting) (ends : later.frame.outcome.fault = none)
    (solvent : caller.Solvent) (goes : caller.outcome.fault = none)
    (handed : message.gas ≤ caller.outcome.gasUsed) :
    ∃ consumed, message.Consumes environment caller ledger consumed ∧
      later.frame.outcome.gasUsed + message.gas = caller.outcome.gasUsed + consumed := by
  have returned : caller.outcome.gasUsed - message.gas + message.gas = caller.outcome.gasUsed + 0 :=
    Nat.sub_add_cancel handed
  cases sends with
  | @refused refused reader read =>
      refine ⟨0, .refused refused, ?_⟩
      have kept : reader.outcome = caller.outcome := by rcases read with rfl | rfl <;> rfl
      change reader.outcome.gasUsed - message.gas + message.gas = _
      rw [kept]
      exact returned
  | drained granted found dear => exact ⟨message.gas, .drained granted found dear, rfl⟩
  | @delivered contract granted found paid later ran =>
      obtain ⟨growth, grows, left, delivered⟩ := SiteAction.deliver_spec ran
      have outcome := congrArg Frame.outcome delivered
      have used := (solvent_precompiled contract solvent goes).gasUsed_spend left
      have before : (SiteAction.precompiled message contract caller).outcome.gasUsed =
          caller.outcome.gasUsed - (message.gas - contract.price (message.input caller)) := rfl
      refine ⟨_, .precompile granted found (Nat.le_of_not_lt paid) grows, ?_⟩
      change later.outcome.gasUsed + message.gas = _
      rw [outcome, used, before]
      omega
  | overdrawn granted found paid ran => cases ends
  | passed granted found empty => exact ⟨0, .withoutCode granted found empty, returned⟩
  | entered granted found code =>
      have longer := congrArg List.length level
      simp only [List.length_cons] at longer
      omega

/-- A creator whose creation is settled at once has less by what that has consumed. -/
theorem gasUsed_of_settledAtOnce (environment : Environment) (ledger : Ledger) (child : Outcome)
    (ready : (Creation.creator frame).outcome.gasUsed = frame.outcome.gasUsed +
      (Creation.asked frame).gas)
    (within : child.gasUsed ≤ (Creation.asked frame).gas)
    (bounded : (Creation.asked frame).gas ≤ Quantity.limit) :
    (SiteAction.settledAtOnce environment (Creation.asked frame) child (Creation.creator frame)
      ledger).frame.outcome.gasUsed =
      frame.outcome.gasUsed +
        ((Creation.asked frame).awaited (Creation.creator frame) ledger).consumed environment
          child := by
  have part : _ ≤ (Creation.asked frame).gas := (Awaited.consumed_bounds environment
    ((Creation.asked frame).awaited (Creation.creator frame) ledger) within bounded).2
  rw [(Creation.gas_settledAtOnce environment (Creation.asked frame) child (Creation.creator frame)
    ledger).1, ready]
  omega

theorem Makes.consumes (makes : Makes environment frame waiting ledger later)
    (level : later.waiting = waiting) (solvent : frame.Solvent)
    (goes : frame.outcome.fault = none) :
    ∃ consumed, Creation.Consumes environment frame ledger consumed ∧
      later.frame.outcome.gasUsed = frame.outcome.gasUsed + consumed := by
  obtain ⟨ready, setAside⟩ := solvent_creator solvent goes
  have bounded : (Creation.asked frame).gas ≤ Quantity.limit := by
    have within := ready.within
    have most := ready.bounded
    omega
  cases makes with
  | refused refused => exact ⟨0, .refused refused, rfl⟩
  | @collided granted inUse site settled =>
      refine ⟨_, .collided granted inUse, ?_⟩
      change site.frame.outcome.gasUsed = _
      rw [settled]
      exact gasUsed_of_settledAtOnce environment ledger _ setAside (Nat.zero_le _) bounded
  | @passed granted free empty site settled =>
      refine ⟨0, .withoutCode granted free empty, ?_⟩
      change site.frame.outcome.gasUsed = _
      have consumed :
          ((Creation.asked frame).awaited (Creation.creator frame) ledger).consumed environment {} =
            0 := by
        rw [Creation.awaited, Awaited.consumed, Awaited.final, SiteAction.deposited_empty]
        rfl
      have used := gasUsed_of_settledAtOnce environment ledger {} setAside (Nat.zero_le _) bounded
      rw [settled, used, consumed]
  | entered granted free code =>
      have longer := congrArg List.length level
      simp only [List.length_cons] at longer
      omega

theorem Sends.hands (sends : Sends environment message caller waiting ledger later)
    (deeper : waiting.length < later.waiting.length) :
    ∃ parent, later.waiting = parent :: waiting ∧ parent.awaited.gas = message.gas ∧
      parent.frame.outcome.gasUsed = caller.outcome.gasUsed := by
  cases sends with
  | refused | drained | delivered | overdrawn | passed => exact absurd deeper (Nat.lt_irrefl _)
  | entered granted found code => exact ⟨_, rfl, rfl, rfl⟩

theorem Makes.hands (makes : Makes environment frame waiting ledger later)
    (deeper : waiting.length < later.waiting.length) :
    ∃ parent, later.waiting = parent :: waiting ∧ parent.awaited.gas = (Creation.asked frame).gas ∧
      parent.frame.outcome.gasUsed = (Creation.creator frame).outcome.gasUsed := by
  cases makes with
  | refused | collided | passed => exact absurd deeper (Nat.lt_irrefl _)
  | entered granted free code made asked =>
      subst made asked
      exact ⟨_, rfl, rfl, rfl⟩

theorem price_of_due {other : Price} (due : frame.Due environment ledger op price)
    (again : frame.Due environment ledger op other) : other = price := by
  have same := again.quoted.symm.trans due.quoted
  cases same
  rfl

/-- A creation hands nothing on with its price. What it sets aside comes on top. -/
theorem forwarded_of_create (due : frame.Due environment ledger .create price) :
    price.forwarded = 0 := by
  have priced := (Frame.quote_spec due.quoted).2.1
  obtain ⟨offset, _, priced⟩ := of_bind_eq_ok priced
  obtain ⟨size, _, priced⟩ := of_bind_eq_ok priced
  exact (Frame.workAndGrowth_spec priced).2.1

/-- The frame that waits has paid for its instruction and for what the child was given, save the
stipend. -/
theorem hands_of_asks (asks : Asks environment frame ledger op)
    (due : frame.Due environment ledger op price) (solvent : frame.Solvent)
    (deeper : waiting.length < (next environment ⟨frame, waiting, ledger⟩).waiting.length) :
    ∃ parent kept, (next environment ⟨frame, waiting, ledger⟩).waiting = parent :: waiting ∧
      Ledger.KeepsBelow (Ledger.checkpoint kept)
        (next environment ⟨frame, waiting, ledger⟩).ledger ∧
      parent.frame.outcome.gasUsed + frame.stipend environment.config.fees op =
        frame.outcome.gasUsed + price.own + parent.awaited.gas := by
  cases asks with
  | @call kind _ message caller calls =>
      cases price_of_due due calls.due
      obtain ⟨parent, entered, handed, used⟩ := (sends_next waiting calls).hands deeper
      obtain ⟨_, _, _, _, opened⟩ := (sends_next waiting calls).enters deeper
      refine ⟨parent, _, entered, opened, ?_⟩
      rw [used, handed, calls.gasUsed solvent, calls.message_gas, Price.total, Price.own]
      omega
  | creation creates =>
      cases price_of_due due creates.due
      obtain ⟨parent, entered, handed, used⟩ := (makes_next waiting creates).hands deeper
      obtain ⟨_, _, _, _, opened⟩ := (makes_next waiting creates).enters deeper
      have setAside := (solvent_creator (solvent.pay creates.due) (solvent.goes creates.due.runs)).2
      have forwarded := forwarded_of_create creates.due
      refine ⟨parent, _, entered, opened, ?_⟩
      rw [used, handed, setAside, solvent.gasUsed_pay creates.due.quoted, Price.total, forwarded]
      rfl

theorem consumes_of_level (asks : Asks environment frame ledger op)
    (due : frame.Due environment ledger op price) (solvent : frame.Solvent)
    (covers : environment.config.fees.Covers 0)
    (level : (next environment ⟨frame, waiting, ledger⟩).waiting = waiting)
    (ends : (next environment ⟨frame, waiting, ledger⟩).frame.outcome.fault = none) :
    ∃ consumed,
      Consumes environment ⟨frame, waiting, ledger⟩ op consumed
      (next environment ⟨frame, waiting, ledger⟩) ∧
      (next environment ⟨frame, waiting, ledger⟩).frame.outcome.gasUsed +
        frame.stipend environment.config.fees op =
        frame.outcome.gasUsed + price.own + consumed := by
  have goes := solvent.goes due.runs
  cases asks with
  | @call kind _ message caller calls =>
      cases price_of_due due calls.due
      have charged := calls.charged (covers.covered _ _) solvent
      have handed : message.gas ≤ caller.outcome.gasUsed := by omega
      obtain ⟨consumed, consumes, used⟩ :=
        (sends_next waiting calls).consumes level ends (calls.solvent solvent)
          (calls.fault.trans goes) handed
      refine ⟨consumed, .call calls consumes, ?_⟩
      rw [calls.gasUsed solvent, calls.message_gas, Price.total] at used
      rw [Price.own]
      omega
  | creation creates =>
      cases price_of_due due creates.due
      obtain ⟨consumed, consumes, used⟩ :=
        (makes_next waiting creates).consumes level (solvent.pay due) goes
      refine ⟨consumed, .creation creates consumes, ?_⟩
      rw [solvent.gasUsed_pay due.quoted, Price.total, forwarded_of_create due] at used
      exact used

/-- When its child has stopped, the frame that waits gets back what the child has not consumed. -/
theorem consumes_of_child {last : Machine} {parent : Waiting}
    (asks : Asks environment machine.frame machine.ledger op)
    (stays : Stays environment machine.waiting.length (machine.next environment) last)
    (back : last.waiting = parent :: machine.waiting) (stopped : last.frame.stopped = true)
    (funded : Funded last.frame (parent :: machine.waiting)) :
    ∃ consumed, Consumes environment machine op consumed (last.next environment) ∧
      (parent.awaited.answered environment last.frame.outcome parent.frame).outcome.gasUsed +
        parent.awaited.gas =
        parent.frame.outcome.gasUsed + consumed := by
  cases funded with
  | child outer solvent goes handed paid =>
      have within := solvent.within
      have bounded := solvent.bounded
      rw [handed] at within bounded
      have part := (parent.awaited.consumed_bounds environment within bounded).2
      rw [Awaited.gasUsed_answered]
      cases fault : (parent.awaited.final environment last.frame.outcome).fault with
      | none =>
          have consumed : parent.awaited.consumed environment last.frame.outcome =
              (parent.awaited.final environment last.frame.outcome).gasUsed := by
            rw [Awaited.consumed, fault]
            rfl
          refine ⟨_, .child asks stays back stopped fault, ?_⟩
          rw [consumed] at part ⊢
          omega
      | some cause =>
          have consumed :
              parent.awaited.consumed environment last.frame.outcome = parent.awaited.gas := by
            rw [Awaited.consumed, fault]
            rfl
          refine ⟨_, .lost asks stays back stopped (Option.isSome_iff_exists.mpr ⟨cause, fault⟩),
            ?_⟩
          rw [consumed, handed]
          omega

/-- Where the stipend is covered by the price of a call, in every state of a run no frame has used
more gas than it was given, and one with a fault has used all of it; no sum or difference of gas is
cut off; and when a call or creation has come to its end, its frame has used what it had used
before, what the instruction costs without the gas that it hands on, and what was consumed of that,
less the stipend. -/
theorem gas_is_settled_exactly
    (covered : environment.config.fees.stipend ≤ environment.config.fees.call +
      environment.config.fees.valueTransfer)
    (solvent : root.Solvent) (reached : Reaches environment (start root ledger) machine) :
    (∀ frame ∈ machine.frames, frame.outcome.gasUsed ≤ frame.context.gas ∧
      (frame.outcome.fault.isSome = true → frame.outcome.gasUsed = frame.context.gas)) ∧
    ¬ Clips environment machine ∧
    (∀ op price after, machine.frame.Due environment machine.ledger op price →
      Completes environment machine op after → after.frame.outcome.fault = none →
      ∃ consumed, Consumes environment machine op consumed after ∧
        after.frame.outcome.gasUsed + machine.frame.stipend environment.config.fees op =
          machine.frame.outcome.gasUsed + price.own + consumed) := by
  have covers := covers_of_stipend covered
  have nested := nested_of_reaches reached
  have funded : Funded machine.frame machine.waiting :=
    Funded.reaches (.root solvent) covers (.root (.refl root)) reached
  refine ⟨?bounded, funded.not_clips covers, ?settled⟩
  case bounded =>
    intro frame member
    have within := funded.mem member
    exact ⟨within.within, fun fault => (within.spent fault).2⟩
  case settled =>
    obtain ⟨frame, waiting, ledger⟩ := machine
    intro op price after due completes ends
    have solvent := funded.solvent
    cases completes with
    | atOnce asks level => exact consumes_of_level asks due solvent covers level ends
    | @child last parent asks stays back stopped =>
        have first := nested_next nested due.runs ledger
        obtain ⟨asking, kept, entered, opened, paid⟩ :=
          hands_of_asks asks due solvent stays.first_inside
        obtain ⟨same, -, -⟩ := back_at_child first entered opened stays back
        subst same
        -- When the child has stopped the frames are funded still, so nothing is cut off in the sum.
        have runs : frame.stopped = false := due.runs
        have goes : finished ⟨frame, waiting, ledger⟩ = false := by simp [finished, runs]
        have later := funded.reaches covers nested ((Reaches.here.step goes).trans stays.reaches)
        rw [back] at later
        obtain ⟨consumed, consumes, settles⟩ := consumes_of_child asks stays back stopped later
        refine ⟨consumed, consumes, ?_⟩
        rw [next_at_child (first.reaches stays.reaches) back stopped]
        change (parent.awaited.answered environment last.frame.outcome
          parent.frame).outcome.gasUsed + _ = _
        omega

end

theorem beforeCall_completes :
    Completes {} beforeCall (.call .call) (((beforeCall.next {}).runFor {} 4).next {}) := by
  have stays : Stays {} 0 (beforeCall.next {}) ((beforeCall.next {}).runFor {} 4) :=
    stays_runFor 4 (by decide +kernel)
  obtain ⟨parent, waits⟩ : ∃ parent, ((beforeCall.next {}).runFor {} 4).waiting = [parent] :=
    List.length_eq_one_iff.mp (by decide +kernel)
  exact .child (.call beforeCall_calls) stays waits (by decide +kernel)

theorem beforeCall_goes_on :
    (((beforeCall.next {}).runFor {} 4).next {}).frame.outcome.fault = none := by
  have none : (((beforeCall.next {}).runFor {} 4).next {}).frame.outcome.fault.isNone = true := by
    decide +kernel
  exact Option.isNone_iff_eq_none.mp none

theorem gas_is_settled_after_beforeCall :
    callingFrame.Solvent ∧ Reaches {} (start callingFrame calledLedger) beforeCall ∧
      beforeCall.frame.Due {} beforeCall.ledger (.call .call) callPrice ∧
      ∃ consumed,
        Consumes {} beforeCall (.call .call) consumed (((beforeCall.next {}).runFor {} 4).next {}) ∧
        (((beforeCall.next {}).runFor {} 4).next {}).frame.outcome.gasUsed +
            beforeCall.frame.stipend ({} : Environment).config.fees (.call .call) =
          beforeCall.frame.outcome.gasUsed + callPrice.own + consumed := by
  have solvent : callingFrame.Solvent := Frame.solvent_start _ _ (by decide)
  have reached : Reaches {} (start callingFrame calledLedger) beforeCall := runFor_reaches {} 7 _
  have covered : ({} : Environment).config.fees.stipend ≤
      ({} : Environment).config.fees.call + ({} : Environment).config.fees.valueTransfer := by
    decide
  obtain ⟨_, _, settled⟩ := gas_is_settled_exactly covered solvent reached
  exact ⟨solvent, reached, beforeCall_calls.due,
    settled _ _ _ beforeCall_calls.due beforeCall_completes beforeCall_goes_on⟩

end Machine

end ContractMachine
