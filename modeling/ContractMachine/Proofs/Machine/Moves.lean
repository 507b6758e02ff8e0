import ContractMachine.Machine
import ContractMachine.Proofs.Site.Call
import ContractMachine.Proofs.Site.Creation

/-!
What a step of the machine can be. `executes_instruct` reads an instruction back as one of the cases
of `Executes`, with the frame and the ledger that it leaves; `next_stopped` says what a frame that
has waited goes on with, provided that it has room for the answer.
-/

namespace ContractMachine

namespace Awaited

def final (environment : Environment) : Awaited → Outcome → Outcome
  | .call _ _, child => child
  | .creation _ _ gas, child => SiteAction.deposited environment gas child

def written (environment : Environment) (child : Outcome) (ledger : Ledger) : Awaited → Ledger
  | .call _ _ => ledger
  | .creation address _ gas => SiteAction.deployed environment address gas child ledger

def closed (environment : Environment) (awaited : Awaited) (child : Outcome) (ledger : Ledger) :
    Ledger :=
  if (awaited.final environment child).succeeded then
    (awaited.written environment child ledger).commit
  else (awaited.written environment child ledger).rollback

def answered (environment : Environment) (child : Outcome) (frame : Frame) : Awaited → Frame
  | .call message record => SiteAction.called message record child frame
  | .creation address record gas =>
      SiteAction.created address record gas (SiteAction.deposited environment gas child) frame

theorem writes_written (environment : Environment) (awaited : Awaited) (child : Outcome)
    (ledger : Ledger) :
    ledger.Writes (awaited.written environment child ledger) := by
  cases awaited with
  | call message record => exact .none
  | creation address record gas =>
    exact SiteAction.writes_deployed environment address gas child ledger

theorem closes_closed (environment : Environment) (awaited : Awaited) (child : Outcome)
    (ledger : Ledger) :
    ledger.Closes (awaited.closed environment child ledger) := by
  have written := awaited.writes_written environment child ledger
  unfold closed
  split
  · exact written.closes_commit
  · exact written.closes_rollback

theorem continues_answered (environment : Environment) (awaited : Awaited) (child : Outcome)
    (frame : Frame) :
    frame.Continues (awaited.answered environment child frame) := by
  cases awaited with
  | call message record => exact SiteAction.continues_called message record child frame
  | creation address record gas => exact SiteAction.continues_created address record gas _ frame

inductive Failed (environment : Environment) (child : Outcome) : Awaited → Prop where
  | fault (awaited : Awaited) (fault : child.fault.isSome = true) : Failed environment child awaited
  | reverted (awaited : Awaited) (reverted : child.reverted = true) :
      Failed environment child awaited
  | deposit {address : Address} {record gas : Nat} {fault : Fault}
      (short : environment.config.deposit child.returnData.size (gas - child.gasUsed) =
        .fail fault) :
      Failed environment child (.creation address record gas)

theorem final_of_unsuccessful (environment : Environment) (awaited : Awaited) {child : Outcome}
    (failed : child.succeeded = false) : (awaited.final environment child).succeeded = false := by
  cases awaited with
  | call message record => exact failed
  | creation address record gas =>
      rw [final, SiteAction.deposited, if_neg (ne_true_of_eq_false failed)]
      exact failed

theorem Failed.final {environment : Environment} {awaited : Awaited} {child : Outcome}
    (failed : Failed environment child awaited) :
      (awaited.final environment child).succeeded = false := by
  cases failed with
  | fault awaited fault =>
      have unsuccessful : child.succeeded = false := by
        rw [Outcome.succeeded, Option.isNone_eq_false_iff.mpr fault]
        rfl
      exact awaited.final_of_unsuccessful environment unsuccessful
  | reverted awaited reverted =>
      have unsuccessful : child.succeeded = false := by
        rw [Outcome.succeeded, reverted]
        exact Bool.and_false _
      exact awaited.final_of_unsuccessful environment unsuccessful
  | @deposit address record gas fault short =>
      cases succeeded : child.succeeded with
      | false => exact final_of_unsuccessful environment _ succeeded
      | true =>
          simp only [Awaited.final, SiteAction.deposited, succeeded, short]
          rfl

theorem failed_of_final {environment : Environment} {awaited : Awaited} {child : Outcome}
    (unsuccessful : (awaited.final environment child).succeeded = false) :
      Failed environment child awaited := by
  -- A child without success of its own fails for that; else it is the deposit.
  cases fault : child.fault with
  | some cause => exact .fault awaited (Option.isSome_iff_exists.mpr ⟨cause, fault⟩)
  | none =>
      cases reverted : child.reverted with
      | true => exact .reverted awaited reverted
      | false =>
          have succeeded : child.succeeded = true := child.succeeded_iff.mpr ⟨fault, reverted⟩
          cases awaited with
          | call message record =>
              rw [final, succeeded] at unsuccessful
              cases unsuccessful
          | creation address record gas =>
              rw [final, SiteAction.deposited, if_pos succeeded] at unsuccessful
              cases decision :
                environment.config.deposit child.returnData.size (gas - child.gasUsed) with
              | fail fault => exact .deposit decision
              | deploy price =>
                  simp only [decision] at unsuccessful
                  exact absurd succeeded (ne_true_of_eq_false unsuccessful)
              | deployEmpty =>
                  simp only [decision] at unsuccessful
                  exact absurd succeeded (ne_true_of_eq_false unsuccessful)

def success : Awaited → Word
  | .call _ _ => 1
  | .creation address _ _ => Word.ofAddress address

theorem words_answered (environment : Environment) (awaited : Awaited) (child : Outcome)
    (frame : Frame) :
    (awaited.answered environment child frame).stack.words =
      (if (awaited.final environment child).succeeded then awaited.success else 0) ::
        frame.stack.words := by
  cases awaited with
  | call message record => exact SiteAction.words_called message record child frame
  | creation address record gas => exact SiteAction.words_created address record gas _ frame

end Awaited

theorem SiteAction.settle_eq (environment : Environment) (awaited : Awaited) (child : Outcome)
    {frame : Frame} (ledger : Ledger) (room : frame.HasRoom) :
    settle environment awaited child ⟨frame, ledger⟩ =
      .ok () ⟨(awaited.answered environment child frame).advance,
        awaited.closed environment child ledger⟩ := by
  cases awaited with
  | call message record =>
      simp only [settle, bind_apply, settleCall_eq message record child ledger room]
      rfl
  | creation address record gas =>
      simp only [settle, bind_apply, settleCreation_apply, finishCreation_eq _ _ _ _ _ room]
      rfl

/-- The instruction concerns the frame only: it makes no frame and leaves the ledger as it is. -/
def Opcode.isAlone : Opcode → Bool
  | .create | .call _ | .suicide | .sstore => false
  | _ => true

structure Frame.Creates (frame : Frame) (environment : Environment) (ledger : Ledger)
    (price : Price) : Prop where
  due : frame.Due environment ledger .create price
  mutable : frame.context.isStatic = false

namespace SiteAction

def removing (frame : Frame) (ledger : Ledger) : Frame :=
  let recorded :=
    ((frame.dropWords 1).addRecord .suicide frame.owner (some (frame.operand 0).toAddress)
      (ledger.nonce frame.owner) (ledger.balance frame.owner) #[] 0).2
  Frame.stop { recorded with outcome := recorded.outcome.addDeletion frame.owner }

def emptied (frame : Frame) (ledger : Ledger) : Ledger :=
  if frame.owner = (frame.operand 0).toAddress then
    ledger.debit frame.owner (ledger.balance frame.owner)
  else ledger.transfer frame.owner (frame.operand 0).toAddress (ledger.balance frame.owner)

theorem writes_emptied (frame : Frame) (ledger : Ledger) :
    ledger.Writes (emptied frame ledger) := by
  unfold emptied
  split
  · exact Ledger.writes_debit ledger _ _
  · exact Ledger.writes_transfer ledger _ _ _

theorem suicide_eq {frame : Frame} (ledger : Ledger) (enough : 1 ≤ frame.stack.size) :
    suicide ⟨frame, ledger⟩ =
      if frame.context.isStatic then .error .staticViolation ⟨frame, ledger⟩
      else .ok () ⟨removing frame ledger, emptied frame ledger⟩ := by
  change suicide ⟨frame.dropWords 0, ledger⟩ = _
  by_cases static : frame.context.isStatic = true
  · simp [suicide, static]
    rfl
  · simp (disch := omega) [suicide, static, pop_apply]
    rfl

theorem store_eq {frame : Frame} (ledger : Ledger) (enough : 2 ≤ frame.stack.size) :
    store ⟨frame, ledger⟩ =
      if frame.context.isStatic then .error .staticViolation ⟨frame, ledger⟩
      else .ok ()
        ⟨(frame.dropWords 2).advance,
          ledger.putSlot frame.owner (frame.operand 0) (frame.operand 1)⟩ := by
  change store ⟨frame.dropWords 0, ledger⟩ = _
  by_cases static : frame.context.isStatic = true
  · simp [store, static]
    rfl
  · simp (disch := omega) [store, static, pop_apply]
    rfl

theorem execute_alone (environment : Environment) {op : Opcode} (forwarded : Nat)
    (alone : op.isAlone = true) :
    execute environment op forwarded = (do
      let ledger ← reads fun site => site.ledger
      onFrame (FrameAction.perform environment ledger op)
      pure none) := by
  cases op with
  | create | call | suicide | sstore => cases alone
  | _ => rfl

end SiteAction

namespace Machine

inductive Sends (environment : Environment) (message : Message) (caller : Frame)
    (waiting : List Waiting) (ledger : Ledger) : Machine → Prop where
  | refused (refused : caller.Refused environment ledger message.value) {reader : Frame}
      (read : reader = caller.setReturned #[] ∨ reader = message.fed caller) :
      Sends environment message caller waiting ledger
        ⟨((reader.put 0).giveBack message.gas).advance, waiting, ledger⟩
  | drained {contract : Precompile} (granted : ¬ caller.Refused environment ledger message.value)
      (found : environment.config.precompiles.find? message.codeAddress = some contract)
      (dear : message.gas < contract.price (message.input caller)) :
      Sends environment message caller waiting ledger
        ⟨((message.fed caller).put 0).advance, waiting, ledger⟩
  | delivered {contract : Precompile} (granted : ¬ caller.Refused environment ledger message.value)
      (found : environment.config.precompiles.find? message.codeAddress = some contract)
      (paid : ¬ message.gas < contract.price (message.input caller)) {later : Frame}
      (ran : SiteAction.deliver environment message (contract.run (message.input caller))
        (SiteAction.precompiled message contract caller) = .ok () later) :
      Sends environment message caller waiting ledger
        ⟨later.advance, waiting, (message.opened caller ledger).commit⟩
  -- The precompile has run, but the caller cannot pay for its output.
  | overdrawn {contract : Precompile} (granted : ¬ caller.Refused environment ledger message.value)
      (found : environment.config.precompiles.find? message.codeAddress = some contract)
      (paid : ¬ message.gas < contract.price (message.input caller)) {later : Frame} {fault : Fault}
      (ran : SiteAction.deliver environment message (contract.run (message.input caller))
        (SiteAction.precompiled message contract caller) = .error fault later) :
      Sends environment message caller waiting ledger
        ⟨later.halt fault, waiting, (message.opened caller ledger).commit⟩
  | passed (granted : ¬ caller.Refused environment ledger message.value)
      (found : environment.config.precompiles.find? message.codeAddress = none)
      (empty : ledger.code message.codeAddress = #[]) :
      Sends environment message caller waiting ledger
        ⟨(((message.recorded caller ledger).2.put 1).giveBack message.gas).advance, waiting,
          (message.opened caller ledger).commit⟩
  | entered (granted : ¬ caller.Refused environment ledger message.value)
      (found : environment.config.precompiles.find? message.codeAddress = none)
      (code : ledger.code message.codeAddress ≠ #[]) :
      Sends environment message caller waiting ledger
        ⟨message.callee environment caller ledger,
          ⟨(message.recorded caller ledger).2, .call message (message.recorded caller ledger).1⟩ ::
            waiting,
          message.opened caller ledger⟩

inductive Makes (environment : Environment) (frame : Frame) (waiting : List Waiting)
    (ledger : Ledger) : Machine → Prop where
  | refused (refused : frame.Refused environment ledger (frame.operand 0)) :
      Makes environment frame waiting ledger
        ⟨((Creation.reader frame).put 0).advance, waiting, ledger⟩
  | collided (granted : ¬ frame.Refused environment ledger (frame.operand 0))
      (inUse : ledger.hasAccount (Creation.address frame ledger) = true) {site : Site}
      (settled : site = SiteAction.settledAtOnce environment (Creation.asked frame)
        { fault := some (SiteAction.taken (Creation.address frame ledger)) }
          (Creation.creator frame) ledger) :
      Makes environment frame waiting ledger ⟨site.frame.advance, waiting, site.ledger⟩
  | passed (granted : ¬ frame.Refused environment ledger (frame.operand 0))
      (free : ledger.hasAccount (Creation.address frame ledger) = false)
      (empty : (Creation.asked frame).code.isEmpty = true) {site : Site}
      (settled : site = SiteAction.settledAtOnce environment (Creation.asked frame) {}
        (Creation.creator frame) ledger) :
      Makes environment frame waiting ledger ⟨site.frame.advance, waiting, site.ledger⟩
  | entered (granted : ¬ frame.Refused environment ledger (frame.operand 0))
      (free : ledger.hasAccount (Creation.address frame ledger) = false)
      (code : (Creation.asked frame).code.isEmpty = false) {creator : Frame}
      (ready : creator = Creation.creator frame) {creation : Creation}
      (asked : creation = Creation.asked frame) :
      Makes environment frame waiting ledger
        ⟨creation.constructor environment creator ledger,
          ⟨(creation.recorded creator ledger).2,
            .creation (Creation.address creator ledger) (creation.recorded creator ledger).1
              creation.gas⟩ :: waiting,
          creation.opened creator ledger⟩

inductive Executes (environment : Environment) (frame : Frame) (waiting : List Waiting)
    (ledger : Ledger) : Machine → Prop where
  | unpaid (fault : Fault) (quoted : frame.quote environment.config.fees ledger = .error fault) :
      Executes environment frame waiting ledger ⟨frame.halt fault, waiting, ledger⟩
  | worked {op : Opcode} {price : Price} {later : Frame}
      (due : frame.Due environment ledger op price) (changes : (frame.pay price).Changes later)
      (alone : op.isAlone = true)
      (ran : FrameAction.perform environment ledger op (frame.pay price) = .ok () later) :
      Executes environment frame waiting ledger ⟨later, waiting, ledger⟩
  | failed {op : Opcode} {price : Price} {later : Frame}
      (due : frame.Due environment ledger op price) (changes : (frame.pay price).Changes later)
      (fault : Fault) :
      Executes environment frame waiting ledger ⟨later.halt fault, waiting, ledger⟩
  | stored {price : Price} (due : frame.Due environment ledger .sstore price)
      (mutable : frame.context.isStatic = false) :
      Executes environment frame waiting ledger
        ⟨((frame.pay price).dropWords 2).advance, waiting,
          ledger.putSlot frame.owner (frame.operand 0) (frame.operand 1)⟩
  | removed {price : Price} (due : frame.Due environment ledger .suicide price)
      (mutable : frame.context.isStatic = false) :
      Executes environment frame waiting ledger
        ⟨SiteAction.removing (frame.pay price) ledger, waiting, SiteAction.emptied frame ledger⟩
  | sent {kind : CallKind} {price : Price} {message : Message} {caller : Frame} {later : Machine}
      (calls : frame.Calls environment ledger kind price message caller)
      (sends : Sends environment message caller waiting ledger later) :
        Executes environment frame waiting ledger later
  | made {price : Price} {later : Machine} (creates : frame.Creates environment ledger price)
      (makes : Makes environment (frame.pay price) waiting ledger later) :
      Executes environment frame waiting ledger later

section

variable {environment : Environment} {frame : Frame} {ledger : Ledger} {op : Opcode} {price : Price}

def ofResult (waiting : List Waiting) : EStateM.Result Fault Site (Option Spawn) → Machine
  | .ok none ⟨frame, ledger⟩ => ⟨frame, waiting, ledger⟩
  | .ok (some spawn) ⟨frame, ledger⟩ => ⟨spawn.frame, ⟨frame, spawn.awaited⟩ :: waiting, ledger⟩
  | .error fault ⟨frame, ledger⟩ => ⟨frame.halt fault, waiting, ledger⟩

theorem instruct_due (waiting : List Waiting) (due : frame.Due environment ledger op price) :
    instruct environment ⟨frame, waiting, ledger⟩ =
      ofResult waiting
        (SiteAction.execute environment op price.forwarded ⟨frame.pay price, ledger⟩) := by
  simp only [instruct, due.quoted]
  rfl

theorem instruct_alone (waiting : List Waiting) (due : frame.Due environment ledger op price)
    (alone : op.isAlone = true) :
    instruct environment ⟨frame, waiting, ledger⟩ =
      match FrameAction.perform environment ledger op (frame.pay price) with
      | .ok () later => ⟨later, waiting, ledger⟩
      | .error fault later => ⟨later.halt fault, waiting, ledger⟩ := by
  rw [instruct_due waiting due, SiteAction.execute_alone environment price.forwarded alone]
  simp only [bind_apply, SiteAction.reads_apply, SiteAction.onFrame_apply]
  cases FrameAction.perform environment ledger op (frame.pay price) with
  | ok value later => rfl
  | error fault later => rfl

theorem executes_alone (waiting : List Waiting) (due : frame.Due environment ledger op price)
    (alone : op.isAlone = true) :
    Executes environment frame waiting ledger (instruct environment ⟨frame, waiting, ledger⟩) := by
  have works := FrameAction.works_perform environment ledger op
  rw [instruct_alone waiting due alone]
  cases ran : FrameAction.perform environment ledger op (frame.pay price) with
  | ok value later => exact .worked due (works.ok ran) alone ran
  | error fault later => exact .failed due (works.error ran) fault

theorem instruct_store (waiting : List Waiting) (due : frame.Due environment ledger .sstore price) :
    instruct environment ⟨frame, waiting, ledger⟩ =
      if frame.context.isStatic then ⟨(frame.pay price).halt .staticViolation, waiting, ledger⟩
      else ⟨((frame.pay price).dropWords 2).advance, waiting,
        ledger.putSlot frame.owner (frame.operand 0) (frame.operand 1)⟩ := by
  rw [instruct_due waiting due]
  simp only [SiteAction.execute, bind_apply, SiteAction.store_eq ledger due.enough]
  cases mutable : frame.context.isStatic with
  | true =>
      have static : (frame.pay price).context.isStatic = true := mutable
      rw [if_pos static]
      rfl
  | false =>
      have free : ¬ (frame.pay price).context.isStatic = true := ne_true_of_eq_false mutable
      rw [if_neg free]
      rfl

theorem executes_store (waiting : List Waiting) (due : frame.Due environment ledger .sstore price) :
    Executes environment frame waiting ledger (instruct environment ⟨frame, waiting, ledger⟩) := by
  rw [instruct_store waiting due]
  split
  · exact .failed due .none .staticViolation
  · rename_i free
    exact .stored due (Bool.of_not_eq_true free)

theorem instruct_suicide (waiting : List Waiting)
    (due : frame.Due environment ledger .suicide price) :
    instruct environment ⟨frame, waiting, ledger⟩ =
      if frame.context.isStatic then ⟨(frame.pay price).halt .staticViolation, waiting, ledger⟩
      else ⟨SiteAction.removing (frame.pay price) ledger, waiting,
        SiteAction.emptied frame ledger⟩ := by
  rw [instruct_due waiting due]
  simp only [SiteAction.execute, bind_apply, SiteAction.suicide_eq ledger due.enough]
  cases mutable : frame.context.isStatic with
  | true =>
      have static : (frame.pay price).context.isStatic = true := mutable
      rw [if_pos static]
      rfl
  | false =>
      have free : ¬ (frame.pay price).context.isStatic = true := ne_true_of_eq_false mutable
      rw [if_neg free]
      rfl

theorem executes_suicide (waiting : List Waiting)
    (due : frame.Due environment ledger .suicide price) :
    Executes environment frame waiting ledger (instruct environment ⟨frame, waiting, ledger⟩) := by
  rw [instruct_suicide waiting due]
  split
  · exact .failed due .none .staticViolation
  · rename_i free
    exact .removed due (Bool.of_not_eq_true free)

theorem sends_callAccount (waiting : List Waiting) {message : Message} {caller : Frame}
    (room : caller.HasRoom)
    (found : environment.config.precompiles.find? message.codeAddress = none) :
    Sends environment message caller waiting ledger (ofResult waiting
      ((SiteAction.callAccount environment message >>= SiteAction.advanceUnless)
        ⟨caller, ledger⟩)) := by
  rw [bind_apply, SiteAction.callAccount_eq environment message ledger room]
  by_cases deep : environment.config.limits.callDepth ≤ caller.context.depth
  · rw [if_pos deep]
    exact .refused (.inl deep) (.inl rfl)
  · by_cases poor : (ledger.balance caller.owner).toNat < message.value.toNat
    · rw [if_neg deep, if_pos poor]
      exact .refused (.inr poor) (.inr rfl)
    · have granted : ¬ caller.Refused environment ledger message.value := not_or.mpr ⟨deep, poor⟩
      by_cases empty : ledger.code message.codeAddress = #[]
      · rw [if_neg deep, if_neg poor, if_pos empty]
        exact .passed granted found empty
      · rw [if_neg deep, if_neg poor, if_neg empty]
        exact .entered granted found empty

theorem sends_callPrecompile (waiting : List Waiting) {message : Message} {caller : Frame}
    {contract : Precompile} (room : caller.HasRoom)
    (found : environment.config.precompiles.find? message.codeAddress = some contract) :
    Sends environment message caller waiting ledger (ofResult waiting ((do
      SiteAction.callPrecompile environment message contract
      SiteAction.advanceUnless none) ⟨caller, ledger⟩)) := by
  rw [bind_apply, SiteAction.callPrecompile_eq environment message contract ledger room]
  by_cases deep : environment.config.limits.callDepth ≤ caller.context.depth
  · rw [if_pos deep]
    exact .refused (.inl deep) (.inl rfl)
  · by_cases poor : (ledger.balance caller.owner).toNat < message.value.toNat
    · rw [if_neg deep, if_pos poor]
      exact .refused (.inr poor) (.inl rfl)
    · have granted : ¬ caller.Refused environment ledger message.value := not_or.mpr ⟨deep, poor⟩
      by_cases dear : message.gas < contract.price (message.input caller)
      · rw [if_neg deep, if_neg poor, if_pos dear]
        exact .drained granted found dear
      · rw [if_neg deep, if_neg poor, if_neg dear, SiteAction.onFrame_apply]
        cases ran : SiteAction.deliver environment message (contract.run (message.input caller))
            (SiteAction.precompiled message contract caller) with
        | ok value later => exact .delivered granted found dear ran
        | error fault later => exact .overdrawn granted found dear ran

theorem sends_instruct (waiting : List Waiting) {kind : CallKind} {message : Message}
    {caller : Frame} (calls : frame.Calls environment ledger kind price message caller) :
    Sends environment message caller waiting ledger
      (instruct environment ⟨frame, waiting, ledger⟩) := by
  rw [instruct_due waiting calls.due]
  simp only [SiteAction.execute, SiteAction.call, bind_apply, SiteAction.onFrame_apply, calls.read]
  cases found : environment.config.precompiles.find? message.codeAddress with
  | none =>
      have account : Sends environment message caller waiting ledger _ :=
        sends_callAccount waiting calls.room found
      rwa [bind_apply] at account
  | some contract =>
      have precompile : Sends environment message caller waiting ledger _ :=
        sends_callPrecompile waiting calls.room found
      simp only [bind_apply] at precompile ⊢
      cases ran : SiteAction.callPrecompile environment message contract ⟨caller, ledger⟩ with
      | ok value site => rwa [ran] at precompile
      | error fault site => rwa [ran] at precompile

/-- The operands of a call can be read, unless a frame that may not modify state would send
value. -/
theorem instruct_call_of_error (waiting : List Waiting) {kind : CallKind} {fault : Fault}
    {later : Frame} (due : frame.Due environment ledger (.call kind) price)
    (read : SiteAction.readMessage environment kind price.forwarded (frame.pay price) =
      .error fault later) :
    instruct environment ⟨frame, waiting, ledger⟩ =
      ⟨((frame.pay price).dropWords 3).halt .staticViolation, waiting, ledger⟩ := by
  rw [instruct_due waiting due]
  simp only [SiteAction.execute, SiteAction.call, bind_apply, SiteAction.onFrame_apply, read]
  rw [SiteAction.readMessage_eq environment kind price.forwarded due.enough] at read
  split at read
  · cases read
    rfl
  · cases read

theorem executes_call (waiting : List Waiting) {kind : CallKind}
    (due : frame.Due environment ledger (.call kind) price) :
    Executes environment frame waiting ledger (instruct environment ⟨frame, waiting, ledger⟩) := by
  cases read : SiteAction.readMessage environment kind price.forwarded (frame.pay price) with
  | error fault later =>
      rw [instruct_call_of_error waiting due read]
      exact .failed due ((frame.pay price).changes_dropWords 3) .staticViolation
  | ok message caller =>
      have calls : frame.Calls environment ledger kind price message caller := ⟨due, read⟩
      exact .sent calls (sends_instruct waiting calls)

theorem instruct_create_of_static (waiting : List Waiting)
    (due : frame.Due environment ledger .create price) (static : frame.context.isStatic = true) :
    instruct environment ⟨frame, waiting, ledger⟩ =
      ⟨(frame.pay price).halt .staticViolation, waiting, ledger⟩ := by
  have still : (frame.pay price).context.isStatic = true := static
  rw [instruct_due waiting due]
  simp only [SiteAction.execute, bind_apply,
    SiteAction.create_eq environment ledger due.enough (due.room rfl)]
  rw [if_pos still]
  rfl

theorem makes_instruct (waiting : List Waiting) (creates : frame.Creates environment ledger price) :
    Makes environment (frame.pay price) waiting ledger
      (instruct environment ⟨frame, waiting, ledger⟩) := by
  have free : ¬ (frame.pay price).context.isStatic = true := ne_true_of_eq_false creates.mutable
  have enough := creates.due.enough
  rw [instruct_due waiting creates.due]
  simp only [SiteAction.execute, bind_apply,
    SiteAction.create_eq environment ledger enough (creates.due.room rfl)]
  rw [if_neg free]
  by_cases refused : (frame.pay price).Refused environment ledger ((frame.pay price).operand 0)
  · rw [if_pos refused]
    exact .refused refused
  · have room : (Creation.creator (frame.pay price)).HasRoom := creates.due.room rfl
    rw [if_neg refused,
      SiteAction.createWith_eq environment (Creation.asked (frame.pay price)) ledger room]
    cases inUse :
      ledger.hasAccount (Creation.address (Creation.creator (frame.pay price)) ledger) with
    | true =>
        rw [if_pos rfl]
        exact .collided refused inUse rfl
    | false =>
        rw [if_neg Bool.false_ne_true]
        cases empty : (Creation.asked (frame.pay price)).code.isEmpty with
        | true =>
            rw [if_pos rfl]
            exact .passed refused inUse empty rfl
        | false =>
            rw [if_neg Bool.false_ne_true]
            exact .entered refused inUse empty rfl rfl

theorem executes_create (waiting : List Waiting)
    (due : frame.Due environment ledger .create price) :
    Executes environment frame waiting ledger (instruct environment ⟨frame, waiting, ledger⟩) := by
  cases mutable : frame.context.isStatic with
  | true =>
      rw [instruct_create_of_static waiting due mutable]
      exact .failed due .none .staticViolation
  | false =>
      have creates : frame.Creates environment ledger price := ⟨due, mutable⟩
      exact .made creates (makes_instruct waiting creates)

/-- One instruction is one of these cases, whatever the ledger. -/
theorem executes_instruct (waiting : List Waiting) (runs : frame.stopped = false) :
    Executes environment frame waiting ledger (instruct environment ⟨frame, waiting, ledger⟩) := by
  cases quoted : frame.quote environment.config.fees ledger with
  | error fault =>
      simp only [instruct, quoted]
      exact .unpaid fault quoted
  | ok paid =>
      obtain ⟨op, price⟩ := paid
      have due : frame.Due environment ledger op price := ⟨runs, quoted⟩
      cases op with
      | create => exact executes_create waiting due
      | call kind => exact executes_call waiting due
      | sstore => exact executes_store waiting due
      | suicide => exact executes_suicide waiting due
      | _ => exact executes_alone waiting due rfl

theorem next_running (waiting : List Waiting) (runs : frame.stopped = false) :
    next environment ⟨frame, waiting, ledger⟩ = instruct environment ⟨frame, waiting, ledger⟩ :=
  if_neg (ne_true_of_eq_false runs)

theorem next_of_perform (waiting : List Waiting) (due : frame.Due environment ledger op price)
    (alone : op.isAlone = true) {later : Frame}
    (ran : FrameAction.perform environment ledger op (frame.pay price) = .ok () later) :
    next environment ⟨frame, waiting, ledger⟩ = ⟨later, waiting, ledger⟩ := by
  rw [next_running waiting due.runs, instruct_alone waiting due alone, ran]

theorem sends_next (waiting : List Waiting) {kind : CallKind} {message : Message} {caller : Frame}
    (calls : frame.Calls environment ledger kind price message caller) :
    Sends environment message caller waiting ledger
      (next environment ⟨frame, waiting, ledger⟩) := by
  rw [next_running waiting calls.due.runs]
  exact sends_instruct waiting calls

theorem makes_next (waiting : List Waiting) (creates : frame.Creates environment ledger price) :
    Makes environment (frame.pay price) waiting ledger
      (next environment ⟨frame, waiting, ledger⟩) := by
  rw [next_running waiting creates.due.runs]
  exact makes_instruct waiting creates

theorem next_stopped {parent : Waiting} (waiting : List Waiting) (stopped : frame.stopped = true)
    (room : parent.frame.HasRoom) :
    next environment ⟨frame, parent :: waiting, ledger⟩ =
      ⟨(parent.awaited.answered environment frame.outcome parent.frame).advance, waiting,
        parent.awaited.closed environment frame.outcome ledger⟩ := by
  have settled := SiteAction.settle_eq environment parent.awaited frame.outcome ledger room
  refine (if_pos stopped).trans ?_
  simp only [resume, settled]

end

theorem runFor_succ (environment : Environment) (fuel : Nat) (machine : Machine) :
    machine.runFor environment (fuel + 1) = (machine.runFor environment fuel).next environment := by
  induction fuel generalizing machine with
  | zero =>
      cases done : machine.finished with
      | true => simp only [runFor, done, if_true, next_of_finished environment machine done]
      | false => simp only [runFor, done, Bool.false_eq_true, if_false]
  | succ fuel ih =>
      rw [runFor]
      cases done : machine.finished with
      | true => simp only [runFor, done, if_true, next_of_finished environment machine done]
      | false =>
          rw [if_neg Bool.false_ne_true, ih]
          simp only [runFor, done, Bool.false_eq_true, if_false]

theorem runFor_of_finished {environment : Environment} {machine : Machine} {fuel : Nat}
    (done : (machine.runFor environment fuel).finished = true) (more : Nat) :
    machine.runFor environment (fuel + more) = machine.runFor environment fuel := by
  induction more with
  | zero => rfl
  | succ more ih =>
      rw [← Nat.add_assoc, runFor_succ, ih]
      exact next_of_finished environment _ done

/-- The machines that a machine comes to are those that it comes to in some number of steps. -/
theorem runFor_of_reaches {environment : Environment} {first last : Machine}
    (reached : Reaches environment first last) : ∃ fuel, first.runFor environment fuel = last := by
  induction reached with
  | here => exact ⟨0, rfl⟩
  | step before runs ih =>
      obtain ⟨fuel, same⟩ := ih
      refine ⟨fuel + 1, ?_⟩
      rw [runFor_succ, same]

theorem finished_iff {machine : Machine} :
    machine.finished = true ↔ machine.frame.stopped = true ∧ machine.waiting = [] := by
  rw [finished, Bool.and_eq_true, List.isEmpty_iff]

/-- A run that has ended comes to nothing more. -/
theorem runFor_within {environment : Environment} {first last : Machine} {bound : Nat}
    (done : (first.runFor environment bound).finished = true)
    (reached : Reaches environment first last) :
    ∃ fuel ≤ bound, first.runFor environment fuel = last := by
  obtain ⟨fuel, same⟩ := runFor_of_reaches reached
  by_cases within : fuel ≤ bound
  · exact ⟨fuel, within, same⟩
  · have rest := runFor_of_finished done (fuel - bound)
    rw [Nat.add_sub_cancel' (Nat.le_of_not_le within), same] at rest
    exact ⟨bound, Nat.le_refl bound, rest.symm⟩

theorem run_of_finished {environment : Environment} {machine : Machine} {fuel : Nat}
    (enough : fuel ≤ machine.stepBound) (done : (machine.runFor environment fuel).finished = true) :
    machine.run environment = machine.runFor environment fuel := by
  rw [run, ← Nat.add_sub_cancel' enough]
  exact runFor_of_finished done _

end Machine

end ContractMachine
