import ContractMachine.Proofs.Ledger.Accounts
import ContractMachine.Proofs.Ledger.Below
import ContractMachine.Proofs.Site.Action
import ContractMachine.Site.Creation

/-!
What becomes of a creation, case by case. The creator's nonce moves first; all else is written in
the checkpoint that is opened behind it.
-/

namespace ContractMachine

structure Creation where
  value : Word
  code : Bytes
  gas : Nat

namespace Creation

def address (frame : Frame) (ledger : Ledger) : Address :=
  Address.ofCreation frame.owner (ledger.nonce frame.owner)

def opened (creation : Creation) (frame : Frame) (ledger : Ledger) : Ledger :=
  ((ledger.bumpNonce frame.owner).checkpoint.bumpNonce (address frame ledger)).transfer frame.owner
    (address frame ledger) creation.value

def recorded (creation : Creation) (frame : Frame) (ledger : Ledger) : Nat × Frame :=
  frame.addRecord .create frame.owner none ((creation.opened frame ledger).nonce frame.owner)
    creation.value creation.code creation.gas

def constructor (creation : Creation) (environment : Environment) (frame : Frame)
    (ledger : Ledger) : Frame :=
  Frame.start creation.code
    (frame.context.child frame.owner (address frame ledger) creation.gas creation.value #[] false)
    environment.config.limits.stackSize

def reader (frame : Frame) : Frame := (frame.dropWords 3).setReturned #[]

def asked (frame : Frame) : Creation where
  value := frame.operand 0
  code := (frame.memory.read (frame.operand 1).index (frame.operand 2).index).1
  gas := Gas.allButPart frame.gasLeft

def creator (frame : Frame) : Frame :=
  let read := (reader frame).reading (frame.operand 1).index (frame.operand 2).index
  { read with outcome := read.outcome.spend (Gas.allButPart frame.gasLeft) }

theorem continues_creator (frame : Frame) : frame.Continues (creator frame) := ⟨rfl, rfl, rfl, rfl⟩

theorem continues_recorded (creation : Creation) (frame : Frame) (ledger : Ledger) :
    frame.Continues (creation.recorded frame ledger).2 :=
  ⟨rfl, rfl, rfl, rfl⟩

theorem keeps_opened (creation : Creation) (frame : Frame) (ledger : Ledger) :
    (ledger.bumpNonce frame.owner).checkpoint.KeepsBelow (creation.opened frame ledger) := by
  have bumped :=
    Ledger.writes_bumpNonce (ledger.bumpNonce frame.owner).checkpoint (address frame ledger)
  exact (bumped.trans (Ledger.writes_transfer _ _ _ _)).keepsBelow

end Creation

def Config.codePrice (config : Config) (size : Nat) : Nat :=
  Quantity.clamp (size * config.fees.createByte)

/-- What becomes of `size` bytes of code with `left` gas to pay for them. Whether they can be paid
for comes first, whether they are too many comes second. -/
inductive Config.Decides (config : Config) (size left : Nat) : Deposit → Prop where
  | deploy (paid : config.codePrice size ≤ left) (fits : size ≤ config.limits.codeSize) :
      Decides config size left (.deploy (config.codePrice size))
  | deployEmpty (dear : left < config.codePrice size)
      (lenient : config.limits.emptyCodeOnShortage = true) :
      Decides config size left .deployEmpty
  | unpaid (dear : left < config.codePrice size)
      (strict : config.limits.emptyCodeOnShortage = false) :
      Decides config size left
        (.fail (.outOfGas "No gas to return just created contract" (config.codePrice size) left))
  | tooLong (paid : config.codePrice size ≤ left) (long : config.limits.codeSize < size) :
      Decides config size left
        (.fail (.outOfGas ("Contract size too large: " ++ toString size) (config.codePrice size)
          left))

def Config.Fits (config : Config) (code : Bytes) : Prop := code.size ≤ config.limits.codeSize

theorem Config.fits_empty (config : Config) : config.Fits #[] := Nat.zero_le _

section

variable {config : Config} {size left : Nat} {decision : Deposit}

theorem Config.decides_deposit (config : Config) (size left : Nat) :
    config.Decides size left (config.deposit size left) := by
  simp only [deposit]
  split
  · rename_i dear
    split
    · exact .deployEmpty dear ‹_›
    · exact .unpaid dear (eq_false_of_ne_true ‹_›)
  · rename_i paid
    split
    · exact .tooLong (Nat.le_of_not_lt paid) ‹_›
    · exact .deploy (Nat.le_of_not_lt paid) (Nat.le_of_not_lt ‹_›)

theorem Config.Decides.eq {other : Deposit} (decides : config.Decides size left decision)
    (again : config.Decides size left other) : decision = other := by
  cases decides with
  | deploy paid fits =>
      cases again with
      | deploy => rfl
      | deployEmpty dear | unpaid dear => exact absurd paid (Nat.not_le_of_lt dear)
      | tooLong _ long => exact absurd fits (Nat.not_le_of_lt long)
  | deployEmpty dear lenient =>
      cases again with
      | deployEmpty => rfl
      | deploy paid | tooLong paid => exact absurd paid (Nat.not_le_of_lt dear)
      | unpaid _ strict => exact absurd (strict.symm.trans lenient) Bool.false_ne_true
  | unpaid dear strict =>
      cases again with
      | unpaid => rfl
      | deploy paid | tooLong paid => exact absurd paid (Nat.not_le_of_lt dear)
      | deployEmpty _ lenient => exact absurd (strict.symm.trans lenient) Bool.false_ne_true
  | tooLong paid long =>
      cases again with
      | tooLong => rfl
      | deploy _ fits => exact absurd fits (Nat.not_le_of_lt long)
      | deployEmpty dear | unpaid dear => exact absurd paid (Nat.not_le_of_lt dear)

theorem Config.deposit_iff :
    config.deposit size left = decision ↔ config.Decides size left decision := by
  constructor
  · rintro rfl
    exact config.decides_deposit size left
  · exact (config.decides_deposit size left).eq

theorem Config.fits_of_deploy {price : Nat} {code : Bytes}
    (decided : config.deposit code.size left = .deploy price) : config.Fits code := by
  cases deposit_iff.mp decided with
  | deploy paid fits => exact fits

end

def Deposit.charge : Deposit → Nat
  | .deploy price => price
  | .deployEmpty => 0
  | .fail _ => 0

/-- A decision is carried out on the outcome of a creation's code. What is found at the contract's
address then is what was returned, nothing, or what was there before. -/
inductive Deposit.Settles (child : Outcome) (before : Bytes) :
    Deposit → Outcome → Bytes → Prop where
  | deploy {price : Nat} {done : Outcome} (sound : done.fault = child.fault)
      (used : done.gasUsed = Quantity.clamp (child.gasUsed + price)) :
      Settles child before (.deploy price) done child.returnData
  | deployEmpty {done : Outcome} (sound : done.fault = child.fault)
      (used : done.gasUsed = child.gasUsed) :
      Settles child before .deployEmpty done #[]
  | fail {fault : Fault} {done : Outcome} (faulty : done.fault = some fault)
      (used : done.gasUsed = child.gasUsed) :
      Settles child before (.fail fault) done before

namespace SiteAction

def deposited (environment : Environment) (gas : Nat) (child : Outcome) : Outcome :=
  if child.succeeded then
    match environment.config.deposit child.returnData.size (gas - child.gasUsed) with
    | .deploy price => child.spend price
    | .deployEmpty => child
    | .fail fault => child.setFault fault
  else child

def deployed (environment : Environment) (address : Address) (gas : Nat) (child : Outcome)
    (ledger : Ledger) : Ledger :=
  if child.succeeded then
    match environment.config.deposit child.returnData.size (gas - child.gasUsed) with
    | .deploy _ => ledger.setCode address child.returnData
    | .deployEmpty => ledger.setCode address #[]
    | .fail _ => ledger
  else ledger

theorem writes_deployed (environment : Environment) (address : Address) (gas : Nat)
    (child : Outcome) (ledger : Ledger) :
    ledger.Writes (deployed environment address gas child ledger) := by
  unfold deployed
  split
  · split
    · exact Ledger.writes_setCode ledger address _
    · exact Ledger.writes_setCode ledger address _
    · exact .none
  · exact .none

theorem deposit_apply (environment : Environment) (address : Address) (gas : Nat) {child : Outcome}
    (frame : Frame) (ledger : Ledger) (succeeded : child.succeeded = true) :
    deposit environment address gas child ⟨frame, ledger⟩ =
      .ok (deposited environment gas child)
        ⟨frame, deployed environment address gas child ledger⟩ := by
  unfold deposit deposited deployed
  rw [if_pos succeeded, if_pos succeeded]
  cases environment.config.deposit child.returnData.size (gas - child.gasUsed) with
  | deploy price => rfl
  | deployEmpty => rfl
  | fail fault => rfl

/-- The decision is carried out on the ledger, and on the outcome of the creation's code. -/
theorem deposit_spec (environment : Environment) (address : Address) (gas : Nat) (child : Outcome)
    (frame : Frame) (ledger : Ledger) :
    ∃ done after, deposit environment address gas child ⟨frame, ledger⟩ = .ok done ⟨frame, after⟩ ∧
      (environment.config.deposit child.returnData.size (gas - child.gasUsed)).Settles child
        (ledger.code address) done (after.code address) := by
  unfold deposit
  cases environment.config.deposit child.returnData.size (gas - child.gasUsed) with
  | deploy price =>
      refine ⟨_, _, rfl, ?_⟩
      rw [Ledger.code_setCode]
      exact .deploy rfl rfl
  | deployEmpty =>
      refine ⟨_, _, rfl, ?_⟩
      rw [Ledger.code_setCode]
      exact .deployEmpty rfl rfl
  | fail fault => exact ⟨_, _, rfl, .fail rfl rfl⟩

theorem settles_deposited (environment : Environment) (address : Address) (gas : Nat)
    {child : Outcome} (frame : Frame) (ledger : Ledger) (succeeded : child.succeeded = true) :
    (environment.config.deposit child.returnData.size (gas - child.gasUsed)).Settles child
      (ledger.code address) (deposited environment gas child)
      ((deployed environment address gas child ledger).code address) := by
  obtain ⟨done, after, ran, settles⟩ := deposit_spec environment address gas child frame ledger
  rw [deposit_apply environment address gas frame ledger succeeded] at ran
  cases ran
  exact settles

/-- A creation whose code fails is none that succeeds. -/
theorem succeeded_of_deposited {environment : Environment} {gas : Nat} {child : Outcome}
    (succeeded : (deposited environment gas child).succeeded = true) : child.succeeded = true := by
  unfold deposited at succeeded
  split at succeeded
  · assumption
  · exact succeeded

def finishCreation (address : Address) (record gas : Nat) (done : Outcome) : SiteAction Unit := do
  if done.succeeded then accept done (Word.ofAddress address) else reject done record
  if done.fault.isNone then
    if done.reverted then onFrame (FrameAction.setReturned done.returnData)
    onFrame (FrameAction.giveBack (gas - done.gasUsed))

theorem settleCreation_apply (environment : Environment) (address : Address) (record gas : Nat)
    (child : Outcome) (frame : Frame) (ledger : Ledger) :
    settleCreation environment address record gas child ⟨frame, ledger⟩ =
      finishCreation address record gas (deposited environment gas child)
        ⟨frame, deployed environment address gas child ledger⟩ := by
  unfold settleCreation
  by_cases succeeded : child.succeeded = true
  · rw [if_pos succeeded, bind_apply, deposit_apply environment address gas frame ledger succeeded]
    rfl
  · rw [if_neg succeeded, bind_apply, pure_apply, deposited, deployed, if_neg succeeded,
      if_neg succeeded]
    rfl

def created (address : Address) (record gas : Nat) (done : Outcome) (frame : Frame) : Frame :=
  if done.succeeded then
    ((frame.accepting done).put (Word.ofAddress address)).giveBack (gas - done.gasUsed)
  else if done.fault.isNone then
    (((frame.rejecting done record).put 0).setReturned done.returnData).giveBack
      (gas - done.gasUsed)
  else (frame.rejecting done record).put 0

theorem continues_created (address : Address) (record gas : Nat) (done : Outcome) (frame : Frame) :
    frame.Continues (created address record gas done frame) := by
  unfold created
  split
  · exact ⟨rfl, rfl, rfl, rfl⟩
  · split <;> exact ⟨rfl, rfl, rfl, rfl⟩

theorem words_created (address : Address) (record gas : Nat) (done : Outcome) (frame : Frame) :
    (created address record gas done frame).stack.words =
      (if done.succeeded then Word.ofAddress address else 0) :: frame.stack.words := by
  unfold created
  split
  · rfl
  · split <;> rfl

theorem finishCreation_eq (address : Address) (record gas : Nat) (done : Outcome) {frame : Frame}
    (ledger : Ledger) (room : frame.HasRoom) :
    finishCreation address record gas done ⟨frame, ledger⟩ =
      .ok ()
        ⟨created address record gas done frame,
          if done.succeeded then ledger.commit else ledger.rollback⟩ := by
  unfold finishCreation created
  cases fault : done.fault with
  | none =>
      cases reverted : done.reverted with
      | false => simp [Outcome.succeeded, fault, reverted, room]
      | true => simp [Outcome.succeeded, fault, reverted, room]
  | some fault => simp [Outcome.succeeded, fault, room]

def settledAtOnce (environment : Environment) (creation : Creation) (child : Outcome)
    (frame : Frame) (ledger : Ledger) : Site :=
  let recorded := creation.recorded frame ledger
  let done := deposited environment creation.gas child
  let written :=
    deployed environment (Creation.address frame ledger) creation.gas child
    (creation.opened frame ledger)
  ⟨created (Creation.address frame ledger) recorded.1 creation.gas done recorded.2,
    if done.succeeded then written.commit else written.rollback⟩

theorem continues_settledAtOnce (environment : Environment) (creation : Creation) (child : Outcome)
    (frame : Frame) (ledger : Ledger) :
    frame.Continues (settledAtOnce environment creation child frame ledger).frame :=
  (creation.continues_recorded frame ledger).trans (continues_created _ _ _ _ _)

theorem keeps_settledAtOnce (environment : Environment) (creation : Creation) (child : Outcome)
    (frame : Frame) (ledger : Ledger) :
    (ledger.bumpNonce frame.owner).KeepsBelow
      (settledAtOnce environment creation child frame ledger).ledger := by
  have written := writes_deployed environment (Creation.address frame ledger) creation.gas child
    (creation.opened frame ledger)
  have inner := (creation.keeps_opened frame ledger).trans written.keepsBelow
  simp only [settledAtOnce]
  split
  · exact inner.commit
  · rw [inner.rollback]
    exact .refl _

theorem words_settledAtOnce (environment : Environment) (creation : Creation) (child : Outcome)
    (frame : Frame) (ledger : Ledger) :
    (settledAtOnce environment creation child frame ledger).frame.stack.words =
      (if (deposited environment creation.gas child).succeeded then
        Word.ofAddress (Creation.address frame ledger)
       else 0) :: frame.stack.words :=
  words_created _ _ _ _ _

theorem deposit_empty (config : Config) (left : Nat) : config.deposit 0 left = .deploy 0 := by
  simp [Config.deposit, Quantity.clamp]

/-- No code is deployed for nothing. -/
theorem deposited_empty (environment : Environment) (gas : Nat) :
    deposited environment gas {} = {} := by
  have free :
      environment.config.deposit ({} : Outcome).returnData.size (gas - ({} : Outcome).gasUsed) =
        .deploy 0 :=
    deposit_empty environment.config _
  have plain : ({} : Outcome).succeeded = true := rfl
  rw [deposited, if_pos plain, free]
  rfl

theorem words_settledAtOnce_empty (environment : Environment) (creation : Creation) (frame : Frame)
    (ledger : Ledger) :
    (settledAtOnce environment creation {} frame ledger).frame.stack.words =
      Word.ofAddress (Creation.address frame ledger) :: frame.stack.words := by
  have words := words_settledAtOnce environment creation {} frame ledger
  rw [deposited_empty] at words
  exact words

/-- A creation without success leaves the nonce of its creator. -/
theorem ledger_settledAtOnce (environment : Environment) (creation : Creation) {child : Outcome}
    (frame : Frame) (ledger : Ledger)
    (failed : (deposited environment creation.gas child).succeeded = false) :
    (settledAtOnce environment creation child frame ledger).ledger =
      ledger.bumpNonce frame.owner := by
  have written := writes_deployed environment (Creation.address frame ledger) creation.gas child
    (creation.opened frame ledger)
  simp only [settledAtOnce, failed]
  exact ((creation.keeps_opened frame ledger).trans written.keepsBelow).rollback

theorem createWith_eq (environment : Environment) (creation : Creation) {frame : Frame}
    (ledger : Ledger) (room : frame.HasRoom) :
    createWith environment creation.value creation.code creation.gas ⟨frame, ledger⟩ =
      if ledger.hasAccount (Creation.address frame ledger) then
        .ok none (settledAtOnce environment creation
          { fault := some (taken (Creation.address frame ledger)) } frame ledger)
      else if creation.code.isEmpty then
        .ok none (settledAtOnce environment creation {} frame ledger)
      else
        .ok (some ⟨creation.constructor environment frame ledger,
            .creation (Creation.address frame ledger) (creation.recorded frame ledger).1
              creation.gas⟩)
          ⟨(creation.recorded frame ledger).2, creation.opened frame ledger⟩ := by
  -- An address in use and a creation without code are settled alike, with the outcome of no frame.
  have settled : ∀ child, (do
      settleCreation environment (Creation.address frame ledger) (creation.recorded frame ledger).1
        creation.gas child
      pure none : SiteAction (Option Spawn))
        ⟨(creation.recorded frame ledger).2, creation.opened frame ledger⟩ =
        .ok none (settledAtOnce environment creation child frame ledger) := by
    intro child
    have recordedRoom : (creation.recorded frame ledger).2.HasRoom := room
    rw [bind_apply, settleCreation_apply, finishCreation_eq _ _ _ _ _ recordedRoom]
    rfl
  simp only [createWith, bind_apply, owner_apply, reads_apply, changeLedger_apply, update_apply]
  rw [if_apply, if_apply]
  by_cases inUse : ledger.hasAccount (Creation.address frame ledger) = true
  · rw [if_pos inUse]
    exact (if_pos inUse).trans (settled _)
  · rw [if_neg inUse]
    refine (if_neg inUse).trans ?_
    by_cases empty : creation.code.isEmpty = true
    · rw [if_pos empty, if_pos empty]
      exact settled _
    · rw [if_neg empty, if_neg empty]
      rfl

theorem spendPart_apply (frame : Frame) (cause : String) (ledger : Ledger) :
    onFrame (FrameAction.spend (Gas.allButPart frame.gasLeft) cause) ⟨frame, ledger⟩ =
      .ok () ⟨{ frame with outcome := frame.outcome.spend (Gas.allButPart frame.gasLeft) },
        ledger⟩ := by
  have affordable : ¬ frame.gasLeft < Gas.allButPart frame.gasLeft :=
    Nat.not_lt.mpr (Nat.sub_le _ _)
  simp only [onFrame_apply, FrameAction.spend, Frame.spend, if_neg affordable]

theorem create_eq (environment : Environment) {frame : Frame} (ledger : Ledger)
    (enough : 3 ≤ frame.stack.size) (room : (frame.dropWords 3).HasRoom) :
    create environment ⟨frame, ledger⟩ =
      if frame.context.isStatic then .error .staticViolation ⟨frame, ledger⟩
      else if frame.Refused environment ledger (frame.operand 0) then
        .ok none ⟨(Creation.reader frame).put 0, ledger⟩
      else
        createWith environment (Creation.asked frame).value (Creation.asked frame).code
          (Creation.asked frame).gas ⟨Creation.creator frame, ledger⟩ := by
  have ready : ((frame.dropWords 3).setReturned #[]).HasRoom := room
  -- Operands come off one by one; before the first none is gone.
  change create environment ⟨frame.dropWords 0, ledger⟩ = _
  by_cases static : frame.context.isStatic = true
  · simp [create, static]
    rfl
  · by_cases deep : environment.config.limits.callDepth ≤ frame.context.depth
    · simp (disch := omega) [create, static, deep, pop_apply, push_apply ready, Frame.Refused]
      rfl
    · by_cases poor : (ledger.balance frame.owner).toNat < (frame.operand 0).toNat
      · simp (disch := omega)
          [create, static, deep, poor, pop_apply, push_apply ready, Frame.Refused]
        rfl
      · simp (disch := omega)
          [create, static, deep, poor, pop_apply, spendPart_apply, Frame.Refused]
        rfl

end SiteAction

end ContractMachine
