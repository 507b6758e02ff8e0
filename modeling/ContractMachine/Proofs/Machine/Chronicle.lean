import ContractMachine.Proofs.Machine.Effects
import ContractMachine.Proofs.Machine.History

/-!
Chronicles: runs with their histories. `happenings` reads off a machine what its next step does,
from the instruction, the ledger and the limits as they are before it; `narrates_next` says what the
same step does to outcomes. A call or a creation that needs no frame ends as soon as it is asked
for.
-/

namespace ContractMachine

namespace Frame

def record (frame : Frame) (kind : RecordKind) (source : Address) (target : Option Address)
    (nonce : UInt64) (value : Word) (data : Bytes) (gas : Nat) : Record :=
  Record.make frame.context.transactionHash frame.context.depth frame.outcome.records.size kind
    source target nonce value data gas frame.context.gasPrice

def log (frame : Frame) (topics : Nat) : Log :=
  ⟨frame.owner, (frame.stack.words.drop 2).take topics,
    (frame.memory.read (frame.operand 0).index (frame.operand 1).index).1⟩

def logging (frame : Frame) (topics : Nat) : Frame :=
  let read := (frame.dropWords (topics + 2)).reading (frame.operand 0).index (frame.operand 1).index
  Frame.advance { read with outcome := read.outcome.addLog (frame.log topics) }

def removal (frame : Frame) (ledger : Ledger) : Record :=
  frame.record .suicide frame.owner (some (frame.operand 0).toAddress) (ledger.nonce frame.owner)
    (ledger.balance frame.owner) #[] 0

end Frame

def Message.record (message : Message) (frame : Frame) (ledger : Ledger) : Record :=
  frame.record (.message message.kind) frame.owner (some (message.account frame.owner))
    ((message.opened frame ledger).nonce frame.owner) message.value (message.input frame)
      message.gas

def Creation.record (creation : Creation) (frame : Frame) (ledger : Ledger) : Record :=
  frame.record .create frame.owner none ((creation.opened frame ledger).nonce frame.owner)
    creation.value creation.code creation.gas

namespace History

/-- A frame is asked for at a moment. If none is needed, it is known at once how that ends. -/
def asking (moment : Nat) (place : Place) (record : Record) (atOnce : Option Bool) : History :=
  ⟨place, .asked moment record⟩ ::
    (atOnce.map fun succeeded => ⟨moment :: place, .ended succeeded⟩).toList

end History

def Frame.happenings (environment : Environment) (ledger : Ledger) (moment : Nat) (place : Place)
    (price : Price) (frame : Frame) : Opcode → History
  | .log topics => if frame.context.isStatic then [] else [⟨place, .logged (frame.log topics.val)⟩]
  | .sstore => if frame.context.isStatic then [] else [⟨place, .refunded price.refund⟩]
  | .suicide =>
      if frame.context.isStatic then [] else [⟨place, .removed frame.owner (frame.removal ledger)⟩]
  | .create =>
      if frame.context.isStatic ∨ frame.Refused environment ledger (frame.operand 0) then []
      else
        History.asking moment place ((Creation.asked frame).record (Creation.creator frame) ledger)
          (if ledger.hasAccount (Creation.address frame ledger) then some false
            else if (Creation.asked frame).code.isEmpty then some true
            else none)
  | .call kind =>
      let message := kind.message environment price.forwarded frame
      let caller := kind.reader frame
      if frame.context.isStatic = true ∧ kind = .call ∧ message.value ≠ 0 then []
      -- What precompiles are asked for is not recorded.
      else if (environment.config.precompiles.find? message.codeAddress).isSome ∨
          caller.Refused environment ledger message.value then []
      else
        History.asking moment place (message.record caller ledger)
          (if ledger.code message.codeAddress = #[] then some true else none)
  | _ => []

namespace Machine

/-- What the next step does. A frame ends when the one that waits for it takes over its outcome. -/
def happenings (environment : Environment) (moment : Nat) (place : Place) (machine : Machine) :
    History :=
  if machine.frame.stopped then
    match machine.waiting with
    | [] => []
    | parent :: _ =>
        [⟨place, .ended (parent.awaited.final environment machine.frame.outcome).succeeded⟩]
  else
    match machine.frame.quote environment.config.fees machine.ledger with
    | .error _ => []
    | .ok (op, price) =>
        (machine.frame.pay price).happenings environment machine.ledger moment place price op

end Machine

structure Chronicle where
  machine : Machine
  place : Place := []
  past : History := []

def Place.moved (place : Place) (moment : Nat) (machine later : Machine) : Place :=
  if machine.waiting.length < later.waiting.length then moment :: place
  else if later.waiting.length < machine.waiting.length then place.tail
  else place

namespace Place

variable {place : Place} {moment : Nat} {frame later : Frame} {parent : Waiting}
  {waiting : List Waiting} {ledger after : Ledger}

theorem moved_level :
    place.moved moment ⟨frame, waiting, ledger⟩ ⟨later, waiting, after⟩ = place := by
  rw [moved, if_neg (Nat.lt_irrefl _), if_neg (Nat.lt_irrefl _)]

theorem moved_down :
    place.moved moment ⟨frame, waiting, ledger⟩ ⟨later, parent :: waiting, after⟩ =
      moment :: place :=
  if_pos (Nat.lt_succ_self _)

theorem moved_up :
    place.moved moment ⟨frame, parent :: waiting, ledger⟩ ⟨later, waiting, after⟩ = place.tail := by
  have lower : ¬ (parent :: waiting).length < waiting.length := Nat.not_lt.mpr (Nat.le_succ _)
  exact (if_neg lower).trans (if_pos (Nat.lt_succ_self _))

end Place

namespace Chronicle

/-- The moment of a step is the number of things that have happened before. -/
def next (environment : Environment) (chronicle : Chronicle) : Chronicle :=
  let later := chronicle.machine.next environment
  let moment := chronicle.past.length
  { machine := later
    place := chronicle.place.moved moment chronicle.machine later
    past := chronicle.past ++ chronicle.machine.happenings environment moment chronicle.place }

def after (environment : Environment) (machine : Machine) : Nat → Chronicle
  | 0 => { machine }
  | steps + 1 => (after environment machine steps).next environment

theorem machine_after (environment : Environment) (machine : Machine) (steps : Nat) :
    (after environment machine steps).machine = machine.runFor environment steps := by
  induction steps with
  | zero => rfl
  | succ steps ih =>
      rw [Machine.runFor_succ, ← ih]
      rfl

end Chronicle

namespace Outcome

structure Blank (outcome : Outcome) : Prop extends outcome.Effectless where
  records : outcome.records = #[]

structure Alike (outcome later : Outcome) : Prop where
  fault : later.fault = outcome.fault
  logs : later.logs = outcome.logs
  deletions : later.deletions = outcome.deletions
  refundPool : later.refundPool = outcome.refundPool
  records : later.records = outcome.records

/-- What the outcome of a frame has gained from its deeds. A frame that is stopped by force loses
its refunds. -/
structure Gains (outcome later : Outcome) (deeds : List Deed) : Prop where
  fault : later.fault = none → outcome.fault = none
  logs : later.logs.toList = outcome.logs.toList ++ deeds.filterMap Deed.log?
  deletions : later.deletions = outcome.deletions.union (deeds.filterMap Deed.account?)
  refundPool : later.fault = none →
    later.refundPool = Quantity.clamp (outcome.refundPool + (deeds.filterMap Deed.refund?).sum)
  records : later.records.toList = outcome.records.toList ++ deeds.filterMap Deed.record?

structure Takes (outcome child : Outcome) (index : Nat) (succeeded : Bool) (later : Outcome) :
    Prop where
  sound : succeeded = true → child.fault = none
  fault : later.fault = outcome.fault
  logs : later.logs.toList = outcome.logs.toList ++ if succeeded then child.logs.toList else []
  deletions : later.deletions = outcome.deletions.union (if succeeded then child.deletions else [])
  refundPool : later.refundPool =
    if succeeded then Quantity.clamp (outcome.refundPool + child.refundPool) else outcome.refundPool
  records : later.records.toList =
    if succeeded then outcome.records.toList ++ child.records.toList
    else (outcome.records.toList ++ child.records.toList.map Record.reject).modify index
      Record.reject

section

variable {outcome later last : Outcome} {deeds : List Deed}

theorem Gains.alike (gains : outcome.Gains later deeds) (same : later.Alike last) :
    outcome.Gains last deeds := by
  have goes (sound : last.fault = none) : later.fault = none := same.fault.symm.trans sound
  refine ⟨?_, ?_, ?_, ?_, ?_⟩
  · exact fun sound => gains.fault (goes sound)
  · rw [same.logs]
    exact gains.logs
  · rw [same.deletions]
    exact gains.deletions
  · intro sound
    rw [same.refundPool]
    exact gains.refundPool (goes sound)
  · rw [same.records]
    exact gains.records

/-- A frame that has done nothing to be recorded has as many records as before. -/
theorem Gains.size (gains : outcome.Gains later []) :
    later.records.size = outcome.records.size := by
  rw [← Array.length_toList, gains.records]
  exact congrArg List.length (List.append_nil _)

end

end Outcome

namespace Frame

variable {environment : Environment} {frame later caller : Frame} {ledger : Ledger} {op : Opcode}
  {price : Price} {kind : CallKind} {message : Message} {deeds : List Deed}

/-- To pay for an instruction adds to the refund pool what the instruction is due. -/
theorem gains_pay (frame : Frame) {price : Price}
    (refund : (deeds.filterMap Deed.refund?).sum = price.refund)
    (log : deeds.filterMap Deed.log? = []) (account : deeds.filterMap Deed.account? = [])
    (record : deeds.filterMap Deed.record? = []) :
    frame.outcome.Gains (frame.pay price).outcome deeds := by
  refine ⟨id, ?_, ?_, fun _ => ?_, ?_⟩
  · rw [log, List.append_nil]
    rfl
  · rw [account]
    rfl
  · rw [refund]
    rfl
  · rw [record, List.append_nil]
    rfl

theorem Due.gains_pay (due : frame.Due environment ledger op price) (other : op ≠ .sstore) :
    frame.outcome.Gains (frame.pay price).outcome [] := by
  have free := (least_le_work (quote_spec due.quoted).2.1).2 other
  exact frame.gains_pay free.symm rfl rfl rfl

/-- A frame that is stopped by force has done nothing more that is seen, but for its refunds. -/
theorem gains_halt (frame later : Frame) (fault : Fault)
    (logs : later.outcome.logs = frame.outcome.logs)
    (deletions : later.outcome.deletions = frame.outcome.deletions)
    (records : later.outcome.records = frame.outcome.records) :
    frame.outcome.Gains (later.halt fault).outcome [] := by
  have failed : (later.halt fault).outcome.fault ≠ .none := Option.some_ne_none fault
  refine ⟨fun sound => absurd sound failed, ?_, deletions, fun sound => absurd sound failed, ?_⟩
  · exact (congrArg Array.toList logs).trans (List.append_nil _).symm
  · exact (congrArg Array.toList records).trans (List.append_nil _).symm

theorem Silent.alike (silent : frame.Silent later) : frame.outcome.Alike later.outcome :=
  ⟨silent.changes.spares.fault, silent.logs, silent.changes.spares.deletions,
    silent.changes.spares.refundPool, silent.changes.records⟩

theorem Calls.gains (calls : frame.Calls environment ledger kind price message caller) :
    frame.outcome.Gains caller.outcome [] := by
  refine (calls.due.gains_pay Opcode.noConfusion).alike ?_
  rw [calls.eqs.2]
  cases kind <;> exact ⟨rfl, rfl, rfl, rfl, rfl⟩

end Frame

namespace FrameAction

/-- A LOG adds its log, if the frame may modify state. -/
theorem perform_log (environment : Environment) (ledger : Ledger) {topics : Fin 5} {frame : Frame}
    (enough : topics.val + 2 ≤ frame.stack.size) (mutable : frame.context.isStatic = false) :
    perform environment ledger (.log topics) frame = .ok () (frame.logging topics.val) := by
  have words := popMany_dropWords frame 2 topics.val (by omega)
  -- Operands come off one by one; before the first none is gone.
  change perform environment ledger (.log topics) (frame.dropWords 0) = _
  simp (disch := omega)
    only [perform, compute, bind_apply, ensureMutable_apply, Frame.dropWords_context, mutable,
    Bool.false_eq_true, if_false, pop_dropWords, words, readMemory_apply, reads_apply,
    changeOutcome_apply]
  rw [Nat.add_comm]
  rfl

theorem perform_log_of_static (environment : Environment) (ledger : Ledger) (topics : Fin 5)
    {frame : Frame} (static : frame.context.isStatic = true) :
    perform environment ledger (.log topics) frame = .error .staticViolation frame := by
  simp only [perform, compute, bind_apply, ensureMutable_apply, static, if_true]

end FrameAction

/-- The frame that has waited takes over what its child has come to. -/
theorem Awaited.takes (environment : Environment) (parent : Waiting) (child : Outcome) :
    parent.frame.outcome.Takes child parent.awaited.record
      (parent.awaited.final environment child).succeeded
      (parent.awaited.answered environment child parent.frame).outcome := by
  rw [outcome_answered]
  refine ⟨?_, ?_, ?_, ?_, ?_, ?_⟩
  · intro succeeded
    cases sound : child.succeeded with
    | true => exact (child.succeeded_iff.mp sound).1
    | false =>
        rw [parent.awaited.final_of_unsuccessful environment sound] at succeeded
        cases succeeded
  · exact parent.awaited.taken_fault environment child _
  · change (parent.awaited.taken environment child _).logs.toList = _
    rw [logs_taken]
    split
    · exact Array.toList_append
    · exact (List.append_nil _).symm
  · change (parent.awaited.taken environment child _).deletions = _
    rw [deletions_taken]
    split <;> rfl
  · exact refundPool_taken environment parent.awaited child _
  · change (parent.awaited.taken environment child _).records.toList = _
    rw [records_taken]
    split
    · exact Array.toList_append
    · rw [Array.toList_modify, Array.toList_append, Array.toList_map]

def Deed.Alone (index : Nat) : Deed → Prop
  | .logged _ | .refunded _ => True
  | .removed _ record => record.MadeAt index
  | .asked _ _ | .ended _ => False

namespace Deed.Alone

variable {deed : Deed} {index : Nat}

theorem ne_ended (alone : deed.Alone index) (succeeded : Bool) : deed ≠ .ended succeeded := by
  rintro rfl
  exact alone

theorem ne_asked (alone : deed.Alone index) (moment : Nat) (record : Record) :
    deed ≠ .asked moment record := by
  rintro rfl
  exact alone

theorem madeAt (alone : deed.Alone index) {record : Record} (its : deed.record? = some record) :
    record.MadeAt index := by
  cases deed with
  | removed account record =>
      cases its
      exact alone
  | asked moment record => exact alone.elim
  | logged | refunded | ended => cases its

theorem subject_eq (alone : deed.Alone index) (place : Place) :
    (Happening.mk place deed).subject = place := by
  cases deed with
  | asked moment record => exact alone.elim
  | logged | refunded | removed | ended => rfl

end Deed.Alone

namespace Machine

/-- A step with what happens in it and what becomes of outcomes. -/
inductive Narrates (moment : Nat) (place : Place) : Machine → Machine → History → Prop where
  | level {frame later : Frame} {waiting : List Waiting}
      {ledger after : Ledger} (deed? : Option Deed)
      (gains : frame.outcome.Gains later.outcome deed?.toList)
      (alone : ∀ deed ∈ deed?, deed.Alone frame.outcome.records.size) :
      Narrates moment place ⟨frame, waiting, ledger⟩ ⟨later, waiting, after⟩
        (.doing place deed?.toList)
  | atOnce {frame asker later : Frame} {waiting : List Waiting} {ledger after : Ledger}
      {record : Record} {child : Outcome} {succeeded : Bool}
      (gains : frame.outcome.Gains asker.outcome [.asked moment record])
      (made : record.MadeAt frame.outcome.records.size) (blank : child.Blank)
      (takes : asker.outcome.Takes child record.index succeeded later.outcome) :
      Narrates moment place ⟨frame, waiting, ledger⟩ ⟨later, waiting, after⟩
        (.asking moment place record (some succeeded))
  | down {frame child asker : Frame} {awaited : Awaited} {waiting : List Waiting}
      {ledger after : Ledger} {record : Record}
      (gains : frame.outcome.Gains asker.outcome [.asked moment record])
      (made : record.MadeAt frame.outcome.records.size) (awaits : awaited.record = record.index)
      (blank : child.outcome.Blank) :
      Narrates moment place ⟨frame, waiting, ledger⟩ ⟨child, ⟨asker, awaited⟩ :: waiting, after⟩
        (.asking moment place record none)
  | up {child later : Frame} {parent : Waiting} {waiting : List Waiting} {ledger after : Ledger}
      {succeeded : Bool}
      (takes : parent.frame.outcome.Takes child.outcome parent.awaited.record succeeded
        later.outcome) :
      Narrates moment place ⟨child, parent :: waiting, ledger⟩ ⟨later, waiting, after⟩
        [⟨place, .ended succeeded⟩]

section

variable {environment : Environment} {root frame caller : Frame} {waiting : List Waiting}
  {ledger after : Ledger} {op : Opcode} {kind : CallKind} {price : Price} {message : Message}
  {machine later : Machine} {record : Record}

theorem blank_empty : Outcome.Blank {} := ⟨⟨rfl, rfl, rfl⟩, rfl⟩

/-- Nothing is seen of the step. -/
theorem narrates_quiet {later : Frame} (moment : Nat) (place : Place)
    (gains : frame.outcome.Gains later.outcome []) :
    Narrates moment place ⟨frame, waiting, ledger⟩ ⟨later, waiting, after⟩ [] := by
  refine .level none gains ?_
  intro deed among
  cases among

theorem narrates_halt (moment : Nat) (place : Place) {later : Frame} (fault : Fault)
    (logs : later.outcome.logs = frame.outcome.logs)
    (deletions : later.outcome.deletions = frame.outcome.deletions)
    (records : later.outcome.records = frame.outcome.records) :
    Narrates moment place ⟨frame, waiting, ledger⟩ ⟨later.halt fault, waiting, after⟩ [] :=
  narrates_quiet moment place (frame.gains_halt later fault logs deletions records)

/-- A frame that asks for another one records it. -/
theorem gains_asked {outcome middle later : Outcome} (moment : Nat)
    (gains : outcome.Gains middle []) (same : middle.Alike { later with records := middle.records })
    (records : later.records = middle.records.push record) :
      outcome.Gains later [.asked moment record] where
  fault := (gains.alike same).fault
  logs := (gains.alike same).logs
  deletions := (gains.alike same).deletions
  refundPool := (gains.alike same).refundPool
  records := by
    rw [records, Array.toList_push, gains.records, List.append_assoc]
    rfl

theorem happenings_due (moment : Nat) (place : Place)
    (due : frame.Due environment ledger op price) :
    happenings environment moment place ⟨frame, waiting, ledger⟩ =
      (frame.pay price).happenings environment ledger moment place price op := by
  simp only [happenings, due.runs, due.quoted, Bool.false_eq_true, if_false]

theorem happenings_call (moment : Nat) (place : Place)
    (calls : frame.Calls environment ledger kind price message caller) :
    happenings environment moment place ⟨frame, waiting, ledger⟩ =
      if (environment.config.precompiles.find? message.codeAddress).isSome ∨
          caller.Refused environment ledger message.value then []
      else
        History.asking moment place (message.record caller ledger)
          (if ledger.code message.codeAddress = #[] then some true else none) := by
  obtain ⟨due, read⟩ := calls
  rw [happenings_due moment place due]
  rw [SiteAction.readMessage_eq environment kind price.forwarded due.enough] at read
  split at read
  · cases read
  · rename_i allowed
    cases read
    exact if_neg allowed

theorem Sends.narrates (sends : Sends environment message caller waiting ledger later)
    (calls : frame.Calls environment ledger kind price message caller) (moment : Nat)
    (place : Place) :
    Narrates moment place ⟨frame, waiting, ledger⟩ later
      (happenings environment moment place ⟨frame, waiting, ledger⟩) := by
  have gains := calls.gains
  have made : (message.record caller ledger).MadeAt frame.outcome.records.size := ⟨gains.size, rfl⟩
  have asked : frame.outcome.Gains (message.recorded caller ledger).2.outcome
      [.asked moment (message.record caller ledger)] :=
    gains_asked moment gains ⟨rfl, rfl, rfl, rfl, rfl⟩ rfl
  rw [happenings_call moment place calls]
  cases sends with
  | @refused refused reader read =>
      rw [if_pos (.inr refused)]
      rcases read with rfl | rfl <;> exact narrates_quiet moment place
        (gains.alike ⟨rfl, rfl, rfl, rfl, rfl⟩)
  | drained granted found dear =>
      rw [if_pos (.inl (Option.isSome_of_eq_some found))]
      exact narrates_quiet moment place (gains.alike ⟨rfl, rfl, rfl, rfl, rfl⟩)
  | @delivered contract granted found paid later ran =>
      obtain ⟨growth, _, _, delivered⟩ := SiteAction.deliver_spec ran
      have outcome := congrArg Frame.outcome delivered
      have same : caller.outcome.Alike later.outcome := by
        rw [outcome]
        exact ⟨rfl, rfl, rfl, rfl, rfl⟩
      rw [if_pos (.inl (Option.isSome_of_eq_some found))]
      exact narrates_quiet moment place (gains.alike same)
  | @overdrawn contract granted found paid later fault ran =>
      have same : later.outcome.logs = frame.outcome.logs ∧
          later.outcome.deletions = frame.outcome.deletions ∧
          later.outcome.records = frame.outcome.records := by
        rw [SiteAction.eq_of_deliver_error ran, calls.eqs.2]
        cases kind <;> exact ⟨rfl, rfl, rfl⟩
      rw [if_pos (.inl (Option.isSome_of_eq_some found))]
      exact narrates_halt moment place fault same.1 same.2.1 same.2.2
  | passed granted found empty =>
      have passes : ¬ ((environment.config.precompiles.find? message.codeAddress).isSome ∨
          caller.Refused environment ledger message.value) := by
        rw [found]
        exact fun stopped => stopped.elim Bool.false_ne_true granted
      -- The pool has been cut off already when the frame paid for the call.
      have pool : caller.outcome.refundPool = Quantity.clamp caller.outcome.refundPool := by
        have bounded : caller.outcome.refundPool ≤ Quantity.limit := by
          rw [calls.eqs.2]
          cases kind <;> exact Quantity.clamp_le _
        exact ((Quantity.clamp_eq_iff _).mpr bounded).symm
      rw [if_neg passes, if_pos empty]
      refine .atOnce asked made blank_empty ?_
      exact ⟨fun _ => rfl, rfl, (List.append_nil _).symm, rfl, pool, (List.append_nil _).symm⟩
  | entered granted found code =>
      have passes : ¬ ((environment.config.precompiles.find? message.codeAddress).isSome ∨
          caller.Refused environment ledger message.value) := by
        rw [found]
        exact fun stopped => stopped.elim Bool.false_ne_true granted
      rw [if_neg passes, if_neg code]
      exact .down asked made rfl blank_empty

theorem happenings_create (moment : Nat) (place : Place)
    (creates : frame.Creates environment ledger price) :
    happenings environment moment place ⟨frame, waiting, ledger⟩ =
      if (frame.pay price).Refused environment ledger ((frame.pay price).operand 0) then []
      else
        History.asking moment place
          ((Creation.asked (frame.pay price)).record (Creation.creator (frame.pay price)) ledger)
          (if ledger.hasAccount (Creation.address (frame.pay price) ledger) then some false
            else if (Creation.asked (frame.pay price)).code.isEmpty then some true
            else none) := by
  have mutable : ¬ (frame.pay price).context.isStatic = true := ne_true_of_eq_false creates.mutable
  rw [happenings_due moment place creates.due]
  exact if_congr (or_iff_right mutable) rfl rfl

/-- A creation without a frame of its own is taken over like one with a frame. -/
theorem narrates_settled {creation : Creation} {creator : Frame} {child : Outcome}
    {succeeded : Bool} (moment : Nat) (place : Place)
    (gains : frame.outcome.Gains creator.outcome []) (blank : child.Blank)
    (final : ((creation.awaited creator ledger).final environment child).succeeded = succeeded) :
    Narrates moment place ⟨frame, waiting, ledger⟩
      ⟨(SiteAction.settledAtOnce environment creation child creator ledger).frame.advance, waiting,
        after⟩
      (History.asking moment place (creation.record creator ledger) (some succeeded)) := by
  have asked : frame.outcome.Gains (creation.recorded creator ledger).2.outcome
      [.asked moment (creation.record creator ledger)] :=
    gains_asked moment gains ⟨rfl, rfl, rfl, rfl, rfl⟩ rfl
  have takes :=
    Awaited.takes environment
    ⟨(creation.recorded creator ledger).2, creation.awaited creator ledger⟩ child
  rw [final] at takes
  exact .atOnce asked ⟨gains.size, rfl⟩ blank takes

theorem Makes.narrates (makes : Makes environment (frame.pay price) waiting ledger later)
    (creates : frame.Creates environment ledger price) (moment : Nat) (place : Place) :
    Narrates moment place ⟨frame, waiting, ledger⟩ later
      (happenings environment moment place ⟨frame, waiting, ledger⟩) := by
  have paid := creates.due.gains_pay Opcode.noConfusion
  have gains : frame.outcome.Gains (Creation.creator (frame.pay price)).outcome [] :=
    paid.alike ⟨rfl, rfl, rfl, rfl, rfl⟩
  rw [happenings_create moment place creates]
  cases makes with
  | refused refused =>
      rw [if_pos refused]
      exact narrates_quiet moment place (paid.alike ⟨rfl, rfl, rfl, rfl, rfl⟩)
  | collided granted inUse settled =>
      subst settled
      rw [if_neg granted, if_pos inUse]
      exact narrates_settled moment place gains ⟨⟨rfl, rfl, rfl⟩, rfl⟩
        (Awaited.final_of_unsuccessful environment _ rfl)
  | passed granted free empty settled =>
      subst settled
      rw [if_neg granted, if_neg (ne_true_of_eq_false free), if_pos empty]
      refine narrates_settled moment place gains blank_empty ?_
      exact congrArg Outcome.succeeded (SiteAction.deposited_empty environment _)
  | entered granted free code ready asked =>
      subst ready asked
      rw [if_neg granted, if_neg (ne_true_of_eq_false free), if_neg (ne_true_of_eq_false code)]
      exact .down (gains_asked moment gains ⟨rfl, rfl, rfl, rfl, rfl⟩ rfl)
        ⟨gains.size, rfl⟩ rfl blank_empty

theorem narrates_log (waiting : List Waiting) {topics : Fin 5}
    (due : frame.Due environment ledger (.log topics) price) (moment : Nat) (place : Place) :
    Narrates moment place ⟨frame, waiting, ledger⟩ (instruct environment ⟨frame, waiting, ledger⟩)
      (happenings environment moment place ⟨frame, waiting, ledger⟩) := by
  rw [happenings_due moment place due, instruct_alone waiting due rfl]
  cases mutable : (frame.pay price).context.isStatic with
  | true =>
      rw [FrameAction.perform_log_of_static environment ledger topics mutable]
      simp only [Frame.happenings, mutable, if_true]
      exact narrates_halt moment place .staticViolation rfl rfl rfl
  | false =>
      rw [FrameAction.perform_log environment ledger due.enough mutable]
      simp only [Frame.happenings, mutable, Bool.false_eq_true, if_false]
      refine .level (some (.logged ((frame.pay price).log topics.val))) ?_ ?_
      · have paid := due.gains_pay Opcode.noConfusion
        refine ⟨paid.fault, ?_, paid.deletions, paid.refundPool, paid.records⟩
        have logs := paid.logs
        rw [List.filterMap_nil, List.append_nil] at logs
        exact Array.toList_push.trans (congrArg (· ++ [(frame.pay price).log topics.val]) logs)
      · intro deed among
        cases among
        trivial

theorem narrates_alone (waiting : List Waiting) (due : frame.Due environment ledger op price)
    (alone : op.isAlone = true) (moment : Nat) (place : Place) :
    Narrates moment place ⟨frame, waiting, ledger⟩ (instruct environment ⟨frame, waiting, ledger⟩)
      (happenings environment moment place ⟨frame, waiting, ledger⟩) := by
  by_cases logs : ∃ topics, op = .log topics
  · obtain ⟨topics, rfl⟩ := logs
    exact narrates_log waiting due moment place
  · have other : ∀ topics, op ≠ .log topics := fun topics same => logs ⟨topics, same⟩
    have silent := FrameAction.silent_perform environment ledger other
    have nothing : (frame.pay price).happenings environment ledger moment place price op = [] := by
      cases op with
      | create | call | suicide | sstore => cases alone
      | log topics => exact absurd rfl (other topics)
      | _ => rfl
    have pays : op ≠ .sstore := by
      rintro rfl
      cases alone
    rw [happenings_due moment place due, nothing, instruct_alone waiting due alone]
    cases ran : FrameAction.perform environment ledger op (frame.pay price) with
    | ok value later =>
      exact narrates_quiet moment place ((due.gains_pay pays).alike (silent.ok ran).alike)
    | error fault later =>
        have failed := silent.error ran
        exact narrates_halt moment place fault failed.logs failed.changes.spares.deletions
          failed.changes.records

theorem narrates_store (waiting : List Waiting) (due : frame.Due environment ledger .sstore price)
    (moment : Nat) (place : Place) :
    Narrates moment place ⟨frame, waiting, ledger⟩ (instruct environment ⟨frame, waiting, ledger⟩)
      (happenings environment moment place ⟨frame, waiting, ledger⟩) := by
  rw [happenings_due moment place due, instruct_store waiting due]
  cases mutable : frame.context.isStatic with
  | true =>
      have nothing : (frame.pay price).happenings environment ledger moment place price .sstore =
          [] := if_pos mutable
      rw [nothing]
      exact narrates_halt moment place .staticViolation rfl rfl rfl
  | false =>
      have stores : (frame.pay price).happenings environment ledger moment place price .sstore =
          [⟨place, .refunded price.refund⟩] := if_neg (ne_true_of_eq_false mutable)
      have paid : frame.outcome.Gains (frame.pay price).outcome [.refunded price.refund] :=
        frame.gains_pay rfl rfl rfl rfl
      rw [stores]
      refine .level (some (.refunded price.refund)) (paid.alike ⟨rfl, rfl, rfl, rfl, rfl⟩) ?_
      intro deed among
      cases among
      trivial

theorem narrates_suicide (waiting : List Waiting)
    (due : frame.Due environment ledger .suicide price) (moment : Nat) (place : Place) :
    Narrates moment place ⟨frame, waiting, ledger⟩ (instruct environment ⟨frame, waiting, ledger⟩)
      (happenings environment moment place ⟨frame, waiting, ledger⟩) := by
  rw [happenings_due moment place due, instruct_suicide waiting due]
  cases mutable : frame.context.isStatic with
  | true =>
      have nothing : (frame.pay price).happenings environment ledger moment place price .suicide =
          [] := if_pos mutable
      rw [nothing]
      exact narrates_halt moment place .staticViolation rfl rfl rfl
  | false =>
      have removes : (frame.pay price).happenings environment ledger moment place price .suicide =
          [⟨place, .removed frame.owner ((frame.pay price).removal ledger)⟩] :=
            if_neg (ne_true_of_eq_false mutable)
      have paid := due.gains_pay Opcode.noConfusion
      rw [removes]
      refine .level (some (.removed frame.owner ((frame.pay price).removal ledger))) ?_ ?_
      · refine ⟨paid.fault, paid.logs, ?_, paid.refundPool, ?_⟩
        · exact congrArg (·.insert frame.owner) paid.deletions
        · have records := paid.records
          rw [List.filterMap_nil, List.append_nil] at records
          exact Array.toList_push.trans (congrArg (· ++ [(frame.pay price).removal ledger]) records)
      · intro deed among
        cases among
        exact ⟨rfl, rfl⟩

theorem narrates_call (waiting : List Waiting)
    (due : frame.Due environment ledger (.call kind) price) (moment : Nat) (place : Place) :
    Narrates moment place ⟨frame, waiting, ledger⟩ (instruct environment ⟨frame, waiting, ledger⟩)
      (happenings environment moment place ⟨frame, waiting, ledger⟩) := by
  cases read : SiteAction.readMessage environment kind price.forwarded (frame.pay price) with
  | ok message caller =>
      have calls : frame.Calls environment ledger kind price message caller := ⟨due, read⟩
      exact (sends_instruct waiting calls).narrates calls moment place
  | error fault later =>
      have nothing :
          (frame.pay price).happenings environment ledger moment place price (.call kind) = [] := by
        rw [SiteAction.readMessage_eq environment kind price.forwarded due.enough] at read
        split at read
        · rename_i refused
          exact if_pos refused
        · cases read
      rw [happenings_due moment place due, nothing, instruct_call_of_error waiting due read]
      exact narrates_halt moment place .staticViolation rfl rfl rfl

theorem narrates_create (waiting : List Waiting) (due : frame.Due environment ledger .create price)
    (moment : Nat) (place : Place) :
    Narrates moment place ⟨frame, waiting, ledger⟩ (instruct environment ⟨frame, waiting, ledger⟩)
      (happenings environment moment place ⟨frame, waiting, ledger⟩) := by
  cases mutable : frame.context.isStatic with
  | false =>
      have creates : frame.Creates environment ledger price := ⟨due, mutable⟩
      exact (makes_instruct waiting creates).narrates creates moment place
  | true =>
      have nothing : (frame.pay price).happenings environment ledger moment place price .create =
          [] :=
        if_pos (.inl mutable)
      rw [happenings_due moment place due, nothing, instruct_create_of_static waiting due mutable]
      exact narrates_halt moment place .staticViolation rfl rfl rfl

theorem narrates_instruct (waiting : List Waiting) (runs : frame.stopped = false) (moment : Nat)
    (place : Place) :
    Narrates moment place ⟨frame, waiting, ledger⟩ (instruct environment ⟨frame, waiting, ledger⟩)
      (happenings environment moment place ⟨frame, waiting, ledger⟩) := by
  cases quoted : frame.quote environment.config.fees ledger with
  | error fault =>
      simp only [instruct, happenings, runs, quoted, Bool.false_eq_true, if_false]
      exact narrates_halt moment place fault rfl rfl rfl
  | ok paid =>
      obtain ⟨op, price⟩ := paid
      have due : frame.Due environment ledger op price := ⟨runs, quoted⟩
      cases op with
      | create => exact narrates_create waiting due moment place
      | call kind => exact narrates_call waiting due moment place
      | sstore => exact narrates_store waiting due moment place
      | suicide => exact narrates_suicide waiting due moment place
      | _ => exact narrates_alone waiting due rfl moment place

/-- What happens in a step is what becomes of outcomes in it. -/
theorem narrates_next (nested : Nested environment root machine.frame machine.waiting)
    (runs : machine.finished = false) (moment : Nat) (place : Place) :
    Narrates moment place machine (machine.next environment)
      (machine.happenings environment moment place) := by
  obtain ⟨frame, waiting, ledger⟩ := machine
  cases stopped : frame.stopped with
  | false =>
      rw [next_running waiting stopped]
      exact narrates_instruct waiting stopped moment place
  | true =>
      obtain ⟨parent, waiting, rfl, goes⟩ := next_of_stopped nested runs stopped
      have ends : happenings environment moment place ⟨frame, parent :: waiting, ledger⟩ =
          [⟨place, .ended (parent.awaited.final environment frame.outcome).succeeded⟩] :=
            if_pos stopped
      have takes := Awaited.takes environment parent frame.outcome
      rw [goes, ends]
      exact .up takes

end

end Machine

end ContractMachine
