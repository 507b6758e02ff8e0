import ContractMachine.Proofs.Frame.Windows
import ContractMachine.Proofs.Machine.Agreement
import ContractMachine.Proofs.Machine.Answer
import ContractMachine.Proofs.Machine.Settlement
import Mathlib.Data.List.Forall2

/-!
Runs with what each frame has paid for the growth of its memory. The instruction at work is charged
for every window that its operands name, and the output of a precompile, which may go past its
window, is charged on its own; an answer that comes back many steps later is written within the size
that memory has by then. So the memory of every frame is paid for at every moment
(`memory_is_paid_for`).
-/

namespace ContractMachine

/-- What becomes of memory under an instruction that is charged for the growth to its windows, and
the growth that is charged in all: one more window may be charged on its own. -/
inductive Memory.Handled (fees : Fees) (windows : List Window) (growth : Nat) (memory : Memory) :
    Nat → Memory → Prop where
  | named {later : Memory} (touches : memory.Touches windows later) :
      Handled fees windows growth memory growth later
  | output {middle later : Memory} {window : Window} {more : Nat}
      (touches : memory.Touches windows middle) (pays : fees.PaysFor middle.size [window] more)
      (written : middle.Touches [window] later) :
      Handled fees windows growth memory (growth + more) later

theorem Memory.Covered.handled {fees : Fees} {paid growth total : Nat} {memory later : Memory}
    {windows : List Window} (covered : memory.Covered fees paid)
    (pays : fees.PaysFor memory.size windows growth)
    (handled : memory.Handled fees windows growth total later) :
    later.Covered fees (paid + total) := by
  cases handled with
  | named touches => exact covered.touches pays touches
  | output touches more written =>
      rw [← Nat.add_assoc]
      exact (covered.touches pays touches).touches more written

def Message.outputGrowth (message : Message) (environment : Environment) (caller : Frame)
    (ledger : Ledger) : Nat :=
  match environment.config.precompiles.find? message.codeAddress with
  | none => 0
  | some contract =>
      let output := contract.run (message.input caller)
      let before := SiteAction.precompiled message contract caller
      if caller.Refused environment ledger message.value ∨
        message.gas < contract.price (message.input caller) then 0
      else
        match SiteAction.deliver environment message output before with
        | .error _ _ => 0
        | .ok () _ =>
            (environment.config.fees.growth before.memory.size
              (memoryNeeded (Word.ofNat message.outOffset) (Word.ofNat output.size))).toOption.getD
                0

def Opcode.outputGrowth (environment : Environment) (frame : Frame) (ledger : Ledger)
    (price : Price) : Opcode → Nat
  | .call kind =>
      match SiteAction.readMessage environment kind price.forwarded (frame.pay price) with
      | .error _ _ => 0
      | .ok message caller => message.outputGrowth environment caller ledger
  | _ => 0

def Machine.growthPaid (environment : Environment) (machine : Machine) : Nat :=
  if machine.frame.stopped then 0
  else
    match machine.frame.quote environment.config.fees machine.ledger with
    | .error _ => 0
    | .ok (op, price) =>
        price.growth + op.outputGrowth environment machine.frame machine.ledger price

structure Metered where
  machine : Machine
  paid : List Nat := [0]

namespace Metered

def charge (growth : Nat) : List Nat → List Nat
  | [] => []
  | paid :: rest => (paid + growth) :: rest

/-- A frame that is made has paid for nothing; one that has stopped is forgotten when it is
answered. -/
def follow (machine later : Machine) (charged : List Nat) : List Nat :=
  if machine.waiting.length < later.waiting.length then 0 :: charged
  else if later.waiting.length < machine.waiting.length then charged.tail
  else charged

theorem charge_zero (paid : List Nat) : charge 0 paid = paid := by
  cases paid <;> rfl

section

variable (frame later : Frame) (parent : Waiting) (waiting : List Waiting) (ledger after : Ledger)
  (charged : List Nat)

theorem follow_level :
    follow ⟨frame, waiting, ledger⟩ ⟨later, waiting, after⟩ charged = charged := by
  simp only [follow, Nat.lt_irrefl, if_false]

theorem follow_down :
    follow ⟨frame, waiting, ledger⟩ ⟨later, parent :: waiting, after⟩ charged = 0 :: charged :=
  if_pos (Nat.lt_succ_self _)

theorem follow_up :
    follow ⟨frame, parent :: waiting, ledger⟩ ⟨later, waiting, after⟩ charged = charged.tail :=
  (if_neg (Nat.not_lt.mpr (Nat.le_succ _))).trans (if_pos (Nat.lt_succ_self _))

end

def next (environment : Environment) (metered : Metered) : Metered :=
  let later := metered.machine.next environment
  ⟨later, follow metered.machine later
    (charge (metered.machine.growthPaid environment) metered.paid)⟩

def after (environment : Environment) (first : Machine) : Nat → Metered
  | 0 => { machine := first }
  | steps + 1 => (after environment first steps).next environment

theorem machine_after (environment : Environment) (first : Machine) (steps : Nat) :
    (after environment first steps).machine = first.runFor environment steps := by
  induction steps with
  | zero => rfl
  | succ steps ih =>
      rw [Machine.runFor_succ, ← ih]
      rfl

end Metered

inductive Frame.Uses (environment : Environment) (ledger : Ledger) (frame : Frame) :
    Nat → Memory → Prop where
  | unpaid {fault : Fault} (quoted : frame.quote environment.config.fees ledger = .error fault) :
      Uses environment ledger frame 0 frame.memory
  | paid {op : Opcode} {price : Price} {total : Nat} {later : Memory}
      (due : frame.Due environment ledger op price)
      (handled : frame.memory.Handled environment.config.fees (op.windows frame) price.growth total
        later) :
      Uses environment ledger frame total later

/-- The window that the answer is written to lies within the memory of the frame that waits for
it. -/
def Waiting.Reserved (parent : Waiting) : Prop :=
  match parent.awaited with
  | .call message _ =>
      message.outSize ≠ 0 → message.outOffset + message.outSize ≤ parent.frame.memory.size
  | .creation _ _ _ => True

inductive Awaited.Fills (child : Outcome) (memory : Memory) : Awaited → Memory → Prop where
  | same (awaited : Awaited) : Fills child memory awaited memory
  | output (message : Message) (record : Nat) :
      Fills child memory (.call message record)
        (memory.writeWithin message.outOffset child.returnData message.outSize)

inductive Machine.Uses (environment : Environment) : Machine → Nat → Machine → Prop where
  | level {frame later : Frame} {waiting : List Waiting} {ledger after : Ledger} {total : Nat}
      (uses : frame.Uses environment ledger total later.memory) :
      Uses environment ⟨frame, waiting, ledger⟩ total ⟨later, waiting, after⟩
  | down {frame child : Frame} {parent : Waiting} {waiting : List Waiting} {ledger after : Ledger}
      {total : Nat} (uses : frame.Uses environment ledger total parent.frame.memory)
      (reserved : parent.Reserved) (blank : child.memory = {}) :
      Uses environment ⟨frame, waiting, ledger⟩ total ⟨child, parent :: waiting, after⟩
  | up {child later : Frame} {parent : Waiting} {waiting : List Waiting} {ledger after : Ledger}
      (stopped : child.stopped = true)
      (fills : parent.awaited.Fills child.outcome parent.frame.memory later.memory) :
      Uses environment ⟨child, parent :: waiting, ledger⟩ 0 ⟨later, waiting, after⟩

section

variable (frame : Frame)

@[simp] theorem Frame.advance_memory : frame.advance.memory = frame.memory := rfl

@[simp] theorem Frame.halt_memory (fault : Fault) : (frame.halt fault).memory = frame.memory := rfl

@[simp] theorem Frame.put_memory (word : Word) : (frame.put word).memory = frame.memory := rfl

@[simp] theorem Frame.pay_memory (price : Price) : (frame.pay price).memory = frame.memory := rfl

@[simp] theorem Frame.giveBack_memory (gas : Nat) : (frame.giveBack gas).memory = frame.memory :=
  rfl

@[simp] theorem Frame.setReturned_memory (data : Bytes) :
    (frame.setReturned data).memory = frame.memory := rfl

@[simp] theorem Message.recorded_memory (message : Message) (ledger : Ledger) :
    (message.recorded frame ledger).2.memory = (message.fed frame).memory := rfl

@[simp] theorem SiteAction.precompiled_memory (message : Message) (contract : Precompile) :
    (precompiled message contract frame).memory = (message.fed frame).memory := rfl

@[simp] theorem SiteAction.removing_memory (ledger : Ledger) :
    (removing frame ledger).memory = frame.memory := rfl

@[simp] theorem Creation.reader_memory : (reader frame).memory = frame.memory := rfl

@[simp] theorem Creation.recorded_memory (creation : Creation) (ledger : Ledger) :
    (creation.recorded frame ledger).2.memory = frame.memory := rfl

end

theorem SiteAction.memory_created (address : Address) (record gas : Nat) (done : Outcome)
    (frame : Frame) :
    (created address record gas done frame).memory = frame.memory := by
  unfold created
  split
  · rfl
  · split <;> rfl

theorem Awaited.fills_answered (environment : Environment) (awaited : Awaited) (child : Outcome)
    (frame : Frame) :
    awaited.Fills child frame.memory (awaited.answered environment child frame).memory := by
  cases awaited with
  | call message record =>
      simp only [answered, SiteAction.called]
      split
      · exact .output message record
      · split
        · exact .output message record
        · exact .same _
  | creation address record gas =>
      simp only [answered, SiteAction.memory_created]
      exact .same _

/-- An output is priced where it is written, and that is where the operand says unless there is
none. -/
theorem SiteAction.touches_of_deliver {environment : Environment} {message : Message}
    {output : Bytes} {before later : Frame} {offset : Word}
    (named : message.outOffset = offset.index) (short : output.size ≤ Word.indexLimit)
    (reserved : message.outSize ≠ 0 → message.outOffset + message.outSize ≤ before.memory.size)
    (ran : deliver environment message output before = .ok () later) :
    ∃ growth, environment.config.fees.growth before.memory.size
        (memoryNeeded (Word.ofNat message.outOffset) (Word.ofNat output.size)) = .ok growth ∧
      environment.config.fees.PaysFor before.memory.size [⟨offset, Word.ofNat output.size⟩] growth ∧
      before.memory.Touches [⟨offset, Word.ofNat output.size⟩] later.memory := by
  obtain ⟨growth, grown, _, rfl⟩ := deliver_spec ran
  refine ⟨growth, grown, ⟨_, grown, ?_⟩, ?_⟩
  · intro window only
    rw [List.mem_singleton.mp only, named]
    rw [named] at grown
    exact Window.within_of_narrowed (Fees.growth_spec grown).1
  · have written : before.memory.Touches [⟨offset, Word.ofNat output.size⟩]
        (before.memory.write offset.index output (Word.ofNat output.size).index) :=
      .write .none (List.mem_singleton_self _) output
    rw [Word.index_ofNat short, ← named] at written
    simp only [Memory.extend_of_inside reserved]
    exact written

namespace Message

variable {environment : Environment} {message : Message} {caller : Frame} {ledger : Ledger}
  {contract : Precompile}

theorem outputGrowth_of_account
    (found : environment.config.precompiles.find? message.codeAddress = none) :
    message.outputGrowth environment caller ledger = 0 := by
  rw [outputGrowth, found]

theorem outputGrowth_of_refused (refused : caller.Refused environment ledger message.value) :
    message.outputGrowth environment caller ledger = 0 := by
  unfold outputGrowth
  split
  · rfl
  · exact if_pos (.inl refused)

theorem outputGrowth_of_dear
    (found : environment.config.precompiles.find? message.codeAddress = some contract)
    (dear : message.gas < contract.price (message.input caller)) :
    message.outputGrowth environment caller ledger = 0 := by
  rw [outputGrowth, found]
  exact if_pos (.inr dear)

theorem outputGrowth_of_error (granted : ¬ caller.Refused environment ledger message.value)
    (found : environment.config.precompiles.find? message.codeAddress = some contract)
    (paid : ¬ message.gas < contract.price (message.input caller)) {later : Frame} {fault : Fault}
    (ran : SiteAction.deliver environment message (contract.run (message.input caller))
      (SiteAction.precompiled message contract caller) = .error fault later) :
    message.outputGrowth environment caller ledger = 0 := by
  rw [outputGrowth, found]
  simp only [if_neg (not_or.mpr ⟨granted, paid⟩), ran]

theorem outputGrowth_of_ok (granted : ¬ caller.Refused environment ledger message.value)
    (found : environment.config.precompiles.find? message.codeAddress = some contract)
    (paid : ¬ message.gas < contract.price (message.input caller)) {later : Frame} {growth : Nat}
    (ran : SiteAction.deliver environment message (contract.run (message.input caller))
      (SiteAction.precompiled message contract caller) = .ok () later)
    (grown : environment.config.fees.growth (message.fed caller).memory.size
      (memoryNeeded (Word.ofNat message.outOffset)
        (Word.ofNat (contract.run (message.input caller)).size)) =
        .ok growth) :
    message.outputGrowth environment caller ledger = growth := by
  have same :
      environment.config.fees.growth (SiteAction.precompiled message contract caller).memory.size
      (memoryNeeded (Word.ofNat message.outOffset)
        (Word.ofNat (contract.run (message.input caller)).size)) =
        .ok growth := grown
  rw [outputGrowth, found]
  simp only [if_neg (not_or.mpr ⟨granted, paid⟩), ran, same]
  rfl

end Message

namespace Frame.Calls

variable {environment : Environment} {frame caller : Frame} {ledger : Ledger} {kind : CallKind}
  {price : Price} {message : Message}

theorem memory_caller (calls : frame.Calls environment ledger kind price message caller) :
    caller.memory = frame.memory.extend message.outOffset message.outSize := by
  obtain ⟨rfl, rfl⟩ := calls.eqs
  rfl

theorem memory_fed (calls : frame.Calls environment ledger kind price message caller) :
    (message.fed caller).memory =
      (frame.memory.extend message.outOffset message.outSize).extend message.inOffset
        message.inSize := by
  rw [← calls.memory_caller]
  rfl

/-- The windows of a call, as they are named and as the message has them. -/
theorem windows (calls : frame.Calls environment ledger kind price message caller) :
    ∃ inOffset inSize outOffset outSize : Word,
      (Opcode.call kind).windows frame = [⟨inOffset, inSize⟩, ⟨outOffset, outSize⟩] ∧
        message.inOffset = inOffset.index ∧ message.inSize = inSize.index ∧
        message.outOffset = outOffset.index ∧ message.outSize = outSize.index := by
  rw [calls.eqs.1]
  exact ⟨_, _, _, _, rfl, rfl, rfl, rfl, rfl⟩

/-- The output has its room before the input is read. -/
theorem touches (calls : frame.Calls environment ledger kind price message caller) :
    frame.memory.Touches ((Opcode.call kind).windows frame) caller.memory ∧
      frame.memory.Touches ((Opcode.call kind).windows frame) (message.fed caller).memory := by
  obtain ⟨inOffset, inSize, outOffset, outSize, named, input, taken, output, room⟩ := calls.windows
  rw [calls.memory_caller, calls.memory_fed, input, taken, output, room, named]
  have behind : frame.memory.Touches [⟨inOffset, inSize⟩, ⟨outOffset, outSize⟩]
      (frame.memory.extend outOffset.index outSize.index) :=
    .extend .none (List.mem_cons_of_mem _ (List.mem_singleton_self _))
  exact ⟨behind, .extend behind List.mem_cons_self⟩

theorem reserved (calls : frame.Calls environment ledger kind price message caller)
    (some : message.outSize ≠ 0) :
    message.outOffset + message.outSize ≤ (message.fed caller).memory.size := by
  rw [calls.memory_fed]
  exact Nat.le_trans (frame.memory.inside_extend _ some) (Memory.size_le_extend _ _ _)

/-- A precompile has no more to put out than one word or its input. -/
theorem size_run_le (calls : frame.Calls environment ledger kind price message caller)
    (contract : Precompile) :
    (contract.run (message.input caller)).size ≤ Word.indexLimit := by
  have output := contract.size_run_le (message.input caller)
  have input : (message.input caller).size ≤ message.inSize := caller.memory.read_size_le _ _
  have narrow : message.inSize ≤ Word.indexLimit := by
    obtain ⟨_, inSize, _, _, _, _, taken, _, _⟩ := calls.windows
    rw [taken]
    exact inSize.index_le
  have word : 32 ≤ Word.indexLimit := by decide
  omega

end Frame.Calls

namespace Machine

section

variable {environment : Environment} {frame : Frame} {waiting : List Waiting} {ledger : Ledger}
  {later : Machine}

theorem growthPaid_of_due {op : Opcode} {price : Price}
    (due : frame.Due environment ledger op price) :
    growthPaid environment ⟨frame, waiting, ledger⟩ =
      price.growth + op.outputGrowth environment frame ledger price := by
  simp only [growthPaid, due.runs, due.quoted]
  rfl

theorem Sends.uses {kind : CallKind} {price : Price} {message : Message} {caller : Frame}
    (calls : frame.Calls environment ledger kind price message caller)
    (sends : Sends environment message caller waiting ledger later) :
    Uses environment ⟨frame, waiting, ledger⟩
      (price.growth + message.outputGrowth environment caller ledger) later := by
  obtain ⟨behind, fed⟩ := calls.touches
  cases sends with
  | refused refused read =>
      rw [Message.outputGrowth_of_refused refused]
      refine .level (.paid calls.due (.named ?_))
      rcases read with rfl | rfl
      · simpa using behind
      · simpa using fed
  | drained granted found dear =>
      rw [Message.outputGrowth_of_dear found dear]
      refine .level (.paid calls.due (.named ?_))
      simpa using fed
  | @delivered contract granted found paid later ran =>
      obtain ⟨_, _, outOffset, _, _, _, _, named, _⟩ := calls.windows
      have reserved := calls.reserved
      rw [← SiteAction.precompiled_memory caller message contract] at reserved fed
      obtain ⟨growth, grown, pays, written⟩ :=
        SiteAction.touches_of_deliver named (calls.size_run_le contract) reserved ran
      rw [Message.outputGrowth_of_ok granted found paid ran grown]
      exact .level (.paid calls.due (.output fed pays written))
  | @overdrawn contract granted found paid later fault ran =>
      rw [Message.outputGrowth_of_error granted found paid ran, SiteAction.eq_of_deliver_error ran]
      refine .level (.paid calls.due (.named ?_))
      simpa using fed
  | passed granted found empty =>
      rw [Message.outputGrowth_of_account found]
      refine .level (.paid calls.due (.named ?_))
      simpa using fed
  | entered granted found code =>
      rw [Message.outputGrowth_of_account found]
      refine .down (.paid calls.due (.named ?_)) calls.reserved rfl
      simpa using fed

/-- An instruction that leaves memory alone is charged all the same. -/
theorem uses_still {op : Opcode} {price : Price} {after : Frame} {ledgerAfter : Ledger}
    (due : frame.Due environment ledger op price) (still : after.memory = frame.memory) :
    Uses environment ⟨frame, waiting, ledger⟩ price.growth ⟨after, waiting, ledgerAfter⟩ := by
  refine .level (.paid due (.named ?_))
  rw [still]
  exact .none

theorem Makes.uses {price : Price} (creates : frame.Creates environment ledger price)
    (makes : Makes environment (frame.pay price) waiting ledger later) :
    Uses environment ⟨frame, waiting, ledger⟩ price.growth later := by
  have read :
      frame.memory.Touches (Opcode.create.windows frame)
      (Creation.creator (frame.pay price)).memory :=
    .extend .none (List.mem_singleton_self _)
  -- A creation that ends at once gives its creator no bytes.
  have settled (child : Outcome) : frame.memory.Touches (Opcode.create.windows frame)
      (SiteAction.settledAtOnce environment (Creation.asked (frame.pay price)) child
        (Creation.creator (frame.pay price)) ledger).frame.memory := by
    rw [SiteAction.settledAtOnce, SiteAction.memory_created]
    exact read
  cases makes with
  | refused refused => exact uses_still creates.due (by simp)
  | collided granted inUse done =>
      subst done
      refine .level (.paid creates.due (.named ?_))
      simpa using settled _
  | passed granted free empty done =>
      subst done
      refine .level (.paid creates.due (.named ?_))
      simpa using settled _
  | entered granted free code ready asked =>
      subst ready asked
      refine .down (.paid creates.due (.named ?_)) trivial rfl
      simpa using read

/-- An instruction that concerns the frame only is charged whether it ends in a fault or not. -/
theorem uses_alone (waiting : List Waiting) {op : Opcode} {price : Price}
    (due : frame.Due environment ledger op price) (alone : op.isAlone = true) :
    Uses environment ⟨frame, waiting, ledger⟩ price.growth
      (instruct environment ⟨frame, waiting, ledger⟩) := by
  have touches := FrameAction.touches_perform environment ledger due.enough
  rw [op.windows_pay frame price, Frame.pay_memory] at touches
  unfold FrameAction.after at touches
  rw [instruct_alone waiting due alone]
  cases ran : FrameAction.perform environment ledger op (frame.pay price) with
  | ok value later =>
      rw [ran] at touches
      exact .level (.paid due (.named touches))
  | error fault later =>
      rw [ran] at touches
      exact .level (.paid due (.named touches))

/-- One instruction is charged for what it does to memory. -/
theorem uses_instruct (waiting : List Waiting) (runs : frame.stopped = false) :
    Uses environment ⟨frame, waiting, ledger⟩ (growthPaid environment ⟨frame, waiting, ledger⟩)
      (instruct environment ⟨frame, waiting, ledger⟩) := by
  cases quoted : frame.quote environment.config.fees ledger with
  | error fault =>
      have free : growthPaid environment ⟨frame, waiting, ledger⟩ = 0 := by
        simp only [growthPaid, runs, quoted]
        rfl
      simp only [instruct, quoted, free]
      exact .level (.unpaid quoted)
  | ok paid =>
      obtain ⟨op, price⟩ := paid
      have due : frame.Due environment ledger op price := ⟨runs, quoted⟩
      rw [growthPaid_of_due due]
      cases op with
      | create =>
          cases mutable : frame.context.isStatic with
          | true =>
              rw [instruct_create_of_static waiting due mutable]
              exact uses_still due (by simp)
          | false =>
              have creates : frame.Creates environment ledger price := ⟨due, mutable⟩
              exact (makes_instruct waiting creates).uses creates
      | call kind =>
          rw [Opcode.outputGrowth]
          cases read :
            SiteAction.readMessage environment kind price.forwarded (frame.pay price) with
          | error fault later =>
              rw [instruct_call_of_error waiting due read]
              exact uses_still due (by simp)
          | ok message caller =>
              have calls : frame.Calls environment ledger kind price message caller := ⟨due, read⟩
              exact (sends_instruct waiting calls).uses calls
      | sstore =>
          rw [instruct_store waiting due]
          split
          · exact uses_still due (by simp)
          · exact uses_still due (by simp)
      | suicide =>
          rw [instruct_suicide waiting due]
          split
          · exact uses_still due (by simp)
          · exact uses_still due (by simp)
      | _ => exact uses_alone waiting due rfl

end

section

variable {environment : Environment} {root : Frame} {machine : Machine}

theorem uses_next (nested : Nested environment root machine.frame machine.waiting)
    (runs : machine.finished = false) :
    Uses environment machine (machine.growthPaid environment) (machine.next environment) := by
  obtain ⟨frame, waiting, ledger⟩ := machine
  cases stopped : frame.stopped with
  | false =>
      rw [next_running waiting stopped]
      exact uses_instruct waiting stopped
  | true =>
      obtain ⟨parent, waiting, rfl, goes⟩ := next_of_stopped nested runs stopped
      have free : growthPaid environment ⟨frame, parent :: waiting, ledger⟩ = 0 := if_pos stopped
      rw [goes, free]
      exact .up stopped (parent.awaited.fills_answered environment frame.outcome parent.frame)

end

end Machine

theorem Frame.Uses.covered {environment : Environment} {ledger : Ledger} {frame : Frame}
    {total paid : Nat} {later : Memory} (uses : frame.Uses environment ledger total later)
    (covered : frame.memory.Covered environment.config.fees paid) :
    later.Covered environment.config.fees (paid + total) := by
  cases uses with
  | unpaid quoted => exact covered
  | paid due handled =>
    exact covered.handled (Frame.paysFor_of_price (Frame.quote_spec due.quoted).2.1) handled

theorem Awaited.Fills.covered {fees : Fees} {paid : Nat} {child : Outcome} {awaited : Awaited}
    {memory later : Memory} (fills : awaited.Fills child memory later)
    (covered : memory.Covered fees paid) : later.Covered fees paid := by
  cases fills with
  | same awaited => exact covered
  | output message record =>
    exact covered.writeWithin message.outOffset child.returnData message.outSize

namespace Metered

structure Sound (environment : Environment) (metered : Metered) : Prop where
  frames : List.Forall₂ (fun frame paid => frame.memory.Covered environment.config.fees paid)
    metered.machine.frames metered.paid
  waiting : ∀ parent ∈ metered.machine.waiting, parent.Reserved

section

variable {environment : Environment} {machine later : Machine} {paid : List Nat} {total : Nat}

theorem Sound.uses (sound : Sound environment ⟨machine, paid⟩)
    (uses : machine.Uses environment total later) :
    Sound environment ⟨later, follow machine later (charge total paid)⟩ := by
  obtain ⟨frames, reserved⟩ := sound
  cases uses with
  | @level frame later waiting ledger after _ uses =>
      cases frames with
      | cons work waits =>
          rw [follow_level]
          exact ⟨.cons (uses.covered work) waits, reserved⟩
  | @down frame child parent waiting ledger after _ uses room blank =>
      cases frames with
      | cons work waits =>
          have fresh : child.memory.Covered environment.config.fees 0 := by
            rw [blank]
            exact Memory.covered_empty _ 0
          rw [follow_down]
          exact ⟨.cons fresh (.cons (uses.covered work) waits),
            List.forall_mem_cons.mpr ⟨room, reserved⟩⟩
  | @up child later parent waiting ledger after stopped fills =>
      cases frames with
      | cons work waits =>
          rw [follow_up]
          cases waits with
          | cons outer waits =>
              exact ⟨.cons (fills.covered outer) waits, (List.forall_mem_cons.mp reserved).2⟩

end

theorem sound_after (environment : Environment) {root : Frame} (ledger : Ledger)
    (blank : root.memory = {}) (steps : Nat) :
    (after environment (Machine.start root ledger) steps).Sound environment := by
  induction steps with
  | zero =>
      have fresh : root.memory.Covered environment.config.fees 0 := by
        rw [blank]
        exact Memory.covered_empty _ 0
      exact ⟨.cons fresh .nil, fun _ none => nomatch none⟩
  | succ steps ih =>
      have reached := Machine.runFor_reaches environment steps (Machine.start root ledger)
      rw [← machine_after] at reached
      rw [after]
      generalize after environment (Machine.start root ledger) steps = metered at ih reached
      cases done : metered.machine.finished with
      | false => exact ih.uses (Machine.uses_next (Machine.nested_of_reaches reached) done)
      | true =>
          have stopped : metered.machine.frame.stopped = true := (Bool.and_eq_true_iff.mp done).1
          have free : metered.machine.growthPaid environment = 0 := if_pos stopped
          rw [next, Machine.next_of_finished environment _ done, free, follow_level, charge_zero]
          exact ih

end Metered

namespace Machine

/-- What a step makes of the memory of the frame that is due, which goes on or begins to wait. -/
theorem Uses.handled {environment : Environment} {machine later : Machine} {total : Nat}
    {op : Opcode} {price : Price} (uses : Uses environment machine total later)
    (due : machine.frame.Due environment machine.ledger op price) :
    ∃ made worker, later.frames = made ++ worker :: machine.waiting.map Waiting.frame ∧
      machine.frame.memory.Handled environment.config.fees (op.windows machine.frame) price.growth
        total worker.memory := by
  have own {ledger : Ledger} {frame : Frame} {memory : Memory}
      (due : frame.Due environment ledger op price)
      (uses : frame.Uses environment ledger total memory) :
      frame.memory.Handled environment.config.fees (op.windows frame) price.growth total
        memory := by
    cases uses with
    | unpaid quoted =>
        rw [due.quoted] at quoted
        cases quoted
    | paid again handled =>
        have same := again.quoted
        rw [due.quoted] at same
        cases same
        exact handled
  cases uses with
  | @level frame later waiting ledger after _ uses => exact ⟨[], later, rfl, own due uses⟩
  | @down frame child parent waiting ledger after _ uses room blank =>
    exact ⟨[child], parent.frame, rfl, own due uses⟩
  | up stopped fills =>
      have runs := due.runs
      rw [stopped] at runs
      cases runs

/-- In every run the memory of every frame has whole words, at most as many bytes as a position can
name, and a cost that is covered by what the frame has been charged for its growth, each charge and
each sum taken exactly. An instruction that is charged names windows that its price pays for, where
no operand is cut off; it extends and writes memory there only, and comes to the same for any memory
that agrees there. The output of a precompile is paid for on its own, and an answer finds its room
when it comes. -/
theorem memory_is_paid_for (environment : Environment) {root : Frame} (ledger : Ledger)
    (blank : root.memory = {}) :
    (∀ steps,
      (Metered.after environment (start root ledger) steps).machine =
        (start root ledger).runFor environment steps ∧
      List.Forall₂ (fun frame paid => frame.memory.size % 32 = 0 ∧ frame.memory.size ≤ 2147483648 ∧
          environment.config.fees.memoryCost (frame.memory.size / 32) ≤ paid)
        ((start root ledger).runFor environment steps).frames
        (Metered.after environment (start root ledger) steps).paid) ∧
    (∀ machine, Reaches environment (start root ledger) machine → ∀ op price,
      machine.frame.Due environment machine.ledger op price →
        environment.config.fees.PaysFor machine.frame.memory.size (op.windows machine.frame)
          price.growth ∧
        (∃ made worker,
          (machine.next environment).frames = made ++ worker :: machine.waiting.map Waiting.frame ∧
          machine.frame.memory.Handled environment.config.fees (op.windows machine.frame)
            price.growth (machine.growthPaid environment) worker.memory) ∧
        ∀ other, machine.frame.memory.Agrees (op.windows machine.frame) other →
          Agrees (op.windows machine.frame) (machine.next environment)
            (next environment
              ⟨{ machine.frame with memory := other }, machine.waiting, machine.ledger⟩)) ∧
    ∀ machine, Reaches environment (start root ledger) machine → machine.frame.stopped = true →
      ∀ parent waiting, machine.waiting = parent :: waiting → parent.Reserved ∧
        parent.awaited.Fills machine.frame.outcome parent.frame.memory
          (machine.next environment).frame.memory := by
  refine ⟨?paid, ?priced, ?answered⟩
  case paid =>
    intro steps
    have same := Metered.machine_after environment (start root ledger) steps
    -- The meter runs beside the machine and does not change its steps.
    have sound := (Metered.sound_after environment ledger blank steps).frames
    rw [same] at sound
    exact ⟨same, sound.imp fun _ _ covered => ⟨covered.whole, covered.bounded, covered.cost⟩⟩
  case priced =>
    intro machine reached op price due
    have runs : machine.finished = false := by
      rw [finished, due.runs]
      rfl
    exact ⟨Frame.paysFor_of_price (Frame.quote_spec due.quoted).2.1,
      (uses_next (nested_of_reaches reached) runs).handled due, fun other agrees =>
        agrees_next due agrees⟩
  case answered =>
    intro machine reached stopped parent waiting waits
    obtain ⟨steps, same⟩ := runFor_of_reaches reached
    have reserved := (Metered.sound_after environment ledger blank steps).waiting
    rw [Metered.machine_after, same] at reserved
    obtain ⟨frame, _, after⟩ := machine
    cases waits
    have room : parent.frame.HasRoom := by
      cases nested_of_reaches reached with
      | child outer room deeper bounded => exact room
    rw [next_stopped waiting stopped room]
    exact ⟨reserved parent List.mem_cons_self,
      parent.awaited.fills_answered environment frame.outcome parent.frame⟩

-- An MSTORE8 at zero, then a call of the identity precompile with that byte; the output has a
-- window of no bytes at 64.
def copyingFrame : Frame :=
  Frame.start #[0x60, 1, 0x60, 0, 0x53, 0x60, 0, 0x60, 64, 0x60, 1, 0x60, 0, 0x60, 0, 0x60, 4, 0x61,
    0xff, 0xff, 0xf1] { callingFrame.context with gas := 100000 } 1024

theorem memory_of_copyingFrame_is_paid_for :
    ((start copyingFrame {}).runFor {} 11).frame.memory.size = 96 ∧
    (Metered.after {} (start copyingFrame {}) 11).paid = [9] ∧ ({} : Fees).memoryCost 3 ≤ 9 := by
  have there : ((start copyingFrame {}).runFor {} 11).frame.memory.size = 96 ∧
      (Metered.after {} (start copyingFrame {}) 11).paid = [9] := by
    decide +kernel
  have paid := ((memory_is_paid_for {} {} (rfl : copyingFrame.memory = {})).1 11).2
  refine ⟨there.1, there.2, ?_⟩
  rw [there.2] at paid
  have size := there.1
  generalize (start copyingFrame {}).runFor {} 11 = machine at paid size
  cases paid with
  | cons work waits =>
      have cost := work.2.2
      rw [size] at cost
      exact cost

end Machine

end ContractMachine
