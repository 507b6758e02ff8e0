import ContractMachine.Proofs.Frame.Growth
import ContractMachine.Proofs.Machine.Metering

/-!
What frames are charged for memory against what their memory has cost. The two are the same, save
what was charged to calls and creations that are refused before they come to their windows: that is
lost (`growthLost`), and the next instruction that uses such a window is charged for it once more.
-/

namespace ContractMachine

def Message.Unread (message : Message) (environment : Environment) (caller : Frame)
    (ledger : Ledger) : Prop :=
  environment.config.limits.callDepth ≤ caller.context.depth ∨
    (environment.config.precompiles.find? message.codeAddress).isSome = true ∧
      (ledger.balance caller.owner).toNat < message.value.toNat

instance (message : Message) (environment : Environment) (caller : Frame) (ledger : Ledger) :
    Decidable (message.Unread environment caller ledger) :=
  inferInstanceAs (Decidable (_ ∨ _))

/-- The growth that an instruction is charged for windows that it does not come to. -/
def Opcode.growthLost (environment : Environment) (frame : Frame) (ledger : Ledger)
    (price : Price) : Opcode → Nat
  | .create =>
      if frame.context.isStatic = false ∧ frame.Refused environment ledger (frame.operand 0) then
        price.growth
      else 0
  | .call kind =>
      match SiteAction.readMessage environment kind price.forwarded (frame.pay price) with
      | .error _ _ => 0
      | .ok message caller =>
          if message.Unread environment caller ledger then
            -- There is room for the output by then.
            price.growth -
              (frame.growthFor environment.config.fees (frame.operand (kind.firstWindow + 2))
                (frame.operand (kind.firstWindow + 3))).toOption.getD 0
          else 0
  | _ => 0

def Machine.growthLost (environment : Environment) (machine : Machine) : Nat :=
  if machine.frame.stopped then 0
  else
    match machine.frame.quote environment.config.fees machine.ledger with
    | .error _ => 0
    | .ok (op, price) => op.growthLost environment machine.frame machine.ledger price

def Metered.lost (environment : Environment) (first : Machine) : Nat → List Nat
  | 0 => [0]
  | steps + 1 =>
      let machine := first.runFor environment steps
      follow machine (machine.next environment)
        (charge (machine.growthLost environment) (lost environment first steps))

namespace Memory

def GrowsBy (fees : Fees) (memory : Memory) (charged lost : Nat) (later : Memory) : Prop :=
  memory.size % 32 = 0 → later.size % 32 = 0 ∧
    fees.memoryCost (later.size / 32) + lost = fees.memoryCost (memory.size / 32) + charged

variable {fees : Fees} {memory middle later : Memory} {charged more lost further growth : Nat}
  {windows : List Window}

theorem GrowsBy.trans (first : memory.GrowsBy fees charged lost middle)
    (second : middle.GrowsBy fees more further later) :
    memory.GrowsBy fees (charged + more) (lost + further) later := by
  intro whole
  obtain ⟨between, cost⟩ := first whole
  obtain ⟨last, total⟩ := second between
  exact ⟨last, by omega⟩

theorem GrowsBy.of_size {other : Memory} (grows : memory.GrowsBy fees charged lost later)
    (same : other.size = later.size) : memory.GrowsBy fees charged lost other := by
  unfold GrowsBy at grows ⊢
  rwa [same]

theorem Touches.growsBy (touches : memory.Touches windows later)
    (held : ∀ window ∈ windows, later.Holds window)
    (grown : fees.growth memory.size (Window.needed windows) = .ok growth) :
    memory.GrowsBy fees growth 0 later := by
  intro whole
  obtain ⟨last, cost⟩ := touches.cost whole held grown
  exact ⟨last, cost⟩

/-- Where nothing has grown, all that was charged is lost. -/
theorem growsBy_lost (fees : Fees) (memory : Memory) (growth : Nat) :
    memory.GrowsBy fees growth growth memory :=
  fun whole => ⟨whole, rfl⟩

end Memory

/-- Of the windows that an instruction is charged for, some come to less. -/
theorem Fees.growth_mono {fees : Fees} {size fewer more least most : Nat} (le : fewer ≤ more)
    (part : fees.growth size fewer = .ok least) (all : fees.growth size more = .ok most) :
      least ≤ most := by
  obtain ⟨_, least⟩ := growth_spec part
  obtain ⟨_, most⟩ := growth_spec all
  have words := wordsFor_mono le
  have cost := fees.memoryCost_mono words
  rw [least, most]
  split
  · rw [if_pos (by omega)]
    omega
  · exact Nat.zero_le _

theorem Fees.growth_within (fees : Fees) (size : Nat) {needed : Nat}
    (narrow : needed ≤ Word.indexLimit) :
    ∃ growth, fees.growth size needed = .ok growth := by
  unfold Fees.growth
  rw [if_neg (Nat.not_lt.mpr narrow)]
  split <;> exact ⟨_, rfl⟩

namespace Frame.Calls

variable {environment : Environment} {frame caller : Frame} {ledger : Ledger} {kind : CallKind}
  {price : Price} {message : Message}

/-- A call that reads its input has come to both its windows. -/
theorem growsBy_fed (calls : frame.Calls environment ledger kind price message caller) :
    frame.memory.GrowsBy environment.config.fees price.growth 0 (message.fed caller).memory := by
  obtain ⟨inOffset, inSize, outOffset, outSize, named, input, taken, output, room⟩ := calls.windows
  have touches := calls.touches.2
  have grown := Frame.growth_of_price (Frame.quote_spec calls.due.quoted).2.1
  rw [named] at touches grown
  refine touches.growsBy ?_ grown
  rw [calls.memory_fed, input, taken, output, room]
  intro window either
  rcases List.mem_pair.mp either with rfl | rfl
  · exact Memory.holds_extend _ ⟨inOffset, inSize⟩
  · exact (frame.memory.holds_extend ⟨outOffset, outSize⟩).mono (Memory.size_le_extend _ _ _)

/-- A call that does not has come to the one for its output. -/
theorem growsBy_unread (calls : frame.Calls environment ledger kind price message caller)
    (unread : message.Unread environment caller ledger) :
    frame.memory.GrowsBy environment.config.fees price.growth
      ((Opcode.call kind).growthLost environment frame ledger price) caller.memory := by
  have grown := Frame.growth_of_price (Frame.quote_spec calls.due.quoted).2.1
  generalize output :
    (⟨frame.operand (kind.firstWindow + 2), frame.operand (kind.firstWindow + 3)⟩ : Window) = window
  have named : window ∈ (Opcode.call kind).windows frame := by
    rw [← output]
    exact List.mem_cons_of_mem _ (List.mem_singleton_self _)
  have part :
      memoryNeeded window.offset window.size ≤ Window.needed ((Opcode.call kind).windows frame) :=
    Window.le_needed named
  obtain ⟨growth, asked⟩ := environment.config.fees.growth_within frame.memory.size
    (Nat.le_trans part (Fees.growth_spec grown).1)
  have lost : (Opcode.call kind).growthLost environment frame ledger price =
      price.growth - growth := by
    subst output
    simp only [Opcode.growthLost, calls.read, if_pos unread, Frame.growthFor, asked]
    rfl
  have less := Fees.growth_mono part asked grown
  have extended : caller.memory = frame.memory.extend window.offset.index window.size.index := by
    rw [calls.memory_caller, calls.eqs.1, ← output]
    rfl
  have touches : frame.memory.Touches [window] caller.memory := by
    rw [extended]
    exact .extend .none (List.mem_singleton_self _)
  have room : frame.memory.GrowsBy environment.config.fees growth 0 caller.memory := by
    refine touches.growsBy ?_ ?_
    · intro other only
      rw [List.mem_singleton.mp only, extended]
      exact frame.memory.holds_extend window
    · rwa [Window.needed_cons, Window.needed_nil, Nat.max_zero]
  intro whole
  obtain ⟨last, cost⟩ := room whole
  refine ⟨last, ?_⟩
  rw [lost]
  omega

theorem growthLost_of_read (calls : frame.Calls environment ledger kind price message caller)
    (read : ¬ message.Unread environment caller ledger) :
    (Opcode.call kind).growthLost environment frame ledger price = 0 := by
  simp only [Opcode.growthLost, calls.read, if_neg read]

end Frame.Calls

/-- What a precompile puts out grows memory by what that is charged. -/
theorem SiteAction.growsBy_of_deliver {environment : Environment} {message : Message}
    {output : Bytes} {before later : Frame} {growth : Nat}
    (narrow : message.outOffset ≤ Word.indexLimit) (short : output.size ≤ Word.indexLimit)
    (reserved : message.outSize ≠ 0 → message.outOffset + message.outSize ≤ before.memory.size)
    (grown : environment.config.fees.growth before.memory.size
      (memoryNeeded (Word.ofNat message.outOffset) (Word.ofNat output.size)) = .ok growth)
    (ran : deliver environment message output before = .ok () later) :
    before.memory.GrowsBy environment.config.fees growth 0 later.memory := by
  obtain ⟨_, _, _, rfl⟩ := deliver_spec ran
  have window : Memory.GrowsBy environment.config.fees before.memory growth 0
      (before.memory.write (Word.ofNat message.outOffset).index output
        (Word.ofNat output.size).index) := by
    have touches : before.memory.Touches [⟨Word.ofNat message.outOffset, Word.ofNat output.size⟩]
        (before.memory.write (Word.ofNat message.outOffset).index output
          (Word.ofNat output.size).index) :=
      .write .none (List.mem_singleton_self _) output
    refine touches.growsBy ?_ ?_
    · intro other only
      rw [List.mem_singleton.mp only]
      exact before.memory.holds_write ⟨Word.ofNat message.outOffset, Word.ofNat output.size⟩
        (Word.index_ofNat short).symm
    · rwa [Window.needed_cons, Window.needed_nil, Nat.max_zero]
  rw [Word.index_ofNat short, Word.index_ofNat narrow] at window
  simp only [Memory.extend_of_inside reserved]
  exact window

theorem Awaited.Fills.size {child : Outcome} {awaited : Awaited} {memory later : Memory}
    (fills : awaited.Fills child memory later) : later.size = memory.size := by
  cases fills with
  | same awaited => rfl
  | output message record => exact Memory.writeWithin_size ..

inductive Machine.Grows (environment : Environment) : Machine → Nat → Nat → Machine → Prop where
  | level {frame later : Frame} {waiting : List Waiting} {ledger after : Ledger}
      {charged lost : Nat} (runs : frame.stopped = false)
      (grows : later.stopped = false →
        frame.memory.GrowsBy environment.config.fees charged lost later.memory) :
      Grows environment ⟨frame, waiting, ledger⟩ charged lost ⟨later, waiting, after⟩
  | down {frame child : Frame} {parent : Waiting} {waiting : List Waiting} {ledger after : Ledger}
      {charged lost : Nat} (runs : frame.stopped = false) (waits : parent.frame.stopped = false)
      (grows : frame.memory.GrowsBy environment.config.fees charged lost parent.frame.memory)
      (blank : child.memory = {}) :
      Grows environment ⟨frame, waiting, ledger⟩ charged lost ⟨child, parent :: waiting, after⟩
  | up {child later : Frame} {parent : Waiting} {waiting : List Waiting} {ledger after : Ledger}
      (same : later.memory.size = parent.frame.memory.size) :
      Grows environment ⟨child, parent :: waiting, ledger⟩ 0 0 ⟨later, waiting, after⟩

namespace Machine

section

variable {environment : Environment} {frame caller : Frame} {waiting : List Waiting}
  {ledger : Ledger} {later : Machine}

theorem growthLost_of_due {op : Opcode} {price : Price}
    (due : frame.Due environment ledger op price) :
    growthLost environment ⟨frame, waiting, ledger⟩ =
      op.growthLost environment frame ledger price := by
  simp only [growthLost, due.runs, due.quoted]
  rfl

theorem grows_halt {charged lost : Nat} (runs : frame.stopped = false) (other : Frame)
    (fault : Fault) (after : Ledger) :
    Grows environment ⟨frame, waiting, ledger⟩ charged lost ⟨other.halt fault, waiting, after⟩ :=
  .level runs fun goes => absurd goes.symm Bool.false_ne_true

/-- The caller of a call that is refused has read its input or not. -/
theorem next_of_refused {kind : CallKind} {price : Price} {message : Message}
    (waiting : List Waiting) (calls : frame.Calls environment ledger kind price message caller)
    (refused : caller.Refused environment ledger message.value) :
    next environment ⟨frame, waiting, ledger⟩ =
      ⟨(((if message.Unread environment caller ledger then caller.setReturned #[]
          else message.fed caller).put 0).giveBack message.gas).advance, waiting, ledger⟩ := by
  rw [next_running waiting calls.due.runs, instruct_due waiting calls.due]
  simp only [SiteAction.execute, SiteAction.call, bind_apply, SiteAction.onFrame_apply, calls.read]
  cases found : environment.config.precompiles.find? message.codeAddress with
  | none =>
      by_cases deep : environment.config.limits.callDepth ≤ caller.context.depth
      · have unread : message.Unread environment caller ledger := .inl deep
        simp only [SiteAction.callAccount_eq environment message ledger calls.room, if_pos deep,
          if_pos unread]
        rfl
      · have poor := refused.resolve_left deep
        have read : ¬ message.Unread environment caller ledger := by
          rintro (deeper | ⟨precompile, _⟩)
          · exact deep deeper
          · rw [found] at precompile
            cases precompile
        simp only [SiteAction.callAccount_eq environment message ledger calls.room, if_neg deep,
          if_pos poor, if_neg read]
        rfl
  | some contract =>
      have unread : message.Unread environment caller ledger := by
        rcases refused with deep | poor
        · exact .inl deep
        · exact .inr ⟨by rw [found]; rfl, poor⟩
      simp only [bind_apply,
        SiteAction.callPrecompile_eq environment message contract ledger calls.room]
      rcases refused with deep | poor
      · simp only [if_pos deep, if_pos unread]
        rfl
      · by_cases deep : environment.config.limits.callDepth ≤ caller.context.depth
        · simp only [if_pos deep, if_pos unread]
          rfl
        · simp only [if_neg deep, if_pos poor, if_pos unread]
          rfl

theorem grows_call {kind : CallKind} {price : Price} {message : Message} (waiting : List Waiting)
    (calls : frame.Calls environment ledger kind price message caller) :
    Grows environment ⟨frame, waiting, ledger⟩
      (price.growth + message.outputGrowth environment caller ledger)
      ((Opcode.call kind).growthLost environment frame ledger price)
      (next environment ⟨frame, waiting, ledger⟩) := by
  by_cases refused : caller.Refused environment ledger message.value
  · rw [next_of_refused waiting calls refused, Message.outputGrowth_of_refused refused]
    refine .level calls.due.runs fun _ => ?_
    by_cases unread : message.Unread environment caller ledger
    · rw [if_pos unread]
      exact calls.growsBy_unread unread
    · rw [if_neg unread, calls.growthLost_of_read unread]
      exact calls.growsBy_fed
  · have read : ¬ message.Unread environment caller ledger := by
      rintro (deep | ⟨_, poor⟩)
      · exact refused (.inl deep)
      · exact refused (.inr poor)
    have fed := calls.growsBy_fed
    have sends := sends_next waiting calls
    rw [calls.growthLost_of_read read]
    generalize next environment ⟨frame, waiting, ledger⟩ = later at sends ⊢
    cases sends with
    | refused again => exact absurd again refused
    | drained granted found dear =>
        rw [Message.outputGrowth_of_dear found dear]
        exact .level calls.due.runs fun _ => fed
    | @delivered contract granted found paid later ran =>
        have reserved := calls.reserved
        obtain ⟨growth, grown, _⟩ := SiteAction.deliver_spec ran
        have narrow : message.outOffset ≤ Word.indexLimit := by
          rw [calls.eqs.1]
          exact Word.index_le _
        rw [← SiteAction.precompiled_memory caller message contract] at reserved fed
        have written :=
          SiteAction.growsBy_of_deliver narrow (calls.size_run_le contract) reserved grown ran
        rw [Message.outputGrowth_of_ok granted found paid ran grown]
        exact .level calls.due.runs fun _ => fed.trans written
    | overdrawn granted found paid ran => exact grows_halt calls.due.runs _ _ _
    | passed granted found empty =>
        rw [Message.outputGrowth_of_account found]
        exact .level calls.due.runs fun _ => fed
    | entered granted found code =>
        rw [Message.outputGrowth_of_account found]
        exact .down calls.due.runs calls.runs fed rfl

theorem grows_create {price : Price} (waiting : List Waiting)
    (creates : frame.Creates environment ledger price) :
    Grows environment ⟨frame, waiting, ledger⟩ price.growth
      (Opcode.create.growthLost environment frame ledger price)
      (next environment ⟨frame, waiting, ledger⟩) := by
  have makes := makes_next waiting creates
  -- A creation that is refused has paid for its window without reading it.
  by_cases refused : frame.Refused environment ledger (frame.operand 0)
  · rw [Opcode.growthLost, if_pos ⟨creates.mutable, refused⟩]
    generalize next environment ⟨frame, waiting, ledger⟩ = later at makes ⊢
    cases makes with
    | refused _ =>
        refine .level creates.due.runs fun _ => ?_
        simp only [Frame.advance_memory, Frame.put_memory, Creation.reader_memory, Frame.pay_memory]
        exact Memory.growsBy_lost _ _ _
    | collided granted | passed granted | entered granted => exact absurd refused granted
  · have read : frame.memory.GrowsBy environment.config.fees price.growth 0
        (Creation.creator (frame.pay price)).memory := by
      have touches :
          frame.memory.Touches (Opcode.create.windows frame)
          (Creation.creator (frame.pay price)).memory :=
        .extend .none (List.mem_singleton_self _)
      refine touches.growsBy ?_ (Frame.growth_of_price (Frame.quote_spec creates.due.quoted).2.1)
      intro window only
      rw [List.mem_singleton.mp only]
      exact frame.memory.holds_extend ⟨frame.operand 1, frame.operand 2⟩
    have settled (child : Outcome) : frame.memory.GrowsBy environment.config.fees price.growth 0
        (SiteAction.settledAtOnce environment (Creation.asked (frame.pay price)) child
          (Creation.creator (frame.pay price)) ledger).frame.memory := by
      rw [SiteAction.settledAtOnce, SiteAction.memory_created]
      exact read
    rw [Opcode.growthLost, if_neg fun both => refused both.2]
    generalize next environment ⟨frame, waiting, ledger⟩ = later at makes ⊢
    cases makes with
    | refused again => exact absurd again refused
    | collided granted inUse done =>
        subst done
        refine .level creates.due.runs fun _ => ?_
        rw [Frame.advance_memory]
        exact settled _
    | passed granted free empty done =>
        subst done
        refine .level creates.due.runs fun _ => ?_
        rw [Frame.advance_memory]
        exact settled _
    | entered granted free code ready asked =>
        subst ready asked
        refine .down creates.due.runs ?_ ?_ rfl
        · change (Creation.creator (frame.pay price)).stopped = false
          exact creates.due.runs
        · simpa using read

theorem grows_alone (waiting : List Waiting) {op : Opcode} {price : Price}
    (due : frame.Due environment ledger op price) (alone : op.isAlone = true) :
    Grows environment ⟨frame, waiting, ledger⟩ price.growth 0
      (next environment ⟨frame, waiting, ledger⟩) := by
  rw [next_running waiting due.runs, instruct_alone waiting due alone]
  cases ran : FrameAction.perform environment ledger op (frame.pay price) with
  | error fault later => exact grows_halt due.runs _ _ _
  | ok value later =>
      refine .level due.runs fun runs => ?_
      have goes : op.halts = false := by
        cases halts : op.halts with
        | false => rfl
        | true =>
            rw [FrameAction.stopped_of_perform alone halts ran] at runs
            cases runs
      have touches := FrameAction.touches_perform environment ledger due.enough
      rw [FrameAction.after_of_ok ran, op.windows_pay frame price, Frame.pay_memory] at touches
      have held := FrameAction.holds_perform environment ledger due.enough goes
        (by rintro rfl; cases alone) (by rintro kind rfl; cases alone) ran
      rw [op.windows_pay frame price] at held
      exact touches.growsBy held (Frame.growth_of_price (Frame.quote_spec due.quoted).2.1)

/-- Memory grows by what one instruction is charged for it. -/
theorem grows_running (waiting : List Waiting) (runs : frame.stopped = false) :
    Grows environment ⟨frame, waiting, ledger⟩ (growthPaid environment ⟨frame, waiting, ledger⟩)
      (growthLost environment ⟨frame, waiting, ledger⟩)
        (next environment ⟨frame, waiting, ledger⟩) := by
  cases quoted : frame.quote environment.config.fees ledger with
  | error fault =>
      rw [next_running waiting runs]
      simp only [instruct, quoted]
      exact grows_halt runs _ _ _
  | ok paid =>
      obtain ⟨op, price⟩ := paid
      have due : frame.Due environment ledger op price := ⟨runs, quoted⟩
      rw [growthPaid_of_due due, growthLost_of_due due]
      cases op with
      | create =>
          cases mutable : frame.context.isStatic with
          | true =>
              rw [next_running waiting runs, instruct_create_of_static waiting due mutable]
              exact grows_halt runs _ _ _
          | false => exact grows_create waiting ⟨due, mutable⟩
      | call kind =>
          rw [Opcode.outputGrowth]
          cases read :
            SiteAction.readMessage environment kind price.forwarded (frame.pay price) with
          | error fault later =>
              rw [next_running waiting runs, instruct_call_of_error waiting due read]
              exact grows_halt runs _ _ _
          | ok message caller => exact grows_call waiting ⟨due, read⟩
      | sstore =>
          rw [next_running waiting runs, instruct_store waiting due]
          split
          · exact grows_halt runs _ _ _
          -- It names no window, so that it has paid for none.
          · have none : price.growth = 0 := by
              have grown : environment.config.fees.growth frame.memory.size 0 = .ok price.growth :=
                Frame.growth_of_price (Frame.quote_spec due.quoted).2.1
              rw [Fees.growth_none] at grown
              exact (Except.ok.inj grown).symm
            have free : price.growth + Opcode.sstore.outputGrowth environment frame ledger price =
                0 := none
            rw [free]
            exact .level runs fun _ => Memory.growsBy_lost _ _ 0
      | suicide =>
          rw [next_running waiting runs, instruct_suicide waiting due]
          split
          · exact grows_halt runs _ _ _
          · exact .level runs fun goes => absurd goes.symm Bool.false_ne_true
      | _ => exact grows_alone waiting due rfl

theorem grows_next {root : Frame} {machine : Machine}
    (nested : Nested environment root machine.frame machine.waiting)
    (runs : machine.finished = false) :
    Grows environment machine (machine.growthPaid environment) (machine.growthLost environment)
      (machine.next environment) := by
  obtain ⟨frame, waiting, ledger⟩ := machine
  cases stopped : frame.stopped with
  | false => exact grows_running waiting stopped
  | true =>
      obtain ⟨parent, waiting, rfl, goes⟩ := next_of_stopped nested runs stopped
      have free : growthPaid environment ⟨frame, parent :: waiting, ledger⟩ = 0 := if_pos stopped
      have kept : growthLost environment ⟨frame, parent :: waiting, ledger⟩ = 0 := if_pos stopped
      rw [goes, free, kept]
      exact .up (parent.awaited.fills_answered environment frame.outcome parent.frame).size

end

/-- All that a frame has been charged for memory, save what it has lost, is the cost of its
memory. -/
def Settled (fees : Fees) (paid lost : Nat) (frame : Frame) : Prop :=
  frame.stopped = false → ({} : Memory).GrowsBy fees paid lost frame.memory

inductive AllSettled (fees : Fees) : Frame → List Waiting → List Nat → List Nat → Prop where
  | root {frame : Frame} {paid lost : Nat} (settled : Settled fees paid lost frame) :
      AllSettled fees frame [] [paid] [lost]
  | child {frame : Frame} {parent : Waiting} {waiting : List Waiting} {paid lost : Nat}
      {above below : List Nat} (runs : parent.frame.stopped = false)
      (outer : AllSettled fees parent.frame waiting above below)
      (settled : Settled fees paid lost frame) :
      AllSettled fees frame (parent :: waiting) (paid :: above) (lost :: below)

section

variable {environment : Environment} {fees : Fees} {frame later : Frame} {waiting : List Waiting}
  {paid lost : List Nat} {charged gone : Nat}

theorem settled_fresh (blank : frame.memory = {}) : Settled fees 0 0 frame := by
  intro _
  rw [blank]
  exact Memory.growsBy_lost fees _ 0

/-- The frame at work is charged and goes on; the frames that wait are as they were. -/
theorem AllSettled.charge (all : AllSettled fees frame waiting paid lost)
    (runs : frame.stopped = false)
    (grows : later.stopped = false → frame.memory.GrowsBy fees charged gone later.memory) :
    AllSettled fees later waiting (Metered.charge charged paid) (Metered.charge gone lost) := by
  cases all with
  | root settled => exact .root fun goes => (settled runs).trans (grows goes)
  | child waits outer settled =>
    exact .child waits outer fun goes => (settled runs).trans (grows goes)

theorem Grows.allSettled {machine next : Machine}
    (grows : Grows environment machine charged gone next)
    (all : AllSettled environment.config.fees machine.frame machine.waiting paid lost) :
    AllSettled environment.config.fees next.frame next.waiting
      (Metered.follow machine next (Metered.charge charged paid))
      (Metered.follow machine next (Metered.charge gone lost)) := by
  cases grows with
  | level runs grows =>
      rw [Metered.follow_level, Metered.follow_level]
      exact all.charge runs grows
  | down runs waits grows blank =>
      rw [Metered.follow_down, Metered.follow_down]
      exact .child waits (all.charge runs fun _ => grows) (settled_fresh blank)
  | @up child later parent waiting ledger after same =>
      rw [Metered.follow_up, Metered.follow_up]
      cases all with
      | child runs outer settled =>
          have goes : later.stopped = false →
              parent.frame.memory.GrowsBy environment.config.fees 0 0 later.memory :=
            fun _ => (Memory.growsBy_lost _ _ 0).of_size same
          have answered := outer.charge runs goes
          rwa [Metered.charge_zero, Metered.charge_zero] at answered

theorem allSettled_after (environment : Environment) {root : Frame} (ledger : Ledger)
    (blank : root.memory = {}) (steps : Nat) :
    AllSettled environment.config.fees ((start root ledger).runFor environment steps).frame
      ((start root ledger).runFor environment steps).waiting
      (Metered.after environment (start root ledger) steps).paid
        (Metered.lost environment (start root ledger) steps) := by
  induction steps with
  | zero => exact .root (settled_fresh blank)
  | succ steps ih =>
      have reached := runFor_reaches environment steps (start root ledger)
      rw [runFor_succ, Metered.after, Metered.next, Metered.lost, Metered.machine_after]
      generalize (start root ledger).runFor environment steps = machine at ih reached ⊢
      cases done : machine.finished with
      | false => exact (grows_next (nested_of_reaches reached) done).allSettled ih
      | true =>
          have stopped : machine.frame.stopped = true := (finished_iff.mp done).1
          have free : machine.growthPaid environment = 0 := if_pos stopped
          have kept : machine.growthLost environment = 0 := if_pos stopped
          rw [next_of_finished environment _ done, free, kept, Metered.follow_level,
            Metered.follow_level, Metered.charge_zero, Metered.charge_zero]
          exact ih

theorem Settled.paid_eq {charged : Nat} (settled : Settled fees charged gone frame)
    (runs : frame.stopped = false) :
    charged = fees.memoryCost (frame.memory.size / 32) + gone := by
  have cost := (settled runs rfl).2
  have none : fees.memoryCost (({} : Memory).size / 32) = 0 := rfl
  omega

theorem AllSettled.charges (all : AllSettled fees frame waiting paid lost) :
    List.Forall₂ (fun frame charges => frame.stopped = false →
        charges.1 = fees.memoryCost (frame.memory.size / 32) + charges.2)
      (frame :: waiting.map Waiting.frame) (paid.zip lost) := by
  induction all with
  | root settled => exact .cons settled.paid_eq .nil
  | child runs outer settled ih => exact .cons settled.paid_eq ih

theorem AllSettled.charges_of_none (all : AllSettled fees frame waiting paid lost)
    (none : ∀ gone ∈ lost, gone = 0) :
    List.Forall₂
      (fun frame charged => frame.stopped = false →
        charged = fees.memoryCost (frame.memory.size / 32))
      (frame :: waiting.map Waiting.frame) paid := by
  induction all with
  | root settled =>
      obtain rfl := none _ List.mem_cons_self
      exact .cons settled.paid_eq .nil
  | child runs outer settled ih =>
      obtain ⟨rfl, others⟩ := List.forall_mem_cons.mp none
      exact .cons settled.paid_eq (ih others)

theorem lost_of_none {first : Machine} {steps : Nat}
    (none : ∀ earlier < steps, (first.runFor environment earlier).growthLost environment = 0) :
    ∀ gone ∈ Metered.lost environment first steps, gone = 0 := by
  induction steps with
  | zero => exact fun gone only => List.mem_singleton.mp only
  | succ steps ih =>
      have before := ih fun earlier less => none earlier (Nat.lt_succ_of_lt less)
      rw [Metered.lost, none steps (Nat.lt_succ_self steps), Metered.charge_zero, Metered.follow]
      intro gone member
      split at member
      · rcases List.mem_cons.mp member with fresh | member
        · exact fresh
        · exact before gone member
      · split at member
        · exact before gone (List.mem_of_mem_tail member)
        · exact before gone member

end

inductive Refuses (environment : Environment) (machine : Machine) : Prop where
  | call {kind : CallKind} {price : Price} {message : Message} {caller : Frame}
      (calls : machine.frame.Calls environment machine.ledger kind price message caller)
      (refused : caller.Refused environment machine.ledger message.value) :
        Refuses environment machine
  | creation {price : Price} (creates : machine.frame.Creates environment machine.ledger price)
      (refused : machine.frame.Refused environment machine.ledger (machine.frame.operand 0)) :
      Refuses environment machine

theorem refuses_of_growthLost {environment : Environment} {machine : Machine}
    (gone : machine.growthLost environment ≠ 0) : Refuses environment machine := by
  cases stopped : machine.frame.stopped with
  | true => exact absurd (if_pos stopped) gone
  | false =>
      simp only [growthLost, stopped, Bool.false_eq_true, if_false] at gone
      cases quoted : machine.frame.quote environment.config.fees machine.ledger with
      | error fault => simp only [quoted, ne_eq, not_true_eq_false] at gone
      | ok paid =>
          obtain ⟨op, price⟩ := paid
          have due : machine.frame.Due environment machine.ledger op price := ⟨stopped, quoted⟩
          simp only [quoted] at gone
          cases op with
          | create =>
              rw [Opcode.growthLost] at gone
              split at gone
              · rename_i refused
                exact .creation ⟨due, refused.1⟩ refused.2
              · exact absurd rfl gone
          | call kind =>
              simp only [Opcode.growthLost] at gone
              split at gone
              · exact absurd rfl gone
              · rename_i message caller read
                split at gone
                · rename_i unread
                  exact .call ⟨due, read⟩ (unread.imp id And.right)
                · exact absurd rfl gone
          | _ => exact absurd rfl gone

/-- In every run, all that a frame has been charged for the growth of its memory is the cost of the
memory that it has, and what it has lost; only calls and creations that are refused lose anything.
As long as none was refused, no word of memory has been paid for twice. -/
theorem memory_is_paid_once (environment : Environment) {root : Frame} (ledger : Ledger)
    (blank : root.memory = {}) :
    (∀ steps, List.Forall₂ (fun frame charges => frame.stopped = false →
        charges.1 = environment.config.fees.memoryCost (frame.memory.size / 32) + charges.2)
      ((start root ledger).runFor environment steps).frames
      ((Metered.after environment (start root ledger) steps).paid.zip
        (Metered.lost environment (start root ledger) steps))) ∧
    (∀ machine, machine.growthLost environment ≠ 0 → Refuses environment machine) ∧
    ∀ steps, (∀ earlier < steps,
      ¬ Refuses environment ((start root ledger).runFor environment earlier)) →
      List.Forall₂ (fun frame charged => frame.stopped = false →
          charged = environment.config.fees.memoryCost (frame.memory.size / 32))
        ((start root ledger).runFor environment steps).frames
        (Metered.after environment (start root ledger) steps).paid := by
  refine ⟨?charged, fun _ => refuses_of_growthLost, ?once⟩
  case charged =>
    intro steps
    exact (allSettled_after environment ledger blank steps).charges
  case once =>
    intro steps granted
    refine (allSettled_after environment ledger blank steps).charges_of_none (lost_of_none ?_)
    intro earlier less
    exact Decidable.not_not.mp fun gone => granted earlier less (refuses_of_growthLost gone)

-- A creation from a word of memory, with nothing to send; then that word is read.
def refusedFrame : Frame :=
  Frame.start #[0x60, 32, 0x60, 0, 0x60, 1, 0xf0, 0x60, 0, 0x51, 0]
    { callingFrame.context with gas := 100000 } 1024

theorem memory_of_refusedFrame_is_paid_once :
    (Metered.after {} (start refusedFrame {}) 6).paid = [6] ∧
    Metered.lost {} (start refusedFrame {}) 6 = [3] ∧
      ((start refusedFrame {}).runFor {} 6).frame.stopped = false ∧
      6 = ({} : Fees).memoryCost (((start refusedFrame {}).runFor {} 6).frame.memory.size / 32) +
        3 := by
  have paid : (Metered.after {} (start refusedFrame {}) 6).paid = [6] := by decide +kernel
  have lost : Metered.lost {} (start refusedFrame {}) 6 = [3] := by decide +kernel
  have runs : ((start refusedFrame {}).runFor {} 6).frame.stopped = false := by decide +kernel
  have charges := (memory_is_paid_once {} {} (rfl : refusedFrame.memory = {})).1 6
  rw [paid, lost] at charges
  refine ⟨paid, lost, runs, ?_⟩
  generalize (start refusedFrame {}).runFor {} 6 = machine at charges runs ⊢
  cases charges with
  | cons work waits => exact work runs

/-- A word of memory that was named to a creation that is refused is paid for twice. -/
theorem memory_of_refusedFrame_is_paid_twice :
    refusedFrame.memory = {} ∧
      ¬ List.Forall₂ (fun frame charged => frame.stopped = false →
          charged ≤ ({} : Fees).memoryCost (frame.memory.size / 32))
        ((start refusedFrame {}).runFor {} 6).frames
          (Metered.after {} (start refusedFrame {}) 6).paid := by
  have paid : (Metered.after {} (start refusedFrame {}) 6).paid = [6] := by decide +kernel
  have runs : ((start refusedFrame {}).runFor {} 6).frame.stopped = false := by decide +kernel
  have size : ((start refusedFrame {}).runFor {} 6).frame.memory.size = 32 := by decide +kernel
  refine ⟨rfl, ?_⟩
  intro once
  rw [paid] at once
  generalize (start refusedFrame {}).runFor {} 6 = machine at once runs size
  cases once with
  | cons work waits =>
      have within := work runs
      rw [size] at within
      exact absurd within (by decide)

end Machine

end ContractMachine
