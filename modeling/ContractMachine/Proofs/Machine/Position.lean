import ContractMachine.Proofs.Code.Destinations
import ContractMachine.Proofs.Frame.Position
import ContractMachine.Proofs.Machine.Evolution
import ContractMachine.Proofs.Machine.Settlement

/-!
Where the frames of a run are. A frame that waits is at its call or creation and goes on behind it,
however many steps later; a frame that is made begins at the front of its code. So every frame that
runs is at the start of an instruction. A run that keeps its jump tables in one cache is the same
run, as long as the hashes of the codes at work tell them apart.
-/

namespace ContractMachine

theorem Frame.rests_pay (frame : Frame) (price : Price) : frame.Rests (frame.pay price) :=
  ⟨rfl, rfl, rfl, rfl, rfl, rfl⟩

theorem Frame.Calls.rests {environment : Environment} {frame caller : Frame} {ledger : Ledger}
    {kind : CallKind} {price : Price} {message : Message}
    (calls : frame.Calls environment ledger kind price message caller) : frame.Rests caller := by
  rw [calls.eqs.2]
  cases kind <;> exact ⟨rfl, rfl, rfl, rfl, rfl, rfl⟩

theorem SiteAction.rests_of_deliver {environment : Environment} {message : Message} {output : Bytes}
    {frame later : Frame} (ran : deliver environment message output frame = .ok () later) :
      frame.Rests later := by
  obtain ⟨_, _, _, rfl⟩ := deliver_spec ran
  exact ⟨rfl, rfl, rfl, rfl, rfl, rfl⟩

/-- The answer to a call or a creation finds the frame where it has waited. -/
theorem Awaited.rests_answered (environment : Environment) (awaited : Awaited) (child : Outcome)
    (frame : Frame) :
    frame.Rests (awaited.answered environment child frame) := by
  have same := awaited.continues_answered environment child frame
  have outcome := awaited.outcome_answered environment child frame
  have place : (awaited.answered environment child frame).pc = frame.pc ∧
      (awaited.answered environment child frame).stopped = frame.stopped := by
    cases awaited with
    | call message record =>
        simp only [answered, SiteAction.called]
        split
        · exact ⟨rfl, rfl⟩
        · split <;> exact ⟨rfl, rfl⟩
    | creation address record gas =>
        simp only [answered, SiteAction.created]
        split
        · exact ⟨rfl, rfl⟩
        · split <;> exact ⟨rfl, rfl⟩
  refine ⟨same.code, same.jumps, place.1, place.2, ?_, ?_⟩
  · rw [outcome]
    exact awaited.taken_returnData environment child frame.outcome
  · rw [outcome]
    exact awaited.taken_fault environment child frame.outcome

theorem SiteAction.rests_settledAtOnce (environment : Environment) (creation : Creation)
    (child : Outcome) (frame : Frame) (ledger : Ledger) :
    frame.Rests (settledAtOnce environment creation child frame ledger).frame := by
  have recorded : frame.Rests (creation.recorded frame ledger).2 := ⟨rfl, rfl, rfl, rfl, rfl, rfl⟩
  rw [frame_settledAtOnce]
  exact recorded.trans (Awaited.rests_answered _ _ _ _)

namespace Machine

/-- Every frame is where it may go on: the one at work as it is, those that wait behind their
instruction. -/
structure Placed (machine : Machine) : Prop where
  work : machine.frame.Placed
  waiting : ∀ parent ∈ machine.waiting, parent.frame.Paused

section

variable {environment : Environment} {frame : Frame} {waiting : List Waiting} {ledger : Ledger}
  {later : Machine}

theorem Sends.placed {message : Message} {caller : Frame}
    (sends : Sends environment message caller waiting ledger later) (paused : caller.Paused)
    (waits : ∀ parent ∈ waiting, parent.frame.Paused)
    (known : ∀ address, Code.Addressable (ledger.code address)) : later.Placed := by
  cases sends with
  | refused refused read =>
    rcases read with rfl | rfl <;> exact ⟨paused.behind ⟨rfl, rfl, rfl, rfl, rfl, rfl⟩, waits⟩
  | drained granted found dear => exact ⟨paused.behind ⟨rfl, rfl, rfl, rfl, rfl, rfl⟩, waits⟩
  | @delivered contract granted found paid later ran =>
      have before : caller.Rests (SiteAction.precompiled message contract caller) :=
        ⟨rfl, rfl, rfl, rfl, rfl, rfl⟩
      exact ⟨paused.behind (before.trans (SiteAction.rests_of_deliver ran)), waits⟩
  | @overdrawn contract granted found paid later fault ran =>
      rw [SiteAction.eq_of_deliver_error ran]
      exact ⟨paused.placed.halt (SiteAction.continues_precompiled message contract caller) fault,
        waits⟩
  | passed granted found empty => exact ⟨paused.behind ⟨rfl, rfl, rfl, rfl, rfl, rfl⟩, waits⟩
  | entered granted found code =>
      refine ⟨Frame.placed_start (known message.codeAddress) _ _, ?_⟩
      exact List.forall_mem_cons.mpr ⟨paused.rests ⟨rfl, rfl, rfl, rfl, rfl, rfl⟩, waits⟩

theorem Makes.placed (makes : Makes environment frame waiting ledger later) (paused : frame.Paused)
    (waits : ∀ parent ∈ waiting, parent.frame.Paused) : later.Placed := by
  have creator : (Creation.creator frame).Paused := paused.rests ⟨rfl, rfl, rfl, rfl, rfl, rfl⟩
  cases makes with
  | refused refused => exact ⟨paused.behind ⟨rfl, rfl, rfl, rfl, rfl, rfl⟩, waits⟩
  | collided granted inUse settled =>
      rw [settled]
      exact ⟨creator.behind (SiteAction.rests_settledAtOnce _ _ _ _ _), waits⟩
  | passed granted free empty settled =>
      rw [settled]
      exact ⟨creator.behind (SiteAction.rests_settledAtOnce _ _ _ _ _), waits⟩
  | entered granted free code ready asked =>
      subst ready asked
      refine ⟨Frame.placed_start (frame.memory.addressable_read _ _) _ _, ?_⟩
      exact List.forall_mem_cons.mpr ⟨creator.rests ⟨rfl, rfl, rfl, rfl, rfl, rfl⟩, waits⟩

theorem Executes.placed (executes : Executes environment frame waiting ledger later)
    (placed : Placed ⟨frame, waiting, ledger⟩)
    (known : ∀ address, Code.Addressable (ledger.code address)) : later.Placed := by
  obtain ⟨work, waits⟩ := placed
  have paused {op : Opcode} {price : Price} (due : frame.Due environment ledger op price)
      (single : op.immediate = 0) :
      frame.Paused := ⟨work, due.runs, (Frame.immediate_of_quote due.quoted).trans single⟩
  cases executes with
  | unpaid fault quoted => exact ⟨work.halt (.refl frame) fault, waits⟩
  | @worked op price later due changes alone ran =>
      have paid := work.rests (frame.rests_pay price)
      have size := Frame.immediate_of_quote due.quoted
      exact ⟨FrameAction.placed_perform paid due.runs size due.enough ran, waits⟩
  | failed due changes fault =>
    exact ⟨work.halt ((frame.continues_pay _).trans changes.continues) fault, waits⟩
  | stored due mutable => exact ⟨(paused due rfl).behind ⟨rfl, rfl, rfl, rfl, rfl, rfl⟩, waits⟩
  | @removed price due mutable =>
      have same : frame.Continues (SiteAction.removing (frame.pay price) ledger) :=
        ⟨rfl, rfl, rfl, rfl⟩
      have outcome : (SiteAction.removing (frame.pay price) ledger).outcome.fault =
          frame.outcome.fault ∧
          (SiteAction.removing (frame.pay price) ledger).outcome.returnData =
            frame.outcome.returnData := ⟨rfl, rfl⟩
      refine ⟨work.stopped same rfl ?_, waits⟩
      rw [outcome.1, outcome.2]
      exact work.returns
  | sent calls sends => exact sends.placed ((paused calls.due rfl).rests calls.rests) waits known
  | made creates makes =>
    exact makes.placed ((paused creates.due rfl).rests (frame.rests_pay _)) waits

end

section

variable {environment : Environment} {root : Frame} {ledger : Ledger} {machine : Machine}

theorem placed_next (nested : Nested environment root machine.frame machine.waiting)
    (runs : machine.finished = false) (placed : machine.Placed)
    (known : ∀ address, Code.Addressable (machine.ledger.code address)) :
    (machine.next environment).Placed := by
  obtain ⟨frame, waiting, ledger⟩ := machine
  cases stopped : frame.stopped with
  | false =>
      rw [next_running waiting stopped]
      exact (executes_instruct waiting stopped).placed placed known
  | true =>
      obtain ⟨parent, waiting, rfl, goes⟩ := next_of_stopped nested runs stopped
      rw [goes]
      obtain ⟨paused, waits⟩ := List.forall_mem_cons.mp placed.waiting
      exact ⟨paused.behind (parent.awaited.rests_answered environment frame.outcome parent.frame),
        waits⟩

/-- The code of accounts is addressable at every level that a rollback may lead to, since what is
deployed is what a frame that succeeded has returned. -/
theorem placed_of_reaches (placed : root.Placed)
    (known : ∀ address, Code.Addressable (ledger.code address))
    (reached : Reaches environment (start root ledger) machine) :
    machine.Placed ∧ machine.ledger.Throughout ledger.depth fun _ account =>
      Code.Addressable account.code := by
  induction reached with
  | here => exact ⟨⟨placed, fun _ none => nomatch none⟩, Ledger.throughout_here known⟩
  | @step middle before runs ih =>
      obtain ⟨here, throughout⟩ := ih
      have nested := nested_of_reaches before
      have counted := depth_of_reaches before
      have stays : ledger.depth ≤ middle.ledger.depth := Nat.le.intro counted.symm
      have returns (succeeded : middle.frame.outcome.succeeded = true) :
          Code.Addressable middle.frame.outcome.returnData :=
        here.work.returns (middle.frame.outcome.succeeded_iff.mp succeeded).1
      have evolves := evolves_next nested counted runs (Nat.zero_le _) fun succeeded _ =>
        returns succeeded
      refine ⟨placed_next nested runs here (throughout.here stays),
        throughout.evolves stays evolves ?_⟩
      intro address account moved moves met
      cases moves with
      | balance | nonce => exact met
      | code code known => exact known

theorem Placed.mem (placed : machine.Placed) {frame : Frame} (member : frame ∈ machine.frames) :
    frame.Placed := by
  rw [frames, List.mem_cons, List.mem_map] at member
  obtain rfl | ⟨parent, waits, rfl⟩ := member
  · exact placed.work
  · exact (placed.waiting parent waits).placed

end

end Machine

/-- A machine whose frames take their jump tables from one cache. -/
structure Sharing where
  machine : Machine
  cache : JumpCache := {}

namespace Sharing

def next (environment : Environment) (sharing : Sharing) : Sharing :=
  let later := sharing.machine.next environment
  if sharing.machine.waiting.length < later.waiting.length then
    let (table, cache) := sharing.cache.get later.frame.code
    ⟨{ later with frame := { later.frame with jumps := table } }, cache⟩
  else { sharing with machine := later }

def after (environment : Environment) (first : Machine) : Nat → Sharing
  | 0 => { machine := first }
  | steps + 1 => (after environment first steps).next environment

end Sharing

namespace Machine

def codeAfter (environment : Environment) (first : Machine) (steps : Nat) : Bytes :=
  (first.runFor environment steps).frame.code

/-- No two codes at work in so many steps have one hash. -/
def HashedApart (environment : Environment) (first : Machine) (steps : Nat) : Prop :=
  ∀ i ≤ steps, ∀ j ≤ steps,
    Keccak.hash (first.codeAfter environment i) = Keccak.hash (first.codeAfter environment j) →
    first.codeAfter environment i = first.codeAfter environment j

section

variable {environment : Environment} {root : Frame} {ledger : Ledger} {machine : Machine}

theorem after_sharing (placed : root.Placed)
    (known : ∀ address, Code.Addressable (ledger.code address)) {bound : Nat}
    (apart : (start root ledger).HashedApart environment bound) {steps : Nat}
    (within : steps ≤ bound) :
    (Sharing.after environment (start root ledger) steps).machine =
      (start root ledger).runFor environment steps ∧
      (Sharing.after environment (start root ledger) steps).cache.Holds fun code =>
        ∃ i ≤ bound, (start root ledger).codeAfter environment i = code := by
  induction steps with
  | zero => exact ⟨rfl, JumpCache.holds_empty _⟩
  | succ steps ih =>
      obtain ⟨same, holds⟩ := ih (Nat.le_of_succ_le within)
      have reached := runFor_reaches environment (steps + 1) (start root ledger)
      have jumps := (placed_of_reaches placed known reached).1.work.jumps
      rw [runFor_succ] at jumps ⊢
      rw [Sharing.after, Sharing.next, same]
      generalize made : next environment (runFor environment steps (start root ledger)) =
        later at jumps ⊢
      split
      · have code : ∃ i ≤ bound,
            (start root ledger).codeAfter environment i = later.frame.code := by
          refine ⟨steps + 1, within, ?_⟩
          rw [codeAfter, runFor_succ, made]
        have distinct : ∀ first second,
            (∃ i ≤ bound, (start root ledger).codeAfter environment i = first) →
            (∃ i ≤ bound, (start root ledger).codeAfter environment i = second) →
            Keccak.hash first = Keccak.hash second → first = second := by
          rintro _ _ ⟨i, early, rfl⟩ ⟨j, late, rfl⟩ hash
          exact apart i early j late hash
        -- The cache gives back the table of this code, which the frame has already.
        obtain ⟨table, kept⟩ := JumpCache.get_spec holds distinct code
        refine ⟨?_, kept⟩
        simp only [table, ← jumps]
      · exact ⟨rfl, holds⟩

/-- In every run, whatever the code, a frame that has not stopped is at a position of its code that
is met when the code is read from the front, so that no byte of an immediate is ever executed and no
instruction is looked for behind the code. Nor does it matter that jump tables are shared among
frames of one code, if its hash is that of no other. -/
theorem running_frames_are_at_instructions (environment : Environment) {code : Bytes}
    {context : Context} {stackLimit gas : Nat} (addressable : Code.Addressable code)
    (known : ∀ address, Code.Addressable (ledger.code address)) (fresh : root =
      { Frame.start code context stackLimit with outcome := ({} : Outcome).spend gas }) :
    (∀ machine, Reaches environment (start root ledger) machine → ∀ frame ∈ machine.frames,
      frame.stopped = false →
      Code.Start frame.code frame.pc ∧ frame.pc < frame.code.size ∧
        ∀ before, Code.Start frame.code before →
          ¬ (before < frame.pc ∧ frame.pc < Code.next frame.code before)) ∧
    ∀ steps, (start root ledger).HashedApart environment steps →
      (Sharing.after environment (start root ledger) steps).machine =
        (start root ledger).runFor environment steps := by
  have placed : root.Placed := by
    rw [fresh]
    exact (Frame.placed_start addressable context stackLimit).rests ⟨rfl, rfl, rfl, rfl, rfl, rfl⟩
  refine ⟨?position, ?sharing⟩
  case position =>
    intro machine reached frame member runs
    have start := ((placed_of_reaches placed known reached).1.mem member).start runs
    refine ⟨start, start.lt_size, ?_⟩
    rintro before earlier ⟨behind, inside⟩
    have passed := earlier.next_le start behind
    omega
  case sharing =>
    intro steps apart
    exact (after_sharing placed known apart (Nat.le_refl steps)).1

end

-- The code of the account at ten, with its positions: two PUSH1, an SSTORE at four, and a byte that
-- is no instruction.
def calledCode : Bytes := #[0x60, 1, 0x60, 1, 0x55, 0xfe]

theorem addressable_calledLedger (address : Address) :
    Code.Addressable (calledLedger.code address) := by
  have read : calledLedger.account? address =
      if address = 10 then some { code := calledCode } else none :=
    Ledger.account?_update {} 10 address _
  rw [Ledger.code, read]
  split
  · exact (by decide : calledCode.size ≤ Quantity.limit)
  · exact Nat.zero_le _

-- The frame that calls, handed over as a transaction does it: with a price already paid.
def paidFrame : Frame := { callingFrame with outcome := ({} : Outcome).spend 21000 }

theorem hashedApart_paidFrame : (start paidFrame calledLedger).HashedApart {} 10 := by
  have codes : ∀ i ≤ 10, (start paidFrame calledLedger).codeAfter {} i = callingFrame.code ∨
      (start paidFrame calledLedger).codeAfter {} i = calledCode := by
    decide +kernel
  have distinct : Keccak.hash callingFrame.code ≠ Keccak.hash calledCode := by decide +kernel
  intro i early j late hash
  rcases codes i early with first | first <;> rcases codes j late with second | second <;>
    rw [first, second] at hash ⊢
  · exact absurd hash distinct
  · exact absurd hash.symm distinct

theorem frames_of_paidFrame_are_at_instructions :
    ((start paidFrame calledLedger).runFor {} 10).frame.pc = 4 ∧ Code.Start calledCode 4 ∧
    (Sharing.after {} (start paidFrame calledLedger) 10).machine =
      (start paidFrame calledLedger).runFor {} 10 := by
  have addressable : Code.Addressable callingFrame.code := by decide
  have fresh : paidFrame = { Frame.start callingFrame.code callingFrame.context 1024 with
    outcome := ({} : Outcome).spend 21000 } := rfl
  have there : ((start paidFrame calledLedger).runFor {} 10).frame.pc = 4 ∧
      ((start paidFrame calledLedger).runFor {} 10).frame.code = calledCode ∧
      ((start paidFrame calledLedger).runFor {} 10).frame.stopped = false := by
    decide +kernel
  obtain ⟨position, sharing⟩ :=
    running_frames_are_at_instructions {} addressable addressable_calledLedger fresh
  have reached := runFor_reaches {} 10 (start paidFrame calledLedger)
  have begun := (position _ reached _ List.mem_cons_self there.2.2).1
  rw [there.1, there.2.1] at begun
  exact ⟨there.1, begun, sharing 10 hashedApart_paidFrame⟩

end Machine

end ContractMachine
