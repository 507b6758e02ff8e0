import ContractMachine.Proofs.Frame.Discipline
import ContractMachine.Proofs.Machine.Atomicity

/-!
The stack under whole instructions. A call or creation is served like any other instruction, though
its result may be put on only when a child has run; and no frame of a run has ever more words on its
stack than it may have.
-/

namespace ContractMachine

/-- What an instruction comes to, as far as stacks are concerned: it is done; or it waits for a
frame that begins with an empty stack, and whatever that comes to, the answer is taken and the
instruction done; or it ends in another fault. -/
def Opcode.Disciplined (environment : Environment) (op : Opcode) (stack : Stack) :
    EStateM.Result Fault Site (Option Spawn) → Prop
  | .ok none site => stack.Served op site.frame.stack
  | .ok (some spawn) site =>
      spawn.frame.stack.words = [] ∧ stack.Within site.frame.stack ∧
        ∀ child ledger, ∃ later,
          SiteAction.settle environment spawn.awaited child ⟨site.frame, ledger⟩ = .ok () later ∧
          stack.Served op later.frame.stack
  | .error fault site => fault.isOfStack = false ∧ stack.Within site.frame.stack

namespace SiteAction

variable {environment : Environment} {stack : Stack} {op : Opcode} {caller : Frame}
  (fit : stack.checkArity op.pops op.pushes = .ok ()) (one : op.pushes = 1)
  (operands : caller.stack = stack.without op.pops)
include fit one operands

theorem served_of_answer {later : Frame} {word : Word}
    (limit : later.stack.limit = caller.stack.limit)
    (words : later.stack.words = word :: caller.stack.words) : stack.Served op later.stack := by
  rw [operands] at limit words
  exact Stack.served_of_put fit one limit words

theorem hasRoom_of_operands : caller.HasRoom := by
  obtain ⟨enough, room⟩ := (stack.checkArity_eq_ok_iff _ _).mp fit
  rw [Frame.HasRoom, operands, Stack.size_without]
  change stack.size - op.pops < stack.limit
  omega

/-- A caller that waits has its operands off the stack already, so that there is room for the
answer. -/
theorem disciplined_of_spawn {spawn : Spawn} {site : Site} (fresh : spawn.frame.stack.words = [])
    (waits : site.frame.stack = caller.stack) :
      op.Disciplined environment stack (.ok (some spawn) site) := by
  have still : site.frame.stack = stack.without op.pops := waits.trans operands
  refine ⟨fresh, ?within, ?settled⟩
  case within =>
    rw [still]
    exact stack.within_without _
  case settled =>
    intro child ledger
    have room := hasRoom_of_operands fit one still
    have words := spawn.awaited.words_answered environment child site.frame
    have same := spawn.awaited.continues_answered environment child site.frame
    exact ⟨_, settle_eq environment spawn.awaited child ledger room,
      served_of_answer fit one still same.limit words⟩

end SiteAction

namespace SiteAction

/-- The output of a precompile may be too dear, but its answer is on the stack by then. -/
theorem isOfStack_of_deliver {environment : Environment} {message : Message} {output : Bytes}
    {frame later : Frame} {fault : Fault}
    (failed : deliver environment message output frame = .error fault later) :
    fault.isOfStack = false := by
  rw [deliver_eq] at failed
  split at failed
  · rename_i fault grown
    cases failed
    exact Frame.offStack_growth _ _ _ grown
  · split at failed <;> cases failed
    rfl

variable {environment : Environment} {stack : Stack} {kind : CallKind} {message : Message}
  {caller : Frame}
  (fit : stack.checkArity (Opcode.call kind).pops (Opcode.call kind).pushes = .ok ())
  (operands : caller.stack = stack.without (Opcode.call kind).pops)
include fit operands

theorem disciplined_callAccount (ledger : Ledger) : (Opcode.call kind).Disciplined environment stack
    ((callAccount environment message >>= advanceUnless) ⟨caller, ledger⟩) := by
  have room := hasRoom_of_operands fit rfl operands
  rw [bind_apply, callAccount_eq environment message ledger room]
  by_cases deep : environment.config.limits.callDepth ≤ caller.context.depth
  · rw [if_pos deep]
    exact served_of_answer fit rfl operands rfl rfl
  · by_cases poor : (ledger.balance caller.owner).toNat < message.value.toNat
    · rw [if_neg deep, if_pos poor]
      exact served_of_answer fit rfl operands rfl rfl
    · by_cases empty : ledger.code message.codeAddress = #[]
      · rw [if_neg deep, if_neg poor, if_pos empty]
        exact served_of_answer fit rfl operands rfl rfl
      · rw [if_neg deep, if_neg poor, if_neg empty]
        exact disciplined_of_spawn fit rfl operands rfl rfl

theorem disciplined_callPrecompile (contract : Precompile) (ledger : Ledger) :
    (Opcode.call kind).Disciplined environment stack ((do
      callPrecompile environment message contract
      advanceUnless none) ⟨caller, ledger⟩) := by
  have room := hasRoom_of_operands fit rfl operands
  rw [bind_apply, callPrecompile_eq environment message contract ledger room]
  by_cases deep : environment.config.limits.callDepth ≤ caller.context.depth
  · rw [if_pos deep]
    exact served_of_answer fit rfl operands rfl rfl
  · by_cases poor : (ledger.balance caller.owner).toNat < message.value.toNat
    · rw [if_neg deep, if_pos poor]
      exact served_of_answer fit rfl operands rfl rfl
    · by_cases dear : message.gas < contract.price (message.input caller)
      · rw [if_neg deep, if_neg poor, if_pos dear]
        exact served_of_answer fit rfl operands rfl rfl
      · rw [if_neg deep, if_neg poor, if_neg dear, onFrame_apply]
        have answered : stack.Served (.call kind) (precompiled message contract caller).stack :=
          served_of_answer fit rfl operands rfl rfl
        cases ran : deliver environment message (contract.run (message.input caller))
            (precompiled message contract caller) with
        | ok value later =>
            rw [← stack_of_deliver ran] at answered
            exact answered
        | error fault later =>
            rw [← eq_of_deliver_error ran] at answered
            exact ⟨isOfStack_of_deliver ran, answered.within⟩

end SiteAction

namespace SiteAction

variable (environment : Environment) (frame : Frame) (ledger : Ledger)

/-- The operands of a call are off before it is looked at whom it calls. -/
theorem disciplined_call {kind : CallKind} (forwarded : Nat)
    (fit : frame.stack.checkArity (Opcode.call kind).pops (Opcode.call kind).pushes = .ok ()) :
    (Opcode.call kind).Disciplined environment frame.stack
      (execute environment (.call kind) forwarded ⟨frame, ledger⟩) := by
  have enough := ((frame.stack.checkArity_eq_ok_iff _ _).mp fit).1
  have operands : (kind.reader frame).stack = frame.stack.without (Opcode.call kind).pops := by
    cases kind <;> rfl
  have read := readMessage_eq environment kind forwarded enough
  simp only [execute, call, bind_apply, onFrame_apply]
  by_cases static : frame.context.isStatic = true ∧ kind = .call ∧ kind.valueOperand frame ≠ 0
  · rw [if_pos static] at read
    simp only [read]
    exact ⟨rfl, frame.stack.within_without 3⟩
  · rw [if_neg static] at read
    simp only [read]
    generalize kind.message environment forwarded frame = message
    cases environment.config.precompiles.find? message.codeAddress with
    | none =>
        have account : (Opcode.call kind).Disciplined environment frame.stack
            ((callAccount environment message >>= advanceUnless) ⟨kind.reader frame, ledger⟩) :=
          disciplined_callAccount fit operands ledger
        rwa [bind_apply] at account
    | some contract =>
        have precompile : (Opcode.call kind).Disciplined environment frame.stack ((do
            callPrecompile environment message contract
            advanceUnless none) ⟨kind.reader frame, ledger⟩) :=
          disciplined_callPrecompile fit operands contract ledger
        simp only [bind_apply] at precompile ⊢
        cases ran : callPrecompile environment message contract ⟨kind.reader frame, ledger⟩ with
        | ok value site => rwa [ran] at precompile
        | error fault site => rwa [ran] at precompile

theorem disciplined_createWith (creation : Creation) (caller : Frame)
    (fit : frame.stack.checkArity Opcode.create.pops Opcode.create.pushes = .ok ())
    (operands : caller.stack = frame.stack.without Opcode.create.pops) :
    Opcode.create.Disciplined environment frame.stack
      ((createWith environment creation.value creation.code creation.gas >>= advanceUnless)
        ⟨caller, ledger⟩) := by
  have room := hasRoom_of_operands fit rfl operands
  -- A creation that makes no frame is settled with an outcome of its own.
  have settled : ∀ child : Outcome, frame.stack.Served .create
      (settledAtOnce environment creation child caller ledger).frame.advance.stack := by
    intro child
    have words := words_settledAtOnce environment creation child caller ledger
    have same := continues_settledAtOnce environment creation child caller ledger
    exact served_of_answer fit rfl operands same.limit words
  rw [bind_apply, createWith_eq environment creation ledger room]
  by_cases inUse : ledger.hasAccount (Creation.address caller ledger) = true
  · rw [if_pos inUse]
    exact settled _
  · rw [if_neg inUse]
    by_cases empty : creation.code.isEmpty = true
    · rw [if_pos empty]
      exact settled _
    · rw [if_neg empty]
      exact disciplined_of_spawn fit rfl operands rfl rfl

theorem disciplined_create (forwarded : Nat)
    (fit : frame.stack.checkArity Opcode.create.pops Opcode.create.pushes = .ok ()) :
    Opcode.create.Disciplined environment frame.stack
      (execute environment .create forwarded ⟨frame, ledger⟩) := by
  have enough := ((frame.stack.checkArity_eq_ok_iff _ _).mp fit).1
  have room : (frame.dropWords 3).HasRoom := hasRoom_of_operands fit rfl rfl
  simp only [execute, bind_apply, create_eq environment ledger enough room]
  by_cases static : frame.context.isStatic = true
  · rw [if_pos static]
    exact ⟨rfl, .refl _⟩
  · rw [if_neg static]
    by_cases refused : frame.Refused environment ledger (frame.operand 0)
    · rw [if_pos refused]
      have operands : (Creation.reader frame).stack = frame.stack.without Opcode.create.pops := rfl
      exact served_of_answer fit rfl operands rfl rfl
    · rw [if_neg refused]
      have made :=
        disciplined_createWith environment frame ledger (Creation.asked frame)
        (Creation.creator frame) fit rfl
      rwa [bind_apply] at made

theorem disciplined_store (forwarded : Nat)
    (fit : frame.stack.checkArity Opcode.sstore.pops Opcode.sstore.pushes = .ok ()) :
    Opcode.sstore.Disciplined environment frame.stack
      (execute environment .sstore forwarded ⟨frame, ledger⟩) := by
  have enough := ((frame.stack.checkArity_eq_ok_iff _ _).mp fit).1
  simp only [execute, bind_apply, store_eq ledger enough]
  by_cases static : frame.context.isStatic = true
  · rw [if_pos static]
    exact ⟨rfl, .refl _⟩
  · rw [if_neg static]
    exact Stack.served_of_drop fit rfl rfl rfl

theorem disciplined_suicide (forwarded : Nat)
    (fit : frame.stack.checkArity Opcode.suicide.pops Opcode.suicide.pushes = .ok ()) :
    Opcode.suicide.Disciplined environment frame.stack
      (execute environment .suicide forwarded ⟨frame, ledger⟩) := by
  have enough := ((frame.stack.checkArity_eq_ok_iff _ _).mp fit).1
  simp only [execute, bind_apply, suicide_eq ledger enough]
  by_cases static : frame.context.isStatic = true
  · rw [if_pos static]
    exact ⟨rfl, .refl _⟩
  · rw [if_neg static]
    exact Stack.served_of_drop fit rfl rfl rfl

/-- Whatever an instruction is, the stack is what its arity says. -/
theorem disciplined_execute {op : Opcode} (forwarded : Nat)
    (fit : frame.stack.checkArity op.pops op.pushes = .ok ()) :
    op.Disciplined environment frame.stack (execute environment op forwarded ⟨frame, ledger⟩) := by
  cases alone : op.isAlone with
  | false =>
      cases op with
      | create => exact disciplined_create environment frame ledger forwarded fit
      | call kind => exact disciplined_call environment frame ledger forwarded fit
      | suicide => exact disciplined_suicide environment frame ledger forwarded fit
      | sstore => exact disciplined_store environment frame ledger forwarded fit
      | _ => cases alone
  | true =>
      have turns :
          (FrameAction.perform environment ledger op).Turns (frame.stack.without 0)
          (frame.stack.Served op) := by
        refine FrameAction.turns_perform environment ledger fit ?_ (fun kind => ?_) ?_ ?_
        all_goals
          rintro rfl
          cases alone
      have ran := turns frame rfl
      rw [execute_alone environment forwarded alone]
      simp only [bind_apply, reads_apply, onFrame_apply]
      cases result : FrameAction.perform environment ledger op frame with
      | ok value later =>
          rw [result] at ran
          exact ran.1
      | error fault later =>
          rw [result] at ran
          exact ran

end SiteAction

namespace Machine

inductive Finishes (environment : Environment) (before : Machine) : Machine → Prop where
  | atOnce (level : (before.next environment).waiting = before.waiting)
      (fine : (before.next environment).frame.outcome.fault = none) :
      Finishes environment before (before.next environment)
  | child {last : Machine} {parent : Waiting}
      (stays : Stays environment before.waiting.length (before.next environment) last)
      (back : last.waiting = parent :: before.waiting) (stopped : last.frame.stopped = true) :
      Finishes environment before (last.next environment)

def StacksFit (machine : Machine) : Prop :=
  machine.frame.stack.size ≤ machine.frame.stack.limit ∧
    ∀ parent ∈ machine.waiting, parent.frame.stack.size ≤ parent.frame.stack.limit

inductive Turns (environment : Environment) (op : Opcode) (stack : Stack) (waiting : List Waiting) :
    Machine → Prop where
  | done {frame : Frame} {ledger : Ledger} (served : stack.Served op frame.stack) :
      Turns environment op stack waiting ⟨frame, waiting, ledger⟩
  | enters {child frame : Frame} {awaited : Awaited} {ledger : Ledger}
      (fresh : child.stack.words = []) (within : stack.Within frame.stack)
      (settles : ∀ outcome ledger, ∃ later,
        SiteAction.settle environment awaited outcome ⟨frame, ledger⟩ = .ok () later ∧
          stack.Served op later.frame.stack) :
      Turns environment op stack waiting ⟨child, ⟨frame, awaited⟩ :: waiting, ledger⟩
  | fails {frame : Frame} {ledger : Ledger} {fault : Fault} (within : stack.Within frame.stack) :
      Turns environment op stack waiting ⟨frame.halt fault, waiting, ledger⟩

section

variable {environment : Environment} {root frame : Frame} {waiting : List Waiting} {ledger : Ledger}
  {op : Opcode} {price : Price}

theorem turns_next (waiting : List Waiting) (due : frame.Due environment ledger op price) :
    Turns environment op frame.stack waiting (next environment ⟨frame, waiting, ledger⟩) := by
  have fit : (frame.pay price).stack.checkArity op.pops op.pushes = .ok () :=
    (Frame.quote_spec due.quoted).1
  have disciplined :=
    SiteAction.disciplined_execute environment (frame.pay price) ledger price.forwarded fit
  rw [next_running waiting due.runs, instruct_due waiting due]
  cases result : SiteAction.execute environment op price.forwarded ⟨frame.pay price, ledger⟩ with
  | error fault site =>
      rw [result] at disciplined
      exact .fails disciplined.2
  | ok spawn site =>
      rw [result] at disciplined
      cases spawn with
      | none => exact .done disciplined
      | some spawn =>
          obtain ⟨fresh, within, settles⟩ := disciplined
          exact .enters fresh within settles

theorem next_of_settled {child : Frame} {parent : Waiting} {later : Site} (waiting : List Waiting)
    (stopped : child.stopped = true)
    (settled : SiteAction.settle environment parent.awaited child.outcome ⟨parent.frame, ledger⟩ =
      .ok () later) :
    next environment ⟨child, parent :: waiting, ledger⟩ = ⟨later.frame, waiting, later.ledger⟩ := by
  simp [next, stopped, resume, settled]

/-- A caller that has waited for its child, however long, is served as at once. -/
theorem served_of_finishes {before after : Machine}
    (reached : Reaches environment (start root ledger) before)
    (due : before.frame.Due environment before.ledger op price)
    (finishes : Finishes environment before after) :
    before.frame.stack.Served op after.frame.stack := by
  have runs : before.finished = false := by rw [finished, due.runs, Bool.false_and]
  have nested := nested_of_reaches (reached.step runs)
  have depth := depth_of_reaches (reached.step runs)
  obtain ⟨frame, waiting, ledger⟩ := before
  have turns := turns_next waiting due
  cases finishes with
  | atOnce level fine =>
      generalize next environment ⟨frame, waiting, ledger⟩ = after at *
      cases turns with
      | done served => exact served
      | enters fresh within settles => exact absurd level (List.cons_ne_self _ _)
      | fails within => cases fine
  | @child last parent stays back stopped =>
      have deeper := stays.first_inside
      generalize next environment ⟨frame, waiting, ledger⟩ = first at *
      cases turns with
      | done | fails => exact absurd deeper (Nat.lt_irrefl _)
      | @enters child caller awaited opened fresh within settles =>
          have tracked : 0 < opened.depth := by
            simp only [List.length_cons] at depth
            omega
          obtain ⟨rfl, -, -⟩ := level_at_child nested rfl tracked stays back
          obtain ⟨ended, all, kept⟩ := last
          obtain rfl : all = ⟨caller, awaited⟩ :: waiting := back
          obtain ⟨later, settled, served⟩ := settles ended.outcome kept
          rw [next_of_settled waiting stopped settled]
          exact served

theorem stacksFit_next {machine : Machine}
    (nested : Nested environment root machine.frame machine.waiting)
    (runs : machine.finished = false) (fit : machine.StacksFit) :
    (machine.next environment).StacksFit := by
  obtain ⟨frame, waiting, ledger⟩ := machine
  obtain ⟨here, others⟩ := fit
  cases stopped : frame.stopped with
  | true =>
      obtain ⟨parent, rest, rfl, goes⟩ := next_of_stopped nested runs stopped
      rw [goes]
      cases nested with
      | child outer room deeper bounded =>
          -- The answer is one word, and room for it was left when the child was made.
          have same := parent.awaited.continues_answered environment frame.outcome parent.frame
          have words :=
            congrArg List.length
            (parent.awaited.words_answered environment frame.outcome parent.frame)
          have answered :
              (parent.awaited.answered environment frame.outcome parent.frame).stack.size ≤
              (parent.awaited.answered environment frame.outcome parent.frame).stack.limit := by
            rw [same.limit, Stack.size, words]
            exact room
          exact ⟨answered, fun other member => others other (List.mem_cons_of_mem _ member)⟩
  | false =>
      cases quoted : frame.quote environment.config.fees ledger with
      | error fault =>
          have halted :
              next environment ⟨frame, waiting, ledger⟩ = ⟨frame.halt fault, waiting, ledger⟩ := by
            simp only [next_running waiting stopped, instruct, quoted]
          rw [halted]
          exact ⟨here, others⟩
      | ok paid =>
          obtain ⟨op, price⟩ := paid
          have turns := turns_next waiting ⟨stopped, quoted⟩
          generalize next environment ⟨frame, waiting, ledger⟩ = after at *
          cases turns with
          | done served => exact ⟨served.bounded, others⟩
          | @enters child caller awaited opened fresh within settles =>
              have empty : child.stack.size ≤ child.stack.limit := by
                rw [Stack.size, fresh]
                exact Nat.zero_le _
              exact ⟨empty, List.forall_mem_cons.mpr ⟨within.fits here, others⟩⟩
          | fails within => exact ⟨within.fits here, others⟩

theorem stacksFit_of_reaches {machine : Machine} (begins : root.stack.size ≤ root.stack.limit)
    (reached : Reaches environment (start root ledger) machine) : machine.StacksFit := by
  induction reached with
  | here => exact ⟨begins, fun parent none => by cases none⟩
  | step before runs ih => exact stacksFit_next (nested_of_reaches before) runs ih

end

/-- In every state in which the arity of an instruction passes its check, neither its price nor its
work, nor the answer that it may have to wait for, fails for want of words or room on the stack, and
it leaves the stack as its arity says. So does every instruction of a run that comes to its end, and
at no moment of a run does a stack exceed its limit. -/
theorem stack_is_disciplined (environment : Environment) :
    (∀ (frame : Frame) (ledger : Ledger) (op : Opcode),
      frame.stack.checkArity op.pops op.pushes = .ok () →
      (∀ fault, frame.price environment.config.fees ledger op = .error fault →
        fault.isOfStack = false) ∧
      ∀ forwarded, op.Disciplined environment frame.stack
        (SiteAction.execute environment op forwarded ⟨frame, ledger⟩)) ∧
    (∀ (root : Frame) (ledger : Ledger) (before after : Machine) (op : Opcode) (price : Price),
      Reaches environment (start root ledger) before →
      before.frame.Due environment before.ledger op price →
        Finishes environment before after → before.frame.stack.Served op after.frame.stack) ∧
    (∀ (root : Frame) (ledger : Ledger) (machine : Machine), root.stack.size ≤ root.stack.limit →
      Reaches environment (start root ledger) machine → machine.StacksFit) := by
  refine ⟨?anywhere, ?finished, ?fits⟩
  case anywhere =>
    intro frame ledger op fit
    have enough := ((frame.stack.checkArity_eq_ok_iff _ _).mp fit).1
    exact ⟨Frame.offStack_price ledger enough, fun forwarded =>
      SiteAction.disciplined_execute environment frame ledger forwarded fit⟩
  case finished =>
    intro root ledger before after op price reached due finishes
    exact served_of_finishes reached due finishes
  case fits =>
    intro root ledger machine begins reached
    exact stacksFit_of_reaches begins reached

-- A stack without room for another word.
def fullFrame : Frame :=
  { Frame.start #[0x91]
      { address := 7, origin := 7, caller := 7, value := 0, data := #[], gas := 1000000,
        gasPrice := 1, block := {}, depth := 0, isStatic := false, transactionHash := 0 } 3 with
    stack := { limit := 3, words := [1, 2, 3] } }

theorem stack_is_disciplined_over_call :
    (∃ site, SiteAction.execute {} (.swap 1) 0 ⟨fullFrame, {}⟩ = .ok none site ∧
      fullFrame.stack.Served (.swap 1) site.frame.stack) ∧
    Finishes {} beforeCall (((beforeCall.next {}).runFor {} 4).next {}) ∧
    beforeCall.frame.stack.Served (.call .call)
      (((beforeCall.next {}).runFor {} 4).next {}).frame.stack ∧
    (beforeCall.next {}).StacksFit := by
  obtain ⟨here, through, fits⟩ := stack_is_disciplined {}
  have reached := runFor_reaches {} 7 (start callingFrame calledLedger)
  have fit : fullFrame.stack.checkArity (Opcode.swap 1).pops (Opcode.swap 1).pushes = .ok () := rfl
  have stays : Stays {} 0 (beforeCall.next {}) ((beforeCall.next {}).runFor {} 4) :=
    stays_runFor 4 (by decide +kernel)
  have finishes : Finishes {} beforeCall (((beforeCall.next {}).runFor {} 4).next {}) := by
    obtain ⟨parent, waits⟩ : ∃ parent, ((beforeCall.next {}).runFor {} 4).waiting = [parent] :=
      List.length_eq_one_iff.mp (by decide +kernel)
    exact .child stays waits (by decide +kernel)
  refine ⟨?exchanged, finishes, through _ _ _ _ _ _ reached beforeCall_calls.due finishes, ?fits⟩
  case exchanged =>
    obtain ⟨site, ran⟩ : ∃ site, SiteAction.execute {} (.swap 1) 0 ⟨fullFrame, {}⟩ =
      .ok none site := ⟨_, rfl⟩
    have disciplined := (here fullFrame {} (.swap 1) fit).2 0
    rw [ran] at disciplined
    exact ⟨site, ran, disciplined⟩
  case fits =>
    exact fits callingFrame calledLedger _ (by decide) (reached.step (by decide +kernel))

end Machine

end ContractMachine
