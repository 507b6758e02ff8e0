import ContractMachine.Proofs.Machine.Settlement

/-!
Gas under fees of any kind. What a caller hands on is paid for but for the stipend, and no more than
it has handed on comes back: behind a call it has at most the stipend more than it had, less what
the call itself costs. Where the stipend is more than a call with a value costs, gas is made.
-/

namespace ContractMachine.Machine

structure AllSolvent (machine : Machine) : Prop where
  solvent : machine.frame.Solvent
  waiting : ∀ parent ∈ machine.waiting, parent.frame.Solvent ∧ parent.frame.outcome.fault = none

def HandsOnBounded (environment : Environment) (first : Machine) : Prop :=
  ∀ (machine : Machine) (kind : CallKind) (price : Price) (message : Message) (caller : Frame),
    Reaches environment first machine →
    machine.frame.Calls environment machine.ledger kind price message caller →
      message.gas ≤ Quantity.limit

section

variable {environment : Environment} {root frame caller : Frame} {waiting : List Waiting}
  {ledger : Ledger} {machine later : Machine}

theorem Pays.allSolvent {least : Nat} (pays : Pays environment least machine later)
    (all : machine.AllSolvent) : later.AllSolvent := by
  cases pays with
  | level runs same solvent paid => exact ⟨solvent, all.waiting⟩
  | down runs same solvent goes paid fresh unused handed =>
      exact ⟨fresh, List.forall_mem_cons.mpr ⟨⟨solvent, goes⟩, all.waiting⟩⟩
  | up stopped same solvent back => exact ⟨solvent, (List.forall_mem_cons.mp all.waiting).2⟩

theorem HandsOn.allSolvent {gas : Nat} (handsOn : HandsOn gas caller waiting later)
    (others : ∀ parent ∈ waiting, parent.frame.Solvent ∧ parent.frame.outcome.fault = none) :
      later.AllSolvent := by
  cases handsOn with
  | level same solvent back => exact ⟨solvent, others⟩
  | down same solvent goes kept handed fresh unused given =>
      exact ⟨fresh, List.forall_mem_cons.mpr ⟨⟨solvent, goes⟩, others⟩⟩

theorem allSolvent_next (nested : Nested environment root machine.frame machine.waiting)
    (bounded : ∀ kind price message caller,
      machine.frame.Calls environment machine.ledger kind price message caller →
      message.gas ≤ Quantity.limit)
    (all : machine.AllSolvent) (runs : machine.finished = false) :
      (machine.next environment).AllSolvent := by
  obtain ⟨frame, waiting, ledger⟩ := machine
  obtain ⟨solvent, others⟩ := all
  cases stopped : frame.stopped with
  | true =>
      obtain ⟨parent, waiting, rfl, moved⟩ := next_of_stopped nested runs stopped
      obtain ⟨⟨above, goes⟩, others⟩ := List.forall_mem_cons.mp others
      have used := parent.awaited.gasUsed_answered environment frame.outcome parent.frame
      have kept :=
        (parent.awaited.continues_answered environment frame.outcome parent.frame).context
      have fault :=
        (parent.awaited.fault_answered environment frame.outcome parent.frame).trans goes
      have within :
          (parent.awaited.answered environment frame.outcome parent.frame).outcome.gasUsed ≤
          parent.frame.context.gas :=
            Nat.le_trans (Nat.le_of_eq used) (Nat.le_trans (Nat.sub_le _ _) above.within)
      rw [moved]
      exact ⟨above.of_goes kept within fault, others⟩
  | false =>
      -- Only a call hands on what it has not paid for.
      by_cases calling : ∃ kind price, frame.Due environment ledger (.call kind) price
      · obtain ⟨kind, price, due⟩ := calling
        cases read : SiteAction.readMessage environment kind price.forwarded (frame.pay price) with
        | error fault behind =>
            have paid := (solvent.of_changes due ((frame.pay price).changes_dropWords 3)).1
            rw [next_running waiting stopped, instruct_call_of_error waiting due read]
            exact ⟨paid.halt _, others⟩
        | ok message caller =>
            have calls : frame.Calls environment ledger kind price message caller := ⟨due, read⟩
            have goes := calls.fault.trans (solvent.goes stopped)
            exact ((sends_next waiting calls).handsOn (calls.solvent solvent) goes
              (bounded kind price message caller calls)).allSolvent others
      · have covered : frame.Covered environment ledger 0 := by
          intro op price due _
          cases op with
          | call kind => exact absurd ⟨kind, price, due⟩ calling
          | _ => exact Nat.zero_le _
        rw [next_running waiting stopped]
        exact ((executes_instruct waiting stopped).pays covered solvent stopped).allSolvent
          ⟨solvent, others⟩

theorem allSolvent_of_reaches (bounded : HandsOnBounded environment (start root ledger))
    (solvent : root.Solvent) (reached : Reaches environment (start root ledger) machine) :
    machine.AllSolvent := by
  induction reached with
  | here => exact ⟨solvent, fun parent member => nomatch member⟩
  | @step middle before runs ih =>
      exact allSolvent_next (nested_of_reaches before)
        (fun kind price message caller => bounded middle kind price message caller before) ih runs

theorem HandsOn.returned {gas : Nat} (handsOn : HandsOn gas caller waiting later)
    (level : later.waiting = waiting) :
    later.frame.context = caller.context ∧
    caller.outcome.gasUsed ≤ later.frame.outcome.gasUsed + gas := by
  cases handsOn with
  | level same solvent back => exact ⟨same, back⟩
  | down => simp at level

theorem HandsOn.parent {gas : Nat} {parent : Waiting} (handsOn : HandsOn gas caller waiting later)
    (entered : later.waiting = parent :: waiting) :
    parent.frame.context = caller.context ∧ parent.frame.outcome.gasUsed = caller.outcome.gasUsed ∧
      parent.awaited.gas = gas := by
  cases handsOn with
  | level => simp at entered
  | down same solvent goes kept handed =>
      cases entered
      exact ⟨same, kept, handed⟩

theorem Asks.runs {op : Opcode} (asks : Asks environment machine.frame machine.ledger op) :
    machine.finished = false := by
  have goes : machine.frame.stopped = false := by
    cases asks with
    | call calls => exact calls.due.runs
    | creation creates => exact creates.due.runs
  simp [finished, goes]

theorem Completes.reaches {op : Opcode} {first : Machine}
    (completes : Completes environment machine op later)
    (reached : Reaches environment first machine) : Reaches environment first later := by
  cases completes with
  | atOnce asks level => exact reached.step asks.runs
  | child asks stays back stopped =>
    exact ((reached.step asks.runs).trans stays.reaches).step stays.runs

/-- Behind a call its caller has used all that it had paid, less at most what it has handed on. -/
theorem returned_of_completed {kind : CallKind} {message : Message} {price : Price}
    (nested : Nested environment root machine.frame machine.waiting)
    (calls : machine.frame.Calls environment machine.ledger kind price message caller)
    (handsOn : HandsOn message.gas caller machine.waiting (machine.next environment))
    (completes : Completes environment machine (.call kind) later) :
    later.frame.context = caller.context ∧
    caller.outcome.gasUsed ≤ later.frame.outcome.gasUsed + message.gas := by
  obtain ⟨frame, waiting, ledger⟩ := machine
  cases completes with
  | atOnce asks level => exact handsOn.returned level
  | @child last parent asks stays back stopped =>
      have first := nested_next nested calls.due.runs ledger
      obtain ⟨asking, entered, -, -, opened⟩ := (sends_next waiting calls).enters stays.first_inside
      obtain ⟨same, -, -⟩ := back_at_child first entered opened stays back
      subst same
      obtain ⟨context, kept, handed⟩ := handsOn.parent entered
      have used := parent.awaited.gasUsed_answered environment last.frame.outcome parent.frame
      have continued :=
        (parent.awaited.continues_answered environment last.frame.outcome parent.frame).context
      rw [next_at_child (first.reaches stays.reaches) back stopped]
      refine ⟨continued.trans context, ?_⟩
      change caller.outcome.gasUsed ≤
        (parent.awaited.answered environment last.frame.outcome parent.frame).outcome.gasUsed +
          message.gas
      omega

/-- Where the stipend is covered by the price of a call, all that is handed on has been paid for. -/
theorem handsOnBounded_of_covers (covers : environment.config.fees.Covers 0)
    (solvent : root.Solvent) :
    HandsOnBounded environment (start root ledger) := by
  intro machine kind price message caller reached calls
  have funded : Funded machine.frame machine.waiting :=
    Funded.reaches (.root solvent) covers (.root (.refl root)) reached
  have charged := calls.charged (covers.covered _ _) funded.solvent
  have within := (calls.solvent funded.solvent).within
  have most := (calls.solvent funded.solvent).bounded
  omega

theorem gasLeft_of_completed {kind : CallKind} {price : Price}
    (bounded : HandsOnBounded environment (start root ledger)) (solvent : root.Solvent)
    (reached : Reaches environment (start root ledger) machine)
    (due : machine.frame.Due environment machine.ledger (.call kind) price)
    (completes : Completes environment machine (.call kind) later) :
    later.frame.gasLeft + price.own ≤
      machine.frame.gasLeft + machine.frame.stipend environment.config.fees (.call kind) := by
  have level := (allSolvent_of_reaches bounded solvent reached).solvent
  have within := level.within
  have used := (allSolvent_of_reaches bounded solvent (completes.reaches reached)).solvent.within
  obtain ⟨message, caller, calls⟩ : ∃ message caller,
      machine.frame.Calls environment machine.ledger kind price message caller := by
    have asks : Asks environment machine.frame machine.ledger (.call kind) := by
      cases completes with
      | atOnce asks => exact asks
      | child asks => exact asks
    cases asks with
    | call calls =>
        cases price_of_due due calls.due
        exact ⟨_, _, calls⟩
  have handsOn : HandsOn message.gas caller machine.waiting (machine.next environment) :=
    (sends_next machine.waiting calls).handsOn (calls.solvent level)
      (calls.fault.trans (level.goes due.runs))
      (bounded machine kind price message caller reached calls)
  obtain ⟨context, back⟩ :=
    returned_of_completed (nested_of_reaches reached) calls handsOn completes
  replace context := context.trans calls.continues.context
  rw [calls.gasUsed level, calls.message_gas, Price.total] at back
  rw [context] at used
  rw [Frame.gasLeft, Frame.gasLeft, Price.own, context]
  omega

/-- In every state of a run, whatever the fees, a call that has come to its end leaves its caller no
more gas than it had before, less what the call costs, plus the stipend if it sends a value. Where
the price of a call with a value covers the stipend, no caller has more gas behind a call than
before. -/
theorem call_adds_at_most_stipend {kind : CallKind} {price : Price} (solvent : root.Solvent)
    (reached : Reaches environment (start root ledger) machine)
    (due : machine.frame.Due environment machine.ledger (.call kind) price)
    (completes : Completes environment machine (.call kind) later) :
    (HandsOnBounded environment (start root ledger) →
      later.frame.gasLeft + price.own ≤
        machine.frame.gasLeft + machine.frame.stipend environment.config.fees (.call kind)) ∧
    (environment.config.fees.stipend ≤ environment.config.fees.call +
      environment.config.fees.valueTransfer →
      later.frame.gasLeft ≤ machine.frame.gasLeft) := by
  constructor
  · intro bounded
    exact gasLeft_of_completed bounded solvent reached due completes
  · intro covered
    have covers := covers_of_stipend covered
    have left :=
      gasLeft_of_completed (handsOnBounded_of_covers covers solvent) solvent reached due completes
    have work := covers.covered _ _ _ _ due rfl
    rw [Price.own] at left
    omega

end

-- Calls are free and have the usual stipend.
def freeCalls : Environment := { config := { fees := { call := 0, valueTransfer := 0 } } }

-- Code that sends one to the account at ten, with nothing to send.
def sendingFrame : Frame :=
  Frame.start #[0x60, 0, 0x60, 0, 0x60, 0, 0x60, 0, 0x60, 1, 0x60, 10, 0x60, 0, 0xf1]
    { address := 7, origin := 7, caller := 7, value := 0, data := #[], gas := 1000000,
      gasPrice := 1, block := {}, depth := 0, isStatic := false, transactionHash := 0 } 1024

def freePrice : Price := { work := 0 }

def beforeSending : Machine := (start sendingFrame {}).runFor freeCalls 7

theorem beforeSending_calls :
    beforeSending.frame.Calls freeCalls beforeSending.ledger .call freePrice
    (CallKind.message .call freeCalls freePrice.forwarded (beforeSending.frame.pay freePrice))
    (CallKind.reader .call (beforeSending.frame.pay freePrice)) := by
  have quoted : (beforeSending.frame.quote freeCalls.config.fees beforeSending.ledger).toOption =
      some (.call .call, freePrice) := by
    decide +kernel
  have due : beforeSending.frame.Due freeCalls beforeSending.ledger (.call .call) freePrice :=
    Frame.due_of_toOption (by decide +kernel) quoted
  refine ⟨due, ?_⟩
  rw [SiteAction.readMessage_eq freeCalls .call freePrice.forwarded due.enough]
  exact if_neg (by decide +kernel)

theorem beforeSending_completes :
    Completes freeCalls beforeSending (.call .call) (beforeSending.next freeCalls) := by
  have level : (beforeSending.next freeCalls).waiting.length = 0 := by decide +kernel
  have alone : beforeSending.waiting.length = 0 := by decide +kernel
  refine .atOnce (.call beforeSending_calls) ?_
  rw [List.length_eq_zero_iff.mp level, List.length_eq_zero_iff.mp alone]

/-- The run is that of one frame, which has no more to hand on than it was given. -/
theorem handsOnBounded_sendingFrame : HandsOnBounded freeCalls (start sendingFrame {}) := by
  intro machine kind price message caller reached calls
  have done : ((start sendingFrame {}).runFor freeCalls 9).finished = true := by decide +kernel
  have given : ∀ fuel ≤ 9, ((start sendingFrame {}).runFor freeCalls fuel).frame.context.gas =
      1000000 := by
    decide +kernel
  obtain ⟨fuel, within, same⟩ := runFor_within done reached
  have gas := given fuel within
  rw [same] at gas
  have covered := (Frame.quote_spec calls.due.quoted).2.2
  have stipend : machine.frame.stipend freeCalls.config.fees (.call kind) ≤ 2300 := by
    rw [Frame.stipend]
    split
    · exact Nat.zero_le _
    · exact Nat.le_refl _
  rw [Frame.gasLeft, Price.total, gas] at covered
  rw [calls.message_gas, Quantity.limit]
  omega

theorem sending_adds_at_most_stipend :
    HandsOnBounded freeCalls (start sendingFrame {}) ∧
    Completes freeCalls beforeSending (.call .call)
        (beforeSending.next freeCalls) ∧
      (beforeSending.next freeCalls).frame.gasLeft + freePrice.own ≤
        beforeSending.frame.gasLeft +
          beforeSending.frame.stipend freeCalls.config.fees (.call .call) ∧
      (((beforeCall.next {}).runFor {} 4).next {}).frame.gasLeft ≤ beforeCall.frame.gasLeft := by
  have sending : Reaches freeCalls (start sendingFrame {}) beforeSending :=
    runFor_reaches freeCalls 7 _
  have calling : Reaches {} (start callingFrame calledLedger) beforeCall := runFor_reaches {} 7 _
  have free :=
    call_adds_at_most_stipend (Frame.solvent_start _ _ (by decide)) sending beforeSending_calls.due
    beforeSending_completes
  have usual :=
    call_adds_at_most_stipend (Frame.solvent_start _ _ (by decide)) calling beforeCall_calls.due
    beforeCall_completes
  exact ⟨handsOnBounded_sendingFrame, beforeSending_completes, free.1 handsOnBounded_sendingFrame,
    usual.2 (by decide)⟩

/-- A call that is refused can leave its caller more gas than it had, under a configuration that is
accepted. -/
theorem gas_is_made_by_sending :
    freeCalls.config.validate = .ok () ∧ sendingFrame.Solvent ∧
    HandsOnBounded freeCalls (start sendingFrame {}) ∧
      Reaches freeCalls (start sendingFrame {}) beforeSending ∧
      Completes freeCalls beforeSending (.call .call) (beforeSending.next freeCalls) ∧
      beforeSending.frame.gasLeft < (beforeSending.next freeCalls).frame.gasLeft :=
  ⟨rfl, Frame.solvent_start _ _ (by decide), handsOnBounded_sendingFrame,
    runFor_reaches freeCalls 7 _, beforeSending_completes, by decide +kernel⟩

end ContractMachine.Machine
