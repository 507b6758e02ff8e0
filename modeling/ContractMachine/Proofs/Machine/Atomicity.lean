import ContractMachine.Proofs.Machine.Nesting

/-!
A call or creation that fails leaves no trace in the ledger. While a child and its own children run,
what lies below the child's checkpoint stays as it is (`above_of_stays`), so that the rollback at
the end gives back the ledger at the beginning; only the nonce of a creator has moved on before the
checkpoint.
-/

namespace ContractMachine.Machine

/-- The machine is at a frame with the frames `outer` waiting, or deeper, and nothing has changed
below the newest checkpoint of `base`. -/
def Above (outer : List Waiting) (base : Ledger) (machine : Machine) : Prop :=
  ∃ inner, machine.waiting = inner ++ outer ∧ machine.ledger.depth = base.depth + inner.length ∧
    machine.ledger.below (inner.length + 1) = base.below 1

theorem above_here (frame : Frame) (outer : List Waiting) (base : Ledger) :
    Above outer base ⟨frame, outer, base⟩ :=
  ⟨[], rfl, rfl, rfl⟩

theorem Walks.above {environment : Environment} {machine later : Machine} {outer : List Waiting}
    {base : Ledger} (walks : Walks environment machine later) (tracked : 0 < base.depth)
    (inside : outer.length ≤ later.waiting.length) (above : Above outer base machine) :
      Above outer base later := by
  obtain ⟨inner, waits, depth, below⟩ := above
  cases walks with
  | @level frame later waiting ledger after same keeps =>
      have checked : 0 < ledger.depth := by simp only at depth; omega
      exact ⟨inner, waits, keeps.depth.trans depth, (keeps.below checked inner.length).trans below⟩
  | @down frame parent child awaited waiting ledger after same room deeper bounded opens =>
      have checked : 0 < ledger.depth := by simp only at depth; omega
      -- One frame more waits above `outer`, and the checkpoint opened for it is one more to look
      -- past.
      refine ⟨⟨parent, awaited⟩ :: inner, congrArg (List.cons _) waits, ?_, ?_⟩
      · rw [opens.depth, List.length_cons]
        simp only at depth
        omega
      · exact (opens.below checked inner.length).trans below
  | @up child later parent waiting ledger after stopped same closes =>
      cases inner with
      | nil =>
          -- Coming up from here would leave fewer frames waiting than `outer` has.
          have short : waiting.length + 1 = outer.length := congrArg List.length waits
          simp only at inside
          omega
      | cons top inner =>
          have nested : 1 < ledger.depth := by simp only [List.length_cons] at depth; omega
          refine ⟨inner, (List.cons.inj waits).2, ?_, ?_⟩
          · rw [closes.depth]
            simp only [List.length_cons] at depth
            omega
          · exact (closes.below nested inner.length).trans below

inductive Stays (environment : Environment) (count : Nat) (first : Machine) : Machine → Prop where
  | here (inside : count < first.waiting.length) : Stays environment count first first
  | step {middle : Machine} (before : Stays environment count first middle)
      (inside : count < (middle.next environment).waiting.length) :
      Stays environment count first (middle.next environment)

section

variable {environment : Environment} {count : Nat} {first machine : Machine}

theorem Stays.inside (stays : Stays environment count first machine) :
    count < machine.waiting.length := by
  cases stays with
  | here inside => exact inside
  | step before inside => exact inside

theorem Stays.first_inside (stays : Stays environment count first machine) :
    count < first.waiting.length := by
  induction stays with
  | here inside => exact inside
  | step before inside ih => exact ih

theorem Stays.runs (stays : Stays environment count first machine) : machine.finished = false := by
  have waits := stays.inside
  cases waiting : machine.waiting with
  | nil => rw [waiting] at waits; cases waits
  | cons parent rest => simp [finished, waiting]

theorem Stays.reaches (stays : Stays environment count first machine) :
    Reaches environment first machine := by
  induction stays with
  | here inside => exact .here
  | step before inside ih => exact .step ih before.runs

theorem stays_runFor (fuel : Nat)
    (inside : ∀ steps ≤ fuel, count < (first.runFor environment steps).waiting.length) :
    Stays environment count first (first.runFor environment fuel) := by
  induction fuel with
  | zero => exact .here (inside 0 (Nat.le_refl 0))
  | succ fuel ih =>
      have before := ih fun steps within => inside steps (Nat.le_succ_of_le within)
      have last := inside (fuel + 1) (Nat.le_refl _)
      rw [runFor_succ] at last ⊢
      exact .step before last

theorem above_of_stays {root : Frame} {outer : List Waiting} {base : Ledger}
    (stays : Stays environment count first machine) (level : outer.length = count + 1)
    (tracked : 0 < base.depth) (nested : Nested environment root first.frame first.waiting)
    (above : Above outer base first) : Above outer base machine := by
  induction stays with
  | here inside => exact above
  | @step middle before inside ih =>
      have walks := walks_next (nested.reaches before.reaches) before.runs
      exact walks.above tracked (Nat.le_trans (Nat.le_of_eq level) inside) ih

/-- Back at the child it is the parent that waits, and no checkpoint below the newest has
changed. -/
theorem level_at_child {root : Frame} {waiting : List Waiting} {parent awaiting : Waiting}
    {last : Machine} (nested : Nested environment root first.frame first.waiting)
    (entered : first.waiting = parent :: waiting) (tracked : 0 < first.ledger.depth)
    (stays : Stays environment waiting.length first last)
    (back : last.waiting = awaiting :: waiting) :
    awaiting = parent ∧ last.ledger.depth = first.ledger.depth ∧
    last.ledger.below 1 = first.ledger.below 1 := by
  have here : Above (parent :: waiting) first.ledger first := ⟨[], entered, rfl, rfl⟩
  obtain ⟨inner, waits, depth, below⟩ := above_of_stays stays rfl tracked nested here
  -- As many frames wait as in the beginning, so that none waits in between.
  have level : inner = [] := by
    have counted := congrArg List.length (back.symm.trans waits)
    rw [List.length_append, List.length_cons, List.length_cons] at counted
    exact List.length_eq_zero_iff.mp (by omega)
  subst level
  exact ⟨(List.cons.inj (back.symm.trans waits)).1, depth, below⟩

/-- Below the child's checkpoint is then what was there when it was opened. -/
theorem back_at_child {root : Frame} {waiting : List Waiting} {parent awaiting : Waiting}
    {kept : Ledger} {last : Machine} (nested : Nested environment root first.frame first.waiting)
    (entered : first.waiting = parent :: waiting) (opened : kept.checkpoint.KeepsBelow first.ledger)
    (stays : Stays environment waiting.length first last)
    (back : last.waiting = awaiting :: waiting) :
    awaiting = parent ∧ 0 < last.ledger.depth ∧ last.ledger.below 1 = kept.checkpoint.below 1 := by
  have tracked : 0 < first.ledger.depth := by
    rw [opened.depth]
    exact Nat.succ_pos _
  obtain ⟨same, depth, below⟩ := level_at_child nested entered tracked stays back
  exact ⟨same, Nat.lt_of_lt_of_eq tracked depth.symm, below.trans (opened.below (Nat.succ_pos _) 0)⟩

theorem next_at_child {root : Frame} {waiting : List Waiting} {awaiting : Waiting} {last : Machine}
    (nested : Nested environment root last.frame last.waiting)
    (back : last.waiting = awaiting :: waiting) (stopped : last.frame.stopped = true) :
    last.next environment =
      ⟨(awaiting.awaited.answered environment last.frame.outcome awaiting.frame).advance, waiting,
        awaiting.awaited.closed environment last.frame.outcome last.ledger⟩ := by
  rw [back] at nested
  obtain ⟨frame, all, ledger⟩ := last
  have back : all = awaiting :: waiting := back
  subst back
  cases nested with
  | child outer room deeper bounded => exact next_stopped waiting stopped room

/-- After a child that fails it goes on with zero, and with the ledger from before the
checkpoint. -/
theorem next_of_failed_child {root : Frame} {waiting : List Waiting} {parent awaiting : Waiting}
    {kept : Ledger} {last : Machine} (nested : Nested environment root first.frame first.waiting)
    (entered : first.waiting = parent :: waiting) (opened : kept.checkpoint.KeepsBelow first.ledger)
    (stays : Stays environment waiting.length first last)
    (back : last.waiting = awaiting :: waiting) (stopped : last.frame.stopped = true)
    (failed : Awaited.Failed environment last.frame.outcome awaiting.awaited) :
    (last.next environment).waiting = waiting ∧ (last.next environment).ledger = kept ∧
      (last.next environment).frame.stack.words = 0 :: parent.frame.stack.words := by
  obtain ⟨same, tracked, below⟩ := back_at_child nested entered opened stays back
  -- Code may have been deployed before the rollback, but that is above the checkpoint too.
  have written := awaiting.awaited.writes_written environment last.frame.outcome last.ledger
  have restored : awaiting.awaited.closed environment last.frame.outcome last.ledger = kept := by
    rw [Awaited.closed, if_neg (ne_true_of_eq_false failed.final)]
    exact Ledger.rollback_of_below ((written.same_below tracked 0).trans below)
  have words := awaiting.awaited.words_answered environment last.frame.outcome awaiting.frame
  rw [if_neg (ne_true_of_eq_false failed.final), same] at words
  rw [next_at_child (nested.reaches stays.reaches) back stopped]
  refine ⟨rfl, restored, ?_⟩
  rw [← words, ← same]
  rfl

end

theorem above_of_reaches {environment : Environment} {root : Frame} {base : Ledger}
    {machine : Machine} (reached : Reaches environment (start root base) machine)
    (tracked : 0 < base.depth) : Above [] base machine := by
  induction reached with
  | here => exact above_here root [] base
  | step before runs ih =>
    exact (walks_next (nested_of_reaches before) runs).above tracked (Nat.zero_le _) ih

/-- A run that has ended leaves what lies below the checkpoint that it began in as it was. -/
theorem keeps_of_finished {environment : Environment} {root : Frame} {base : Ledger}
    {machine : Machine} (tracked : 0 < base.depth)
    (reached : Reaches environment (start root base) machine) (done : machine.finished = true) :
    base.KeepsBelow machine.ledger := by
  obtain ⟨inner, waits, depth, below⟩ := above_of_reaches reached tracked
  have level : inner = [] := by
    rw [List.append_nil] at waits
    exact waits.symm.trans (finished_iff.mp done).2
  subst level
  change machine.ledger.below 1 = base.below 1 at below
  refine ⟨depth, ?_⟩
  intro _ count
  have deeper := congrArg (fun ledger => ledger.below count) below
  rwa [Ledger.below_below, Ledger.below_below, Nat.add_comm 1 count] at deeper

/-- A run that begins in a checkpoint of its own, and is rolled back, leaves nothing. -/
theorem rollback_of_finished {environment : Environment} {root : Frame} {kept base : Ledger}
    {machine : Machine} (opened : kept.checkpoint.KeepsBelow base)
    (reached : Reaches environment (start root base) machine) (done : machine.finished = true) :
    machine.ledger.rollback = kept := by
  have tracked : 0 < base.depth := by
    rw [opened.depth]
    exact Nat.succ_pos _
  exact (opened.trans (keeps_of_finished tracked reached done)).rollback

inductive Asks (environment : Environment) (frame : Frame) (ledger : Ledger) : Opcode → Prop where
  | call {kind : CallKind} {price : Price} {message : Message} {caller : Frame}
      (calls : frame.Calls environment ledger kind price message caller) :
        Asks environment frame ledger (.call kind)
  | creation {price : Price} (creates : frame.Creates environment ledger price) :
      Asks environment frame ledger .create

/-- The call or creation that `before` is at comes to its end without success, at once or when its
child has stopped. -/
inductive Fails (environment : Environment) (before : Machine) : Opcode → Machine → Prop where
  | refusedCall {kind : CallKind} {price : Price} {message : Message} {caller : Frame}
      (calls : before.frame.Calls environment before.ledger kind price message caller)
      (refused : caller.Refused environment before.ledger message.value) :
      Fails environment before (.call kind) (before.next environment)
  | drained {kind : CallKind} {price : Price} {message : Message} {caller : Frame}
      {contract : Precompile}
      (calls : before.frame.Calls environment before.ledger kind price message caller)
      (found : environment.config.precompiles.find? message.codeAddress = some contract)
      (dear : message.gas < contract.price (message.input caller)) :
      Fails environment before (.call kind) (before.next environment)
  | refusedCreation {price : Price} (creates : before.frame.Creates environment before.ledger price)
      (refused : before.frame.Refused environment before.ledger (before.frame.operand 0)) :
      Fails environment before .create (before.next environment)
  | collided {price : Price} (creates : before.frame.Creates environment before.ledger price)
      (inUse : before.ledger.hasAccount (Creation.address before.frame before.ledger) = true) :
      Fails environment before .create (before.next environment)
  -- The child stops with a fault or a REVERT, or its code cannot be deployed.
  | child {op : Opcode} {last : Machine} {parent : Waiting}
      (asks : Asks environment before.frame before.ledger op)
      (stays : Stays environment before.waiting.length (before.next environment) last)
      (back : last.waiting = parent :: before.waiting) (stopped : last.frame.stopped = true)
      (failed : Awaited.Failed environment last.frame.outcome parent.awaited) :
      Fails environment before op (last.next environment)

structure Restores (before : Machine) (op : Opcode) (kept : Ledger) (after : Machine) : Prop where
  waiting : after.waiting = before.waiting
  ledger : after.ledger = kept
  words : after.frame.stack.words = 0 :: before.frame.stack.words.drop op.pops

section

variable {environment : Environment} {root frame caller : Frame} {waiting : List Waiting}
  {ledger : Ledger} {kind : CallKind} {price : Price} {message : Message} {later last : Machine}
  {parent : Waiting}

theorem Sends.restores_of_refused (sends : Sends environment message caller waiting ledger later)
    (calls : frame.Calls environment ledger kind price message caller)
    (refused : caller.Refused environment ledger message.value) :
    Restores ⟨frame, waiting, ledger⟩ (.call kind) ledger later := by
  cases sends with
  | refused _ read =>
      refine ⟨rfl, rfl, ?_⟩
      rcases read with rfl | rfl <;> exact congrArg (List.cons 0) calls.words
  | drained granted | delivered granted | overdrawn granted | passed granted | entered granted =>
      exact absurd refused granted

theorem Sends.restores_of_dear {contract : Precompile}
    (sends : Sends environment message caller waiting ledger later)
    (calls : frame.Calls environment ledger kind price message caller)
    (found : environment.config.precompiles.find? message.codeAddress = some contract)
    (dear : message.gas < contract.price (message.input caller)) :
    Restores ⟨frame, waiting, ledger⟩ (.call kind) ledger later := by
  cases sends with
  | refused refused read => exact Sends.restores_of_refused (.refused refused read) calls refused
  | drained granted known short => exact ⟨rfl, rfl, congrArg (List.cons 0) calls.words⟩
  | delivered granted known paid | overdrawn granted known paid =>
      rw [found] at known
      cases known
      exact absurd dear paid
  | passed granted known | entered granted known =>
      rw [found] at known
      cases known

/-- A call that goes down into a child leaves the caller waiting behind a checkpoint. -/
theorem Sends.enters (sends : Sends environment message caller waiting ledger later)
    (deeper : waiting.length < later.waiting.length) :
    ∃ parent, later.waiting = parent :: waiting ∧
      (∃ record, parent.awaited = .call message record) ∧
      parent.frame.stack.words = caller.stack.words ∧
      ledger.checkpoint.KeepsBelow later.ledger := by
  cases sends with
  | refused | drained | delivered | overdrawn | passed => exact absurd deeper (Nat.lt_irrefl _)
  | entered granted found code => exact ⟨_, rfl, ⟨_, rfl⟩, rfl, message.keeps_opened caller ledger⟩

theorem Sends.restores_of_child (sends : Sends environment message caller waiting ledger later)
    (calls : frame.Calls environment ledger kind price message caller)
    (nested : Nested environment root later.frame later.waiting)
    (stays : Stays environment waiting.length later last) (back : last.waiting = parent :: waiting)
    (stopped : last.frame.stopped = true)
    (failed : Awaited.Failed environment last.frame.outcome parent.awaited) :
    Restores ⟨frame, waiting, ledger⟩ (.call kind) ledger (last.next environment) := by
  obtain ⟨asking, entered, -, operands, opened⟩ := sends.enters stays.first_inside
  obtain ⟨same, restored, answered⟩ :=
    next_of_failed_child nested entered opened stays back stopped failed
  exact ⟨same, restored, answered.trans (congrArg (List.cons 0) (operands.trans calls.words))⟩

def keptByCreation (environment : Environment) (frame : Frame) (ledger : Ledger) : Ledger :=
  if frame.Refused environment ledger (frame.operand 0) then ledger
  else ledger.bumpNonce frame.owner

theorem Makes.restores_of_refused (makes : Makes environment (frame.pay price) waiting ledger later)
    (refused : frame.Refused environment ledger (frame.operand 0)) :
    Restores ⟨frame, waiting, ledger⟩ .create (keptByCreation environment frame ledger) later := by
  rw [keptByCreation, if_pos refused]
  cases makes with
  | refused _ => exact ⟨rfl, rfl, rfl⟩
  | collided granted | passed granted | entered granted => exact absurd refused granted

theorem Makes.restores_of_collision
    (makes : Makes environment (frame.pay price) waiting ledger later)
    (inUse : ledger.hasAccount (Creation.address frame ledger) = true) :
    Restores ⟨frame, waiting, ledger⟩ .create (keptByCreation environment frame ledger) later := by
  cases makes with
  | refused refused => exact Makes.restores_of_refused (.refused refused) refused
  | @collided granted inUse site settled =>
      have granted : ¬ frame.Refused environment ledger (frame.operand 0) := granted
      rw [keptByCreation, if_neg granted, settled]
      have failed : (SiteAction.deposited environment (Creation.asked (frame.pay price)).gas
          { fault := some (SiteAction.taken (Creation.address (frame.pay price) ledger))
            }).succeeded = false := rfl
      have restored :=
        SiteAction.ledger_settledAtOnce environment _ (Creation.creator (frame.pay price)) ledger
        failed
      have answered := SiteAction.words_settledAtOnce environment (Creation.asked (frame.pay price))
        { fault := some (SiteAction.taken (Creation.address (frame.pay price) ledger)) }
        (Creation.creator (frame.pay price)) ledger
      exact ⟨rfl, restored, answered⟩
  | passed granted free | entered granted free =>
      have free : ledger.hasAccount (Creation.address frame ledger) = false := free
      rw [free] at inUse
      cases inUse

theorem Makes.enters (makes : Makes environment frame waiting ledger later)
    (deeper : waiting.length < later.waiting.length) :
    ∃ parent, later.waiting = parent :: waiting ∧
      (∃ record gas, parent.awaited = .creation (Creation.address frame ledger) record gas) ∧
      parent.frame.stack.words = (Creation.reader frame).stack.words ∧
      (keptByCreation environment frame ledger).checkpoint.KeepsBelow later.ledger := by
  cases makes with
  | refused | collided | passed => exact absurd deeper (Nat.lt_irrefl _)
  | @entered granted free code creator ready creation asked =>
      subst ready
      rw [keptByCreation, if_neg granted]
      exact ⟨_, rfl, ⟨_, _, rfl⟩, rfl, creation.keeps_opened (Creation.creator frame) ledger⟩

theorem Makes.restores_of_child (makes : Makes environment (frame.pay price) waiting ledger later)
    (nested : Nested environment root later.frame later.waiting)
    (stays : Stays environment waiting.length later last) (back : last.waiting = parent :: waiting)
    (stopped : last.frame.stopped = true)
    (failed : Awaited.Failed environment last.frame.outcome parent.awaited) :
    Restores ⟨frame, waiting, ledger⟩ .create (keptByCreation environment frame ledger)
      (last.next environment) := by
  obtain ⟨asking, entered, -, operands, opened⟩ := makes.enters stays.first_inside
  obtain ⟨same, restored, answered⟩ :=
    next_of_failed_child nested entered opened stays back stopped failed
  exact ⟨same, restored, answered.trans (congrArg (List.cons 0) operands)⟩

def keptByFailure (environment : Environment) (before : Machine) : Opcode → Ledger
  | .create => keptByCreation environment before.frame before.ledger
  | _ => before.ledger

theorem Fails.restores {before after : Machine} {op : Opcode}
    (fails : Fails environment before op after)
    (nested : Nested environment root before.frame before.waiting) :
    Restores before op (keptByFailure environment before op) after := by
  obtain ⟨frame, waiting, ledger⟩ := before
  cases fails with
  | refusedCall calls refused => exact (sends_next waiting calls).restores_of_refused calls refused
  | drained calls found dear => exact (sends_next waiting calls).restores_of_dear calls found dear
  | refusedCreation creates refused =>
    exact (makes_next waiting creates).restores_of_refused refused
  | collided creates inUse => exact (makes_next waiting creates).restores_of_collision inUse
  | child asks stays back stopped failed =>
      cases asks with
      | call calls =>
          have inside := nested_next nested calls.due.runs ledger
          exact (sends_next waiting calls).restores_of_child calls inside stays back stopped failed
      | creation creates =>
          have inside := nested_next nested creates.due.runs ledger
          exact (makes_next waiting creates).restores_of_child inside stays back stopped failed

theorem slot?_keptByFailure (before : Machine) (op : Opcode) (address : Address) (key : Word) :
    (keptByFailure environment before op).slot? address key = before.ledger.slot? address key := by
  cases op with
  | create =>
      simp only [keptByFailure, keptByCreation]
      split
      · rfl
      · exact Ledger.slot?_update before.ledger before.frame.owner address _ key
  | _ => rfl

theorem account?_keptByFailure (before : Machine) (op : Opcode) (address : Address) :
    (keptByFailure environment before op).account? address =
      if op = .create ∧ ¬ before.frame.Refused environment before.ledger (before.frame.operand 0) ∧
          address = before.frame.owner then
        some { (before.ledger.account? address).getD {} with
          nonce := Ledger.nextNonce (before.ledger.nonce address) }
      else before.ledger.account? address := by
  cases op with
  | create =>
      simp only [keptByFailure, keptByCreation]
      by_cases refused : before.frame.Refused environment before.ledger (before.frame.operand 0)
      · simp [refused]
      · have bumped :=
          Ledger.account?_update before.ledger before.frame.owner address fun account =>
          { account with nonce := Ledger.nextNonce account.nonce }
        by_cases owner : address = before.frame.owner
        · simp only [refused, owner, if_true, if_false, not_false_eq_true, and_self] at bumped ⊢
          exact bumped
        · simp only [refused, owner, if_false, and_false] at bumped ⊢
          exact bumped
  | _ => rfl

inductive Completes (environment : Environment) (before : Machine) (op : Opcode) :
    Machine → Prop where
  | atOnce (asks : Asks environment before.frame before.ledger op)
      (level : (before.next environment).waiting = before.waiting) :
      Completes environment before op (before.next environment)
  | child {last : Machine} {parent : Waiting}
      (asks : Asks environment before.frame before.ledger op)
      (stays : Stays environment before.waiting.length (before.next environment) last)
      (back : last.waiting = parent :: before.waiting) (stopped : last.frame.stopped = true) :
      Completes environment before op (last.next environment)

structure AnsweredZero (frame : Frame) : Prop where
  goes : frame.outcome.fault = none
  zero : frame.stack.words.head? = some 0

theorem Sends.fails_of_zero (sends : Sends environment message caller waiting ledger later)
    (level : later.waiting = waiting) (answered : AnsweredZero later.frame) :
    caller.Refused environment ledger message.value ∨
      ∃ contract, environment.config.precompiles.find? message.codeAddress = some contract ∧
        message.gas < contract.price (message.input caller) := by
  cases sends with
  | refused refused read => exact .inl refused
  | drained granted found dear => exact .inr ⟨_, found, dear⟩
  | @delivered contract granted found paid later ran =>
      have words : later.stack.words = 1 :: caller.stack.words := by
        rw [SiteAction.stack_of_deliver ran]
        rfl
      have zero : later.stack.words.head? = some 0 := answered.zero
      rw [words] at zero
      exact absurd (Option.some.inj zero) (by decide)
  | overdrawn granted found paid ran => cases answered.goes
  | passed granted found empty => exact absurd (Option.some.inj answered.zero) (by decide)
  | entered granted found code =>
      have longer := congrArg List.length level
      simp only [List.length_cons] at longer
      omega

theorem Makes.fails_of_zero (makes : Makes environment frame waiting ledger later)
    (level : later.waiting = waiting) (answered : AnsweredZero later.frame) :
    frame.Refused environment ledger (frame.operand 0) ∨
      ledger.hasAccount (Creation.address frame ledger) = true ∨
        Word.ofAddress (Creation.address frame ledger) = 0 := by
  cases makes with
  | refused refused => exact .inl refused
  | collided granted inUse settled => exact .inr (.inl inUse)
  | @passed granted free empty site settled =>
      have zero : site.frame.stack.words.head? = some 0 := answered.zero
      rw [settled, SiteAction.words_settledAtOnce_empty] at zero
      exact .inr (.inr (Option.some.inj zero))
  | entered granted free code =>
      have longer := congrArg List.length level
      simp only [List.length_cons] at longer
      omega

theorem failed_of_zero {awaiting : Waiting} {last : Machine}
    (nested : Nested environment root last.frame last.waiting)
    (back : last.waiting = awaiting :: waiting) (stopped : last.frame.stopped = true)
    (success : awaiting.awaited.success ≠ 0)
    (answered : AnsweredZero (last.next environment).frame) :
    Awaited.Failed environment last.frame.outcome awaiting.awaited := by
  apply Awaited.failed_of_final
  have words := awaiting.awaited.words_answered environment last.frame.outcome awaiting.frame
  have zero := answered.zero
  rw [next_at_child nested back stopped] at zero
  replace zero := (congrArg List.head? words).symm.trans zero
  cases succeeded : (awaiting.awaited.final environment last.frame.outcome).succeeded with
  | false => rfl
  | true =>
      rw [succeeded] at zero
      exact absurd (Option.some.inj zero) success

/-- A call or creation that ends with zero for its answer is one that fails, if the address zero is
left out as that of a new contract. -/
theorem fails_of_zero {before after : Machine} {op : Opcode}
    (reached : Reaches environment (start root ledger) before)
    (completes : Completes environment before op after) (answered : AnsweredZero after.frame)
    (visible : op = .create → Word.ofAddress (Creation.address before.frame before.ledger) ≠ 0) :
    Fails environment before op after := by
  have nested := nested_of_reaches reached
  obtain ⟨frame, waiting, ledger⟩ := before
  cases completes with
  | atOnce asks level =>
      cases asks with
      | call calls =>
          rcases (sends_next waiting calls).fails_of_zero level
            answered with refused | ⟨contract, found, dear⟩
          · exact .refusedCall calls refused
          · exact .drained calls found dear
      | creation creates =>
          rcases (makes_next waiting creates).fails_of_zero level
            answered with refused | inUse | zero
          · exact .refusedCreation creates refused
          · exact .collided creates inUse
          · exact absurd zero (visible rfl)
  | @child last parent asks stays back stopped =>
      refine .child asks stays back stopped ?_
      cases asks with
      | call calls =>
          have first := nested_next nested calls.due.runs ledger
          obtain ⟨asking, entered, ⟨record, awaited⟩, -, opened⟩ :=
            (sends_next waiting calls).enters stays.first_inside
          obtain ⟨same, -, -⟩ := back_at_child first entered opened stays back
          refine failed_of_zero (first.reaches stays.reaches) back stopped ?_ answered
          rw [same, awaited]
          exact (by decide : (1 : Word) ≠ 0)
      | creation creates =>
          have first := nested_next nested creates.due.runs ledger
          obtain ⟨asking, entered, ⟨record, gas, awaited⟩, -, opened⟩ :=
            (makes_next waiting creates).enters stays.first_inside
          obtain ⟨same, -, -⟩ := back_at_child first entered opened stays back
          refine failed_of_zero (first.reaches stays.reaches) back stopped ?_ answered
          rw [same, awaited]
          exact visible rfl

/-- In every state of a run, a call or creation that comes to its end with zero for its answer has
failed in one of the ways in which it can, the address zero apart as that of a new contract. One
that fails pushes zero and leaves every account and every slot as it was, except that the nonce of a
creator has moved on once the creation was granted. -/
theorem failed_call_leaves_ledger {before after : Machine} {op : Opcode}
    (reached : Reaches environment (start root ledger) before) :
    (Completes environment before op after → AnsweredZero after.frame →
      (op = .create → Word.ofAddress (Creation.address before.frame before.ledger) ≠ 0) →
        Fails environment before op after) ∧
    (Fails environment before op after →
      after.waiting = before.waiting ∧
      after.frame.stack.words = 0 :: before.frame.stack.words.drop op.pops ∧
      (∀ address key, after.ledger.slot? address key = before.ledger.slot? address key) ∧
      (∀ address, after.ledger.account? address =
        if op = .create ∧
          ¬ before.frame.Refused environment before.ledger (before.frame.operand 0) ∧
            address = before.frame.owner then
          some { (before.ledger.account? address).getD {} with
            nonce := Ledger.nextNonce (before.ledger.nonce address) }
        else before.ledger.account? address)) := by
  refine ⟨fails_of_zero reached, fun fails => ?_⟩
  have restores := fails.restores (nested_of_reaches reached)
  refine ⟨restores.waiting, restores.words, ?slots, ?accounts⟩
  case slots =>
    intro address key
    rw [restores.ledger, slot?_keptByFailure]
  case accounts =>
    intro address
    rw [restores.ledger, account?_keptByFailure]

end

def beforeCall : Machine := (start callingFrame calledLedger).runFor {} 7

def callPrice : Price := { work := 700, forwarded := 65535 }

theorem beforeCall_calls : beforeCall.frame.Calls {} beforeCall.ledger .call callPrice
    (CallKind.message .call {} 65535 (beforeCall.frame.pay callPrice))
    (CallKind.reader .call (beforeCall.frame.pay callPrice)) := by
  have quoted :
      (beforeCall.frame.quote {} beforeCall.ledger).toOption = some (.call .call, callPrice) := by
    decide +kernel
  have due : beforeCall.frame.Due {} beforeCall.ledger (.call .call) callPrice :=
    Frame.due_of_toOption (by decide +kernel) quoted
  refine ⟨due, ?_⟩
  rw [SiteAction.readMessage_eq {} .call callPrice.forwarded due.enough]
  exact if_neg (by decide +kernel)

theorem failed_call_leaves_called_ledger :
    Reaches {} (start callingFrame calledLedger) beforeCall ∧
    Completes {} beforeCall (.call .call) (((beforeCall.next {}).runFor {} 4).next {}) ∧
    AnsweredZero (((beforeCall.next {}).runFor {} 4).next {}).frame ∧
    Fails {} beforeCall (.call .call) (((beforeCall.next {}).runFor {} 4).next {}) ∧
    (((beforeCall.next {}).runFor {} 4).next {}).ledger.slot? 10 1 =
      beforeCall.ledger.slot? 10 1 := by
  have reached := runFor_reaches {} 7 (start callingFrame calledLedger)
  have stays : Stays {} 0 (beforeCall.next {}) ((beforeCall.next {}).runFor {} 4) :=
    stays_runFor 4 (by decide +kernel)
  have completes :
      Completes {} beforeCall (.call .call) (((beforeCall.next {}).runFor {} 4).next {}) := by
    obtain ⟨parent, waits⟩ : ∃ parent, ((beforeCall.next {}).runFor {} 4).waiting = [parent] :=
      List.length_eq_one_iff.mp (by decide +kernel)
    exact .child (.call beforeCall_calls) stays waits (by decide +kernel)
  have answered : AnsweredZero (((beforeCall.next {}).runFor {} 4).next {}).frame :=
    ⟨by decide +kernel, by decide +kernel⟩
  obtain ⟨failing, leaves⟩ :=
    @failed_call_leaves_ledger {} callingFrame calledLedger beforeCall
      (((beforeCall.next {}).runFor {} 4).next {}) (.call .call) reached
  have fails := failing completes answered (fun creation => absurd creation (by decide))
  exact ⟨reached, completes, answered, fails, (leaves fails).2.2.1 10 1⟩

end ContractMachine.Machine
