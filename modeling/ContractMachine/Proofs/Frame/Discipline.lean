import ContractMachine.Proofs.Frame.Operand

/-!
What instructions do to the stack. The arity that is checked beforehand is what an instruction takes
off and puts on: behind the check neither its price nor its work fails for want of words or room,
and the words under its operands stay as they are. Other faults may end it, and then the stack has
not outgrown its limit either.
-/

namespace ContractMachine

def Fault.isOfStack : Fault → Bool
  | .stackUnderflow _ _ | .stackOverflow _ _ => true
  | _ => false

namespace Stack

structure Within (before after : Stack) : Prop where
  limit : after.limit = before.limit
  size : after.size ≤ max before.size before.limit

/-- A stack that an instruction leaves: its operands are off, its results on, and what was below is
below. A DUP puts on a copy of the word it reaches for, a SWAP exchanges that with the topmost. -/
structure Served (op : Opcode) (before after : Stack) : Prop where
  limit : after.limit = before.limit
  size : after.size = before.size - op.pops + op.pushes
  bounded : after.size ≤ after.limit
  below : after.words.drop op.pushes = before.words.drop op.pops
  copied : ∀ index, op = .dup index →
    ∃ word, before.words[index.val]? = some word ∧ after.words = word :: before.words
  exchanged : ∀ index, op = .swap index →
    ∃ top deep, before.words[0]? = some top ∧ before.words[index.val + 1]? = some deep ∧
      ∀ i, after.words[i]? =
        if i = 0 then some deep else if i = index.val + 1 then some top else before.words[i]?

def without (stack : Stack) (count : Nat) : Stack := { stack with words := stack.words.drop count }

theorem Within.refl (stack : Stack) : stack.Within stack := ⟨rfl, Nat.le_max_left _ _⟩

theorem Within.trans {first second third : Stack} (before : first.Within second)
    (after : second.Within third) : first.Within third := by
  have limit := before.limit
  have size := before.size
  have later := after.size
  exact ⟨after.limit.trans limit, by omega⟩

theorem Within.fits {before after : Stack} (within : before.Within after)
    (fit : before.size ≤ before.limit) : after.size ≤ after.limit := by
  have limit := within.limit
  have size := within.size
  omega

theorem Served.within {op : Opcode} {before after : Stack} (served : before.Served op after) :
    before.Within after := by
  have limit := served.limit
  have bounded := served.bounded
  exact ⟨limit, by omega⟩

variable {stack : Stack}

theorem size_without (stack : Stack) (count : Nat) :
    (stack.without count).size = stack.size - count :=
  List.length_drop

theorem within_without (stack : Stack) (count : Nat) : stack.Within (stack.without count) := by
  refine ⟨rfl, ?_⟩
  rw [size_without]
  omega

section

variable {op : Opcode} {after : Stack} (fit : stack.checkArity op.pops op.pushes = .ok ())
include fit

/-- An instruction that puts words of its own in the place of its operands. -/
theorem served_of_results {results : List Word} (limit : after.limit = stack.limit)
    (words : after.words = results ++ stack.words.drop op.pops) (count : results.length = op.pushes)
    (noCopy : ∀ index, op ≠ .dup index) (noExchange : ∀ index, op ≠ .swap index) :
      stack.Served op after := by
  obtain ⟨enough, room⟩ := (stack.checkArity_eq_ok_iff _ _).mp fit
  have size : after.size = stack.size - op.pops + op.pushes := by
    rw [Stack.size, words, List.length_append, List.length_drop, count, Nat.add_comm]
    rfl
  refine ⟨limit, size, by omega, ?below, ?copied, ?exchanged⟩
  case below => rw [words, ← count, List.drop_left]
  case copied =>
    intro index same
    exact absurd same (noCopy index)
  case exchanged =>
    intro index same
    exact absurd same (noExchange index)

theorem served_of_drop (none : op.pushes = 0) (limit : after.limit = stack.limit)
    (words : after.words = stack.words.drop op.pops) : stack.Served op after := by
  have results : after.words = [] ++ stack.words.drop op.pops := words
  refine served_of_results fit limit results none.symm ?noCopy ?noExchange <;> rintro index rfl <;>
    cases none

theorem served_of_put {word : Word} (one : op.pushes = 1) (limit : after.limit = stack.limit)
    (words : after.words = word :: stack.words.drop op.pops) : stack.Served op after := by
  have results : after.words = [word] ++ stack.words.drop op.pops := words
  refine served_of_results fit limit results one.symm ?noCopy ?noExchange <;> rintro index rfl <;>
    cases one

end

end Stack

namespace FrameAction

variable {α β : Type} {stack middle : Stack} {done : Stack → Prop}

/-- From any frame with the stack, the action comes to a stack as said or ends in a fault that is
not of the stack. -/
def Turns (action : FrameAction α) (stack : Stack) (done : Stack → Prop) : Prop :=
  ∀ frame : Frame, frame.stack = stack →
    match action frame with
    | .ok _ later => done later.stack ∧ stack.Within later.stack
    | .error fault later => fault.isOfStack = false ∧ stack.Within later.stack

theorem Turns.bind {action : FrameAction α} {next : α → FrameAction β} {between : Stack → Prop}
    (first : action.Turns stack between)
    (second : ∀ value middle, between middle → (next value).Turns middle done) :
      (action >>= next).Turns stack done := by
  intro frame same
  have ran := first frame same
  rw [bind_apply]
  cases result : action frame with
  | error fault later =>
      rw [result] at ran
      exact ran
  | ok value later =>
      rw [result] at ran
      obtain ⟨met, within⟩ := ran
      have rest := second value later.stack met later rfl
      cases ended : next value later with
      | ok value last =>
          simp only [ended] at rest ⊢
          exact ⟨rest.1, within.trans rest.2⟩
      | error fault last =>
          simp only [ended] at rest ⊢
          exact ⟨rest.1, within.trans rest.2⟩

/-- Behind an action that leaves one stack only. -/
theorem Turns.behind {action : FrameAction α} {next : α → FrameAction β}
    (first : action.Turns stack (Eq middle)) (second : ∀ value, (next value).Turns middle done) :
    (action >>= next).Turns stack done := by
  refine first.bind fun value later same => ?_
  rw [← same]
  exact second value

theorem turns_pure (value : α) (met : done stack) :
    (pure value : FrameAction α).Turns stack done := by
  rintro frame rfl
  exact ⟨met, .refl _⟩

theorem turns_throw {fault : Fault} (other : fault.isOfStack = false) :
    (throw fault : FrameAction α).Turns stack done := by
  rintro frame rfl
  exact ⟨other, .refl _⟩

theorem turns_reads (view : Frame → α) (met : done stack) : (reads view).Turns stack done := by
  rintro frame rfl
  exact ⟨met, .refl _⟩

theorem turns_withMemory (change : Memory → α × Memory) (met : done stack) :
    (withMemory change).Turns stack done := by
  rintro frame rfl
  exact ⟨met, .refl _⟩

theorem turns_update {change : Frame → α × Frame}
    (still : ∀ frame, (change frame).2.stack = frame.stack) (met : done stack) :
    (update change).Turns stack done := by
  rintro frame rfl
  change done (change frame).2.stack ∧ frame.stack.Within (change frame).2.stack
  rw [still]
  exact ⟨met, .refl _⟩

theorem turns_fetch (size : Nat) (met : done stack) :
    (update fun frame => frame.fetch size).Turns stack done :=
  turns_update (fun _ => rfl) met

theorem turns_modify {change : Frame → Frame} (still : ∀ frame, (change frame).stack = frame.stack)
    (met : done stack) :
    (modify change : FrameAction PUnit).Turns stack done := by
  rintro frame rfl
  change done (change frame).stack ∧ frame.stack.Within (change frame).stack
  rw [still]
  exact ⟨met, .refl _⟩

theorem turns_withStack {change : Stack → Except Fault Stack} {after : Stack}
    (changed : change stack = .ok after) (met : done after) (within : stack.Within after) :
    (withStack change).Turns stack done := by
  rintro frame rfl
  simp only [withStack, changed]
  exact ⟨met, within⟩

theorem turns_pop {count : Nat} (enough : count < stack.size) :
    pop.Turns (stack.without count) (Eq (stack.without (count + 1))) := by
  intro frame same
  have inside : count < stack.words.length := enough
  have popped : frame.stack.pop = .ok (stack.words[count], stack.without (count + 1)) := by
    simp only [same, Stack.pop, Stack.without, List.drop_eq_getElem_cons inside]
  have within : (stack.without count).Within (stack.without (count + 1)) := by
    refine ⟨rfl, ?_⟩
    rw [Stack.size_without, Stack.size_without]
    omega
  simp only [pop, popped]
  exact ⟨trivial, within⟩

theorem turns_popMany {count more : Nat} (enough : count + more ≤ stack.size) :
    (popMany more).Turns (stack.without count) (Eq (stack.without (count + more))) := by
  induction more generalizing count with
  | zero => exact turns_pure [] rfl
  | succ more ih =>
      have moved : count + 1 + more = count + (more + 1) := by omega
      have rest :
          (popMany more).Turns (stack.without (count + 1))
          (Eq (stack.without (count + 1 + more))) :=
        ih (by omega)
      rw [moved] at rest
      exact (turns_pop (by omega)).behind fun _ => rest.behind fun _ => turns_pure _ rfl

theorem turns_popWindow {count : Nat} (enough : count + 1 < stack.size) :
    popWindow.Turns (stack.without count) (Eq (stack.without (count + 2))) :=
  (turns_pop (by omega)).behind fun _ => (turns_pop enough).behind fun _ => turns_withMemory _ rfl

theorem turns_ensureMutable (met : done stack) : ensureMutable.Turns stack done := by
  refine (turns_reads _ rfl).behind fun static => ?_
  cases static with
  | true => exact turns_throw rfl
  | false => exact turns_pure _ met

theorem turns_advance (met : done stack) : FrameAction.advance.Turns stack done :=
  turns_modify (fun _ => rfl) met

theorem Turns.advance {action : FrameAction Unit} (turns : action.Turns stack done) :
    (action >>= fun _ => FrameAction.advance).Turns stack done :=
  turns.bind fun _ _ met => turns_advance met

section

variable {op : Opcode} (fit : stack.checkArity op.pops op.pushes = .ok ())
include fit

/-- The result goes on once all operands are off. -/
theorem turns_push (one : op.pushes = 1) (word : Word) :
    (push word).Turns (stack.without op.pops) (stack.Served op) := by
  obtain ⟨enough, room⟩ := (stack.checkArity_eq_ok_iff _ _).mp fit
  have small : (stack.without op.pops).size < (stack.without op.pops).limit := by
    rw [Stack.size_without]
    change stack.size - op.pops < stack.limit
    omega
  have pushed : (stack.without op.pops).push word =
      .ok { stack.without op.pops with words := word :: stack.words.drop op.pops } := if_pos small
  have served :
      stack.Served op { stack.without op.pops with words := word :: stack.words.drop op.pops } :=
    Stack.served_of_put fit one rfl rfl
  have within :
      (stack.without op.pops).Within
      { stack.without op.pops with words := word :: stack.words.drop op.pops } := by
    refine ⟨rfl, ?_⟩
    change (stack.without op.pops).size + 1 ≤ _
    omega
  exact turns_withStack pushed served within

theorem served_without (none : op.pushes = 0) : stack.Served op (stack.without op.pops) :=
  Stack.served_of_drop fit none rfl rfl

end

theorem turns_copyWindow {count : Nat} (source : Frame → Bytes) (enough : count + 2 < stack.size)
    (met : done (stack.without (count + 3))) :
      (copyWindow source).Turns (stack.without count) done :=
  (turns_pop (by omega)).behind fun _ => (turns_pop (by omega)).behind fun _ =>
    (turns_pop enough).behind fun _ =>
    (turns_reads _ rfl).behind fun _ => turns_withMemory _ met

theorem turns_copyCallData (enough : 2 < stack.size) (met : done (stack.without 3)) :
    copyCallData.Turns (stack.without 0) done :=
  (turns_pop (by omega)).behind fun _ => (turns_pop (by omega)).behind fun _ =>
    (turns_pop enough).behind fun _ =>
    (turns_reads _ rfl).behind fun _ => turns_withMemory _ met

theorem turns_copyReturned (enough : 2 < stack.size) (met : done (stack.without 3)) :
    copyReturned.Turns (stack.without 0) done := by
  refine (turns_pop (by omega)).behind fun _ => (turns_pop (by omega)).behind fun _ =>
    (turns_pop enough).behind fun _ =>
    (turns_reads _ rfl).behind fun _ => ?_
  split
  · exact (turns_throw rfl).behind fun _ => (turns_reads _ rfl).behind fun _ =>
      turns_withMemory _ met
  · exact (turns_reads _ rfl).behind fun _ => turns_withMemory _ met

theorem isOfStack_jumpTarget {frame : Frame} {destination : Word} {fault : Fault}
    (missed : frame.jumpTarget destination = .error fault) : fault.isOfStack = false := by
  unfold Frame.jumpTarget at missed
  split at missed
  · cases missed
    rfl
  · split at missed <;> cases missed
    rfl

theorem turns_jumpTo (destination : Word) (met : done stack) :
    (jumpTo destination).Turns stack done := by
  rintro frame rfl
  unfold jumpTo
  cases target : frame.jumpTarget destination with
  | ok pc => exact ⟨met, .refl _⟩
  | error fault => exact ⟨isOfStack_jumpTarget target, .refl _⟩

theorem turns_log (environment : Environment) (ledger : Ledger) (topics : Fin 5)
    (fit : stack.checkArity (Opcode.log topics).pops (Opcode.log topics).pushes = .ok ()) :
    (compute environment ledger (.log topics)).Turns (stack.without 0)
      (stack.Served (.log topics)) := by
  have enough := ((stack.checkArity_eq_ok_iff _ _).mp fit).1
  simp only [Opcode.pops] at enough
  have operands : 0 + 1 + 1 + topics.val = (Opcode.log topics).pops := by
    simp only [Opcode.pops]
    omega
  have words : (popMany topics.val).Turns (stack.without (0 + 1 + 1))
      (Eq (stack.without (0 + 1 + 1 + topics.val))) := turns_popMany (by omega)
  rw [operands] at words
  exact (turns_ensureMutable rfl).behind fun _ => (turns_pop (by omega)).behind fun _ =>
    (turns_pop (by omega)).behind fun _ => words.behind fun _ =>
      (turns_withMemory _ rfl).behind fun _ =>
      (turns_reads _ rfl).behind fun _ => turns_modify (fun _ => rfl) (served_without fit rfl)

/-- A copy goes on top of the stack as it is. -/
theorem turns_dup (environment : Environment) (ledger : Ledger) (index : Fin 16)
    (fit : stack.checkArity (Opcode.dup index).pops (Opcode.dup index).pushes = .ok ()) :
    (compute environment ledger (.dup index)).Turns stack (stack.Served (.dup index)) := by
  obtain ⟨enough, room⟩ := (stack.checkArity_eq_ok_iff _ _).mp fit
  simp only [Opcode.pops, Opcode.pushes] at enough room
  have inside : index.val < stack.words.length := enough
  have copy : stack.words[index.val]? = some stack.words[index.val] :=
    List.getElem?_eq_getElem inside
  have small : stack.size < stack.limit := by omega
  have put :
      stack.dup index.val = .ok { stack with words := stack.words[index.val] :: stack.words } := by
    simp [Stack.dup, Stack.get, copy, Stack.push, small, bind, Except.bind]
  have size : Stack.size { stack with words := stack.words[index.val] :: stack.words } =
    stack.size + 1 := rfl
  have served :
      stack.Served (.dup index) { stack with words := stack.words[index.val] :: stack.words } := by
    refine ⟨rfl, ?size, ?bounded, rfl, ?copied, ?exchanged⟩
    case size =>
      simp only [Opcode.pops, Opcode.pushes]
      omega
    case bounded =>
      rw [size]
      exact small
    case copied =>
      rintro reached same
      cases same
      exact ⟨_, copy, rfl⟩
    case exchanged =>
      rintro reached same
      cases same
  change (withStack fun stack => stack.dup index.val).Turns stack _
  exact turns_withStack put served served.within

theorem turns_swap (environment : Environment) (ledger : Ledger) (index : Fin 16)
    (fit : stack.checkArity (Opcode.swap index).pops (Opcode.swap index).pushes = .ok ()) :
    (compute environment ledger (.swap index)).Turns stack (stack.Served (.swap index)) := by
  obtain ⟨enough, room⟩ := (stack.checkArity_eq_ok_iff _ _).mp fit
  simp only [Opcode.pops, Opcode.pushes] at enough room
  have deepInside : index.val + 1 < stack.words.length := enough
  have topInside : 0 < stack.words.length := by omega
  have top : stack.words[0]? = some stack.words[0] := List.getElem?_eq_getElem topInside
  have deep : stack.words[index.val + 1]? = some stack.words[index.val + 1] :=
    List.getElem?_eq_getElem deepInside
  let exchanged : Stack :=
    { stack with
      words := (stack.words.set 0 stack.words[index.val + 1]).set (index.val + 1) stack.words[0] }
  have put : stack.swap 0 (index.val + 1) = .ok exchanged := by
    simp [Stack.swap, top, deep, exchanged]
  have size : exchanged.size = stack.size := by simp [exchanged, Stack.size]
  have served : stack.Served (.swap index) exchanged := by
    refine ⟨rfl, ?size, ?bounded, ?below, ?copied, ?exchanged⟩
    case size =>
      simp only [Opcode.pops, Opcode.pushes]
      omega
    case bounded =>
      rw [size]
      change stack.size ≤ stack.limit
      omega
    case below =>
      simp only [Opcode.pops, Opcode.pushes, exchanged]
      rw [List.drop_set_of_lt (by omega), List.drop_set_of_lt (by omega)]
    case copied =>
      rintro reached same
      cases same
    case exchanged =>
      rintro reached same
      cases same
      refine ⟨_, _, top, deep, ?_⟩
      intro i
      simp only [exchanged, List.getElem?_set, List.length_set]
      grind
  change (withStack fun stack => stack.swap 0 (index.val + 1)).Turns stack _
  exact turns_withStack put served served.within

/-- Where there is nothing to extend, the second operand is the result. -/
theorem served_signExtend
    (fit : stack.checkArity Opcode.signExtend.pops Opcode.signExtend.pushes = .ok ()) :
    stack.Served .signExtend (stack.without 1) := by
  obtain ⟨enough, room⟩ := (stack.checkArity_eq_ok_iff _ _).mp fit
  simp only [Opcode.pops, Opcode.pushes] at enough room
  have inside : 1 < stack.words.length := enough
  exact Stack.served_of_put fit rfl rfl (List.drop_eq_getElem_cons inside)

/-- An instruction that concerns the frame only. -/
theorem turns_perform (environment : Environment) (ledger : Ledger) {op : Opcode}
    (fit : stack.checkArity op.pops op.pushes = .ok ()) (noCreation : op ≠ .create)
    (noCall : ∀ kind, op ≠ .call kind) (noRemoval : op ≠ .suicide) (noStore : op ≠ .sstore) :
    (perform environment ledger op).Turns (stack.without 0) (stack.Served op) := by
  have enough := ((stack.checkArity_eq_ok_iff _ _).mp fit).1
  -- Each case reads off the turns in the order in which the instruction takes them: the operands,
  -- what is done with them, and what is pushed.
  cases op with
  | create => exact absurd rfl noCreation
  | call kind => exact absurd rfl (noCall kind)
  | suicide => exact absurd rfl noRemoval
  | sstore => exact absurd rfl noStore
  | stop => exact turns_modify (fun _ => rfl) (served_without fit rfl)
  | jumpDest => exact Turns.advance (turns_pure _ (served_without fit rfl))
  | push index =>
      exact (turns_advance rfl).behind fun _ => (turns_fetch _ rfl).behind fun _ =>
        turns_push fit rfl _
  | reading what => exact Turns.advance <| (turns_reads _ rfl).behind fun _ => turns_push fit rfl _
  | dup index => exact Turns.advance (turns_dup environment ledger index fit)
  | swap index => exact Turns.advance (turns_swap environment ledger index fit)
  | log topics => exact Turns.advance (turns_log environment ledger topics fit)
  | pop =>
    exact Turns.advance <| (turns_pop enough).behind fun _ => turns_pure _ (served_without fit rfl)
  | jump => exact (turns_pop enough).behind fun _ => turns_jumpTo _ (served_without fit rfl)
  | unary | balance | extCodeSize =>
      exact Turns.advance <| (turns_pop enough).behind fun _ => turns_push fit rfl _
  | callDataLoad | blockHash | sload =>
      exact Turns.advance <| (turns_pop enough).behind fun _ => (turns_reads _ rfl).behind fun _ =>
        turns_push fit rfl _
  | mload =>
      exact Turns.advance <| (turns_pop enough).behind fun _ =>
        (turns_withMemory _ rfl).behind fun _ =>
        turns_push fit rfl _
  | jumpi =>
      refine (turns_pop (Nat.lt_of_succ_lt enough)).behind fun _ =>
        (turns_pop enough).behind fun _ => ?_
      split
      · exact turns_modify (fun _ => rfl) (served_without fit rfl)
      · exact turns_jumpTo _ (served_without fit rfl)
  | binary operation =>
      exact Turns.advance <| (turns_pop (Nat.lt_of_succ_lt enough)).behind fun _ =>
        (turns_pop enough).behind fun _ =>
        turns_push fit rfl _
  | signExtend =>
      refine Turns.advance <| (turns_pop (Nat.lt_of_succ_lt enough)).behind fun k => ?_
      split
      · exact (turns_pop enough).behind fun _ => turns_push fit rfl _
      · exact turns_pure _ (served_signExtend fit)
  | sha3 => exact Turns.advance <| (turns_popWindow enough).behind fun _ => turns_push fit rfl _
  | mstore | mstore8 =>
      exact Turns.advance <| (turns_pop (Nat.lt_of_succ_lt enough)).behind fun _ =>
        (turns_pop enough).behind fun _ =>
        turns_withMemory _ (served_without fit rfl)
  | returning | revert =>
      exact (turns_popWindow enough).behind fun _ => turns_modify (fun _ => rfl)
        (served_without fit rfl)
  | ternary operation =>
      exact Turns.advance <| (turns_pop (Nat.zero_lt_of_lt enough)).behind fun _ =>
        (turns_pop (Nat.lt_of_succ_lt enough)).behind fun _ => (turns_pop enough).behind fun _ =>
          turns_push fit rfl _
  | copy source =>
      refine Turns.advance ?_
      cases source with
      | callData => exact turns_copyCallData enough (served_without fit rfl)
      | code => exact turns_copyWindow _ enough (served_without fit rfl)
      | returnData => exact turns_copyReturned enough (served_without fit rfl)
  | extCodeCopy =>
      exact Turns.advance <| (turns_pop (Nat.zero_lt_of_lt enough)).behind fun _ =>
        turns_copyWindow _ enough (served_without fit rfl)

end FrameAction

def OffStack {α : Type} (result : Except Fault α) : Prop :=
  ∀ fault, result = .error fault → fault.isOfStack = false

section

variable {α β : Type}

theorem offStack_ok (value : α) : OffStack (.ok value) := by
  intro fault failed
  cases failed

theorem offStack_error {fault : Fault} (other : fault.isOfStack = false) :
    OffStack (.error fault : Except Fault α) := by
  intro same failed
  cases failed
  exact other

theorem OffStack.bind {first : Except Fault α} {next : α → Except Fault β} (before : OffStack first)
    (after : ∀ value, OffStack (next value)) : OffStack (first >>= next) := by
  cases first with
  | error fault => exact offStack_error (before fault rfl)
  | ok value => exact after value

theorem offStack_get {stack : Stack} {depth : Nat} (inside : depth < stack.size) :
    OffStack (stack.get depth) := by
  have present : stack.words[depth]? = some stack.words[depth] := List.getElem?_eq_getElem inside
  rw [Stack.get, present]
  exact offStack_ok _

end

namespace Frame

variable {fees : Fees} {frame : Frame}

theorem offStack_growth (size needed : Nat) : OffStack (fees.growth size needed) := by
  unfold Fees.growth
  split
  · exact offStack_error rfl
  · split <;> exact offStack_ok _

theorem offStack_workAndGrowth (work : Nat) (offset size : Word) :
    OffStack (frame.workAndGrowth fees work offset size) :=
  (offStack_growth _ _).bind fun _ => offStack_ok _

theorem offStack_copyPrice (fixed : Nat) (offset size : Word) :
    OffStack (frame.copyPrice fees fixed offset size) :=
  (offStack_growth _ _).bind fun _ => offStack_ok _

theorem offStack_callPrice {kind : CallKind} (enough : (Opcode.call kind).pops ≤ frame.stack.size) :
    OffStack (frame.callPrice fees kind) := by
  have windows : (if kind.hasValue then 3 else 2) + 3 < frame.stack.size := by
    cases kind <;> exact enough
  refine (offStack_get (by omega)).bind fun _ => ?_
  -- What comes behind the value is the same with and without one.
  extract_lets first available rest
  have priced : ∀ value, OffStack (rest value) := by
    intro value
    refine (offStack_get (by omega)).bind fun _ => (offStack_get (by omega)).bind fun _ =>
      (offStack_get (by omega)).bind fun _ => (offStack_get windows).bind fun _ =>
        (offStack_growth _ _).bind fun _ => ?_
    extract_lets work
    split
    · exact offStack_error rfl
    · exact offStack_ok _
  split
  · exact (offStack_get (by omega)).bind priced
  · exact (offStack_ok 0).bind priced

theorem offStack_logPrice {topics : Fin 5} (enough : (Opcode.log topics).pops ≤ frame.stack.size) :
    OffStack (frame.logPrice fees (.log topics) topics.val) := by
  simp only [Opcode.pops] at enough
  refine (offStack_get (by omega)).bind fun _ => ?_
  dsimp only
  split
  · exact offStack_error rfl
  · split
    · exact offStack_error rfl
    · exact (offStack_get (by omega)).bind fun _ => offStack_workAndGrowth _ _ _

/-- An instruction that has its operands has a price, or there is another reason why not. -/
theorem offStack_price (ledger : Ledger) {op : Opcode} (enough : op.pops ≤ frame.stack.size) :
    OffStack (frame.price fees ledger op) := by
  cases op with
  | sstore =>
      exact (offStack_get (Nat.zero_lt_of_lt enough)).bind fun _ =>
        (offStack_get enough).bind fun _ => offStack_ok _
  | mload => exact (offStack_get enough).bind fun _ => offStack_workAndGrowth _ _ _
  | mstore | mstore8 =>
    exact (offStack_get (Nat.zero_lt_of_lt enough)).bind fun _ => offStack_workAndGrowth _ _ _
  | returning | revert =>
      exact (offStack_get (Nat.zero_lt_of_lt enough)).bind fun _ =>
        (offStack_get enough).bind fun _ =>
        offStack_workAndGrowth _ _ _
  | sha3 =>
      exact (offStack_get enough).bind fun _ => (offStack_get (Nat.zero_lt_of_lt enough)).bind
        fun _ =>
        offStack_workAndGrowth _ _ _
  | create =>
      exact (offStack_get (Nat.lt_of_succ_lt enough)).bind fun _ =>
        (offStack_get enough).bind fun _ =>
        offStack_workAndGrowth _ _ _
  | copy =>
      exact (offStack_get (Nat.zero_lt_of_lt enough)).bind fun _ =>
        (offStack_get enough).bind fun _ =>
        offStack_copyPrice _ _ _
  | extCodeCopy =>
      exact (offStack_get (Nat.lt_of_succ_lt (Nat.lt_of_succ_lt enough))).bind fun _ =>
        (offStack_get enough).bind fun _ =>
        offStack_copyPrice _ _ _
  | call kind => exact offStack_callPrice enough
  | log topics => exact offStack_logPrice enough
  | binary operation =>
      cases operation with
      | exp => exact (offStack_get enough).bind fun _ => offStack_ok _
      | _ => exact offStack_ok _
  | _ => exact offStack_ok _

end Frame

end ContractMachine
