import ContractMachine.Proofs.Machine.Metering

/-!
What a caller gets of the output of its child. The window for it is within memory from the start of
the call, the caller stays as it is while the child runs, and what then comes back fills the window
as far as it goes.
-/

namespace ContractMachine

/-- A write into room that is there changes the positions written. -/
theorem Memory.writeWithin_getElem? {memory : Memory} {offset size : Nat}
    (reserved : size ≠ 0 → offset + size ≤ memory.size) (data : Bytes) (i : Nat) :
    (memory.writeWithin offset data size).bytes[i]? =
      if offset ≤ i ∧ i < offset + min size data.size then data[i - offset]?
      else memory.bytes[i]? := by
  have whole :
      (if memory.size < offset + min size data.size then memory.size - offset
       else min size data.size) = min size data.size := by
    split <;> omega
  unfold Memory.size at reserved
  rw [writeWithin, whole, Bytes.overlay_getElem?]
  by_cases inside : offset ≤ i ∧ i < offset + min size data.size
  · have present : i - offset < data.size := by omega
    rw [if_pos inside, if_pos (by omega)]
    simp [Bytes.zeroExtended, Array.getD_eq_getD_getElem?, present]
  · rw [if_neg inside, if_neg (by omega)]

/-- What a frame that has waited gets from its child, in a window of its memory: the output as far
as the window goes, and all of it to be copied later. After a fault it gets nothing. -/
structure Frame.Receives (frame : Frame) (offset size : Nat) (child : Outcome) (later : Frame) :
    Prop where
  kept : later.memory.size = frame.memory.size
  bytes : child.fault = none → ∀ i, later.memory.bytes[i]? =
    if offset ≤ i ∧ i < offset + min size child.returnData.size then child.returnData[i - offset]?
    else frame.memory.bytes[i]?
  returned : child.fault = none → later.returned = child.returnData
  nothing : child.fault ≠ none → later.memory = frame.memory ∧ later.returned = #[]

/-- No bytes are the same wherever they are. -/
theorem Frame.Receives.moved {frame later : Frame} {offset : Nat} {child : Outcome}
    (received : frame.Receives offset 0 child later) (elsewhere : Nat) :
      frame.Receives elsewhere 0 child later where
  kept := received.kept
  bytes := by
    intro fine i
    rw [received.bytes fine, if_neg (by omega), if_neg (by omega)]
  returned := received.returned
  nothing := received.nothing

theorem Frame.Receives.advance {frame later : Frame} {offset size : Nat} {child : Outcome}
    (received : frame.Receives offset size child later) :
      frame.Receives offset size child later.advance :=
  ⟨received.kept, received.bytes, received.returned, received.nothing⟩

theorem SiteAction.receives_called {message : Message} {frame : Frame} (record : Nat)
    (child : Outcome)
    (reserved : message.outSize ≠ 0 → message.outOffset + message.outSize ≤ frame.memory.size)
    (empty : frame.returned = #[]) :
    frame.Receives message.outOffset message.outSize child (called message record child frame) := by
  have written := Memory.writeWithin_getElem? reserved child.returnData
  have size := frame.memory.writeWithin_size message.outOffset child.returnData message.outSize
  cases fault : child.fault with
  | some cause =>
      have failed : child.succeeded = false := by simp [Outcome.succeeded, fault]
      have same : called message record child frame = (frame.rejecting child record).put 0 := by
        simp [called, failed, fault]
      rw [same]
      have faulty : child.fault ≠ none := by simp [fault]
      exact ⟨rfl, fun fine => absurd fine faulty, fun fine => absurd fine faulty,
        fun _ => ⟨rfl, empty⟩⟩
  | none =>
      have answered : ∃ answering : Frame, answering.memory = frame.memory ∧
          called message record child frame = message.answered child answering := by
        cases succeeded : child.succeeded with
        | true => exact ⟨(frame.accepting child).put 1, rfl, by simp [called, succeeded]⟩
        | false =>
          exact ⟨(frame.rejecting child record).put 0, rfl, by simp [called, succeeded, fault]⟩
      obtain ⟨answering, same, eq⟩ := answered
      have memory : (called message record child frame).memory =
          frame.memory.writeWithin message.outOffset child.returnData message.outSize := by
        rw [eq, ← same]
        rfl
      refine ⟨?kept, ?bytes, ?returned, fun failed => absurd fault failed⟩
      case kept => rw [memory, size]
      case bytes =>
        intro _ i
        rw [memory, written]
      case returned =>
        intro _
        rw [eq]
        rfl

namespace Frame.Calls

variable {environment : Environment} {frame caller : Frame} {ledger : Ledger} {kind : CallKind}
  {price : Price} {message : Message}

/-- The window of the output is where the operands say, unless it is empty: they have been priced as
they are. -/
theorem outputWindow (calls : frame.Calls environment ledger kind price message caller) :
    message.outSize = (frame.operand (kind.firstWindow + 3)).toNat ∧
      (message.outSize ≠ 0 → message.outOffset = (frame.operand (kind.firstWindow + 2)).toNat) := by
  have priced := (quote_spec calls.due.quoted).2.1
  obtain ⟨needed, grown, within⟩ := Frame.paysFor_of_price priced
  have inside := within ⟨frame.operand (kind.firstWindow + 2), frame.operand (kind.firstWindow + 3)⟩
    (List.mem_cons_of_mem _ (List.mem_singleton_self _))
  have offset : message.outOffset = (frame.operand (kind.firstWindow + 2)).index := by
    rw [calls.eqs.1]
    rfl
  have size : message.outSize = (frame.operand (kind.firstWindow + 3)).index := by
    rw [calls.eqs.1]
    rfl
  by_cases empty : frame.operand (kind.firstWindow + 3) = 0
  · rw [empty, Word.index_zero] at size
    rw [empty, size]
    exact ⟨rfl, fun some => absurd rfl some⟩
  · obtain ⟨exactOffset, exactSize, -⟩ := inside empty
    exact ⟨size.trans exactSize, fun _ => offset.trans exactOffset⟩

end Frame.Calls

namespace Machine

variable {environment : Environment} {root : Frame} {ledger : Ledger}

/-- A call that goes down into a child leaves the caller with its record, and nothing returned
yet. -/
theorem Sends.entered_eq {message : Message} {caller : Frame} {waiting : List Waiting}
    {later : Machine} (sends : Sends environment message caller waiting ledger later)
    (deeper : waiting.length < later.waiting.length) :
    later.waiting =
      ⟨(message.recorded caller ledger).2, .call message (message.recorded caller ledger).1⟩ ::
        waiting := by
  cases sends with
  | refused | drained | delivered | overdrawn | passed => exact absurd deeper (Nat.lt_irrefl _)
  | entered granted found code => rfl

/-- In every state of a run, a call that is answered by a child gives its caller the output of the
child in the window that the operands name, which is within memory from the start of the call; the
caller has stayed as the call has left it, with the bytes of its memory as they were. -/
theorem child_output_is_received {before last : Machine} {parent : Waiting} {kind : CallKind}
    {price : Price} {message : Message} {caller : Frame}
    (reached : Reaches environment (start root ledger) before)
    (calls : before.frame.Calls environment before.ledger kind price message caller)
    (stays : Stays environment before.waiting.length (before.next environment) last)
    (back : last.waiting = parent :: before.waiting) (stopped : last.frame.stopped = true) :
    (before.next environment).waiting = parent :: before.waiting ∧
    (∀ i, parent.frame.memory.cell i = before.frame.memory.cell i) ∧
    ((before.frame.operand (kind.firstWindow + 3)).toNat ≠ 0 →
      (before.frame.operand (kind.firstWindow + 2)).toNat +
        (before.frame.operand (kind.firstWindow + 3)).toNat ≤
        parent.frame.memory.size) ∧
    (last.next environment).waiting = before.waiting ∧
    parent.frame.Receives (before.frame.operand (kind.firstWindow + 2)).toNat
      (before.frame.operand (kind.firstWindow + 3)).toNat last.frame.outcome
        (last.next environment).frame := by
  have nested := nested_of_reaches reached
  obtain ⟨frame, waiting, ledger⟩ := before
  have inside := nested_next nested calls.due.runs ledger
  have sends := sends_next waiting calls
  obtain ⟨asking, entered, -, -, opened⟩ := sends.enters stays.first_inside
  have recorded := sends.entered_eq stays.first_inside
  obtain ⟨rfl, -, -⟩ := back_at_child inside entered opened stays back
  obtain rfl :
    parent = ⟨(message.recorded caller ledger).2,
      .call message (message.recorded caller ledger).1⟩ :=
    (List.cons.inj (entered.symm.trans recorded)).1
  obtain ⟨size, offset⟩ := calls.outputWindow
  have received :
      (message.recorded caller ledger).2.Receives message.outOffset message.outSize
      last.frame.outcome
      (SiteAction.called message (message.recorded caller ledger).1 last.frame.outcome
        (message.recorded caller ledger).2) :=
    SiteAction.receives_called _ _ calls.reserved rfl
  have goes := next_at_child (inside.reaches stays.reaches) back stopped
  refine ⟨recorded, ?same, ?room, ?level, ?received⟩
  case same =>
    intro i
    rw [Message.recorded_memory, calls.memory_fed, Memory.extend_cell, Memory.extend_cell]
  case room =>
    intro some
    rw [← size] at some ⊢
    rw [← offset some]
    exact calls.reserved some
  case level => rw [goes]
  case received =>
    have filled :
        (message.recorded caller ledger).2.Receives message.outOffset message.outSize
        last.frame.outcome
        (last.next environment).frame := by
      rw [goes]
      exact received.advance
    rw [← size]
    -- The offset of an empty window is not priced and may be cut off; nothing is written there.
    by_cases empty : message.outSize = 0
    · rw [empty] at filled ⊢
      exact filled.moved _
    · rw [← offset empty]
      exact filled

-- Code that calls the account at ten, with a window of four bytes from eight on for its output.
def receivingFrame : Frame :=
  Frame.start #[0x60, 4, 0x60, 8, 0x60, 0, 0x60, 0, 0x60, 0, 0x60, 10, 0x61, 0xff, 0xff, 0xf1]
    { address := 7, origin := 7, caller := 7, value := 0, data := #[], gas := 1000000,
      gasPrice := 1, block := {}, depth := 0, isStatic := false, transactionHash := 0 } 1024

-- The account at ten returns two bytes, the first of them 42.
def returningLedger : Ledger :=
  Ledger.setCode {} 10 #[0x60, 42, 0x60, 0, 0x53, 0x60, 2, 0x60, 0, 0xf3]

def beforeReceiving : Machine := (start receivingFrame returningLedger).runFor {} 7

theorem child_output_is_received_in_window :
    Reaches {} (start receivingFrame returningLedger) beforeReceiving ∧
    Stays {} 0 (beforeReceiving.next {}) ((beforeReceiving.next {}).runFor {} 6) ∧
    (((beforeReceiving.next {}).runFor {} 6).next {}).frame.memory.bytes[8]? = some 42 ∧
    (((beforeReceiving.next {}).runFor {} 6).next {}).frame.returned = #[42, 0] := by
  have reached := runFor_reaches {} 7 (start receivingFrame returningLedger)
  have quoted :
      (beforeReceiving.frame.quote ({} : Environment).config.fees
        beforeReceiving.ledger).toOption.map Prod.fst =
      some (.call .call) := by
    decide +kernel
  obtain ⟨price, calls⟩ := Frame.calls_of_quote (by decide +kernel) quoted (by decide +kernel)
  have stays : Stays {} 0 (beforeReceiving.next {}) ((beforeReceiving.next {}).runFor {} 6) :=
    stays_runFor 6 (by decide +kernel)
  obtain ⟨parent, waits⟩ : ∃ parent, ((beforeReceiving.next {}).runFor {} 6).waiting = [parent] :=
    List.length_eq_one_iff.mp (by decide +kernel)
  obtain ⟨-, -, -, -, received⟩ :=
    child_output_is_received reached calls stays waits (by decide +kernel)
  have fine : ((beforeReceiving.next {}).runFor {} 6).frame.outcome.fault = none := by
    decide +kernel
  refine ⟨reached, stays, ?byte, ?data⟩
  case byte =>
    rw [received.bytes fine 8, if_pos (by decide +kernel)]
    decide +kernel
  case data =>
    rw [received.returned fine]
    decide +kernel

end Machine

end ContractMachine
