import ContractMachine.Proofs.Machine.Moves

/-!
What becomes of the outcome of a frame when it takes over that of a child. Of a child that failed it
takes the records and nothing else; of the gas that was handed on it gets back what the child has
not consumed. Fault and REVERT stay with the child.
-/

namespace ContractMachine

namespace Outcome

def goOn (outcome child : Outcome) (record gas : Nat) : Outcome :=
  if child.succeeded then (outcome.merge child).giveBack (gas - child.gasUsed)
  else if child.fault.isNone then
    ((outcome.merge child.rejectRecords).rejectRecord record).giveBack (gas - child.gasUsed)
  else (outcome.merge child.rejectRecords).rejectRecord record

section

variable (outcome child : Outcome)

@[simp] theorem merge_gasUsed : (outcome.merge child).gasUsed = outcome.gasUsed := by
  unfold merge
  split <;> rfl

@[simp] theorem merge_fault : (outcome.merge child).fault = outcome.fault := by
  unfold merge
  split <;> rfl

@[simp] theorem merge_returnData : (outcome.merge child).returnData = outcome.returnData := by
  unfold merge
  split <;> rfl

theorem merge_deletions :
    (outcome.merge child).deletions =
      if child.succeeded then outcome.deletions.union child.deletions else outcome.deletions := by
  unfold merge
  split <;> rfl

theorem merge_records : (outcome.merge child).records = outcome.records ++ child.records := by
  unfold merge
  split <;> rfl

theorem merge_logs :
    (outcome.merge child).logs =
      if child.succeeded then outcome.logs ++ child.logs else outcome.logs := by
  unfold merge
  split <;> rfl

theorem merge_refundPool :
    (outcome.merge child).refundPool =
      if child.succeeded then Quantity.clamp (outcome.refundPool + child.refundPool) else
        outcome.refundPool := by
  unfold merge
  split <;> rfl

end

end Outcome

theorem SiteAction.outcome_called (message : Message) (record : Nat) (child : Outcome)
    (frame : Frame) :
    (called message record child frame).outcome = frame.outcome.goOn child record message.gas := by
  unfold called Outcome.goOn
  split
  · rfl
  · split <;> rfl

theorem SiteAction.outcome_created (address : Address) (record gas : Nat) (done : Outcome)
    (frame : Frame) :
    (created address record gas done frame).outcome = frame.outcome.goOn done record gas := by
  unfold created Outcome.goOn
  split
  · rfl
  · split <;> rfl

namespace Awaited

def gas : Awaited → Nat
  | .call message _ => message.gas
  | .creation _ _ gas => gas

def record : Awaited → Nat
  | .call _ record => record
  | .creation _ record _ => record

/-- What of the gas handed on does not come back: all of it after a fault. -/
def consumed (environment : Environment) (child : Outcome) (awaited : Awaited) : Nat :=
  if (awaited.final environment child).fault.isNone then (awaited.final environment child).gasUsed
  else awaited.gas

def taken (environment : Environment) (child outcome : Outcome) (awaited : Awaited) : Outcome :=
  if (awaited.final environment child).succeeded then
    outcome.merge (awaited.final environment child)
  else (outcome.merge (awaited.final environment child).rejectRecords).rejectRecord awaited.record

section

variable (environment : Environment) (awaited : Awaited) (child outcome : Outcome)

theorem outcome_answered (frame : Frame) :
    (awaited.answered environment child frame).outcome =
      (awaited.taken environment child frame.outcome).giveBack
        (awaited.gas - awaited.consumed environment child) := by
  have same : (awaited.answered environment child frame).outcome =
      frame.outcome.goOn (awaited.final environment child) awaited.record awaited.gas := by
    cases awaited with
    | call message record => exact SiteAction.outcome_called message record child frame
    | creation address record gas => exact SiteAction.outcome_created address record gas _ frame
  rw [same]
  unfold Outcome.goOn taken consumed
  by_cases succeeded : (awaited.final environment child).succeeded = true
  · have sound : (awaited.final environment child).fault.isNone = true :=
      (Bool.and_eq_true_iff.mp succeeded).1
    rw [if_pos succeeded, if_pos succeeded, if_pos sound]
  · rw [if_neg succeeded, if_neg succeeded]
    by_cases sound : (awaited.final environment child).fault.isNone = true
    · rw [if_pos sound, if_pos sound]
    · rw [if_neg sound, if_neg sound, Nat.sub_self]
      rfl

@[simp] theorem taken_gasUsed :
    (awaited.taken environment child outcome).gasUsed = outcome.gasUsed := by
  unfold taken
  split
  · exact Outcome.merge_gasUsed _ _
  · exact Outcome.merge_gasUsed _ _

@[simp] theorem taken_fault : (awaited.taken environment child outcome).fault = outcome.fault := by
  unfold taken
  split
  · exact Outcome.merge_fault _ _
  · exact Outcome.merge_fault _ _

@[simp] theorem taken_returnData :
    (awaited.taken environment child outcome).returnData = outcome.returnData := by
  unfold taken
  split
  · exact Outcome.merge_returnData _ _
  · exact Outcome.merge_returnData _ _

/-- A deposit changes the gas of a child or gives it a fault, and nothing else. -/
theorem final_effects :
    (awaited.final environment child).deletions = child.deletions ∧
      (awaited.final environment child).logs = child.logs ∧
      (awaited.final environment child).refundPool = child.refundPool := by
  cases awaited with
  | call message record => exact ⟨rfl, rfl, rfl⟩
  | creation address record gas =>
      simp only [final, SiteAction.deposited]
      split
      · cases environment.config.deposit child.returnData.size (gas - child.gasUsed) with
        | deploy price => exact ⟨rfl, rfl, rfl⟩
        | deployEmpty => exact ⟨rfl, rfl, rfl⟩
        | fail fault => exact ⟨rfl, rfl, rfl⟩
      · exact ⟨rfl, rfl, rfl⟩

theorem records_final : (awaited.final environment child).records = child.records := by
  cases awaited with
  | call message record => rfl
  | creation address record gas =>
      simp only [final, SiteAction.deposited]
      split
      · cases environment.config.deposit child.returnData.size (gas - child.gasUsed) with
        | deploy price => rfl
        | deployEmpty => rfl
        | fail fault => rfl
      · rfl

/-- Of a child that failed every record is rejected, and so is the one of the child itself. -/
theorem records_taken :
    (awaited.taken environment child outcome).records =
      if (awaited.final environment child).succeeded then outcome.records ++ child.records
      else (outcome.records ++ child.records.map Record.reject).modify awaited.record
        Record.reject := by
  have rejected :
      (awaited.final environment child).rejectRecords.records = child.records.map Record.reject :=
    congrArg (Array.map Record.reject) (records_final environment awaited child)
  unfold taken
  split
  · rw [Outcome.merge_records, records_final]
  · rw [Outcome.rejectRecord, Outcome.merge_records, rejected]

theorem deletions_taken :
    (awaited.taken environment child outcome).deletions =
      if (awaited.final environment child).succeeded then outcome.deletions.union child.deletions
      else outcome.deletions := by
  unfold taken
  split
  · rename_i succeeded
    rw [Outcome.merge_deletions, if_pos succeeded, (final_effects environment awaited child).1]
  · rename_i failed
    exact (Outcome.merge_deletions _ _).trans (if_neg failed)

theorem logs_taken :
    (awaited.taken environment child outcome).logs =
      if (awaited.final environment child).succeeded then outcome.logs ++ child.logs
      else outcome.logs := by
  unfold taken
  split
  · rename_i succeeded
    rw [Outcome.merge_logs, if_pos succeeded, (final_effects environment awaited child).2.1]
  · rename_i failed
    exact (Outcome.merge_logs _ _).trans (if_neg failed)

theorem refundPool_taken :
    (awaited.taken environment child outcome).refundPool =
      if (awaited.final environment child).succeeded then
        Quantity.clamp (outcome.refundPool + child.refundPool)
      else outcome.refundPool := by
  unfold taken
  split
  · rename_i succeeded
    rw [Outcome.merge_refundPool, if_pos succeeded, (final_effects environment awaited child).2.2]
  · rename_i failed
    exact (Outcome.merge_refundPool _ _).trans (if_neg failed)

end

end Awaited

/-- What the creator would wait for if its creation had a frame of its own. -/
def Creation.awaited (creation : Creation) (frame : Frame) (ledger : Ledger) : Awaited :=
  .creation (address frame ledger) (creation.recorded frame ledger).1 creation.gas

/-- A creation that is settled at once is answered as one with a frame is. -/
theorem SiteAction.frame_settledAtOnce (environment : Environment) (creation : Creation)
    (child : Outcome) (frame : Frame) (ledger : Ledger) :
    (settledAtOnce environment creation child frame ledger).frame =
      (creation.awaited frame ledger).answered environment child
        (creation.recorded frame ledger).2 :=
  rfl

end ContractMachine
