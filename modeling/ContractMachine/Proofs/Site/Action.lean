import ContractMachine.Proofs.Frame.Operand
import ContractMachine.Site

/-!
Running the actions that calls and creations are made of. With room on the stack none of them ends
in a fault, and each is a function of the site.
-/

namespace ContractMachine

theorem Outcome.succeeded_iff (outcome : Outcome) :
    outcome.succeeded = true ↔ outcome.fault = none ∧ outcome.reverted = false := by
  simp [Outcome.succeeded]

namespace Frame

def reading (frame : Frame) (offset size : Nat) : Frame :=
  { frame with memory := (frame.memory.read offset size).2 }

def accepting (frame : Frame) (child : Outcome) : Frame :=
  { frame with outcome := frame.outcome.merge child }

def rejecting (frame : Frame) (child : Outcome) (record : Nat) : Frame :=
  { frame with outcome := (frame.outcome.merge child.rejectRecords).rejectRecord record }

section

variable (frame : Frame) (data : Bytes) (gas offset size : Nat)

theorem continues_setReturned : frame.Continues (frame.setReturned data) := ⟨rfl, rfl, rfl, rfl⟩

@[simp] theorem setReturned_context : (frame.setReturned data).context = frame.context := rfl

@[simp] theorem setReturned_owner : (frame.setReturned data).owner = frame.owner := rfl

@[simp] theorem reading_owner : (frame.reading offset size).owner = frame.owner := rfl

@[simp] theorem hasRoom_setReturned : (frame.setReturned data).HasRoom ↔ frame.HasRoom := Iff.rfl

@[simp] theorem hasRoom_reading : (frame.reading offset size).HasRoom ↔ frame.HasRoom := Iff.rfl

@[simp] theorem hasRoom_giveBack : (frame.giveBack gas).HasRoom ↔ frame.HasRoom := Iff.rfl

@[simp] theorem hasRoom_addRecord (kind : RecordKind) (source : Address) (target : Option Address)
    (nonce : UInt64) (value : Word) :
    (frame.addRecord kind source target nonce value data gas).2.HasRoom ↔ frame.HasRoom := Iff.rfl

end

def Refused (frame : Frame) (environment : Environment) (ledger : Ledger) (value : Word) : Prop :=
  environment.config.limits.callDepth ≤ frame.context.depth ∨
  (ledger.balance frame.owner).toNat < value.toNat

instance (frame : Frame) (environment : Environment) (ledger : Ledger) (value : Word) :
    Decidable (frame.Refused environment ledger value) :=
  inferInstanceAs (Decidable (_ ∨ _))

end Frame

@[simp] theorem FrameAction.readMemory_apply (offset size : Nat) (frame : Frame) :
    readMemory offset size frame =
      .ok (frame.memory.read offset size).1 (frame.reading offset size) := rfl

namespace SiteAction

theorem onFrame_apply {α : Type} (action : FrameAction α) (frame : Frame) (ledger : Ledger) :
    onFrame action ⟨frame, ledger⟩ =
      match action frame with
      | .ok value later => .ok value ⟨later, ledger⟩
      | .error fault later => .error fault ⟨later, ledger⟩ := rfl

@[simp] theorem reads_apply {α : Type} (view : Site → α) (site : Site) :
    reads view site = .ok (view site) site := rfl

@[simp] theorem changeLedger_apply (change : Ledger → Ledger) (frame : Frame) (ledger : Ledger) :
    changeLedger change ⟨frame, ledger⟩ = .ok () ⟨frame, change ledger⟩ := rfl

@[simp] theorem owner_apply (frame : Frame) (ledger : Ledger) :
    owner ⟨frame, ledger⟩ = .ok frame.owner ⟨frame, ledger⟩ := rfl

@[simp] theorem atDepthLimit_apply (environment : Environment) (frame : Frame) (ledger : Ledger) :
    atDepthLimit environment ⟨frame, ledger⟩ =
      .ok (decide (environment.config.limits.callDepth ≤ frame.context.depth)) ⟨frame, ledger⟩ :=
        rfl

@[simp] theorem cannotPay_apply (value : Word) (frame : Frame) (ledger : Ledger) :
    cannotPay value ⟨frame, ledger⟩ =
      .ok (decide ((ledger.balance frame.owner).toNat < value.toNat)) ⟨frame, ledger⟩ := rfl

@[simp] theorem setReturned_apply (data : Bytes) (frame : Frame) (ledger : Ledger) :
    onFrame (FrameAction.setReturned data) ⟨frame, ledger⟩ =
      .ok () ⟨frame.setReturned data, ledger⟩ := rfl

@[simp] theorem giveBack_apply (gas : Nat) (frame : Frame) (ledger : Ledger) :
    onFrame (FrameAction.giveBack gas) ⟨frame, ledger⟩ = .ok () ⟨frame.giveBack gas, ledger⟩ := rfl

@[simp] theorem readMemory_apply (offset size : Nat) (frame : Frame) (ledger : Ledger) :
    onFrame (FrameAction.readMemory offset size) ⟨frame, ledger⟩ =
      .ok (frame.memory.read offset size).1 ⟨frame.reading offset size, ledger⟩ := rfl

@[simp] theorem update_apply {α : Type} (change : Frame → α × Frame) (frame : Frame)
    (ledger : Ledger) :
    onFrame (FrameAction.update change) ⟨frame, ledger⟩ =
      .ok (change frame).1 ⟨(change frame).2, ledger⟩ := rfl

theorem pop_apply {frame : Frame} {depth : Nat} (enough : depth < frame.stack.size)
    (ledger : Ledger) :
    onFrame FrameAction.pop ⟨frame.dropWords depth, ledger⟩ =
      .ok (frame.operand depth) ⟨frame.dropWords (depth + 1), ledger⟩ := by
  rw [onFrame_apply, FrameAction.pop_dropWords frame depth enough]

@[simp] theorem ensureMutable_apply (frame : Frame) (ledger : Ledger) :
    onFrame FrameAction.ensureMutable ⟨frame, ledger⟩ =
      if frame.context.isStatic then .error .staticViolation ⟨frame, ledger⟩ else
        .ok () ⟨frame, ledger⟩ := by
  rw [onFrame_apply]
  cases mutable : frame.context.isStatic <;> simp [FrameAction.ensureMutable, mutable]

@[simp] theorem push_apply {frame : Frame} (room : frame.HasRoom) (word : Word) (ledger : Ledger) :
    push word ⟨frame, ledger⟩ = .ok () ⟨frame.put word, ledger⟩ := by
  rw [push, onFrame_apply, FrameAction.push_of_room room]

@[simp] theorem refuse_apply {frame : Frame} (room : frame.HasRoom) (gas : Nat) (ledger : Ledger) :
    refuse gas ⟨frame, ledger⟩ = .ok () ⟨(frame.put 0).giveBack gas, ledger⟩ := by
  simp [refuse, room]

@[simp] theorem accept_apply {frame : Frame} (room : frame.HasRoom) (child : Outcome)
    (result : Word) (ledger : Ledger) :
    accept child result ⟨frame, ledger⟩ =
      .ok () ⟨(frame.accepting child).put result, ledger.commit⟩ := by
  have merged : (frame.accepting child).HasRoom := room
  exact push_apply merged result ledger.commit

@[simp] theorem reject_apply {frame : Frame} (room : frame.HasRoom) (child : Outcome) (record : Nat)
    (ledger : Ledger) :
    reject child record ⟨frame, ledger⟩ =
      .ok () ⟨(frame.rejecting child record).put 0, ledger.rollback⟩ := by
  have merged : (frame.rejecting child record).HasRoom := room
  exact push_apply merged 0 ledger.rollback

end SiteAction

end ContractMachine
