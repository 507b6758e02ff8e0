import ContractMachine.Proofs.Machine.Effects

/-!
Frames that may not modify state do not. As long as such a frame lives, every frame above it is of
its kind, and no balance, nonce, code or slot reads other than at its start. Calls still move values
of zero, and of any size from an account to itself, so that accounts may come into being; they hold
what no account holds.
-/

namespace ContractMachine

namespace Ledger

/-- What accounts hold is the same, and so is every slot. An account with nothing in it may have
been made. -/
structure SameReads (ledger later : Ledger) : Prop where
  account : ∀ address, (later.account? address).getD {} = (ledger.account? address).getD {}
  slot : ∀ address key, later.slot? address key = ledger.slot? address key

theorem SameReads.refl (ledger : Ledger) : ledger.SameReads ledger := ⟨fun _ => rfl, fun _ _ => rfl⟩

theorem SameReads.trans {first second third : Ledger} (before : first.SameReads second)
    (after : second.SameReads third) : first.SameReads third where
  account address := (after.account address).trans (before.account address)
  slot address key := (after.slot address key).trans (before.slot address key)

theorem sameReads_checkpoint (ledger : Ledger) : ledger.SameReads ledger.checkpoint where
  account address := congrArg (Option.getD · {}) (account?_checkpoint ledger address)
  slot := slot?_checkpoint ledger

theorem sameReads_commit (ledger : Ledger) : ledger.SameReads ledger.commit where
  account address := congrArg (Option.getD · {}) (account?_commit ledger address)
  slot := slot?_commit ledger

theorem sameReads_update (ledger : Ledger) (address : Address) {change : Account → Account}
    (same : change ((ledger.account? address).getD {}) = (ledger.account? address).getD {}) :
    ledger.SameReads (ledger.update address change) where
  account other := by
    rw [account?_update]
    split
    · rename_i here
      subst here
      exact same
    · rfl
  slot other key := slot?_update ledger address other change key

theorem sameReads_transfer_zero (ledger : Ledger) (source target : Address) :
    ledger.SameReads (ledger.transfer source target 0) := by
  have debited : ledger.SameReads (ledger.debit source 0) :=
    sameReads_update ledger source
      (congrArg (fun balance => { (ledger.account? source).getD {} with balance })
        (Word.clampedSub_zero _))
  have credited : (ledger.debit source 0).SameReads ((ledger.debit source 0).credit target 0) :=
    sameReads_update _ target
      (congrArg (fun balance => { ((ledger.debit source 0).account? target).getD {} with balance })
        (Word.clampedAdd_zero _))
  exact debited.trans credited

/-- What an account moves to itself it has afterwards, if it was there. -/
theorem sameReads_transfer_self (ledger : Ledger) (address : Address) {value : Word}
    (covered : value.toNat ≤ (ledger.balance address).toNat) :
    ledger.SameReads (ledger.transfer address address value) where
  account other := by
    rw [transfer, credit, account?_update]
    by_cases here : other = address
    · subst here
      rw [if_pos rfl, debit, account?_update, if_pos rfl]
      exact congrArg (fun balance => { (ledger.account? other).getD {} with balance })
        (Word.clampedSub_clampedAdd covered)
    · rw [if_neg here, debit, account?_update, if_neg here]
  slot other key := by
    rw [transfer, credit, slot?_update, debit, slot?_update]

end Ledger

theorem Message.Fair.sameReads {message : Message} {frame : Frame} {ledger : Ledger}
    (fair : message.Fair frame ledger) (static : frame.context.isStatic = true) :
    ledger.SameReads (message.opened frame ledger) := by
  refine ledger.sameReads_checkpoint.trans ?_
  rcases fair.static static with zero | own
  · rw [Message.opened, zero]
    exact Ledger.sameReads_transfer_zero _ _ _
  · have covered : message.value.toNat ≤ (ledger.checkpoint.balance frame.owner).toNat := by
      rw [Ledger.balance, Ledger.account?_checkpoint]
      exact fair.covered
    rw [Message.opened, own]
    exact Ledger.sameReads_transfer_self _ _ covered

namespace Machine

/-- A frame that may not modify state and has left nothing behind. -/
structure Restrained (frame : Frame) (ledger below : Ledger) : Prop where
  static : frame.context.isStatic = true
  effectless : frame.outcome.Effectless
  reads : below.SameReads ledger

def AwaitsCall (parent : Waiting) : Prop := ∃ message record, parent.awaited = .call message record

section

variable {environment : Environment} {frame later : Frame} {ledger after below : Ledger}

theorem Restrained.of_discreet (restrained : Restrained frame ledger below)
    (discreet : frame.Discreet later) (reads : ledger.SameReads after) :
    Restrained later after below where
  static := (congrArg Context.isStatic discreet.same.context).trans restrained.static
  effectless := discreet.effectless restrained.static restrained.effectless
  reads := restrained.reads.trans reads

theorem Restrained.not_mutable (restrained : Restrained frame ledger below)
    (mutable : frame.context.isStatic = false) : False := by
  have static := restrained.static
  rw [mutable] at static
  cases static

/-- Of a child that has left nothing behind, a frame takes over nothing. -/
theorem effectless_taken (environment : Environment) (awaited : Awaited) {child outcome : Outcome}
    (inner : child.Effectless) (effectless : outcome.Effectless) :
    (awaited.taken environment child outcome).Effectless where
  logs := by
    rw [Awaited.logs_taken, effectless.logs, inner.logs]
    split <;> rfl
  deletions := by
    rw [Awaited.deletions_taken, effectless.deletions, inner.deletions]
    split <;> rfl
  refundPool := by
    rw [Awaited.refundPool_taken, effectless.refundPool, inner.refundPool]
    split <;> rfl

theorem effectless_answered (environment : Environment) (awaited : Awaited) {child : Outcome}
    (inner : child.Effectless) (outer : frame.outcome.Effectless) :
    (awaited.answered environment child frame).advance.outcome.Effectless := by
  have taken := effectless_taken environment awaited inner outer
  change (awaited.answered environment child frame).outcome.Effectless
  rw [Awaited.outcome_answered]
  exact ⟨taken.logs, taken.deletions, taken.refundPool⟩

theorem restrained_answered {child : Frame} {parent : Waiting} (asks : AwaitsCall parent)
    (inner : Restrained child ledger (ledger.below 1))
    (outer : Restrained parent.frame (ledger.below 1) below) :
    Restrained (parent.awaited.answered environment child.outcome parent.frame).advance
      (parent.awaited.closed environment child.outcome ledger) below where
  static := by
    have same := (parent.awaited.continues_answered environment child.outcome parent.frame).context
    exact (congrArg Context.isStatic same).trans outer.static
  effectless := effectless_answered environment parent.awaited inner.effectless outer.effectless
  reads := by
    obtain ⟨message, record, call⟩ := asks
    rw [call, Awaited.closed, Awaited.written]
    split
    · exact outer.reads.trans (inner.reads.trans ledger.sameReads_commit)
    · rw [Ledger.rollback_eq_below]
      exact outer.reads

theorem preserves_restrained : Preserves environment Restrained AwaitsCall where
  quiet := by
    intro frame later ledger below discreet restrained
    exact restrained.of_discreet discreet (.refl ledger)
  stored := by
    intro frame later ledger below key value mutable discreet restrained
    exact (restrained.not_mutable mutable).elim
  removed := by
    intro frame later ledger below mutable deleted restrained
    exact (restrained.not_mutable mutable).elim
  sent := by
    intro frame later ledger below message fair discreet restrained
    exact restrained.of_discreet discreet
      ((fair.sameReads restrained.static).trans (Ledger.sameReads_commit _))
  called := by
    intro frame caller child ledger below message record fair discreet fresh inherits restrained
    have unmarked : child.outcome.Effectless := by
      rw [fresh]
      exact ⟨rfl, rfl, rfl⟩
    refine ⟨⟨message, record, rfl⟩, restrained.of_discreet discreet (.refl ledger), ?_⟩
    exact ⟨inherits restrained.static, unmarked, fair.sameReads restrained.static⟩
  settled := by
    intro frame creator later ledger below creation child mutable covered deletions restrained
    exact (restrained.not_mutable mutable).elim
  made := by
    intro frame creator caller child ledger below creation awaited mutable covered deletions fresh
      restrained
    exact (restrained.not_mutable mutable).elim
  answered := by
    intro child parent ledger below tracked asks inner outer
    exact restrained_answered asks inner outer

theorem Levels.restrained {outer waiting : List Waiting} {root : Frame} {base : Ledger}
    (levels : Levels Restrained AwaitsCall outer root base frame waiting ledger) :
    ∃ inner, waiting = inner ++ outer ∧
      (∀ other ∈ frame :: inner.map Waiting.frame, other.context.isStatic = true) ∧
      base.SameReads ledger ∧ (inner = [] → root.Continues frame ∧ frame.outcome.Effectless) := by
  induction levels with
  | last same here =>
      refine ⟨[], rfl, ?_, here.reads, fun _ => ⟨same, here.effectless⟩⟩
      intro other member
      rw [List.mem_singleton.mp member]
      exact here.static
  | @above frame parent waiting ledger tracked lower asks here ih =>
      obtain ⟨inner, waits, static, reads, -⟩ := ih
      refine ⟨parent :: inner, congrArg (List.cons parent) waits, ?_, reads.trans here.reads, ?_⟩
      · intro other member
        rcases List.mem_cons.mp member with rfl | lower
        · exact here.static
        · exact static other lower
      · intro none
        cases none

/-- Of the frames that are not done, those that may not modify state have left nothing behind, and
what they wait for may not modify state either. -/
inductive Tidy : Frame → List Waiting → Prop where
  | root {frame : Frame} (clean : frame.context.isStatic = true → frame.outcome.Effectless) :
      Tidy frame []
  | child {frame : Frame} {parent : Waiting} {waiting : List Waiting}
      (outer : Tidy parent.frame waiting)
      (inherits : parent.frame.context.isStatic = true → frame.context.isStatic = true)
      (clean : frame.context.isStatic = true → frame.outcome.Effectless) :
      Tidy frame (parent :: waiting)

theorem Tidy.effectless {waiting : List Waiting} (tidy : Tidy frame waiting)
    (static : frame.context.isStatic = true) : frame.outcome.Effectless := by
  cases tidy with
  | root clean => exact clean static
  | child outer inherits clean => exact clean static

theorem Tidy.goes_on {waiting : List Waiting} (tidy : Tidy frame waiting)
    (same : frame.Continues later)
    (stays : frame.context.isStatic = true → frame.outcome.Effectless → later.outcome.Effectless) :
    Tidy later waiting := by
  have kind : later.context.isStatic = frame.context.isStatic :=
    congrArg Context.isStatic same.context
  have clean (static : later.context.isStatic = true) : later.outcome.Effectless := by
    rw [kind] at static
    exact stays static (tidy.effectless static)
  cases tidy with
  | root _ => exact .root clean
  | child outer inherits _ => exact .child outer (fun static => kind.trans (inherits static)) clean

theorem Affects.tidy {machine last : Machine} (affects : Affects environment machine last)
    (tidy : Tidy machine.frame machine.waiting) : Tidy last.frame last.waiting := by
  -- What only frames do that may modify state says nothing of the others.
  have never {frame : Frame} {claim : Prop} (mutable : frame.context.isStatic = false)
      (static : frame.context.isStatic = true) : claim := by
    rw [mutable] at static
    cases static
  cases affects with
  | quiet discreet => exact tidy.goes_on discreet.same discreet.effectless
  | stored key value mutable discreet => exact tidy.goes_on discreet.same discreet.effectless
  | removed same mutable deleted => exact tidy.goes_on same fun static => never mutable static
  | sent fair discreet => exact tidy.goes_on discreet.same discreet.effectless
  | called fair discreet fresh inherits =>
      refine .child (tidy.goes_on discreet.same discreet.effectless) ?_ ?_
      · intro static
        exact inherits ((congrArg Context.isStatic discreet.same.context).symm.trans static)
      · intro _
        rw [fresh]
        exact ⟨rfl, rfl, rfl⟩
  | settled same mutable covered deletions =>
    exact tidy.goes_on same fun static => never mutable static
  | made same mutable covered deletions fresh =>
      refine .child (tidy.goes_on same fun static => never mutable static) ?_ ?_
      · intro static
        exact never mutable ((congrArg Context.isStatic same.context).symm.trans static)
      · intro _
        rw [fresh]
        exact ⟨rfl, rfl, rfl⟩
  | @answered child parent waiting ledger =>
      cases tidy with
      | child outer inherits clean =>
          refine outer.goes_on
            ((parent.awaited.continues_answered environment child.outcome parent.frame).trans
              (Frame.continues_advance _)) ?_
          intro static effectless
          exact effectless_answered environment parent.awaited (clean (inherits static)) effectless

theorem tidy_of_reaches {root : Frame} {base : Ledger} {machine : Machine}
    (fresh : root.outcome.Effectless) (reached : Reaches environment (start root base) machine) :
    Tidy machine.frame machine.waiting := by
  induction reached with
  | here => exact .root fun _ => fresh
  | step before runs ih => exact (affects_next (nested_of_reaches before) runs).tidy ih

/-- As long as a frame lives that may not modify state, from its start to its end, the frames above
it may not modify state either, and balances, nonces, codes and slots stay as they read; whenever it
is at work itself, and so in the end, it has noted no log, no deletion and no refund. The first
frame of the run has begun without any of these, as a fresh one does. -/
theorem static_frame_writes_nothing {root : Frame} {base : Ledger} {first machine : Machine}
    (fresh : root.outcome.Effectless) (reached : Reaches environment (start root base) first)
    (static : first.frame.context.isStatic = true) (lives : Lives environment first machine) :
    ∃ inner, machine.waiting = inner ++ first.waiting ∧
      (∀ frame ∈ machine.frame :: inner.map Waiting.frame, frame.context.isStatic = true) ∧
      (∀ address, machine.ledger.balance address = first.ledger.balance address ∧
        machine.ledger.nonce address = first.ledger.nonce address ∧
        machine.ledger.code address = first.ledger.code address) ∧
      (∀ address key, machine.ledger.slot? address key = first.ledger.slot? address key) ∧
      (inner = [] → first.frame.Continues machine.frame ∧ machine.frame.outcome.logs = #[] ∧
        machine.frame.outcome.deletions = [] ∧ machine.frame.outcome.refundPool = 0) := by
  have effectless := (tidy_of_reaches fresh reached).effectless static
  have here : Restrained first.frame first.ledger first.ledger := ⟨static, effectless, .refl _⟩
  have levels := preserves_restrained.levels lives (nested_of_reaches reached) here
  obtain ⟨inner, waits, kinds, reads, last⟩ := levels.restrained
  refine ⟨inner, waits, kinds, ?accounts, reads.slot, ?outcome⟩
  case accounts =>
    intro address
    have account := reads.account address
    exact ⟨congrArg Account.balance account, congrArg Account.nonce account,
      congrArg Account.code account⟩
  case outcome =>
    intro none
    obtain ⟨same, effectless⟩ := last none
    exact ⟨same, effectless.logs, effectless.deletions, effectless.refundPool⟩

end

-- Code that calls the account at ten by STATICCALL.
def askingFrame : Frame :=
  Frame.start #[0x60, 0, 0x60, 0, 0x60, 0, 0x60, 0, 0x60, 10, 0x61, 0xff, 0xff, 0xfa]
    callingFrame.context 1024

def calledStatically : Machine := (start askingFrame calledLedger).runFor {} 7

/-- The code at ten fills a slot, but not when it is called like this. -/
theorem static_frame_leaves_calledLedger :
    askingFrame.outcome.Effectless ∧ Reaches {} (start askingFrame calledLedger) calledStatically ∧
      calledStatically.frame.context.isStatic = true ∧
      Lives {} calledStatically (calledStatically.runFor {} 3) ∧
      (calledStatically.runFor {} 3).frame.stopped = true ∧
      (calledStatically.runFor {} 3).ledger.slot? 10 1 = calledStatically.ledger.slot? 10 1 := by
  have fresh : askingFrame.outcome.Effectless := ⟨rfl, rfl, rfl⟩
  have reached : Reaches {} (start askingFrame calledLedger) calledStatically :=
    runFor_reaches {} 7 _
  have static : calledStatically.frame.context.isStatic = true := by decide +kernel
  have lives : Lives {} calledStatically (calledStatically.runFor {} 3) :=
    lives_runFor 3 (by decide +kernel)
  obtain ⟨_, _, _, _, slots, _⟩ := static_frame_writes_nothing fresh reached static lives
  exact ⟨fresh, reached, static, lives, by decide +kernel, slots 10 1⟩

end Machine

end ContractMachine
