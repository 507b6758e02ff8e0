import ContractMachine.Proofs.Execution.Completion
import ContractMachine.Proofs.Machine.Containment

/-!
What the summary of a transaction tells of the run of its code. The root ends last, when it is known
what becomes of the code that a creation has returned; with a root that fails all effects are gone
and all records are rejected.
-/

namespace ContractMachine.Execution

/-- As `Performs`, with what has happened. Before there is a root nothing happens. -/
inductive Happens (begun : Execution) : History → Execution → Prop where
  | idle (code : begun.machine? = none) : Happens begun [] begun.commit
  | unpaid {fault : Fault} {frame : Frame} (code : begun.machine? = some (.error (fault, frame))) :
      Happens begun [⟨[], .ended false⟩]
        (begun.conclude (frame.spendAll.outcome.setFault fault) begun.ledger)
  | ran {machine : Machine} {steps : Nat} {chronicle : Chronicle}
      (code : begun.machine? = some (.ok machine))
      (runs : chronicle = .after begun.environment machine steps)
      (ends : chronicle.machine.finished = true) :
      Happens begun
        (chronicle.past ++ [⟨[], .ended
          (begun.deposited chronicle.machine.frame.outcome
            chronicle.machine.ledger).outcome.succeeded⟩])
        (begun.conclude chronicle.machine.frame.outcome chronicle.machine.ledger)

structure Course (execution begun performed done : Execution) (history : History) : Prop where
  starts : ∃ approved, execution.approve = .ok approved ∧ approved.begin = .ok begun
  happens : begun.Happens history performed
  settled : performed.settle = .ok done

section

variable {execution approved begun performed done : Execution} {outcome : Outcome}
  {past history : History}

theorem Completes.course (completes : execution.Completes done) :
    ∃ begun performed history, execution.Course begun performed done history := by
  cases completes with
  | @intro approved begun performed accepted starts performs settled =>
      have begins : ∃ approved, execution.approve = .ok approved ∧ approved.begin = .ok begun :=
        ⟨approved, accepted, starts⟩
      cases performs with
      | idle code => exact ⟨begun, _, _, begins, .idle code, settled⟩
      | unpaid code => exact ⟨begun, _, _, begins, .unpaid code, settled⟩
      | @ran machine last code reached ends =>
          obtain ⟨steps, rfl⟩ := Machine.runFor_of_reaches reached
          rw [← Chronicle.machine_after] at ends settled
          exact ⟨begun, _, _, begins, .ran code rfl ends, settled⟩

structure Bare (execution : Execution) : Prop where
  outcome : execution.outcome.Blank
  frame : ∀ frame, execution.frame = some frame → frame.outcome.Blank

theorem Bare.moveValue (bare : execution.Bare) (target : Address) :
    (execution.moveValue target).Bare :=
  ⟨bare.outcome, bare.frame⟩

theorem Bare.spendBase (bare : execution.Bare) : execution.spendBase.Bare :=
  ⟨⟨⟨bare.outcome.logs, bare.outcome.deletions, bare.outcome.refundPool⟩, bare.outcome.records⟩,
    bare.frame⟩

theorem Bare.prepare (bare : execution.Bare) (code : Bytes) (owner : Address) :
    (execution.prepare code owner).Bare := by
  refine ⟨bare.outcome, ?_⟩
  intro frame root
  cases root
  exact ⟨⟨rfl, rfl, rfl⟩, rfl⟩

theorem Bare.begin (bare : execution.Bare) (starts : execution.begin = .ok begun) : begun.Bare := by
  obtain ⟨_, _, _, _, frame, outcome⟩ := execution.entered_fields
  have entered : execution.entered.Bare := by
    constructor
    · rw [outcome]
      exact bare.outcome
    · rw [frame]
      exact bare.frame
  have opened : Bare { execution.entered with
      ledger := execution.entered.ledger.bumpNonce execution.entered.createdAddress } :=
    ⟨entered.outcome, entered.frame⟩
  cases begins_of_begin starts with
  | drained | collided => exact ⟨entered.outcome, entered.frame⟩
  | answered =>
      have blank := entered.outcome
      exact ⟨⟨⟨blank.logs, blank.deletions, blank.refundPool⟩, blank.records⟩, entered.frame⟩
  | moved => exact entered.spendBase.moveValue _
  | called => exact (entered.prepare _ _).moveValue _
  | passed => exact opened.spendBase.moveValue _
  | made => exact (opened.prepare _ _).moveValue _

theorem Bare.approve (bare : execution.Bare) (accepted : execution.approve = .ok approved) :
    approved.Bare := by
  rw [ready_of_approve accepted]
  exact ⟨bare.outcome, bare.frame⟩

theorem bare_ofTransaction (environment : Environment) (tx : Transaction) (block : Block)
    (ledger : Ledger) (usedInBlock : Nat) (isLocal : Bool) :
    (ofTransaction environment tx block ledger usedInBlock isLocal).Bare := by
  refine ⟨⟨⟨rfl, rfl, rfl⟩, rfl⟩, ?_⟩
  intro frame root
  cases root

/-- The code of the transaction begins with nothing to be told. -/
theorem Bare.machine (bare : begun.Bare) {machine : Machine}
    (code : begun.machine? = some (.ok machine)) :
    ∃ root, machine = .start root begun.ledger ∧ root.outcome.Blank := by
  obtain ⟨frame, paid, root, spent, rfl⟩ := start_of_machine code
  refine ⟨paid, rfl, ?_⟩
  have blank := bare.frame frame root
  rw [(Frame.eq_of_spend spent).2]
  exact ⟨⟨blank.logs, blank.deletions, blank.refundPool⟩, blank.records⟩

theorem Bare.unpaid (bare : begun.Bare) {fault : Fault} {frame : Frame}
    (code : begun.machine? = some (.error (fault, frame))) :
      (frame.spendAll.outcome.setFault fault).Blank := by
  unfold machine? at code
  cases root : begun.frame with
  | none =>
      rw [root] at code
      cases code
  | some first =>
      have blank := bare.frame first root
      rw [root, Option.map_some] at code
      split at code
      · cases code
      · cases code
        exact ⟨⟨blank.logs, blank.deletions, blank.refundPool⟩, blank.records⟩

theorem outcome_commit (execution : Execution) : execution.commit.outcome = execution.outcome := by
  unfold commit
  split <;> rfl

/-- To deploy code adds nothing to be told, and makes no failure a success. -/
theorem deposited_outcome (begun : Execution) (outcome : Outcome) (ledger : Ledger) :
    (begun.deposited outcome ledger).outcome.logs = outcome.logs ∧
      (begun.deposited outcome ledger).outcome.deletions = outcome.deletions ∧
      (begun.deposited outcome ledger).outcome.refundPool = outcome.refundPool ∧
      (begun.deposited outcome ledger).outcome.records = outcome.records ∧
      ((begun.deposited outcome ledger).outcome.succeeded = true → outcome.fault = none) := by
  have deposits := begun.deposits_deposited outcome ledger
  have sound (succeeded : (begun.deposited outcome ledger).outcome.succeeded = true) :
      outcome.fault = none :=
    (outcome.succeeded_iff.mp (deposits.succeeded succeeded)).1
  generalize begun.deposited outcome ledger = later at deposits sound ⊢
  cases deposits with
  | unasked | deployed | emptied | refused => exact ⟨rfl, rfl, rfl, rfl, sound⟩

/-- The outcome of a transaction tells what has happened in it. -/
structure Recounts (outcome : Outcome) (history : History) : Prop where
  keeps : outcome.Keeps history 0
  pools : outcome.Pools history 0
  records : outcome.records.toList = history.records 0
  failed : ⟨[], .ended false⟩ ∈ history → outcome.logs = #[] ∧ outcome.deletions = [] ∧
  outcome.refundPool = 0

theorem recounts_conclude (begun : Execution) (tells : Tells [] past outcome) (ledger : Ledger) :
    Recounts (begun.conclude outcome ledger).outcome
      (past ++ [⟨[], .ended (begun.deposited outcome ledger).outcome.succeeded⟩]) := by
  obtain ⟨logs, deletions, refundPool, records, sound⟩ := begun.deposited_outcome outcome ledger
  rw [conclude_eq]
  cases succeeded : (begun.deposited outcome ledger).outcome.succeeded with
  | true =>
      have keeps := tells.keeps_root
      have pools := tells.pools_root (sound succeeded)
      rw [if_pos rfl, outcome_commit]
      refine ⟨⟨?_, ?_, ?_⟩, refundPool.trans pools, ?_, ?_⟩
      · rw [logs, keeps.logs]
      · rw [deletions]
        exact keeps.deletions
      · rw [deletions]
        exact keeps.sorted
      · rw [records, tells.records_root true, if_pos rfl]
      · intro ended
        rcases List.mem_append.mp ended with before | last
        · exact absurd before (tells.runs false)
        · cases List.mem_singleton.mp last
  | false =>
      have gone {α : Type} {pick : Deed → Option α} (ending : ∀ flag, pick (.ended flag) = none) :
          History.kept (past ++ [⟨[], .ended false⟩]) 0 pick = [] :=
        tells.kept_root false ending
      rw [if_neg Bool.false_ne_true]
      refine ⟨⟨?_, ?_, List.Pairwise.nil⟩, ?_, ?_, fun _ => ⟨rfl, rfl, rfl⟩⟩
      · exact (gone fun _ => rfl).symm
      · intro account
        rw [gone fun _ => rfl]
        rfl
      · rw [Outcome.Pools, gone fun _ => rfl]
        rfl
      · rw [tells.records_root false, if_neg Bool.false_ne_true]
        exact Array.toList_map.trans
          (congrArg (fun records => records.toList.map Record.reject) records)

theorem recounts_blank (blank : outcome.Blank) : Recounts outcome [] where
  keeps := blank.keeps 0
  pools := blank.refundPool
  records := congrArg Array.toList blank.records
  failed := by
    intro ended
    cases ended

theorem Happens.recounts (happens : begun.Happens history performed) (bare : begun.Bare) :
    Recounts performed.outcome history := by
  cases happens with
  | idle code =>
      rw [outcome_commit]
      exact recounts_blank bare.outcome
  | @unpaid fault frame code =>
      have recounts := recounts_conclude begun (tells_blank [] (bare.unpaid code)) begun.ledger
      obtain ⟨_, _, _, _, sound⟩ :=
        begun.deposited_outcome (frame.spendAll.outcome.setFault fault) begun.ledger
      have unsuccessful :=
        Bool.eq_false_iff.mpr fun succeeded => Option.some_ne_none fault (sound succeeded)
      rw [unsuccessful] at recounts
      exact recounts
  | ran code runs ends =>
      obtain ⟨root, rfl, blank⟩ := bare.machine code
      subst runs
      exact recounts_conclude begun ((Chronicle.sound_after blank _).tells_root ends) _

theorem summary_of_settle (settled : performed.settle = .ok done) :
    done.summary.logs = performed.outcome.logs ∧
    done.summary.deletions = performed.outcome.deletions ∧
      done.summary.records = performed.outcome.records := by
  unfold settle at settled
  split at settled
  · cases settled
    have granted : performed.commit.grantRefund.deleteAccounts.outcome = performed.outcome.addRefund
        (Quantity.clamp
          (performed.commit.outcome.deletions.length * performed.commit.fees.suicideRefund)) :=
      congrArg (Outcome.addRefund · _) performed.outcome_commit
    unfold summary
    rw [(fields_of_payBack _).1, granted]
    exact ⟨rfl, rfl, rfl⟩
  · cases settled

/-- What is seen of a run of code comes from frames that have succeeded, as have all frames around
them: the logs in the order in which they were made, the deletions each once, and what is to be
refunded, cut off at the limit. A transaction whose root has failed shows none of it. A run by
itself leaves it open what becomes of the root, and what its outcome shows counts if the root has
succeeded. -/
theorem effects_are_those_of_succeeded_frames :
    (∀ (environment : Environment) (root : Frame) (ledger : Ledger) (steps : Nat),
      root.outcome.Blank →
      let chronicle := Chronicle.after environment (.start root ledger) steps
      let outcome := chronicle.machine.frame.outcome
      chronicle.machine.finished = true →
        outcome.Keeps (chronicle.past ++ [⟨[], .ended true⟩]) 0 ∧ outcome.deletions.Nodup ∧
          (outcome.fault = none → outcome.Pools (chronicle.past ++ [⟨[], .ended true⟩]) 0)) ∧
    (∀ (environment : Environment) (tx : Transaction) (block : Block) (ledger : Ledger)
      (usedInBlock : Nat)
      (isLocal : Bool) (done : Execution),
      (ofTransaction environment tx block ledger usedInBlock isLocal).Completes done →
        ∃ begun performed history,
          (ofTransaction environment tx block ledger usedInBlock isLocal).Course begun performed
            done history ∧
          done.summary.logs.toList = history.kept 0 Deed.log? ∧
          (∀ account, account ∈ done.summary.deletions ↔ account ∈ history.kept 0 Deed.account?) ∧
          done.summary.deletions.Nodup ∧ performed.outcome.Pools history 0 ∧
          (⟨[], .ended false⟩ ∈ history →
            done.summary.logs = #[] ∧ done.summary.deletions = [] ∧
              performed.outcome.refundPool = 0)) := by
  constructor
  · intro environment root ledger steps blank chronicle outcome ends
    have tells := (Chronicle.sound_after blank steps).tells_root ends
    exact ⟨tells.keeps_root, tells.keeps.sorted.nodup, tells.pools_root⟩
  · intro environment tx block ledger usedInBlock isLocal done completes
    obtain ⟨begun, performed, history, course⟩ := completes.course
    obtain ⟨approved, accepted, starts⟩ := course.starts
    have bare :=
      ((bare_ofTransaction environment tx block ledger usedInBlock isLocal).approve accepted).begin
      starts
    have recounts := course.happens.recounts bare
    obtain ⟨logs, deletions, -⟩ := summary_of_settle course.settled
    refine ⟨begun, performed, history, course, ?_⟩
    rw [logs, deletions]
    exact ⟨recounts.keeps.logs, recounts.keeps.deletions, recounts.keeps.sorted.nodup,
      recounts.pools, recounts.failed⟩

-- Logs, calls an account that fails and one that clears its slot, and removes itself.
def eventfulCode : Bytes := #[
  0x60, 0, 0x60, 0, 0xa0,
  0x60, 0, 0x60, 0, 0x60, 0, 0x60, 0, 0x60, 0, 0x60, 10, 0x61, 0xff, 0xff, 0xf1,
  0x60, 0, 0x60, 0, 0x60, 0, 0x60, 0, 0x60, 0, 0x60, 13, 0x61, 0xff, 0xff, 0xf1,
  0x60, 7, 0xff]

-- The account at ten logs before it fails.
def eventfulLedger : Ledger :=
  let called := failingLedger.setCode 10 #[0x60, 0, 0x60, 0, 0xa0, 0xfe]
  let clearing := (called.setCode 13 #[0x60, 0, 0x60, 1, 0x55]).putSlot 13 1 9
  clearing.setCode 12 eventfulCode

def eventfulRoot : Frame :=
  Frame.start eventfulCode { Machine.callingFrame.context with address := 12 } 1024

def eventfulCall : Transaction := { failingCall with recipient := some 12, gas := 200000 }

def eventful : Execution := ofTransaction {} eventfulCall {} eventfulLedger 0 false

/-- The summary shows one log of two, one deletion, and what one slot and that deletion give
back. -/
theorem eventful_completes :
    ∃ done, eventful.Completes done ∧ done.summary.logs.size = 1 ∧ done.summary.deletions = [12] ∧
      done.outcome.refundPool = 39000 ∧
      done.summary.records.toList.map Record.rejected = [true, false, false] := by
  have ran : eventful.run.toOption.map (fun done =>
      (done.summary.logs.size, done.summary.deletions, done.outcome.refundPool,
        done.summary.records.toList.map Record.rejected)) =
          some (1, [12], 39000, [true, false, false]) := by
    decide +kernel
  obtain ⟨done, completes, seen⟩ := completes_with rfl (by decide) (by decide +kernel) ran
  simp only [Prod.mk.injEq] at seen
  exact ⟨done, completes, seen⟩

theorem effects_of_eventfulRoot_and_eventful :
    (∃ outcome past, eventfulRoot.outcome.Blank ∧
      (Chronicle.after {} (.start eventfulRoot eventfulLedger) 30).machine.finished = true ∧
      (Chronicle.after {} (.start eventfulRoot eventfulLedger) 30).machine.frame.outcome = outcome ∧
      (Chronicle.after {} (.start eventfulRoot eventfulLedger) 30).past = past ∧
      outcome.logs.size = 1 ∧ outcome.deletions = [12] ∧ outcome.refundPool = 15000 ∧
      outcome.Keeps (past ++ [⟨[], .ended true⟩]) 0 ∧
      outcome.Pools (past ++ [⟨[], .ended true⟩]) 0) ∧
    ∃ done, eventful.Completes done ∧ done.summary.logs.size = 1 ∧ done.summary.deletions = [12] ∧
      done.outcome.refundPool = 39000 ∧
      ∃ begun performed history, eventful.Course begun performed done history ∧
        done.summary.logs.toList = history.kept 0 Deed.log? ∧
        (∀ account, account ∈ history.kept 0 Deed.account? ↔ account = 12) ∧
        performed.outcome.Pools history 0 := by
  obtain ⟨run, transaction⟩ := effects_are_those_of_succeeded_frames
  constructor
  · have blank : eventfulRoot.outcome.Blank := ⟨⟨rfl, rfl, rfl⟩, rfl⟩
    have ends : (Chronicle.after {} (.start eventfulRoot eventfulLedger) 30).machine.finished =
        true := by
      decide +kernel
    have seen : let outcome :=
        (Chronicle.after {} (.start eventfulRoot eventfulLedger) 30).machine.frame.outcome
        outcome.logs.size = 1 ∧ outcome.deletions = [12] ∧ outcome.refundPool = 15000 ∧
          outcome.fault = none := by
      decide +kernel
    obtain ⟨keeps, -, pools⟩ := run {} _ _ 30 blank ends
    obtain ⟨logs, deletions, refundPool, sound⟩ := seen
    exact ⟨_, _, blank, ends, rfl, rfl, logs, deletions, refundPool, keeps, pools sound⟩
  · obtain ⟨done, completes, one, deleted, refunded, -⟩ := eventful_completes
    obtain ⟨begun, performed, history, course, logs, deletions, -, pools, -⟩ :=
      transaction {} eventfulCall {} eventfulLedger 0 false done completes
    refine ⟨done, completes, one, deleted, refunded, begun, performed, history, course, logs, ?_,
      pools⟩
    intro account
    rw [← deletions, deleted, List.mem_singleton]

-- Code that logs and reverts.
def loggingFrame : Frame :=
  Frame.start #[0x60, 0, 0x60, 0, 0xa0, 0x60, 0, 0x60, 0, 0xfd]
    { address := 0xaa, origin := 0xcc, caller := 0xcc, value := 0, data := #[], gas := 1000000,
      gasPrice := 1, block := {}, depth := 0, isStatic := false, transactionHash := 0 } 1024

/-- A run by itself does not take from its root what the root has failed to keep. -/
theorem reverting_root_shows_its_log :
    ¬ ∀ (environment : Environment) (root : Frame) (ledger : Ledger) (steps : Nat),
      root.outcome.Blank →
      let chronicle := Chronicle.after environment (.start root ledger) steps
      let outcome := chronicle.machine.frame.outcome
      chronicle.machine.finished = true →
        outcome.Keeps (chronicle.past ++ [⟨[], .ended outcome.succeeded⟩]) 0 := by
  intro all
  have keeps := all {} loggingFrame {} 6 ⟨⟨rfl, rfl, rfl⟩, rfl⟩ (by decide +kernel)
  have logs := congrArg List.length keeps.logs
  revert logs
  decide +kernel

/-- The summary has one record of each call and each creation that was asked for and of each
removal, in the order in which they happened. Rejected are those of which the frame that they
concern or one around it has failed. At every moment of the run, what a frame has recorded stands in
its own outcome where its index says. -/
theorem records_are_those_of_all_frames {environment : Environment} {tx : Transaction}
    {block : Block} {ledger : Ledger} {usedInBlock : Nat} {isLocal : Bool}
    (completes : (ofTransaction environment tx block ledger usedInBlock isLocal).Completes done) :
    ∃ begun performed history,
      (ofTransaction environment tx block ledger usedInBlock isLocal).Course begun performed done
        history ∧
      done.summary.records.toList = history.records 0 ∧
      ∀ (machine : Machine) (steps i : Nat) (record : Record), begun.machine? = some (.ok machine) →
        let chronicle := Chronicle.after begun.environment machine steps
        (chronicle.past.inside chronicle.place).entries[i]? = some (chronicle.place, record) →
          record.index = i ∧
            ∃ rejected,
              chronicle.machine.frame.outcome.records[i]? = some (record.mark rejected) := by
  obtain ⟨begun, performed, history, course⟩ := completes.course
  obtain ⟨approved, accepted, starts⟩ := course.starts
  have bare :=
    ((bare_ofTransaction environment tx block ledger usedInBlock isLocal).approve accepted).begin
    starts
  have recounts := course.happens.recounts bare
  obtain ⟨-, -, records⟩ := summary_of_settle course.settled
  refine ⟨begun, performed, history, course, ?_, ?_⟩
  · rw [records]
    exact recounts.records
  · intro machine steps i record code chronicle made
    obtain ⟨root, rfl, blank⟩ := bare.machine code
    exact (Chronicle.sound_after blank steps).record_at made

end

theorem eventful_starts {begun : Execution}
    (starts : ∃ approved, eventful.approve = .ok approved ∧ approved.begin = .ok begun) :
    (opened { eventful with ready := true }).beginCall 12 = begun := by
  obtain ⟨approved, accepted, starts⟩ := starts
  have fresh : Approved { eventful with ready := true } := ⟨rfl, rfl, rfl, rfl, rfl⟩
  rw [ready_of_approve accepted] at starts
  exact Except.ok.inj ((begin_eq fresh).symm.trans starts)

theorem records_of_eventful :
    ∃ done, eventful.Completes done ∧
      done.summary.records.toList.map Record.rejected = [true, false, false] ∧
      ∃ begun performed history, eventful.Course begun performed done history ∧
        done.summary.records.toList = history.records 0 ∧
        ∃ (machine : Machine) (record : Record) (rejected : Bool),
          begun.machine? = some (.ok machine) ∧ record.index = 1 ∧
          (Chronicle.after begun.environment machine 28).machine.frame.outcome.records[1]? =
            some (record.mark rejected) := by
  obtain ⟨done, completes, -, -, -, marks⟩ := eventful_completes
  obtain ⟨begun, performed, history, course, records, indexed⟩ :=
    records_are_those_of_all_frames completes
  have same := eventful_starts course.starts
  subst same
  have ran : ((opened { eventful with ready := true }).beginCall 12).machine?.map (fun started =>
      started.toOption.map fun machine =>
        let chronicle := Chronicle.after {} machine 28
        ((chronicle.past.inside chronicle.place).entries[1]?.map Prod.fst, chronicle.place)) =
          some (some (some [], [])) := by
    decide +kernel
  obtain ⟨machine, code, seen⟩ := machine_with ran
  obtain ⟨second, place⟩ := Prod.mk.inj seen
  obtain ⟨⟨maker, record⟩, made, rfl⟩ := Option.map_eq_some_iff.mp second
  have entry : let chronicle := Chronicle.after {} machine 28
      (chronicle.past.inside chronicle.place).entries[1]? = some (chronicle.place, record) := by
    simp only [place] at made ⊢
    exact made
  obtain ⟨index, rejected, kept⟩ := indexed machine 28 1 record code entry
  exact ⟨done, completes, marks, _, performed, history, course, records, machine, record, rejected,
    code, index, kept⟩

end ContractMachine.Execution
