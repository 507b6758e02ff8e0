import ContractMachine.Proofs.Machine.Moves

/-!
Frames and checkpoints. Every step stays in its frame, goes down into a new one or comes back up
from one that has stopped; a checkpoint is opened on the way down and closed on the way up, and
nowhere else does the number of open checkpoints change.
-/

namespace ContractMachine.Machine

inductive Walks (environment : Environment) : Machine → Machine → Prop where
  | level {frame later : Frame} {waiting : List Waiting} {ledger after : Ledger}
      (same : frame.Continues later) (keeps : ledger.KeepsBelow after) :
      Walks environment ⟨frame, waiting, ledger⟩ ⟨later, waiting, after⟩
  | down {frame parent child : Frame} {awaited : Awaited} {waiting : List Waiting}
      {ledger after : Ledger} (same : frame.Continues parent) (room : parent.HasRoom)
      (deeper : child.context.depth = frame.context.depth + 1)
      (bounded : child.context.depth ≤ environment.config.limits.callDepth)
      (opens : ledger.Opens after) :
      Walks environment ⟨frame, waiting, ledger⟩ ⟨child, ⟨parent, awaited⟩ :: waiting, after⟩
  | up {child later : Frame} {parent : Waiting} {waiting : List Waiting} {ledger after : Ledger}
      (stopped : child.stopped = true) (same : parent.frame.Continues later)
      (closes : ledger.Closes after) :
      Walks environment ⟨child, parent :: waiting, ledger⟩ ⟨later, waiting, after⟩

theorem depth_of_granted {environment : Environment} {frame : Frame} {ledger : Ledger}
    {value : Word} (granted : ¬ frame.Refused environment ledger value) :
    frame.context.depth + 1 ≤ environment.config.limits.callDepth :=
  Nat.lt_of_not_le fun deep => granted (.inl deep)

section

variable {environment : Environment} {frame : Frame} {waiting : List Waiting} {ledger : Ledger}
  {later : Machine}

theorem Sends.walks {message : Message} {caller : Frame}
    (sends : Sends environment message caller waiting ledger later) (room : caller.HasRoom) :
    Walks environment ⟨caller, waiting, ledger⟩ later := by
  cases sends with
  | @refused refused reader read =>
      have behind : caller.Continues reader := by
        rcases read with rfl | rfl
        · exact caller.continues_setReturned #[]
        · exact message.continues_fed caller
      exact .level (behind.trans ⟨rfl, rfl, rfl, rfl⟩) (.refl ledger)
  | drained granted found dear => exact .level ⟨rfl, rfl, rfl, rfl⟩ (.refl ledger)
  | @delivered contract granted found paid later ran =>
      have same :=
        (SiteAction.continues_precompiled message contract caller).trans
        (SiteAction.continues_of_deliver ran)
      exact .level (same.trans later.continues_advance) (message.keeps_opened caller ledger).commit
  | @overdrawn contract granted found paid later fault ran =>
      rw [SiteAction.eq_of_deliver_error ran]
      have same := SiteAction.continues_precompiled message contract caller
      exact .level (same.trans (Frame.continues_halt _ fault))
        (message.keeps_opened caller ledger).commit
  | passed granted found empty =>
    exact .level ⟨rfl, rfl, rfl, rfl⟩ (message.keeps_opened caller ledger).commit
  | entered granted found code =>
      have opens := (Ledger.KeepsBelow.refl ledger).opens (message.keeps_opened caller ledger)
      exact .down (message.continues_recorded caller ledger) room rfl
        (depth_of_granted granted) opens

theorem level_settledAtOnce {creation : Creation} {child : Outcome} {creator : Frame} {site : Site}
    (same : frame.Continues creator)
    (settled : site = SiteAction.settledAtOnce environment creation child creator ledger) :
    Walks environment ⟨frame, waiting, ledger⟩ ⟨site.frame.advance, waiting, site.ledger⟩ := by
  subst settled
  have answered := SiteAction.continues_settledAtOnce environment creation child creator ledger
  have bumped := (Ledger.writes_bumpNonce ledger creator.owner).keepsBelow
  have keeps := SiteAction.keeps_settledAtOnce environment creation child creator ledger
  exact .level ((same.trans answered).trans (Frame.continues_advance _)) (bumped.trans keeps)

theorem Makes.walks (makes : Makes environment frame waiting ledger later)
    (room : (Creation.creator frame).HasRoom) :
    Walks environment ⟨frame, waiting, ledger⟩ later := by
  cases makes with
  | refused refused => exact .level ⟨rfl, rfl, rfl, rfl⟩ (.refl ledger)
  | collided granted inUse settled =>
    exact level_settledAtOnce (Creation.continues_creator frame) settled
  | passed granted free empty settled =>
    exact level_settledAtOnce (Creation.continues_creator frame) settled
  | @entered granted free code creator ready creation asked =>
      subst ready
      have bumped := (Ledger.writes_bumpNonce ledger frame.owner).keepsBelow
      -- The nonce moves in the checkpoint that was the newest before.
      have opens := bumped.opens (creation.keeps_opened (Creation.creator frame) ledger)
      exact .down ⟨rfl, rfl, rfl, rfl⟩ room rfl (depth_of_granted granted) opens

/-- Only what a frame has in common with its later self matters to a walk. -/
theorem Walks.before {caller : Frame} (walks : Walks environment ⟨caller, waiting, ledger⟩ later)
    (same : frame.Continues caller) (runs : caller.stopped = false) :
    Walks environment ⟨frame, waiting, ledger⟩ later := by
  cases walks with
  | level after keeps => exact .level (same.trans after) keeps
  | down after room deeper bounded opens =>
      rw [same.context] at deeper
      exact .down (same.trans after) room deeper bounded opens
  | up stopped after closes => rw [runs] at stopped; cases stopped

theorem Executes.walks (executes : Executes environment frame waiting ledger later) :
    Walks environment ⟨frame, waiting, ledger⟩ later := by
  cases executes with
  | unpaid fault quoted => exact .level (frame.continues_halt fault) (.refl ledger)
  | worked due changes =>
    exact .level ((frame.continues_pay _).trans changes.continues) (.refl ledger)
  | failed due changes fault =>
      have same := (frame.continues_pay _).trans changes.continues
      exact .level (same.trans (Frame.continues_halt _ fault)) (.refl ledger)
  | stored due mutable =>
      have written := Ledger.writes_putSlot ledger frame.owner (frame.operand 0) (frame.operand 1)
      exact .level ⟨rfl, rfl, rfl, rfl⟩ written.keepsBelow
  | removed due mutable =>
    exact .level ⟨rfl, rfl, rfl, rfl⟩ (SiteAction.writes_emptied frame ledger).keepsBelow
  | sent calls sends => exact (sends.walks calls.room).before calls.continues calls.runs
  | made creates makes =>
      exact (makes.walks (creates.due.room rfl)).before (frame.continues_pay _) creates.due.runs

end

/-- Every frame that waits has room for the answer, and the one that it waits for is one deeper,
within the limit. -/
inductive Nested (environment : Environment) (root : Frame) : Frame → List Waiting → Prop where
  | root {frame : Frame} (same : root.Continues frame) : Nested environment root frame []
  | child {frame : Frame} {parent : Waiting} {waiting : List Waiting}
      (outer : Nested environment root parent.frame waiting) (room : parent.frame.HasRoom)
      (deeper : frame.context.depth = parent.frame.context.depth + 1)
      (bounded : frame.context.depth ≤ environment.config.limits.callDepth) :
      Nested environment root frame (parent :: waiting)

theorem Nested.continues {environment : Environment} {root frame later : Frame}
    {waiting : List Waiting} (nested : Nested environment root frame waiting)
    (same : frame.Continues later) : Nested environment root later waiting := by
  cases nested with
  | root before => exact .root (before.trans same)
  | child outer room deeper bounded =>
      rw [← same.context] at deeper bounded
      exact .child outer room deeper bounded

theorem Walks.nested {environment : Environment} {root : Frame} {machine later : Machine}
    (walks : Walks environment machine later)
    (nested : Nested environment root machine.frame machine.waiting) :
    Nested environment root later.frame later.waiting := by
  cases walks with
  | level same keeps => exact nested.continues same
  | down same room deeper bounded opens =>
      rw [← same.context] at deeper
      exact .child (nested.continues same) room deeper bounded
  | up stopped same closes =>
      cases nested with
      | child outer room deeper bounded => exact outer.continues same

/-- Where the frame at work has stopped and the machine has not finished, another frame waits and is
answered. -/
theorem next_of_stopped {environment : Environment} {root frame : Frame} {waiting : List Waiting}
    {ledger : Ledger} (nested : Nested environment root frame waiting)
    (runs : finished ⟨frame, waiting, ledger⟩ = false) (stopped : frame.stopped = true) :
    ∃ parent rest, waiting = parent :: rest ∧
      next environment ⟨frame, waiting, ledger⟩ =
        ⟨(parent.awaited.answered environment frame.outcome parent.frame).advance, rest,
          parent.awaited.closed environment frame.outcome ledger⟩ := by
  cases nested with
  -- No frame waits for the root, so that the machine would have finished.
  | root same => simp [finished, stopped] at runs
  | @child _ parent waiting outer room deeper bounded =>
      exact ⟨parent, waiting, rfl, next_stopped waiting stopped room⟩

theorem walks_next {environment : Environment} {root : Frame} {machine : Machine}
    (nested : Nested environment root machine.frame machine.waiting)
    (runs : machine.finished = false) :
    Walks environment machine (machine.next environment) := by
  obtain ⟨frame, waiting, ledger⟩ := machine
  cases stopped : frame.stopped with
  | false =>
      rw [next_running waiting stopped]
      exact (executes_instruct waiting stopped).walks
  | true =>
      obtain ⟨parent, waiting, rfl, goes⟩ := next_of_stopped nested runs stopped
      rw [goes]
      have answered := parent.awaited.continues_answered environment frame.outcome parent.frame
      exact .up stopped (answered.trans (Frame.continues_advance _))
        (parent.awaited.closes_closed _ _ _)

theorem nested_next {environment : Environment} {root frame : Frame} {waiting : List Waiting}
    (nested : Nested environment root frame waiting) (runs : frame.stopped = false)
    (ledger : Ledger) :
    Nested environment root (next environment ⟨frame, waiting, ledger⟩).frame
      (next environment ⟨frame, waiting, ledger⟩).waiting := by
  rw [next_running waiting runs]
  exact (executes_instruct waiting runs).walks.nested nested

/-- Open checkpoints are counted by the frames that wait. -/
theorem Walks.depth {environment : Environment} {machine later : Machine} {entry : Nat}
    (walks : Walks environment machine later)
    (counted : machine.ledger.depth = entry + machine.waiting.length) :
    later.ledger.depth = entry + later.waiting.length := by
  cases walks with
  | level same keeps => rw [keeps.depth, counted]
  | down same room deeper bounded opens =>
      rw [opens.depth, counted]
      rfl
  | up stopped same closes =>
      rw [closes.depth, counted]
      rfl

section

variable {environment : Environment} {root : Frame} {ledger : Ledger} {machine : Machine}

theorem Nested.reaches {first : Machine}
    (nested : Nested environment root first.frame first.waiting)
    (reached : Reaches environment first machine) :
    Nested environment root machine.frame machine.waiting := by
  induction reached with
  | here => exact nested
  | step before runs ih => exact (walks_next ih runs).nested ih

theorem nested_of_reaches (reached : Reaches environment (start root ledger) machine) :
    Nested environment root machine.frame machine.waiting :=
  Nested.reaches (.root (.refl root)) reached

theorem depth_of_reaches (reached : Reaches environment (start root ledger) machine) :
    machine.ledger.depth = ledger.depth + machine.waiting.length := by
  induction reached with
  | here => rfl
  | step before runs ih => exact (walks_next (nested_of_reaches before) runs).depth ih

def childFrames (frame : Frame) : List Waiting → List Frame
  | [] => []
  | parent :: waiting => childFrames parent.frame waiting ++ [frame]

def children (machine : Machine) : List Frame := childFrames machine.frame machine.waiting

theorem childFrames_length (frame : Frame) (waiting : List Waiting) :
    (childFrames frame waiting).length = waiting.length := by
  induction waiting generalizing frame with
  | nil => rfl
  | cons parent rest ih =>
      rw [childFrames, List.length_append, ih]
      rfl

theorem Nested.depth {frame : Frame} {waiting : List Waiting}
    (nested : Nested environment root frame waiting) :
    frame.context.depth = root.context.depth + waiting.length := by
  induction nested with
  | root same => rw [same.context]; rfl
  | child outer room deeper bounded ih =>
      rw [deeper, ih]
      rfl

theorem Nested.childFrames {frame : Frame} {waiting : List Waiting}
    (nested : Nested environment root frame waiting) {i : Nat} {child : Frame}
    (found : (childFrames frame waiting)[i]? = some child) :
    child.context.depth = root.context.depth + i + 1 ∧
      child.context.depth ≤ environment.config.limits.callDepth := by
  induction nested with
  | root same => cases found
  | @child frame parent waiting outer room deeper bounded ih =>
      have length := childFrames_length parent.frame waiting
      rw [Machine.childFrames, List.getElem?_append, length] at found
      -- The frame itself is the last of the children; the others are those of the frame that waits.
      split at found
      · exact ih found
      · have last : i - waiting.length = 0 := by
          cases position : i - waiting.length with
          | zero => rfl
          | succ n => rw [position] at found; cases found
        rw [last] at found
        cases found
        have depth := outer.depth
        exact ⟨by omega, bounded⟩

/-- At every moment of a run, one checkpoint is open for each child frame on top of those that were
open at the start; the children lie one deeper each, within the limit; and when one has stopped, the
frame that waits takes it over without a fault. When the run is over, no more checkpoints are open
than at the start. -/
theorem checkpoints_follow_frames (reached : Reaches environment (start root ledger) machine) :
    machine.ledger.depth = ledger.depth + machine.children.length ∧
    (∀ i child, machine.children[i]? = some child →
      child.context.depth = root.context.depth + i + 1 ∧
        child.context.depth ≤ environment.config.limits.callDepth) ∧
    (∀ parent waiting, machine.waiting = parent :: waiting → machine.frame.stopped = true →
      ∃ site, SiteAction.settle environment parent.awaited machine.frame.outcome
        ⟨parent.frame, machine.ledger⟩ =
        .ok () site) ∧
    (machine.finished = true → machine.ledger.depth = ledger.depth) := by
  have nested := nested_of_reaches reached
  have depth := depth_of_reaches reached
  refine ⟨?counted, ?deeper, ?answered, ?closed⟩
  case counted => rw [children, childFrames_length, depth]
  case deeper =>
    intro i child found
    exact nested.childFrames found
  case answered =>
    intro parent waiting waits stopped
    rw [waits] at nested
    cases nested with
    | child outer room deeper bounded =>
      exact ⟨_, SiteAction.settle_eq environment parent.awaited _ _ room⟩
  case closed =>
    intro done
    have none : machine.waiting = [] := by
      rw [finished, Bool.and_eq_true] at done
      exact List.isEmpty_iff.mp done.2
    rw [depth, none]
    rfl

end

-- Code that calls the account at ten.
def callingFrame : Frame :=
  Frame.start #[0x60, 0, 0x60, 0, 0x60, 0, 0x60, 0, 0x60, 0, 0x60, 10, 0x61, 0xff, 0xff, 0xf1]
    { address := 7, origin := 7, caller := 7, value := 0, data := #[], gas := 1000000,
      gasPrice := 1, block := {}, depth := 0, isStatic := false, transactionHash := 0 } 1024

-- The account at ten fills a slot and then fails.
def calledLedger : Ledger := Ledger.setCode {} 10 #[0x60, 1, 0x60, 1, 0x55, 0xfe]

theorem checkpoints_follow_called_frame :
    Reaches {} (start callingFrame calledLedger) ((start callingFrame calledLedger).runFor {} 8) ∧
    ((start callingFrame calledLedger).runFor {} 8).children.length = 1 ∧
    ((start callingFrame calledLedger).runFor {} 8).ledger.depth = calledLedger.depth + 1 := by
  have reached := runFor_reaches {} 8 (start callingFrame calledLedger)
  have entered : ((start callingFrame calledLedger).runFor {} 8).children.length = 1 := by
    decide +kernel
  have counted := (checkpoints_follow_frames reached).1
  rw [entered] at counted
  exact ⟨reached, entered, counted⟩

end ContractMachine.Machine
