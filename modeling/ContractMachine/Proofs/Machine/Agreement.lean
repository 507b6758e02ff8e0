import ContractMachine.Proofs.Frame.Agreement
import ContractMachine.Proofs.Machine.Moves

/-!
What a step of the machine learns from memory. Calls and creations hand on the bytes of a window
that their operands name; they, too, come to the same for memories that agree there.
-/

namespace ContractMachine

inductive Site.Agrees (windows : List Window) : Site → Site → Prop where
  | frame {frame other : Frame} (ledger : Ledger) (agrees : frame.Agrees windows other) :
      Agrees windows ⟨frame, ledger⟩ ⟨other, ledger⟩

def Message.FedFrom (windows : List Window) (message : Message) : Prop :=
  ∃ offset size : Word, ⟨offset, size⟩ ∈ windows ∧ message.inOffset = offset.index ∧
    message.inSize = size.index

namespace SiteAction

variable {α : Type} {windows : List Window}

theorem alike_onFrame {action : FrameAction α} {frame other : Frame} (ledger : Ledger)
    (alike : Alike (Frame.Agrees windows) (action frame) (action other)) :
    Alike (Site.Agrees windows) (onFrame action ⟨frame, ledger⟩)
      (onFrame action ⟨other, ledger⟩) := by
  rw [onFrame_apply, onFrame_apply]
  generalize action frame = here, action other = there at alike
  cases alike with
  | ok value agrees => exact .ok value (.frame ledger agrees)
  | error fault agrees => exact .error fault (.frame ledger agrees)

theorem respects_onFrame {action : FrameAction α}
    (respects : Respects (Frame.Agrees windows) action) :
    Respects (Site.Agrees windows) (onFrame action) := by
  rintro _ _ ⟨ledger, agrees⟩
  exact alike_onFrame ledger (respects _ _ agrees)

/-- What is seen of a site must not be the memory. -/
theorem respects_reads {view : Site → α}
    (blind : ∀ site other, Site.Agrees windows site other → view other = view site) :
    Respects (Site.Agrees windows) (reads view) := by
  intro site other agrees
  rw [reads_apply, reads_apply, blind site other agrees]
  exact .ok _ agrees

theorem respects_changeLedger (change : Ledger → Ledger) :
    Respects (Site.Agrees windows) (changeLedger change) := by
  rintro _ _ ⟨ledger, agrees⟩
  exact .ok () (.frame (change ledger) agrees)

theorem respects_owner : Respects (Site.Agrees windows) owner :=
  respects_reads (by rintro _ _ ⟨_, ⟨_⟩⟩; rfl)

theorem respects_atDepthLimit (environment : Environment) :
    Respects (Site.Agrees windows) (atDepthLimit environment) :=
  respects_reads (by rintro _ _ ⟨_, ⟨_⟩⟩; rfl)

theorem respects_cannotPay (value : Word) : Respects (Site.Agrees windows) (cannotPay value) :=
  respects_reads (by rintro _ _ ⟨_, ⟨_⟩⟩; rfl)

theorem respects_push (word : Word) : Respects (Site.Agrees windows) (push word) :=
  respects_onFrame (FrameAction.respects_push word)

theorem respects_giveBack (gas : Nat) :
    Respects (Site.Agrees windows) (onFrame (FrameAction.giveBack gas)) :=
  respects_onFrame (by rintro _ _ ⟨agrees⟩; exact .ok () (.memory agrees))

theorem respects_setReturned (data : Bytes) :
    Respects (Site.Agrees windows) (onFrame (FrameAction.setReturned data)) :=
  respects_onFrame (by rintro _ _ ⟨agrees⟩; exact .ok () (.memory agrees))

theorem respects_addRecord (kind : RecordKind) (source : Address) (target : Option Address)
    (nonce : UInt64) (value : Word) (data : Bytes) (gas : Nat) :
    Respects (Site.Agrees windows)
      (onFrame (FrameAction.update fun frame =>
        frame.addRecord kind source target nonce value data gas)) :=
  respects_onFrame (by rintro _ _ ⟨agrees⟩; exact .ok _ (.memory agrees))

theorem respects_refuse (gas : Nat) : Respects (Site.Agrees windows) (refuse gas) :=
  (respects_push 0).bind fun _ => respects_giveBack gas

theorem respects_openCall (message : Message) : Respects (Site.Agrees windows) (openCall message) :=
  respects_owner.bind fun _ => respects_changeLedger _

/-- The operands of a call are read, and room is made for the output, before any byte of memory
is. -/
theorem alike_readMessage (environment : Environment) {kind : CallKind} (forwarded : Nat)
    {frame other : Frame} (enough : (Opcode.call kind).pops ≤ frame.stack.size)
    (agrees : frame.Agrees windows other) :
    Alike (Frame.Agrees windows) (readMessage environment kind forwarded frame)
      (readMessage environment kind forwarded other) := by
  cases agrees with
  | @memory other agrees =>
      have also : (Opcode.call kind).pops ≤ ({ frame with memory := other } : Frame).stack.size :=
        enough
      have value : kind.valueOperand { frame with memory := other } = kind.valueOperand frame := rfl
      rw [readMessage_eq environment kind forwarded enough,
        readMessage_eq environment kind forwarded also, value]
      by_cases refused : frame.context.isStatic = true ∧ kind = .call ∧ kind.valueOperand frame ≠ 0
      · rw [if_pos refused, if_pos refused]
        exact .error _ (.memory agrees)
      · rw [if_neg refused, if_neg refused]
        exact .ok (kind.message environment forwarded frame) (.memory (agrees.extend _ _))

theorem respects_readInput {message : Message} (fed : message.FedFrom windows) :
    Respects (Site.Agrees windows)
      (onFrame (FrameAction.readMemory message.inOffset message.inSize)) := by
  obtain ⟨offset, size, named, input, taken⟩ := fed
  rw [input, taken]
  exact respects_onFrame fun _ _ agrees => FrameAction.alike_readMemory agrees named

theorem respects_callAccount (environment : Environment) {message : Message}
    (fed : message.FedFrom windows) :
    Respects (Site.Agrees windows) (callAccount environment message) := by
  refine (respects_setReturned #[]).bind fun _ => (respects_atDepthLimit environment).bind
    fun deep => ?_
  split
  · exact (respects_refuse message.gas).bind fun _ => respects_pure none
  · refine (respects_readInput fed).bind fun data =>
      (respects_cannotPay message.value).bind fun poor => ?_
    split
    · exact (respects_refuse message.gas).bind fun _ => respects_pure none
    · refine (respects_reads ?_).bind fun code => (respects_openCall message).bind fun _ =>
        respects_owner.bind fun caller => ?_
      · rintro _ _ ⟨_, _⟩
        rfl
      · refine (respects_reads ?_).bind fun nonce =>
          (respects_addRecord _ _ _ _ _ _ _).bind fun record => ?_
        · rintro _ _ ⟨_, _⟩
          rfl
        · split
          · exact (respects_changeLedger Ledger.commit).bind fun _ =>
              (respects_push 1).bind fun _ =>
              (respects_giveBack message.gas).bind fun _ => respects_pure none
          · refine (respects_reads ?_).bind fun context => respects_pure _
            rintro _ _ ⟨_, ⟨_⟩⟩
            rfl

theorem respects_deliver (environment : Environment) (message : Message) (output : Bytes) :
    Respects (Frame.Agrees windows) (deliver environment message output) := by
  refine (FrameAction.respects_reads ?_).bind fun size =>
    (FrameAction.respects_ofExcept _).bind fun growth => ?_
  · rintro _ _ ⟨agrees⟩
    exact agrees.size
  · refine (FrameAction.respects_spend _ _).bind fun _ =>
      FrameAction.respects_changeMemory fun agrees => ?_
    exact (agrees.extend _ _).write _ _ _

theorem respects_callPrecompile (environment : Environment) {message : Message}
    (contract : Precompile) (fed : message.FedFrom windows) :
    Respects (Site.Agrees windows) (callPrecompile environment message contract) := by
  refine (respects_setReturned #[]).bind fun _ => (respects_atDepthLimit environment).bind
    fun deep => ?_
  split
  · exact respects_refuse message.gas
  · refine (respects_cannotPay message.value).bind fun poor => ?_
    split
    · exact respects_refuse message.gas
    · refine (respects_readInput fed).bind fun data => (respects_openCall message).bind fun _ => ?_
      simp only
      split
      · exact (respects_push 0).bind fun _ => respects_changeLedger Ledger.rollback
      · exact (respects_giveBack _).bind fun _ => (respects_push 1).bind fun _ =>
          (respects_setReturned _).bind fun _ =>
          (respects_changeLedger Ledger.commit).bind fun _ =>
            respects_onFrame (respects_deliver environment message _)

theorem alike_call (environment : Environment) {kind : CallKind} (forwarded : Nat)
    {frame other : Frame} (ledger : Ledger) (enough : (Opcode.call kind).pops ≤ frame.stack.size)
    (agrees : frame.Agrees ((Opcode.call kind).windows frame) other) :
    Alike (Site.Agrees ((Opcode.call kind).windows frame))
      (call environment kind forwarded ⟨frame, ledger⟩)
      (call environment kind forwarded ⟨other, ledger⟩) := by
  refine (alike_onFrame ledger (alike_readMessage environment forwarded enough agrees)).bind ?_
  intro message here there read agrees
  have fed : message.FedFrom ((Opcode.call kind).windows frame) := by
    rw [onFrame_apply, readMessage_eq environment kind forwarded enough] at read
    split at read
    · rename_i before done
      split at done
      · cases done
      · cases done
        cases read
        exact ⟨_, _, List.mem_cons_self, rfl, rfl⟩
    · cases read
  cases environment.config.precompiles.find? message.codeAddress with
  | none => exact respects_callAccount environment fed _ _ agrees
  | some contract =>
      exact ((respects_callPrecompile environment contract fed).bind fun _ => respects_pure none) _
        _ agrees

theorem agrees_created (address : Address) (record gas : Nat) (done : Outcome) {frame : Frame}
    {other : Memory} (agrees : frame.memory.Agrees windows other) :
    (created address record gas done frame).Agrees windows
      (created address record gas done { frame with memory := other }) := by
  unfold created
  split
  · exact .memory agrees
  · split
    · exact .memory agrees
    · exact .memory agrees

theorem alike_createWith (environment : Environment) (creation : Creation) {frame other : Frame}
    (ledger : Ledger) (room : frame.HasRoom) (agrees : frame.Agrees windows other) :
    Alike (Site.Agrees windows)
      (createWith environment creation.value creation.code creation.gas ⟨frame, ledger⟩)
      (createWith environment creation.value creation.code creation.gas ⟨other, ledger⟩) := by
  cases agrees with
  | @memory other agrees =>
      have also : ({ frame with memory := other } : Frame).HasRoom := room
      have address :
          Creation.address { frame with memory := other } ledger = Creation.address frame ledger :=
            rfl
      have settled (child : Outcome) :
          Site.Agrees windows (settledAtOnce environment creation child frame ledger)
          (settledAtOnce environment creation child { frame with memory := other } ledger) :=
        .frame _ (agrees_created _ _ _ _ agrees)
      rw [createWith_eq environment creation ledger room,
        createWith_eq environment creation ledger also, address]
      cases ledger.hasAccount (Creation.address frame ledger) with
      | true =>
          rw [if_pos rfl, if_pos rfl]
          exact .ok none (settled _)
      | false =>
          rw [if_neg Bool.false_ne_true, if_neg Bool.false_ne_true]
          cases creation.code.isEmpty with
          | true =>
              rw [if_pos rfl, if_pos rfl]
              exact .ok none (settled _)
          | false =>
              rw [if_neg Bool.false_ne_true, if_neg Bool.false_ne_true]
              exact .ok _ (.frame _ (.memory agrees))

theorem alike_create (environment : Environment) {frame other : Frame} (ledger : Ledger)
    (enough : 3 ≤ frame.stack.size) (room : (frame.dropWords 3).HasRoom)
    (agrees : frame.Agrees (Opcode.create.windows frame) other) :
    Alike (Site.Agrees (Opcode.create.windows frame)) (create environment ⟨frame, ledger⟩)
      (create environment ⟨other, ledger⟩) := by
  cases agrees with
  | @memory other agrees =>
      have also : 3 ≤ ({ frame with memory := other } : Frame).stack.size := enough
      have static :
          ({ frame with memory := other } : Frame).context.isStatic = frame.context.isStatic := rfl
      have named : ⟨frame.operand 1, frame.operand 2⟩ ∈ Opcode.create.windows frame :=
        List.mem_singleton_self _
      have asked : Creation.asked { frame with memory := other } = Creation.asked frame :=
        congrArg
          (fun code : Bytes => Creation.mk (frame.operand 0) code (Gas.allButPart frame.gasLeft))
          (agrees.read named)
      have value : ({ frame with memory := other } : Frame).operand 0 = frame.operand 0 := rfl
      have refused :
          ({ frame with memory := other } : Frame).Refused environment ledger (frame.operand 0) ↔
          frame.Refused environment ledger (frame.operand 0) := Iff.rfl
      rw [create_eq environment ledger enough room, create_eq environment ledger also room, static,
        asked, value]
      cases frame.context.isStatic with
      | true =>
          rw [if_pos rfl, if_pos rfl]
          exact .error _ (.frame ledger (.memory agrees))
      | false =>
          rw [if_neg Bool.false_ne_true, if_neg Bool.false_ne_true]
          by_cases no : frame.Refused environment ledger (frame.operand 0)
          · rw [if_pos no, if_pos (refused.mpr no)]
            exact .ok none (.frame ledger (.memory agrees))
          · rw [if_neg no, if_neg (mt refused.mp no)]
            have ready : (Creation.creator frame).HasRoom := room
            exact alike_createWith environment (Creation.asked frame) ledger ready
              (.memory (agrees.extend _ _))

theorem respects_pop : Respects (Site.Agrees windows) (onFrame FrameAction.pop) :=
  respects_onFrame FrameAction.respects_pop

theorem respects_suicide : Respects (Site.Agrees windows) suicide := by
  refine (respects_onFrame FrameAction.respects_ensureMutable).bind fun _ =>
    respects_pop.bind fun word => ?_
  refine respects_owner.bind fun account => (respects_reads ?_).bind fun balance =>
    (respects_reads ?_).bind fun nonce => ?_
  · rintro _ _ ⟨_, _⟩
    rfl
  · rintro _ _ ⟨_, _⟩
    rfl
  · refine (respects_addRecord _ _ _ _ _ _ _).bind fun _ => (respects_changeLedger _).bind fun _ =>
      ?_
    refine (respects_onFrame (FrameAction.respects_changeOutcome _)).bind fun _ =>
      respects_onFrame ?_
    rintro _ _ ⟨agrees⟩
    exact .ok () (.memory agrees)

theorem respects_store : Respects (Site.Agrees windows) store := by
  refine (respects_onFrame FrameAction.respects_ensureMutable).bind fun _ =>
    respects_pop.bind fun key => ?_
  refine respects_pop.bind fun value => respects_owner.bind fun account => ?_
  exact (respects_changeLedger _).bind fun _ => respects_onFrame FrameAction.respects_advance

theorem respects_advanceUnless (made : Option Spawn) :
    Respects (Site.Agrees windows) (advanceUnless made) := by
  cases made with
  | some spawn => exact respects_pure (some spawn)
  | none => exact (respects_onFrame FrameAction.respects_advance).bind fun _ => respects_pure none

theorem alike_execute (environment : Environment) {op : Opcode} (forwarded : Nat)
    {frame other : Frame} (ledger : Ledger) (enough : op.pops ≤ frame.stack.size)
    (room : op.pushes = 1 → (frame.dropWords op.pops).HasRoom)
    (agrees : frame.Agrees (op.windows frame) other) :
    Alike (Site.Agrees (op.windows frame)) (execute environment op forwarded ⟨frame, ledger⟩)
      (execute environment op forwarded ⟨other, ledger⟩) := by
  have alone : Alike (Site.Agrees (op.windows frame))
      ((onFrame (FrameAction.perform environment ledger op) >>= fun _ =>
        pure none : SiteAction (Option Spawn)) ⟨frame, ledger⟩)
      ((onFrame (FrameAction.perform environment ledger op) >>= fun _ =>
        pure none : SiteAction (Option Spawn)) ⟨other, ledger⟩) :=
    (alike_onFrame ledger (FrameAction.alike_perform environment ledger enough agrees)).bind
      fun _ _ _ _ agrees => .ok none agrees
  cases op with
  | create =>
      exact (alike_create environment ledger enough (room rfl) agrees).bind
        fun made _ _ _ agrees => respects_advanceUnless made _ _ agrees
  | call kind =>
      exact (alike_call environment forwarded ledger enough agrees).bind
        fun made _ _ _ agrees => respects_advanceUnless made _ _ agrees
  | suicide => exact (respects_suicide.bind fun _ => respects_pure none) _ _ (.frame ledger agrees)
  | sstore => exact (respects_store.bind fun _ => respects_pure none) _ _ (.frame ledger agrees)
  | _ => exact alone

end SiteAction

inductive Machine.Agrees (windows : List Window) : Machine → Machine → Prop where
  | level {frame other : Frame} (waiting : List Waiting) (ledger : Ledger)
      (agrees : frame.Agrees windows other) :
      Agrees windows ⟨frame, waiting, ledger⟩ ⟨other, waiting, ledger⟩
  | down {frame other : Frame} (child : Frame) (awaited : Awaited) (waiting : List Waiting)
      (ledger : Ledger) (agrees : frame.Agrees windows other) :
      Agrees windows ⟨child, ⟨frame, awaited⟩ :: waiting, ledger⟩
        ⟨child, ⟨other, awaited⟩ :: waiting, ledger⟩

/-- A step learns nothing from memory but its size and what its windows hold. -/
theorem Machine.agrees_next {environment : Environment} {frame : Frame} {waiting : List Waiting}
    {ledger : Ledger} {op : Opcode} {price : Price} {other : Memory}
    (due : frame.Due environment ledger op price)
    (agrees : frame.memory.Agrees (op.windows frame) other) :
    Agrees (op.windows frame) (next environment ⟨frame, waiting, ledger⟩)
      (next environment ⟨{ frame with memory := other }, waiting, ledger⟩) := by
  have also : ({ frame with memory := other } : Frame).Due environment ledger op price :=
    ⟨due.runs, (Frame.quote_of_size agrees.size _ _).trans due.quoted⟩
  have paid : (frame.pay price).Agrees (op.windows (frame.pay price))
      (({ frame with memory := other } : Frame).pay price) := by
    rw [op.windows_pay]
    exact .memory agrees
  have alike := SiteAction.alike_execute environment price.forwarded ledger due.enough due.room paid
  rw [op.windows_pay] at alike
  rw [next_running waiting due.runs, next_running waiting also.runs, instruct_due waiting due,
    instruct_due waiting also]
  generalize SiteAction.execute environment op price.forwarded ⟨frame.pay price, ledger⟩ = here,
    SiteAction.execute environment op price.forwarded
      ⟨({ frame with memory := other } : Frame).pay price, ledger⟩ = there
    at alike
  cases alike with
  | ok made agrees =>
      cases agrees with
      | frame after agrees =>
          cases made with
          | none => exact .level waiting after agrees
          | some spawn => exact .down spawn.frame spawn.awaited waiting after agrees
  | error fault agrees =>
      cases agrees with
      | frame after agrees =>
          cases agrees with
          | memory agrees => exact .level waiting after (.memory agrees)

end ContractMachine
