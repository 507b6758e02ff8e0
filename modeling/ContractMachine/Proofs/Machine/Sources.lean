import ContractMachine.Proofs.Checked.Bytes
import ContractMachine.Proofs.Frame.Windows
import ContractMachine.Proofs.Machine.Nesting
import Mathlib.Algebra.Group.Nat.Defs

/-!
The byte strings that instructions read from an offset: call data, the code of the frame, the code
of an account. Each goes on with zeros for ever. An offset may be any word, and it is narrowed in
one way or another before anything is read; as long as a string ends where offsets are still exact,
none of this shows.
-/

namespace ContractMachine

namespace Bytes

def continued (source : Bytes) (offset size : Nat) : Bytes :=
  Array.ofFn fun i : Fin size => source.zeroExtended (offset + i)

variable {source : Bytes}

theorem window_eq_continued (source : Bytes) (offset size : Nat) :
    source.window offset size = source.continued offset size := by
  apply Array.ext_getElem?
  intro i
  rw [window_getElem?, continued, Array.getElem?_ofFn]
  split <;> rfl

/-- Past the end it does not matter where. -/
theorem continued_of_past {offset : Nat} (past : source.size ≤ offset) (size : Nat) :
    source.continued offset size = Array.replicate size 0 := by
  apply Array.ext
  · simp [continued]
  · intro i _ _
    simp [continued, zeroExtended_of_past (Nat.le_trans past (Nat.le_add_right offset i))]

/-- An offset that is cut down and the one it is cut down to are both past the end. -/
theorem window_index (short : source.size ≤ Word.indexLimit) (offset : Word) (size : Nat) :
    source.window offset.index size = source.continued offset.toNat size := by
  rw [window_eq_continued, Word.index]
  by_cases narrow : offset.toNat ≤ Word.indexLimit
  · rw [Nat.min_eq_left narrow]
  · rw [Nat.min_eq_right (by omega), continued_of_past short, continued_of_past (by omega)]

end Bytes

namespace Context

variable {context : Context}

theorem dataOffset?_eq (short : context.data.size ≤ Word.indexLimit) (offset : Word) :
    context.dataOffset? offset =
      if offset.toNat < context.data.size then some offset.toNat else none := by
  rw [dataOffset?, Word.index?]
  by_cases narrow : offset.toNat ≤ Word.indexLimit
  · rw [if_pos narrow]
    split <;> simp_all
  · rw [if_neg narrow, if_neg (by omega)]
    rfl

theorem dataCopy_eq_continued (short : context.data.size ≤ Word.indexLimit) (offset : Word)
    (size : Nat) :
    context.dataCopy offset size = context.data.continued offset.toNat size := by
  rw [dataCopy, dataOffset?_eq short]
  by_cases inside : offset.toNat < context.data.size
  · rw [if_pos inside]
    exact Bytes.window_eq_continued _ _ _
  · rw [if_neg inside]
    exact (Bytes.continued_of_past (Nat.le_of_not_lt inside) size).symm

/-- The word is that of the bytes, also where there are none. -/
theorem dataWord_eq (context : Context) (offset : Word) :
    context.dataWord offset = Word.ofBytes (context.dataCopy offset 32) := by
  rw [dataWord, dataCopy]
  cases context.dataOffset? offset with
  | some start => rfl
  | none =>
      have blank : Word.ofBytes (Array.replicate 32 0) = 0 := by decide +kernel
      exact blank.symm

end Context

/-- An instruction that copies a byte string to memory. Three operands from a depth on say where to,
from where and how much. -/
inductive Opcode.Copies (frame : Frame) (ledger : Ledger) : Opcode → Nat → Bytes → Prop where
  | callData : Copies frame ledger (.copy .callData) 0 frame.context.data
  | code : Copies frame ledger (.copy .code) 0 frame.code
  | accountCode : Copies frame ledger .extCodeCopy 1 (ledger.code (frame.operand 0).toAddress)

namespace Frame

def copied (reading : Word → Nat) (frame : Frame) (depth : Nat) (source : Bytes) : Frame :=
  { frame.dropWords (depth + 3) with
    memory := frame.memory.write (reading (frame.operand depth))
      (source.continued (frame.operand (depth + 1)).toNat (reading (frame.operand (depth + 2))))
      (reading (frame.operand (depth + 2))) }

variable {frame : Frame} {depth bound : Nat}

/-- A window that has a price is written where the operands say. -/
theorem copied_index (within : Window.Within ⟨frame.operand depth, frame.operand (depth + 2)⟩ bound)
    (source : Bytes) :
      frame.copied Word.index depth source = frame.copied BitVec.toNat depth source := by
  unfold copied
  by_cases empty : frame.operand (depth + 2) = 0
  · have nothing : (0 : Word).toNat = 0 := rfl
    rw [empty, Word.index_zero, nothing, Memory.write_zero, Memory.write_zero]
  · obtain ⟨target, size, -⟩ := within empty
    simp only at target size
    rw [target, size]

end Frame

namespace FrameAction

variable {frame : Frame} {depth : Nat}

theorem copyWindow_dropWords (source : Frame → Bytes) (depth : Nat)
    (enough : depth + 2 < frame.stack.size)
    (short : (source (frame.dropWords (depth + 3))).size ≤ Word.indexLimit) :
    copyWindow source (frame.dropWords depth) =
      .ok () (frame.copied Word.index depth (source (frame.dropWords (depth + 3)))) := by
  rw [Frame.copied, ← Bytes.window_index short, copyWindow, bind_apply,
    pop_dropWords frame depth (by omega)]
  simp only [bind_apply, pop_dropWords frame (depth + 1) (by omega),
    pop_dropWords frame (depth + 2) enough]
  rfl

theorem copyCallData_dropWords (enough : 2 < frame.stack.size)
    (short : frame.context.data.size ≤ Word.indexLimit) :
    copyCallData (frame.dropWords 0) = .ok () (frame.copied Word.index 0 frame.context.data) := by
  rw [Frame.copied, ← Context.dataCopy_eq_continued short, copyCallData, bind_apply,
    pop_dropWords frame 0 (by omega)]
  simp only [bind_apply, pop_dropWords frame 1 (by omega), pop_dropWords frame 2 enough]
  rfl

/-- Whatever is copied goes on with zeros. -/
theorem perform_copied (environment : Environment) {ledger : Ledger} {op : Opcode} {source : Bytes}
    (copies : op.Copies frame ledger depth source) (enough : op.pops ≤ frame.stack.size)
    (short : source.size ≤ Word.indexLimit) :
    perform environment ledger op frame =
      .ok () (frame.copied Word.index depth source).advance := by
  have computed :
      compute environment ledger op frame = .ok () (frame.copied Word.index depth source) := by
    cases copies with
    | callData => exact copyCallData_dropWords enough short
    | code => exact copyWindow_dropWords (fun frame => frame.code) 0 enough short
    | accountCode =>
        change compute environment ledger .extCodeCopy (frame.dropWords 0) = _
        rw [compute, bind_apply, pop_dropWords frame 0 (Nat.zero_lt_of_lt enough)]
        exact copyWindow_dropWords (fun _ => ledger.code (frame.operand 0).toAddress) 1 enough short
  have onward :
      perform environment ledger op frame =
        (compute environment ledger op >>= fun _ => advance) frame := by
    cases copies <;> rfl
  rw [onward, bind_apply, computed]
  rfl

end FrameAction

namespace Machine

variable {environment : Environment} {frame : Frame} {ledger : Ledger} {op : Opcode} {price : Price}

theorem next_callDataLoad (waiting : List Waiting)
    (due : frame.Due environment ledger .callDataLoad price) :
    next environment ⟨frame, waiting, ledger⟩ =
      ⟨(((frame.pay price).dropWords 1).put (frame.context.dataWord (frame.operand 0))).advance,
        waiting, ledger⟩ := by
  have taken :
      FrameAction.pop (frame.pay price) = .ok (frame.operand 0) ((frame.pay price).dropWords 1) :=
    FrameAction.pop_dropWords (frame.pay price) 0 due.enough
  have room : ((frame.pay price).dropWords 1).HasRoom := due.room rfl
  refine next_of_perform waiting due rfl ?_
  simp only [FrameAction.perform, FrameAction.compute, bind_apply, taken, FrameAction.reads_apply,
    FrameAction.push_of_room room]
  rfl

/-- The immediate of a PUSH is read behind the instruction. -/
theorem next_push (waiting : List Waiting) {index : Fin 32}
    (due : frame.Due environment ledger (.push index) price) :
    next environment ⟨frame, waiting, ledger⟩ =
      ⟨((frame.pay price).advance.fetch (index.val + 1)).2.put
        (Word.ofBytes (frame.code.continued (frame.pc + 1) (index.val + 1))), waiting, ledger⟩ := by
  have room : ((frame.pay price).advance.fetch (index.val + 1)).2.HasRoom := due.room rfl
  rw [← Bytes.window_eq_continued]
  exact next_of_perform waiting due rfl (FrameAction.push_of_room room _)

theorem next_copied {depth : Nat} {source : Bytes} (waiting : List Waiting)
    (due : frame.Due environment ledger op price) (copies : op.Copies frame ledger depth source)
    (short : source.size ≤ Word.indexLimit) :
    next environment ⟨frame, waiting, ledger⟩ =
      ⟨((frame.pay price).copied BitVec.toNat depth source).advance, waiting, ledger⟩ := by
  obtain ⟨needed, -, within⟩ := Frame.paysFor_of_price (Frame.quote_spec due.quoted).2.1
  have priced :
      Window.Within ⟨(frame.pay price).operand depth, (frame.pay price).operand (depth + 2)⟩
      needed := by
    cases copies <;> exact within _ (List.mem_singleton_self _)
  have alone : op.isAlone = true := by cases copies <;> rfl
  have paid : op.Copies (frame.pay price) ledger depth source := by
    cases copies
    · exact .callData
    · exact .code
    · exact .accountCode
  have ran := FrameAction.perform_copied environment paid due.enough short
  rw [Frame.copied_index priced] at ran
  exact next_of_perform waiting due alone ran

/-- Every byte string that ends below 2^31 - 1 is read as if it went on with zeros for ever, from
whatever offset and for whatever length: from the call data as bytes and as a word, from code at an
offset and at a position. The readers that take checked slices, each with its own way to cut an
offset down, give the same bytes and never a breach. So CALLDATALOAD pushes the word of the 32 bytes
at its operand and a PUSH that of its immediate, and a copy of call data, code or the code of an
account writes as many bytes as its operands ask for, from the offset that they name to where they
say, all of them taken as the numbers that they are. -/
theorem sources_go_on_with_zeros :
    (∀ (source : Bytes) (offset : Word) (size : Nat), source.size < 2 ^ 31 - 1 →
      source.window offset.index size = source.continued offset.toNat size ∧
      source.window? offset.index size = .ok (source.continued offset.toNat size) ∧
      ∀ context : Context, context.data = source →
        context.dataCopy offset size = source.continued offset.toNat size ∧
        context.dataCopy? offset size = .ok (source.continued offset.toNat size) ∧
        context.dataWord offset = Word.ofBytes (context.dataCopy offset 32) ∧
        context.dataWord? offset = .ok (Word.ofBytes (source.continued offset.toNat 32))) ∧
    (∀ (frame : Frame) (size : Nat),
      (frame.fetch size).1 = frame.code.window frame.pc size ∧
      (frame.fetch size).1 = frame.code.continued frame.pc size ∧
      (frame.code.size < 2 ^ 31 - 1 → frame.fetch? size = .ok (frame.fetch size))) ∧
    ∀ (environment : Environment) (frame : Frame) (waiting : List Waiting) (ledger : Ledger)
      (price : Price),
      (frame.Due environment ledger .callDataLoad price → frame.context.data.size < 2 ^ 31 - 1 →
        next environment ⟨frame, waiting, ledger⟩ =
          ⟨(((frame.pay price).dropWords 1).put
            (Word.ofBytes (frame.context.data.continued (frame.operand 0).toNat 32))).advance,
              waiting, ledger⟩) ∧
      (∀ index, frame.Due environment ledger (.push index) price →
        next environment ⟨frame, waiting, ledger⟩ =
          ⟨((frame.pay price).advance.fetch (index.val + 1)).2.put
            (Word.ofBytes (frame.code.continued (frame.pc + 1) (index.val + 1))), waiting,
              ledger⟩) ∧
      (∀ op depth source, frame.Due environment ledger op price →
        op.Copies frame ledger depth source →
        source.size < 2 ^ 31 - 1 →
          next environment ⟨frame, waiting, ledger⟩ =
            ⟨((frame.pay price).copied BitVec.toNat depth source).advance, waiting, ledger⟩) := by
  have narrow {size : Nat} (short : size < 2 ^ 31 - 1) : size ≤ Word.indexLimit :=
    Nat.le_of_lt short
  have addressable {size : Nat} (short : size < 2 ^ 31 - 1) : size ≤ Quantity.limit :=
    Nat.le_trans (narrow short) (by decide)
  -- An offset that is cut off is beyond a source this short, where all is zero.
  refine ⟨?strings, ?positions, ?instructions⟩
  case strings =>
    intro source offset size short
    have window := Bytes.window_index (narrow short) offset size
    refine ⟨window, ?_, ?_⟩
    · rw [source.window?_eq (Nat.le_trans (Nat.min_le_right _ _) (addressable short)), window]
    · rintro context rfl
      have copy := Context.dataCopy_eq_continued (narrow short) offset size
      have word := context.dataWord_eq offset
      refine ⟨copy, ?_, word, ?_⟩
      · rw [context.dataCopy?_of_size offset size (addressable short), copy]
      · rw [context.dataWord?_eq, word, Context.dataCopy_eq_continued (narrow short)]
  case positions =>
    intro frame size
    exact ⟨rfl, Bytes.window_eq_continued _ _ _, fun short =>
      frame.fetch?_eq size (addressable short)⟩
  case instructions =>
    intro environment frame waiting ledger price
    refine ⟨?load, fun index => next_push waiting, ?copy⟩
    case load =>
      intro due short
      rw [next_callDataLoad waiting due, Context.dataWord_eq,
        Context.dataCopy_eq_continued (narrow short)]
    case copy =>
      intro op depth source due copies short
      exact next_copied waiting due copies (narrow short)

-- At an instruction, with two bytes of call data.
def readingFrame (code : Bytes) (words : List Word) : Frame :=
  { callingFrame with
    code := code
    context := { callingFrame.context with data := #[1, 2] }
    stack := { limit := 1024, words := words } }

-- The account at ten has three bytes of code.
def threeBytes : Ledger := Ledger.setCode {} 10 #[7, 8, 9]

/-- Two bytes of the largest offset, CALLDATALOAD across the end and at the largest offset, a PUSH2
that lacks a byte, and an EXTCODECOPY of four bytes from the last one on. -/
theorem sources_go_on_with_zeros_behind_end :
    Bytes.window? #[7, 8, 9] (Word.index (-1)) 2 = .ok #[0, 0] ∧
    (∃ later, next {} ⟨readingFrame #[0x35] [1], [], {}⟩ = ⟨later, [], {}⟩ ∧
      later.stack.words = [Word.ofNat (2 * 256 ^ 31)]) ∧
    (∃ later, next {} ⟨readingFrame #[0x35] [-1], [], {}⟩ = ⟨later, [], {}⟩ ∧
      later.stack.words = [0]) ∧
    (∃ later, next {} ⟨readingFrame #[0x61, 0xff] [], [], {}⟩ = ⟨later, [], {}⟩ ∧
      later.stack.words = [0xff00]) ∧
    ∃ later, next {} ⟨readingFrame #[0x3c] [10, 3, 2, 4], [], threeBytes⟩ =
      ⟨later, [], threeBytes⟩ ∧
      later.memory.bytes.extract 0 8 = #[0, 0, 0, 9, 0, 0, 0, 0] := by
  obtain ⟨strings, -, instructions⟩ := sources_go_on_with_zeros
  have behind := (strings #[7, 8, 9] (-1) 2 (by decide)).2.1
  have short : Array.size #[(1 : UInt8), 2] < 2 ^ 31 - 1 := by decide
  have loading (offset : Word) :
      (readingFrame #[0x35] [offset]).Due {} {} .callDataLoad { work := 3 } :=
    Frame.due_of_toOption rfl rfl
  have pushing : (readingFrame #[0x61, 0xff] []).Due {} {} (.push 1) { work := 3 } :=
    Frame.due_of_toOption rfl rfl
  have copying :
      (readingFrame #[0x3c] [10, 3, 2, 4]).Due {} threeBytes .extCodeCopy
      { work := 703, growth := 3 } :=
    Frame.due_of_toOption rfl (by decide +kernel)
  have load (offset : Word) :=
    (instructions {} (readingFrame #[0x35] [offset]) [] {} _).1 (loading offset) short
  have push := (instructions {} (readingFrame #[0x61, 0xff] []) [] {} _).2.1 1 pushing
  have copy :=
    (instructions {} (readingFrame #[0x3c] [10, 3, 2, 4]) [] threeBytes _).2.2 .extCodeCopy 1 _
      copying .accountCode (by decide +kernel)
  refine ⟨behind.trans (congrArg Except.ok ?zeros), ⟨_, load 1, ?across⟩, ⟨_, load (-1), ?beyond⟩,
    ⟨_, push, ?immediate⟩, _, copy, ?copied⟩
  case zeros => decide +kernel
  case across => decide +kernel
  case beyond => decide +kernel
  case immediate => decide +kernel
  case copied => decide +kernel

end Machine

end ContractMachine
