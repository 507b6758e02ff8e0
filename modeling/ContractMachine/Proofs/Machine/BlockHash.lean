import ContractMachine.Proofs.Machine.Nesting
import Mathlib.Algebra.Group.Nat.Defs

/-!
The hashes of earlier blocks. The rule shows the 256 blocks before the present one and no others.
The operand is narrowed before it is compared, so the machine keeps to the rule as long as the
operand or the present block is a number that needs no narrowing; beyond that all operands count as
the largest such number.
-/

namespace ContractMachine

namespace BlockHashes

/-- The rule: the hash of block `n` if it is one of the 256 before `number`, else zero. -/
def visible (hashes : BlockHashes) (number n : Nat) : Word :=
  if n < number ∧ max 256 number - 256 ≤ n then hashes.find n else 0

variable (hashes : BlockHashes) {number : Nat} {asked : Word}

theorem recent_eq_visible_index (number : Nat) (asked : Word) :
    hashes.recent number asked = hashes.visible number asked.index := by
  rw [recent, visible, Nat.max_comm]

theorem recent_eq_visible (near : asked.toNat ≤ Word.indexLimit ∨ number ≤ Word.indexLimit) :
    hashes.recent number asked = hashes.visible number asked.toNat := by
  rw [recent_eq_visible_index]
  by_cases narrow : asked.toNat ≤ Word.indexLimit
  · rw [Word.index, Nat.min_eq_left narrow]
  · -- The operand and the number it is cut down to are both past the last block.
    have present : number ≤ Word.indexLimit := near.resolve_left narrow
    rw [Word.index, visible, visible, if_neg (by omega), if_neg (by omega)]

theorem recent_of_distant (wide : Word.indexLimit < asked.toNat) (late : Word.indexLimit < number) :
    hashes.recent number asked =
      if number ≤ Word.indexLimit + 256 then hashes.find Word.indexLimit else 0 := by
  have more : 256 ≤ Word.indexLimit := by decide
  rw [recent_eq_visible_index, Word.index, Nat.min_eq_right (Nat.le_of_lt wide), visible]
  by_cases shown : number ≤ Word.indexLimit + 256
  · rw [if_pos (by omega), if_pos shown]
  · rw [if_neg (by omega), if_neg shown]

end BlockHashes

namespace Machine

variable {environment : Environment} {frame : Frame} {ledger : Ledger} {price : Price}

theorem next_blockHash (waiting : List Waiting)
    (due : frame.Due environment ledger .blockHash price) :
    next environment ⟨frame, waiting, ledger⟩ =
      ⟨(((frame.pay price).dropWords 1).put
        (environment.blockHashes.recent frame.context.block.number (frame.operand 0))).advance,
          waiting, ledger⟩ := by
  have taken :
      FrameAction.pop (frame.pay price) = .ok (frame.operand 0) ((frame.pay price).dropWords 1) :=
    FrameAction.pop_dropWords (frame.pay price) 0 due.enough
  have room : ((frame.pay price).dropWords 1).HasRoom := due.room rfl
  refine next_of_perform waiting due rfl ?_
  simp only [FrameAction.perform, FrameAction.compute, bind_apply, taken, FrameAction.reads_apply,
    FrameAction.push_of_room room]
  rfl

/-- Every BLOCKHASH pushes a word for its operand. That is what the rule says if the operand or the
number of the present block is at most 2^31 - 1. Where both are greater it is the hash of block 2^31
- 1, whatever was asked for, as long as that block is one of the last 256, and zero from then on. -/
theorem block_hash_is_pushed (waiting : List Waiting)
    (due : frame.Due environment ledger .blockHash price) :
    ∃ word, next environment ⟨frame, waiting, ledger⟩ =
        ⟨(((frame.pay price).dropWords 1).put word).advance, waiting, ledger⟩ ∧
      ((frame.operand 0).toNat ≤ 2 ^ 31 - 1 ∨ frame.context.block.number ≤ 2 ^ 31 - 1 →
        word = environment.blockHashes.visible frame.context.block.number (frame.operand 0).toNat) ∧
      (2 ^ 31 - 1 < (frame.operand 0).toNat → 2 ^ 31 - 1 < frame.context.block.number →
        word =
          if frame.context.block.number ≤ 2 ^ 31 - 1 + 256 then
            environment.blockHashes.find (2 ^ 31 - 1)
          else 0) :=
  ⟨_, next_blockHash waiting due, environment.blockHashes.recent_eq_visible,
    environment.blockHashes.recent_of_distant⟩

-- At a BLOCKHASH in the given block, with one operand.
def recallingFrame (number : Nat) (asked : Word) : Frame :=
  { callingFrame with
    code := #[0x40]
    context := { callingFrame.context with block := { number := number } }
    stack := { limit := 1024, words := [asked] } }

theorem recallingFrame_due (environment : Environment) (number : Nat) (asked : Word) :
    (recallingFrame number asked).Due environment {} .blockHash { work := 20 } :=
  Frame.due_of_toOption rfl rfl

theorem block_hash_is_pushed_for_oldest :
    (∃ later, next { blockHashes := [(44, 9)] } ⟨recallingFrame 300 44, [], {}⟩ = ⟨later, [], {}⟩ ∧
      later.stack.words = [9]) ∧
    ∃ later, next { blockHashes := [(43, 8)] } ⟨recallingFrame 300 43, [], {}⟩ = ⟨later, [], {}⟩ ∧
      later.stack.words = [0] := by
  obtain ⟨oldest, there, seen, -⟩ :=
    block_hash_is_pushed [] (recallingFrame_due { blockHashes := [(44, 9)] } 300 44)
  obtain ⟨before, here, unseen, -⟩ :=
    block_hash_is_pushed [] (recallingFrame_due { blockHashes := [(43, 8)] } 300 43)
  refine ⟨⟨_, there, ?oldest⟩, _, here, ?before⟩
  case oldest =>
    rw [seen (.inl (by decide))]
    decide
  case before =>
    rw [unseen (.inl (by decide))]
    decide

/-- The rule is broken for an operand that no block has for its number. -/
theorem distant_block_has_hash :
    ¬ ∀ (environment : Environment) (frame : Frame) (ledger : Ledger) (price : Price)
      (waiting : List Waiting),
      frame.Due environment ledger .blockHash price → frame.context.block.number < 2 ^ 64 →
        (next environment ⟨frame, waiting, ledger⟩).frame.stack.words =
          environment.blockHashes.visible frame.context.block.number (frame.operand 0).toNat ::
            frame.stack.words.drop 1 := by
  intro ruled
  have pushed :=
    ruled { blockHashes := [(2147483647, 7)] } (recallingFrame 2147483648 (BitVec.allOnes 256)) {} _
    [] (recallingFrame_due _ _ _) (by decide)
  revert pushed
  decide +kernel

end Machine

end ContractMachine
