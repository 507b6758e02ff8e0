import ContractMachine.Proofs.Machine.Nesting
import Mathlib.Algebra.Order.Group.Unbundled.Int
import Mathlib.Algebra.Order.Ring.Int
import Mathlib.Data.BitVec

/-!
Words as signed integers. Quotients and remainders are worked out without signs and given their sign
afterwards, comparison looks at the signs first, and a byte is extended by a mask. All of them come
to what they are for the integers in [-2^255, 2^255) that the words stand for.
-/

namespace ContractMachine

namespace Word

variable (a b : Word)

theorem negate_eq_neg (word : Word) : word.negate = -word := (BitVec.neg_eq_not_add word).symm

theorem magnitude_eq_abs (word : Word) : word.magnitude = BitVec.abs word := by
  rw [magnitude, negate_eq_neg, BitVec.abs_eq]
  rfl

/-- The sign is put on a quotient of absolute values. -/
theorem signedDiv_eq_sdiv : a.signedDiv b = BitVec.sdiv a b := by
  by_cases zero : b = 0
  · subst zero
    exact BitVec.sdiv_zero.symm
  · simp only [signedDiv, if_neg zero, magnitude_eq_abs, BitVec.abs_eq, negate_eq_neg, isNegative,
      BitVec.sdiv_eq]
    cases BitVec.msb a <;> cases BitVec.msb b <;> rfl

/-- The sign of the dividend is put on a remainder of absolute values. -/
theorem signedMod_eq_srem {b : Word} (divides : b ≠ 0) : a.signedMod b = BitVec.srem a b := by
  simp only [signedMod, if_neg divides, magnitude_eq_abs, BitVec.abs_eq, negate_eq_neg, isNegative,
    BitVec.srem_eq]
  cases BitVec.msb a <;> cases BitVec.msb b <;> rfl

/-- Numbers stand to each other as they do when one and the same is taken from both. -/
theorem compare_sub (m n : Nat) (less : Int) : compare m n = compare (m - less) (n - less) := by
  rcases Nat.lt_trichotomy m n with before | same | behind
  · rw [compare_lt_iff_lt.mpr before, compare_lt_iff_lt.mpr (by omega)]
  · rw [compare_eq_iff_eq.mpr same, compare_eq_iff_eq.mpr (by omega)]
  · rw [compare_gt_iff_gt.mpr behind, compare_gt_iff_gt.mpr (by omega)]

theorem signedCompare_eq_compare : a.signedCompare b = compare a.toInt b.toInt := by
  have small := a.isLt
  have short := b.isLt
  rw [BitVec.toInt_eq_msb_cond, BitVec.toInt_eq_msb_cond]
  cases first : BitVec.msb a with
  | false =>
      cases second : BitVec.msb b with
      | false =>
          simp only [signedCompare, isNegative, first, second]
          exact (compare_sub a.toNat b.toNat 0).trans (by rw [Int.sub_zero, Int.sub_zero]; rfl)
      | true =>
          simp only [signedCompare, isNegative, first, second]
          exact (compare_gt_iff_gt.mpr (by simp; omega)).symm
  | true =>
      cases second : BitVec.msb b with
      | false =>
          simp only [signedCompare, isNegative, first, second]
          exact (compare_lt_iff_lt.mpr (by simp; omega)).symm
      | true =>
          simp only [signedCompare, isNegative, first, second]
          exact compare_sub a.toNat b.toNat _

theorem slt_eq : Binary.slt.apply a b = ofBool (decide (a.toInt < b.toInt)) := by
  have less : (a.signedCompare b == .lt) = decide (a.toInt < b.toInt) := by
    rw [signedCompare_eq_compare, Bool.eq_iff_iff, beq_iff_eq, compare_lt_iff_lt, decide_eq_true_eq]
  exact congrArg ofBool less

theorem sgt_eq : Binary.sgt.apply a b = ofBool (decide (b.toInt < a.toInt)) := by
  have greater : (a.signedCompare b == .gt) = decide (b.toInt < a.toInt) := by
    rw [signedCompare_eq_compare, Bool.eq_iff_iff, beq_iff_eq, compare_gt_iff_gt, decide_eq_true_eq]
  exact congrArg ofBool greater

theorem signedDiv_eq_ofInt : a.signedDiv b = BitVec.ofInt 256 (a.toInt.tdiv b.toInt) := by
  apply BitVec.eq_of_toInt_eq
  rw [signedDiv_eq_sdiv, BitVec.toInt_sdiv, BitVec.toInt_ofInt]

variable {b}

theorem signedMod_toInt (divides : b ≠ 0) : (a.signedMod b).toInt = a.toInt.tmod b.toInt := by
  rw [signedMod_eq_srem a divides, BitVec.toInt_srem]

theorem signedDiv_mul_add_signedMod (divides : b ≠ 0) : a.signedDiv b * b + a.signedMod b = a := by
  have remainder : a.signedMod b = BitVec.ofInt 256 (a.toInt.tmod b.toInt) := by
    rw [← signedMod_toInt a divides, BitVec.ofInt_toInt]
  have divisor : BitVec.ofInt 256 b.toInt = b := BitVec.ofInt_toInt
  calc a.signedDiv b * b + a.signedMod b
      = BitVec.ofInt 256 (a.toInt.tdiv b.toInt) * BitVec.ofInt 256 b.toInt +
          BitVec.ofInt 256 (a.toInt.tmod b.toInt) := by rw [signedDiv_eq_ofInt, remainder, divisor]
    _ = BitVec.ofInt 256 (a.toInt.tdiv b.toInt * b.toInt + a.toInt.tmod b.toInt) := by
        rw [BitVec.ofInt_add, BitVec.ofInt_mul]
    _ = BitVec.ofInt 256 a.toInt := by rw [Int.tdiv_mul_add_tmod]
    _ = a := BitVec.ofInt_toInt

theorem toInt_ne_zero (divides : b ≠ 0) : b.toInt ≠ 0 := fun zero =>
  divides (BitVec.eq_of_toInt_eq (zero.trans BitVec.toInt_zero.symm))

/-- A remainder is smaller than the divisor, signs aside. -/
theorem abs_signedMod_lt (divides : b ≠ 0) : |(a.signedMod b).toInt| < |b.toInt| := by
  have positive : 0 < b.toInt.natAbs := Int.natAbs_pos.mpr (toInt_ne_zero divides)
  rw [signedMod_toInt a divides, Int.abs_eq_natAbs, Int.abs_eq_natAbs, Int.natAbs_tmod]
  exact Int.ofNat_lt.mpr (Nat.mod_lt _ positive)

theorem sign_signedMod (divides : b ≠ 0) (rest : a.signedMod b ≠ 0) :
    (a.signedMod b).toInt.sign = a.toInt.sign := by
  have some := toInt_ne_zero rest
  rw [signedMod_toInt a divides] at some ⊢
  rw [Int.sign_tmod, if_neg]
  intro whole
  exact some (Int.tmod_eq_zero_of_dvd whole)

/-- The mask of the low bits. -/
theorem getLsbD_low {n : Nat} (inside : n < 256) (i : Nat) :
    (((1 : Word) <<< n) - 1).getLsbD i = decide (i < n) := by
  have bound : 2 ^ n < 2 ^ 256 := Nat.pow_lt_pow_right (by decide) inside
  have one : (1 : Word).toNat = 1 := rfl
  have shifted : ((1 : Word) <<< n).toNat = 2 ^ n := by
    rw [BitVec.toNat_shiftLeft, Nat.shiftLeft_eq, one, Nat.one_mul, Nat.mod_eq_of_lt bound]
  have some : (1 : Word) ≤ (1 : Word) <<< n := by
    rw [BitVec.le_def, shifted, one]
    exact Nat.two_pow_pos n
  rw [BitVec.getLsbD, BitVec.toNat_sub_of_le some, shifted, one, Nat.testBit_two_pow_sub_one]

theorem signExtend_eq (word : Word) {k : Nat} (inside : k < 31) :
    word.signExtend k = (BitVec.setWidth (8 * (k + 1)) word).signExtend 256 := by
  have sign : (BitVec.setWidth (8 * (k + 1)) word).msb = word.getLsbD (8 * k + 7) := by
    rw [BitVec.msb_eq_getLsbD_last, BitVec.getLsbD_setWidth, decide_eq_true (by omega),
      Bool.true_and]
    congr 1
  have low := getLsbD_low (show 8 * k + 7 + 1 < 256 by omega)
  have extent : 8 * k + 7 + 1 = 8 * (k + 1) := by omega
  rw [extent] at low
  apply BitVec.eq_of_getLsbD_eq
  intro i small
  simp only [signExtend, if_neg (show ¬ 31 ≤ k by omega), BitVec.getLsbD_signExtend, sign, extent]
  cases top : word.getLsbD (8 * k + 7) with
  | true =>
      simp only [if_true, BitVec.getLsbD_or, BitVec.getLsbD_not, low]
      by_cases here : i < 8 * (k + 1)
      · simp [here, small]
      · simp [here, small]
  | false =>
      simp only [Bool.false_eq_true, if_false, BitVec.getLsbD_and, low]
      by_cases here : i < 8 * (k + 1)
      · simp [here, small]
      · simp [here, small]

theorem signExtend_toInt (word : Word) {k : Nat} (inside : k < 32) :
    (word.signExtend k).toInt = (BitVec.setWidth (8 * (k + 1)) word).toInt := by
  by_cases last : k = 31
  · subst last
    rw [signExtend, if_pos (Nat.le_refl 31), BitVec.setWidth_eq]
  · rw [signExtend_eq word (by omega), BitVec.toInt_signExtend_of_le (by omega)]

/-- The operand of an extension counts if it is the place of a byte, however large the others
are. -/
theorem filter_index? (word : Word) :
    (word.index?.filter fun k => k < 32) = if word.toNat < 32 then some word.toNat else none := by
  have small : 32 ≤ indexLimit := by decide
  unfold index?
  by_cases place : word.toNat < 32
  · rw [if_pos (by omega), if_pos place, Option.filter_some, if_pos (decide_eq_true place)]
  · rw [if_neg place]
    split
    · rw [Option.filter_some, if_neg (by simpa using place)]
    · rfl

end Word

namespace Machine

variable {environment : Environment} {frame : Frame} {ledger : Ledger} {price : Price}

theorem next_signExtend (waiting : List Waiting)
    (due : frame.Due environment ledger .signExtend price) :
    next environment ⟨frame, waiting, ledger⟩ =
      ⟨(((frame.pay price).dropWords 2).put
        (if (frame.operand 0).toNat < 32 then (frame.operand 1).signExtend (frame.operand 0).toNat
          else frame.operand 1)).advance, waiting, ledger⟩ := by
  have enough : 1 < (frame.pay price).stack.size := due.enough
  have place :
      FrameAction.pop (frame.pay price) = .ok (frame.operand 0) ((frame.pay price).dropWords 1) :=
    FrameAction.pop_dropWords (frame.pay price) 0 (by omega)
  refine next_of_perform waiting due rfl ?_
  simp only [FrameAction.perform, FrameAction.compute, bind_apply, place, Word.filter_index?]
  by_cases inside : (frame.operand 0).toNat < 32
  · have value : FrameAction.pop ((frame.pay price).dropWords 1) =
        .ok (frame.operand 1) ((frame.pay price).dropWords 2) :=
      FrameAction.pop_dropWords (frame.pay price) 1 enough
    have room : ((frame.pay price).dropWords 2).HasRoom := due.room rfl
    simp only [if_pos inside, bind_apply, value, FrameAction.push_of_room room]
    rfl
  · have kept :
        ((frame.pay price).dropWords 2).put (frame.operand 1) = (frame.pay price).dropWords 1 :=
      (frame.pay price).put_operand enough
    simp only [if_neg inside, pure_apply, kept]
    rfl

end Machine

/-- Comparison is that of the integers which the words stand for, and so are SLT and SGT. By zero
the quotient and the remainder are zero. Else the quotient is that of the integers, truncated toward
zero and read as a word again; the remainder is that of the integers, with the sign of the dividend,
and smaller than the divisor; and the two make up the dividend, wherever a product or sum wraps. The
extension of byte `k` has the signed value of the low `k + 1` bytes, and SIGNEXTEND makes it if its
first operand is less than 32, which else leaves the second as it is. -/
theorem signed_words_are_integers :
    (∀ a b : Word, a.signedCompare b = compare a.toInt b.toInt ∧
      Binary.slt.apply a b = Word.ofBool (decide (a.toInt < b.toInt)) ∧
      Binary.sgt.apply a b = Word.ofBool (decide (b.toInt < a.toInt))) ∧
    (∀ a : Word, a.signedDiv 0 = 0 ∧ a.signedMod 0 = 0) ∧
    (∀ a b : Word, b ≠ 0 →
      a.signedDiv b = BitVec.ofInt 256 (a.toInt.tdiv b.toInt) ∧
      (a.signedMod b).toInt = a.toInt.tmod b.toInt ∧
      (a.signedMod b ≠ 0 → (a.signedMod b).toInt.sign = a.toInt.sign) ∧
      |(a.signedMod b).toInt| < |b.toInt| ∧
      a = a.signedDiv b * b + a.signedMod b) ∧
    (∀ (word : Word) (k : Nat), k < 32 →
      (word.signExtend k).toInt = (BitVec.setWidth (8 * (k + 1)) word).toInt) ∧
    (∀ (environment : Environment) (frame : Frame) (waiting : List Waiting) (ledger : Ledger)
      (price : Price), frame.Due environment ledger .signExtend price →
        Machine.next environment ⟨frame, waiting, ledger⟩ =
          ⟨(((frame.pay price).dropWords 2).put
            (if (frame.operand 0).toNat < 32 then
              (frame.operand 1).signExtend (frame.operand 0).toNat
              else frame.operand 1)).advance, waiting, ledger⟩) := by
  refine ⟨?order, ?zero, ?division, ?extension, ?opcode⟩
  case order =>
    intro a b
    exact ⟨a.signedCompare_eq_compare b, a.slt_eq b, a.sgt_eq b⟩
  case zero =>
    intro a
    exact ⟨rfl, rfl⟩
  case division =>
    intro a b divides
    exact ⟨a.signedDiv_eq_ofInt b, a.signedMod_toInt divides, a.sign_signedMod divides,
      a.abs_signedMod_lt divides, (a.signedDiv_mul_add_signedMod divides).symm⟩
  case extension =>
    intro word k inside
    exact word.signExtend_toInt inside
  case opcode =>
    intro environment frame waiting ledger price due
    exact Machine.next_signExtend waiting due

-- At a SIGNEXTEND, with its two operands.
def extendingFrame (place word : Word) : Frame :=
  { Machine.callingFrame with code := #[0x0b], stack := { limit := 1024, words := [place, word] } }

theorem extendingFrame_due (place word : Word) :
    (extendingFrame place word).Due {} {} .signExtend { work := 5 } :=
  Frame.due_of_toOption rfl rfl

/-- The least integer by minus one, whose quotient wraps, a byte with a sign bit, and an operand
past the last byte. -/
theorem signed_words_at_limits :
    Word.signedDiv (BitVec.intMin 256) (-1) = BitVec.ofInt 256 (2 ^ 255) ∧
    ((0x180 : Word).signExtend 0).toInt = -128 ∧
    (Machine.next {} ⟨extendingFrame (2 ^ 255) 0x80, [], {}⟩).frame.stack.words = [0x80] := by
  obtain ⟨-, -, division, extension, opcode⟩ := signed_words_are_integers
  refine ⟨?quotient, ?byte, ?past⟩
  case quotient =>
    rw [(division (BitVec.intMin 256) (-1) (by decide)).1]
    decide +kernel
  case byte =>
    rw [extension 0x180 0 (by decide)]
    decide
  case past =>
    rw [opcode _ _ _ _ _ (extendingFrame_due _ _)]
    decide +kernel

end ContractMachine
