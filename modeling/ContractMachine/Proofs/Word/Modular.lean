import ContractMachine.Word
import Mathlib.Data.BitVec
import Mathlib.Data.Nat.Size
import Mathlib.Logic.Function.Iterate

/-!
Powers, sums and products of words modulo a number. A power is squared and multiplied together with
every product wrapped, and what is left to be worked out stays the same modulo 2^256. Sums and
products under a modulus are made in 512 bits, which hold them in full; words get there and back as
the bytes that write them.
-/

namespace ContractMachine

namespace Bytes

theorem toNat_push (bytes : Bytes) (byte : UInt8) :
    Bytes.toNat (bytes.push byte) = bytes.toNat * 256 + byte.toNat :=
  Array.foldl_push

theorem toNat_zeros (count : Nat) : Bytes.toNat (Array.replicate count 0) = 0 := by
  induction count with
  | zero => rfl
  | succ count ih => rw [Array.replicate_succ, toNat_push, ih]; rfl

/-- Zeros in front do not count. -/
theorem toNat_zeros_append (count : Nat) (bytes : Bytes) :
    Bytes.toNat (Array.replicate count 0 ++ bytes) = bytes.toNat := by
  have zeros := toNat_zeros count
  unfold toNat at zeros ⊢
  rw [Array.foldl_append, zeros]

theorem ofNat_succ (size value : Nat) :
    Bytes.ofNat (size + 1) value = (Bytes.ofNat size (value / 256)).push (UInt8.ofNat value) := by
  apply Array.ext
  · simp [ofNat]
  · intro i inside _
    have bounded : i < size + 1 := by simpa [ofNat] using inside
    simp only [ofNat, Array.getElem_ofFn, Array.getElem_push, Array.size_ofFn]
    split
    · rename_i before
      have shift : 8 * (size + 1 - 1 - i) = 8 + 8 * (size - 1 - i) := by omega
      rw [shift, Nat.shiftRight_add, Nat.shiftRight_eq_div_pow value 8]
    · have last : size + 1 - 1 - i = 0 := by omega
      rw [last]
      rfl

/-- Bytes write a number as far as they reach. -/
theorem toNat_ofNat (size value : Nat) :
    Bytes.toNat (Bytes.ofNat size value) = value % 256 ^ size := by
  induction size generalizing value with
  | zero => rw [Nat.pow_zero, Nat.mod_one]; rfl
  | succ size ih =>
      rw [ofNat_succ, toNat_push, ih, Nat.pow_succ', Nat.mod_mul, UInt8.toNat_ofNat']
      omega

/-- The last bytes write the low part of a number. -/
theorem extract_ofNat (dropped size value : Nat) :
    (Bytes.ofNat (dropped + size) value).extract dropped (dropped + size) =
      Bytes.ofNat size value := by
  apply Array.ext
  · simp [ofNat]
  · intro i inside also
    have bounded : i < size := by simpa [ofNat] using also
    have place : dropped + size - 1 - (dropped + i) = size - 1 - i := by omega
    simp only [ofNat, Array.getElem_extract, Array.getElem_ofFn, place]

end Bytes

namespace Word

theorem widen_eq_setWidth (word : Word) : word.widen = BitVec.setWidth 512 word := by
  have written : Bytes.toNat word.toBytes = word.toNat :=
    (Bytes.toNat_ofNat 32 word.toNat).trans (Nat.mod_eq_of_lt word.isLt)
  rw [widen, Bytes.toNat_zeros_append, written, BitVec.ofNat_toNat]

theorem narrow_eq_setWidth (wide : BitVec 512) : narrow wide = BitVec.setWidth 256 wide := by
  have written : Bytes.toNat (Bytes.ofNat 32 wide.toNat) = wide.toNat % 2 ^ 256 :=
    Bytes.toNat_ofNat 32 wide.toNat
  apply BitVec.eq_of_toNat_eq
  rw [narrow, Bytes.extract_ofNat 32 32, ofBytes, written, BitVec.toNat_ofNat,
    BitVec.toNat_setWidth, Nat.mod_mod]

theorem widen_toNat (word : Word) : word.widen.toNat = word.toNat := by
  rw [widen_eq_setWidth]
  exact BitVec.toNat_setWidth_of_le (by decide)

theorem narrow_toNat {wide : BitVec 512} (small : wide.toNat < 2 ^ 256) :
    (narrow wide).toNat = wide.toNat := by
  rw [narrow_eq_setWidth, BitVec.toNat_setWidth, Nat.mod_eq_of_lt small]

theorem narrow_widen (word : Word) : narrow word.widen = word := by
  rw [narrow_eq_setWidth, widen_eq_setWidth, BitVec.setWidth_setWidth_of_le _ (by decide),
    BitVec.setWidth_eq]

theorem widen_narrow {wide : BitVec 512} (small : wide.toNat < 2 ^ 256) :
    (narrow wide).widen = wide := by
  apply BitVec.eq_of_toNat_eq
  rw [widen_toNat, narrow_toNat small]

/-- One more bit holds a sum. -/
theorem setWidth_add_toNat {m width : Nat} (a b : BitVec m) (wide : m + 1 ≤ width) :
    (BitVec.setWidth width a + BitVec.setWidth width b).toNat = a.toNat + b.toNat := by
  have first := a.isLt
  have second := b.isLt
  have fits : a.toNat + b.toNat < 2 ^ width := by
    refine Nat.lt_of_lt_of_le ?_ (Nat.pow_le_pow_right (by decide) wide)
    omega
  rw [BitVec.toNat_add, BitVec.toNat_setWidth_of_le (by omega),
    BitVec.toNat_setWidth_of_le (by omega), Nat.mod_eq_of_lt fits]

/-- Twice the bits hold a product. -/
theorem setWidth_mul_toNat {m width : Nat} (a b : BitVec m) (wide : m + m ≤ width) :
    (BitVec.setWidth width a * BitVec.setWidth width b).toNat = a.toNat * b.toNat := by
  have fits : a.toNat * b.toNat < 2 ^ width := by
    refine Nat.lt_of_lt_of_le ?_ (Nat.pow_le_pow_right (by decide) wide)
    rw [Nat.pow_add]
    exact Nat.mul_lt_mul'' a.isLt b.isLt
  rw [BitVec.toNat_mul, BitVec.toNat_setWidth_of_le (by omega),
    BitVec.toNat_setWidth_of_le (by omega), Nat.mod_eq_of_lt fits]

theorem widen_add_toNat (a b : Word) : (a.widen + b.widen).toNat = a.toNat + b.toNat := by
  rw [widen_eq_setWidth, widen_eq_setWidth]
  exact setWidth_add_toNat a b (by decide)

theorem widen_mul_toNat (a b : Word) : (a.widen * b.widen).toNat = a.toNat * b.toNat := by
  rw [widen_eq_setWidth, widen_eq_setWidth]
  exact setWidth_mul_toNat a b (by decide)

/-- What is left over by a word fits a word. -/
theorem narrow_mod_toNat (wide : BitVec 512) {modulus : Word} (divides : modulus ≠ 0) :
    (narrow (wide % modulus.widen)).toNat = wide.toNat % modulus.toNat := by
  have rest : (wide % modulus.widen).toNat = wide.toNat % modulus.toNat := by
    rw [BitVec.toNat_umod, widen_toNat]
  have positive : 0 < modulus.toNat :=
    Nat.pos_of_ne_zero fun zero => divides (BitVec.eq_of_toNat_eq zero)
  have small : wide.toNat % modulus.toNat < 2 ^ 256 :=
    Nat.lt_trans (Nat.mod_lt _ positive) modulus.isLt
  rw [← rest] at small ⊢
  exact narrow_toNat small

theorem addMod_toNat (a b : Word) {modulus : Word} (divides : modulus ≠ 0) :
    (a.addMod b modulus).toNat = (a.toNat + b.toNat) % modulus.toNat := by
  rw [addMod, if_neg divides, narrow_mod_toNat _ divides, widen_add_toNat]

theorem mulMod_toNat (a b : Word) {modulus : Word} (divides : modulus ≠ 0) :
    (a.mulMod b modulus).toNat = a.toNat * b.toNat % modulus.toNat := by
  rw [mulMod, if_neg divides, narrow_mod_toNat _ divides, widen_mul_toNat]

namespace Powering

def outcome (powering : Powering) : Word :=
  powering.result * powering.base ^ powering.exponent.toNat

/-- Each round keeps it: the base is squared as the exponent is halved, and what is odd goes to the
result. -/
theorem round_outcome (powering : Powering) : powering.round.outcome = powering.outcome := by
  have odd : powering.exponent.getLsbD 0 = decide (powering.exponent.toNat % 2 = 1) := by
    rw [BitVec.getLsbD, Nat.testBit_zero]
  have halves :
      powering.exponent.toNat = powering.exponent.toNat % 2 +
        2 * (powering.exponent.toNat / 2) := by omega
  have squared : powering.base ^ powering.exponent.toNat =
      powering.base ^ (powering.exponent.toNat % 2) * (powering.base * powering.base) ^
        (powering.exponent.toNat / 2) := by
    conv_lhs => rw [halves, pow_add, pow_mul, pow_two]
  rw [outcome, outcome, round_exponent_toNat, squared, ← mul_assoc]
  congr 1
  simp only [round, odd, decide_eq_true_eq]
  split
  · rename_i one
    rw [one, pow_one]
  · rename_i even
    have zero : powering.exponent.toNat % 2 = 0 := by omega
    rw [zero, pow_zero, mul_one]

theorem run_eq_outcome (powering : Powering) : powering.run = powering.outcome := by
  induction powering using run.induct with
  | case1 powering done =>
      have nothing : powering.exponent.toNat = 0 := by rw [done]; rfl
      rw [run, if_pos done, outcome, nothing, pow_zero, mul_one]
  | case2 powering more ih => rw [run, if_neg more, ih, round_outcome]

theorem rounds_exponent_toNat (powering : Powering) (count : Nat) :
    (round^[count] powering).exponent.toNat = powering.exponent.toNat / 2 ^ count := by
  induction count with
  | zero => rw [Nat.pow_zero, Nat.div_one]; rfl
  | succ count ih =>
      rw [Function.iterate_succ_apply', round_exponent_toNat, ih, Nat.div_div_eq_div_mul,
        Nat.pow_succ]

/-- It goes on for as many rounds as the exponent has bits. -/
theorem exponent_ne_zero (powering : Powering) {count : Nat}
    (before : count < powering.exponent.toNat.size) : (round^[count] powering).exponent ≠ 0 := by
  intro zero
  have quotient := powering.rounds_exponent_toNat count
  rw [zero] at quotient
  have positive : 0 < powering.exponent.toNat / 2 ^ count :=
    Nat.div_pos (Nat.lt_size.mp before) (Nat.two_pow_pos count)
  exact Nat.ne_of_lt positive quotient

theorem exponent_eq_zero (powering : Powering) :
    (round^[powering.exponent.toNat.size] powering).exponent = 0 := by
  apply BitVec.eq_of_toNat_eq
  rw [rounds_exponent_toNat, Nat.div_eq_of_lt (Nat.lt_size_self _)]
  rfl

theorem run_rounds (powering : Powering) {count : Nat}
    (within : count ≤ powering.exponent.toNat.size) :
    (round^[count] powering).run = powering.run := by
  induction count with
  | zero => rfl
  | succ count ih =>
      rw [Function.iterate_succ_apply', ← ih (Nat.le_of_succ_le within)]
      conv_rhs => rw [run, if_neg (powering.exponent_ne_zero within)]

theorem run_eq_result (powering : Powering) :
    powering.run = (round^[powering.exponent.toNat.size] powering).result := by
  rw [← powering.run_rounds (Nat.le_refl _), run, if_pos powering.exponent_eq_zero]

end Powering

theorem exp_toNat (a b : Word) : (a.exp b).toNat = a.toNat ^ b.toNat % 2 ^ 256 := by
  have same : (a.toNat : Word) = a := (BitVec.ofNat_toNat 256 a).trans (BitVec.setWidth_eq a)
  have whole : a.exp b = ((a.toNat ^ b.toNat : Nat) : Word) := by
    calc a.exp b
        = 1 * a ^ b.toNat := Powering.run_eq_outcome ⟨1, a, b⟩
      _ = ((a.toNat ^ b.toNat : Nat) : Word) := by rw [one_mul, Nat.cast_pow, same]
  rw [whole]
  exact BitVec.toNat_ofNat _ _

end Word

/-- A power comes out after as many rounds as the exponent has bits, 256 at most, and is that of the
numbers modulo 2^256; the power with exponent zero is one. Under a modulus that is not zero, sums
and products are those of the numbers in full, and under zero they are zero. A word is the same
number in 512 bits and comes back from there as it was; sums and products of words are not wrapped
there; and 512 bits with a number less than 2^256 are not changed on the way through a word. -/
theorem modular_words_are_exact :
    (∀ a b : Word, (a.exp b).toNat = a.toNat ^ b.toNat % 2 ^ 256 ∧
      ∃ rounds ≤ 256, (∀ earlier < rounds, (Word.Powering.round^[earlier] ⟨1, a, b⟩).exponent ≠ 0) ∧
        (Word.Powering.round^[rounds] ⟨1, a, b⟩).exponent = 0 ∧
        a.exp b = (Word.Powering.round^[rounds] ⟨1, a, b⟩).result) ∧
    (∀ a : Word, a.exp 0 = 1) ∧
    (∀ a b n : Word, n ≠ 0 →
      (a.addMod b n).toNat = (a.toNat + b.toNat) % n.toNat ∧
      (a.mulMod b n).toNat = a.toNat * b.toNat % n.toNat) ∧
    (∀ a b : Word, a.addMod b 0 = 0 ∧ a.mulMod b 0 = 0) ∧
    (∀ a b : Word, a.widen.toNat = a.toNat ∧ Word.narrow a.widen = a ∧
      (a.widen + b.widen).toNat = a.toNat + b.toNat ∧
        (a.widen * b.widen).toNat = a.toNat * b.toNat) ∧
    (∀ wide : BitVec 512, wide.toNat < 2 ^ 256 → (Word.narrow wide).widen = wide) := by
  refine ⟨?power, ?one, ?remainders, ?zero, ?widths, ?back⟩
  case power =>
    intro a b
    have short : b.toNat.size ≤ 256 := Nat.size_le.mpr b.isLt
    refine ⟨a.exp_toNat b, b.toNat.size, short, ?_, ?_, ?_⟩
    · intro earlier before
      exact Word.Powering.exponent_ne_zero ⟨1, a, b⟩ before
    · exact Word.Powering.exponent_eq_zero ⟨1, a, b⟩
    · exact Word.Powering.run_eq_result ⟨1, a, b⟩
  case one =>
    intro a
    rw [Word.exp, Word.Powering.run, if_pos rfl]
  case remainders =>
    intro a b n divides
    exact ⟨a.addMod_toNat b divides, a.mulMod_toNat b divides⟩
  case zero =>
    intro a b
    exact ⟨if_pos rfl, if_pos rfl⟩
  case widths =>
    intro a b
    exact ⟨a.widen_toNat, a.narrow_widen, a.widen_add_toNat b, a.widen_mul_toNat b⟩
  case back =>
    intro wide small
    exact Word.widen_narrow small

/-- Zero to the power of zero, a power that wraps, and all ones under a modulus, where the sum and
the product of the wrapped words are others. -/
theorem modular_words_at_limits :
    Word.exp 0 0 = 1 ∧
    (Word.exp 2 256).toNat = 0 ∧
    (Word.addMod (-1) 2 10).toNat = 7 ∧
    (Word.mulMod (-1) (-1) 12).toNat = 9 ∧
    (Word.narrow 5).widen = 5 := by
  obtain ⟨power, one, remainders, -, -, back⟩ := modular_words_are_exact
  refine ⟨one 0, ?wraps, ?sum, ?product, back 5 (by decide +kernel)⟩
  case wraps =>
    rw [(power 2 256).1]
    decide
  case sum =>
    rw [(remainders (-1) 2 10 (by decide)).1]
    decide
  case product =>
    rw [(remainders (-1) (-1) 12 (by decide)).2]
    decide

end ContractMachine
