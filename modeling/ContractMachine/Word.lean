import ContractMachine.Bytes

/-!
The 256-bit word, the only operand of the machine, and the 160-bit addresses and 256-bit hashes that
are read off it. Sums, differences and products wrap; a zero divisor gives zero; the signed
operations read a word as the integer in [-2^255, 2^255) of the same residue.
-/

namespace ContractMachine

abbrev Word := BitVec 256

abbrev Address := BitVec 160

abbrev Hash := BitVec 256

namespace Word

/-- The largest position or length that an instruction works with. -/
def indexLimit : Nat := 2147483647

def lengthLimit : Nat := 9223372036854775807

def ofNat (n : Nat) : Word := BitVec.ofNat 256 n

def ofBool (flag : Bool) : Word := if flag then 1 else 0

def ofBytes (bytes : Bytes) : Word := BitVec.ofNat 256 bytes.toNat

def toBytes (word : Word) : Bytes := Bytes.ofNat 32 word.toNat

def toAddress (word : Word) : Address := word.setWidth 160

def ofAddress (address : Address) : Word := address.setWidth 256

def index? (word : Word) : Option Nat :=
  if word.toNat ≤ indexLimit then some word.toNat else none

def index (word : Word) : Nat := min word.toNat indexLimit

def length (word : Word) : Nat := min word.toNat lengthLimit

def occupied (word : Word) : Nat :=
  if word = 0 then 0 else word.toNat.log2 / 8 + 1

def byte (word : Word) (position : Nat) : UInt8 :=
  if position < 32 then UInt8.ofNat (word.toNat >>> (8 * (31 - position))) else 0

theorem index_le (word : Word) : word.index ≤ indexLimit := Nat.min_le_right _ _

theorem index_zero : (0 : Word).index = 0 := rfl

theorem toNat_ofNat_of_le {n : Nat} (narrow : n ≤ indexLimit) : (ofNat n).toNat = n := by
  have small : indexLimit < 2 ^ 256 := by decide
  exact (BitVec.toNat_ofNat _ _).trans (Nat.mod_eq_of_lt (by omega))

theorem index_ofNat {n : Nat} (narrow : n ≤ indexLimit) : (ofNat n).index = n := by
  rw [index, toNat_ofNat_of_le narrow]
  exact Nat.min_eq_left narrow

def div (a b : Word) : Word := if b = 0 then 0 else BitVec.udiv a b

def mod (a b : Word) : Word := if b = 0 then 0 else BitVec.umod a b

/-- A power that is being worked out: of `base ^ exponent`, to be multiplied by `result`. -/
structure Powering where
  result : Word
  base : Word
  exponent : Word
  deriving DecidableEq

namespace Powering

def round (powering : Powering) : Powering where
  result := if powering.exponent.getLsbD 0 then powering.result * powering.base else powering.result
  base := powering.base * powering.base
  exponent := powering.exponent >>> 1

theorem round_exponent_toNat (powering : Powering) :
    powering.round.exponent.toNat = powering.exponent.toNat / 2 := by
  rw [round, BitVec.toNat_ushiftRight, Nat.shiftRight_eq_div_pow]

def run (powering : Powering) : Word :=
  if powering.exponent = 0 then powering.result else powering.round.run
termination_by powering.exponent.toNat
decreasing_by
  rename_i some
  have positive : powering.exponent.toNat ≠ 0 := fun none => some (BitVec.eq_of_toNat_eq none)
  rw [round_exponent_toNat]
  omega

end Powering

def exp (base exponent : Word) : Word := Powering.run ⟨1, base, exponent⟩

def widen (word : Word) : BitVec 512 :=
  BitVec.ofNat 512 (Bytes.toNat (Array.replicate 32 0 ++ word.toBytes))

def narrow (wide : BitVec 512) : Word := ofBytes ((Bytes.ofNat 64 wide.toNat).extract 32 64)

def addMod (a b modulus : Word) : Word :=
  if modulus = 0 then 0 else narrow ((a.widen + b.widen) % modulus.widen)

def mulMod (a b modulus : Word) : Word :=
  if modulus = 0 then 0 else narrow (a.widen * b.widen % modulus.widen)

def isNegative (word : Word) : Bool := word.msb

def negate (word : Word) : Word := ~~~word + 1

/-- The absolute value. That of -2^255 is 2^255, which is the same word. -/
def magnitude (word : Word) : Word := if word.isNegative then word.negate else word

/-- Truncates toward zero. -/
def signedDiv (a b : Word) : Word :=
  if b = 0 then 0
  else
    let quotient : Word := a.magnitude / b.magnitude
    if a.isNegative = b.isNegative then quotient else quotient.negate

/-- Has the sign of the dividend. -/
def signedMod (a b : Word) : Word :=
  if b = 0 then 0
  else
    let remainder : Word := a.magnitude % b.magnitude
    if a.isNegative then remainder.negate else remainder

def signedCompare (a b : Word) : Ordering :=
  match a.isNegative, b.isNegative with
  | true, false => .lt
  | false, true => .gt
  | _, _ => compare a.toNat b.toNat

/-- The signed reading of the low `k + 1` bytes. -/
def signExtend (word : Word) (k : Nat) : Word :=
  if 31 ≤ k then word
  else
    let signBit := 8 * k + 7
    let low := ((1 : Word) <<< (signBit + 1)) - 1
    if word.getLsbD signBit then word ||| ~~~low else word &&& low

def limit : Nat := (BitVec.allOnes 256).toNat

def clamp (n : Nat) : Word := ofNat (min n limit)

def clampedAdd (a b : Word) : Word := clamp (a.toNat + b.toNat)

def clampedSub (a b : Word) : Word := ofNat (a.toNat - b.toNat)

theorem toNat_le_limit (word : Word) : word.toNat ≤ limit := by
  have := word.isLt
  rw [limit, BitVec.toNat_allOnes]
  omega

theorem clamp_toNat (n : Nat) : (clamp n).toNat = min n limit := by
  have below : min n limit < 2 ^ 256 := by rw [limit, BitVec.toNat_allOnes]; omega
  exact (BitVec.toNat_ofNat _ _).trans (Nat.mod_eq_of_lt below)

theorem clampedAdd_toNat (a b : Word) : (a.clampedAdd b).toNat = min (a.toNat + b.toNat) limit :=
  clamp_toNat _

/-- What is cut off and added to a value is as much as a balance has to cover, unless the balance is
the largest. -/
theorem clampedAdd_clamp_le_iff {value balance : Word} {price : Nat} :
    (value.clampedAdd (clamp price)).toNat ≤ balance.toNat ↔
      value.toNat + price ≤ balance.toNat ∨ balance.toNat = limit := by
  have largest := balance.toNat_le_limit
  rw [clampedAdd_toNat, clamp_toNat]
  omega

theorem clampedSub_toNat (a b : Word) : (a.clampedSub b).toNat = a.toNat - b.toNat := by
  have below : a.toNat - b.toNat < 2 ^ 256 := by have := a.isLt; omega
  exact (BitVec.toNat_ofNat _ _).trans (Nat.mod_eq_of_lt below)

/-- What is taken from a word that has it, and put back, leaves the word as it was. -/
theorem clampedSub_clampedAdd {word part : Word} (covered : part.toNat ≤ word.toNat) :
    (word.clampedSub part).clampedAdd part = word := by
  have bound := word.toNat_le_limit
  apply BitVec.eq_of_toNat_eq
  rw [clampedAdd_toNat, clampedSub_toNat]
  omega

theorem clampedSub_zero (word : Word) : word.clampedSub 0 = word :=
  BitVec.eq_of_toNat_eq (clampedSub_toNat word 0)

theorem clampedAdd_zero (word : Word) : word.clampedAdd 0 = word := by
  have bound := word.toNat_le_limit
  apply BitVec.eq_of_toNat_eq
  rw [clampedAdd_toNat]
  exact Nat.min_eq_left bound

end Word

end ContractMachine
