import ContractMachine.Code
import ContractMachine.Digest.Keccak
import Std.Data.TreeMap

/-!
The positions a jump may land on: the starts of instructions that hold a JUMPDEST. A table is made
in one pass over the code and has one bit for each position, 64 of them to a word; a cache keeps the
tables of codes by their hash.
-/

namespace ContractMachine

/-- The marks of as many positions as a code has, those of a word from its lowest bit up. -/
structure JumpTable where
  words : Array UInt64
  size : Nat
  deriving DecidableEq

namespace JumpTable

def bit (pc : Nat) : UInt64 := 1 <<< UInt64.ofNat (pc % 64)

def marked (words : Array UInt64) (pc : Nat) : Bool := words.getD (pc / 64) 0 &&& bit pc != 0

def setMark (words : Array UInt64) (pc : Nat) : Array UInt64 :=
  words.setIfInBounds (pc / 64) (words.getD (pc / 64) 0 ||| bit pc)

def mark (code : Bytes) : Nat → Nat → Array UInt64 → Array UInt64
  | 0, _, words => words
  | fuel + 1, pc, words =>
      if pc < code.size then
        mark code fuel (Code.next code pc)
          (if Code.opByte code pc = Opcode.jumpDest.byte then setMark words pc else words)
      else words

def ofCode (code : Bytes) : JumpTable where
  words := mark code code.size 0 (Array.replicate ((code.size + 63) / 64) 0)
  size := code.size

def allows (table : JumpTable) (pc : Nat) : Bool := pc < table.size && marked table.words pc

def count (table : JumpTable) : Nat :=
  table.words.foldl (fun total word => total + word.toBitVec.cpop.toNat) 0

theorem toBitVec_bit (pc : Nat) : (bit pc).toBitVec = BitVec.twoPow 64 (pc % 64) := by
  have amount : (UInt64.ofNat (pc % 64)).toBitVec % 64 = BitVec.ofNat 64 (pc % 64) := by
    apply BitVec.eq_of_toNat_eq
    simp
    omega
  rw [bit, UInt64.toBitVec_shiftLeft, amount, BitVec.twoPow_eq, BitVec.shiftLeft_eq',
    BitVec.toNat_ofNat]
  congr 1
  omega

/-- The mark of a position is the bit of its word at the rest of the position by 64. -/
theorem marked_eq (words : Array UInt64) (pc : Nat) :
    marked words pc = (words.getD (pc / 64) 0).toBitVec.getLsbD (pc % 64) := by
  generalize read : words.getD (pc / 64) 0 = word
  have one : BitVec.twoPow 64 (pc % 64) ≠ 0#64 := by
    intro zero
    have at_place := congrArg (fun value => value.getLsbD (pc % 64)) zero
    simp [BitVec.getLsbD_twoPow] at at_place
    omega
  have masked : word &&& bit pc = 0 ↔ word.toBitVec.getLsbD (pc % 64) = false := by
    rw [← UInt64.toBitVec_inj, UInt64.toBitVec_and, toBitVec_bit, BitVec.and_twoPow]
    cases word.toBitVec.getLsbD (pc % 64) with
    | true => simpa using one
    | false => simp
  rw [marked, read, Bool.eq_iff_iff, bne_iff_ne, ne_eq, masked, Bool.not_eq_false]

theorem setMark_size (words : Array UInt64) (pc : Nat) : (setMark words pc).size = words.size :=
  Array.size_setIfInBounds

/-- To mark a position marks it and no other. -/
theorem marked_setMark {words : Array UInt64} {pc : Nat} (inside : pc / 64 < words.size)
    (position : Nat) :
    marked (setMark words pc) position = true ↔ marked words position = true ∨ pc = position := by
  have word : (setMark words pc).getD (position / 64) 0 =
      if pc / 64 = position / 64 then words.getD (position / 64) 0 ||| bit pc else
        words.getD (position / 64) 0 := by
    simp only [setMark, Array.getD_eq_getD_getElem?, Array.getElem?_setIfInBounds]
    by_cases same : pc / 64 = position / 64
    · rw [if_pos same, if_pos same, if_pos inside, same]
      rfl
    · rw [if_neg same, if_neg same]
  rw [marked_eq, marked_eq, word]
  by_cases same : pc / 64 = position / 64
  · have place : pc % 64 < 64 ∧ pc % 64 = position % 64 ↔ pc = position := by omega
    rw [if_pos same, UInt64.toBitVec_or, BitVec.getLsbD_or, toBitVec_bit, BitVec.getLsbD_twoPow,
      Bool.or_eq_true, Bool.and_eq_true, decide_eq_true_eq, decide_eq_true_eq, place]
  · rw [if_neg same]
    constructor
    · exact Or.inl
    · rintro (marked | rfl)
      · exact marked
      · exact absurd rfl same

theorem marked_blank (count position : Nat) :
    marked (Array.replicate count 0) position = false := by
  rw [marked_eq, Array.getD_eq_getD_getElem?, Array.getElem?_replicate]
  split <;> simp

theorem mark_size (code : Bytes) (fuel pc : Nat) (words : Array UInt64) :
    (mark code fuel pc words).size = words.size := by
  induction fuel generalizing pc words with
  | zero => rfl
  | succ fuel ih =>
      unfold mark
      split
      · rw [ih]
        split
        · exact setMark_size words pc
        · rfl
      · rfl

/-- Marking keeps the marks there are and adds the destinations from `pc` on. -/
theorem marked_mark (code : Bytes) (fuel pc : Nat) (words : Array UInt64) (position : Nat)
    (sized : words.size = (code.size + 63) / 64) (enough : code.size ≤ pc + fuel)
    (start : pc < code.size → Code.Start code pc) :
    marked (mark code fuel pc words) position = true ↔
      marked words position = true ∨
        pc ≤ position ∧ Code.Start code position ∧
        Code.opByte code position = Opcode.jumpDest.byte := by
  -- Each round moves `pc` to the next start and adds to the words, so neither is fixed.
  induction fuel generalizing pc words with
  | zero =>
      constructor
      · exact Or.inl
      · rintro (marked | ⟨past, met, _⟩)
        · exact marked
        · have inside := met.lt_size
          omega
  | succ fuel ih =>
      unfold mark
      by_cases inside : pc < code.size
      · have here := start inside
        have advance := Code.lt_next code pc
        have place : pc / 64 < words.size := by omega
        rw [if_pos inside,
          ih (Code.next code pc) _ (by split <;> simp [sized, setMark_size]) (by omega)
          (Code.Start.after here)]
        have added :
            marked (if Code.opByte code pc = Opcode.jumpDest.byte then setMark words pc else words)
            position = true ↔
              marked words position = true ∨ pc = position ∧
              Code.opByte code pc = Opcode.jumpDest.byte := by
          by_cases destination : Code.opByte code pc = Opcode.jumpDest.byte
          · rw [if_pos destination, marked_setMark place]
            simp [destination]
          · simp [destination]
        rw [added]
        constructor
        · rintro ((earlier | ⟨same, destination⟩) | ⟨past, met, destination⟩)
          · exact Or.inl earlier
          · subst same; exact Or.inr ⟨Nat.le_refl _, here, destination⟩
          · exact Or.inr ⟨by omega, met, destination⟩
        · rintro (earlier | ⟨past, met, destination⟩)
          · exact Or.inl (Or.inl earlier)
          · by_cases same : pc = position
            · subst same; exact Or.inl (Or.inr ⟨rfl, destination⟩)
            -- No start lies between a start and the next one.
            · exact Or.inr ⟨here.next_le met (by omega), met, destination⟩
      · rw [if_neg inside]
        constructor
        · exact Or.inl
        · rintro (marked | ⟨past, met, _⟩)
          · exact marked
          · have within := met.lt_size
            omega

/-- The marks of a code are at its destinations, and none is behind its end. -/
theorem marked_ofCode_iff (code : Bytes) (pc : Nat) :
    marked (ofCode code).words pc = true ↔ Code.Start code pc ∧
    Code.opByte code pc = Opcode.jumpDest.byte := by
  have found :=
    marked_mark code code.size 0 (Array.replicate ((code.size + 63) / 64) 0) pc Array.size_replicate
    (Nat.le_add_left _ _) Code.Start.first
  simpa [ofCode, marked_blank] using found

/-- A jump may land on the starts of instructions that hold a JUMPDEST and nowhere else. -/
theorem allows_ofCode_iff (code : Bytes) (pc : Nat) :
    (ofCode code).allows pc = true ↔ Code.Start code pc ∧
    Code.opByte code pc = Opcode.jumpDest.byte := by
  rw [allows, Bool.and_eq_true, decide_eq_true_eq, marked_ofCode_iff]
  constructor
  · exact And.right
  · intro destination
    exact ⟨destination.1.lt_size, destination⟩

end JumpTable

structure JumpCache where
  tables : Std.TreeMap Hash JumpTable := {}

namespace JumpCache

def get (cache : JumpCache) (code : Bytes) : JumpTable × JumpCache :=
  let key := Keccak.hash code
  match cache.tables[key]? with
  | some table => (table, cache)
  | none =>
      let table := JumpTable.ofCode code
      (table, ⟨cache.tables.insert key table⟩)

def size (cache : JumpCache) : Nat := cache.tables.size

end JumpCache

end ContractMachine
