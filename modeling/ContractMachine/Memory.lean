import ContractMachine.Word

/-!
The memory of a frame: bytes that are zero until written, in a size that grows by words of 32 bytes
as far as anything was read or written. Whoever grows it has paid for it.
-/

namespace ContractMachine

structure Memory where
  bytes : Bytes := #[]
  deriving DecidableEq

namespace Memory

def size (memory : Memory) : Nat := memory.bytes.size

def cell (memory : Memory) (position : Nat) : UInt8 := memory.bytes.zeroExtended position

/-- Grows to hold `size` bytes from `offset`. No bytes need no room. -/
def extend (memory : Memory) (offset size : Nat) : Memory :=
  if size = 0 ∨ offset + size ≤ memory.size then memory
  else ⟨memory.bytes ++ Array.replicate ((offset + size + 31) / 32 * 32 - memory.size) 0⟩

def read (memory : Memory) (offset size : Nat) : Bytes × Memory :=
  let grown := memory.extend offset size
  (grown.bytes.extract offset (offset + size), grown)

def readWord (memory : Memory) (offset : Nat) : Word × Memory :=
  let (bytes, grown) := memory.read offset 32
  (Word.ofBytes bytes, grown)

def write (memory : Memory) (offset : Nat) (data : Bytes) (size : Nat) : Memory :=
  let count := min size data.size
  ⟨(memory.extend offset count).bytes.overlay offset data count⟩

/-- Writes as `write` does, cut off at the size. -/
def writeWithin (memory : Memory) (offset : Nat) (data : Bytes) (size : Nat) : Memory :=
  let asked := min size data.size
  let count := if memory.size < offset + asked then memory.size - offset else asked
  ⟨memory.bytes.overlay offset data count⟩

def writeWord (memory : Memory) (offset : Nat) (word : Word) : Memory :=
  memory.write offset word.toBytes 32

def writeByte (memory : Memory) (offset : Nat) (byte : UInt8) : Memory :=
  memory.write offset #[byte] 1

theorem extend_size (memory : Memory) (offset size : Nat) :
    (memory.extend offset size).size =
      if size = 0 ∨ offset + size ≤ memory.size then memory.size
      else (offset + size + 31) / 32 * 32 := by
  unfold extend
  split
  · rfl
  · simp only [Memory.size, Array.size_append, Array.size_replicate] at *
    omega

theorem extend_cell (memory : Memory) (offset size position : Nat) :
    (memory.extend offset size).cell position = memory.cell position := by
  unfold extend cell
  split
  · rfl
  · simp only [Bytes.zeroExtended, Array.getD_eq_getD_getElem?]
    grind

/-- What lies within memory already needs no room. -/
theorem extend_of_inside {memory : Memory} {offset size : Nat}
    (inside : size ≠ 0 → offset + size ≤ memory.size) : memory.extend offset size = memory := by
  rw [extend, if_pos (by omega)]

theorem inside_extend (memory : Memory) (offset : Nat) {size : Nat} (nonempty : size ≠ 0) :
    offset + size ≤ (memory.extend offset size).size := by
  rw [extend_size]
  split <;> omega

theorem size_le_extend (memory : Memory) (offset size : Nat) :
    memory.size ≤ (memory.extend offset size).size := by
  rw [extend_size]
  split <;> omega

/-- No bytes are written nowhere. -/
theorem write_zero (memory : Memory) (offset : Nat) (data : Bytes) :
    memory.write offset data 0 = memory := by
  have nothing : min 0 data.size = 0 := Nat.zero_min _
  rw [write, nothing, extend_of_inside (absurd rfl)]
  rfl

theorem read_size_le (memory : Memory) (offset size : Nat) :
    (memory.read offset size).1.size ≤ size := by
  simp only [read, Array.size_extract]
  omega

theorem read_getElem? (memory : Memory) (offset size i : Nat) :
    (memory.read offset size).1[i]? =
      if i < size then some (memory.cell (offset + i)) else none := by
  have grown := extend_size memory offset size
  have same := extend_cell memory offset size (offset + i)
  simp only [read, Memory.size, cell, Bytes.zeroExtended, Array.getD_eq_getD_getElem?] at *
  grind

theorem write_size (memory : Memory) (offset : Nat) (data : Bytes) (size : Nat) :
    (memory.write offset data size).size = (memory.extend offset (min size data.size)).size :=
  Bytes.overlay_size ..

/-- A write changes the positions written and no others. -/
theorem write_cell (memory : Memory) (offset : Nat) (data : Bytes) (size position : Nat) :
    (memory.write offset data size).cell position =
      if offset ≤ position ∧ position < offset + min size data.size then
        data.zeroExtended (position - offset)
      else memory.cell position := by
  have grown := extend_size memory offset (min size data.size)
  have same := extend_cell memory offset (min size data.size) position
  simp only [Memory.size, cell, Bytes.zeroExtended, Array.getD_eq_getD_getElem?] at grown same
  simp only [write, cell, Bytes.zeroExtended, Array.getD_eq_getD_getElem?, Bytes.overlay_getElem?]
  grind

theorem writeWithin_size (memory : Memory) (offset : Nat) (data : Bytes) (size : Nat) :
    (memory.writeWithin offset data size).size = memory.size :=
  Bytes.overlay_size ..

/-- A write within the size changes the positions written that the memory has. -/
theorem writeWithin_cell (memory : Memory) (offset : Nat) (data : Bytes) (size position : Nat) :
    (memory.writeWithin offset data size).cell position =
      if offset ≤ position ∧ position < offset + min size data.size ∧ position < memory.size then
        data.zeroExtended (position - offset)
      else memory.cell position := by
  simp only [writeWithin, Memory.size, cell, Bytes.zeroExtended, Array.getD_eq_getD_getElem?,
    Bytes.overlay_getElem?]
  grind

end Memory

end ContractMachine
