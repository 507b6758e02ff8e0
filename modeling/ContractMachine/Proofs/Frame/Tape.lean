import ContractMachine.Memory
import Mathlib.Order.Bounds.Basic

/-!
Memory as a tape without an end. Whatever is done to a memory, one access after the other, it reads
as a tape of zeros on which each write has left its bytes, and its size is what the accesses that
may grow it ask for, in whole words. Accesses are listed with the latest first.
-/

namespace ContractMachine

namespace Memory

theorem write_cell_eq (memory : Memory) (offset : Nat) (data : Bytes) (size position : Nat) :
    (memory.write offset data size).cell position =
      (if offset ≤ position then (data.extract 0 size)[position - offset]? else none).getD
        (memory.cell position) := by
  rw [write_cell]
  simp only [Bytes.zeroExtended, Array.getD_eq_getD_getElem?]
  grind

theorem writeWithin_cell_eq (memory : Memory) (offset : Nat) (data : Bytes) (size position : Nat) :
    (memory.writeWithin offset data size).cell position =
      (if offset ≤ position ∧ position < memory.size then (data.extract 0 size)[position - offset]?
       else none).getD (memory.cell position) := by
  rw [writeWithin_cell]
  simp only [Bytes.zeroExtended, Array.getD_eq_getD_getElem?]
  grind

inductive Access where
  | extend (offset size : Nat)
  | read (offset size : Nat)
  | readWord (offset : Nat)
  | write (offset : Nat) (data : Bytes) (size : Nat)
  | writeWithin (offset : Nat) (data : Bytes) (size : Nat)
  | writeWord (offset : Nat) (word : Word)
  | writeByte (offset : Nat) (byte : UInt8)

namespace Access

def perform (memory : Memory) : Access → Memory
  | extend offset size => memory.extend offset size
  | read offset size => (memory.read offset size).2
  | readWord offset => (memory.readWord offset).2
  | write offset data size => memory.write offset data size
  | writeWithin offset data size => memory.writeWithin offset data size
  | writeWord offset word => memory.writeWord offset word
  | writeByte offset byte => memory.writeByte offset byte

def offset : Access → Nat
  | extend offset _ | read offset _ | readWord offset | write offset _ _ | writeWithin offset _ _
  | writeWord offset _ | writeByte offset _ => offset

/-- The length of the window. A write has no more than its data. -/
def size : Access → Nat
  | extend _ size | read _ size => size
  | readWord _ | writeWord _ _ => 32
  | write _ data size | writeWithin _ data size => min size data.size
  | writeByte _ _ => 1

def source : Access → Bytes
  | extend _ _ | read _ _ | readWord _ => #[]
  | write _ data size | writeWithin _ data size => data.extract 0 size
  | writeWord _ word => word.toBytes
  | writeByte _ byte => #[byte]

def isLimited : Access → Bool
  | writeWithin _ _ _ => true
  | _ => false

/-- The byte that the access writes at a position, if any, in a memory of the given size. -/
def written? (access : Access) (current position : Nat) : Option UInt8 :=
  if access.offset ≤ position ∧ (access.isLimited = true → position < current) then
    access.source[position - access.offset]?
  else none

theorem perform_size (access : Access) (memory : Memory) :
    (access.perform memory).size =
      if access.isLimited = true then memory.size
      else (memory.extend access.offset access.size).size := by
  cases access with
  | extend | read | readWord => rfl
  | write offset data size => exact memory.write_size offset data size
  | writeWithin offset data size => exact memory.writeWithin_size offset data size
  | writeWord offset word =>
      have long : min 32 word.toBytes.size = 32 := by simp [Word.toBytes, Bytes.ofNat]
      have grown := memory.write_size offset word.toBytes 32
      rwa [long] at grown
  | writeByte offset byte => exact memory.write_size offset #[byte] 1

theorem written?_of_free {access : Access} (free : access.isLimited = false)
    (current position : Nat) :
    access.written? current position =
      if access.offset ≤ position then access.source[position - access.offset]? else none := by
  simp only [written?, free, Bool.false_eq_true, false_implies, and_true]

theorem written?_of_limited {access : Access} (limited : access.isLimited = true)
    (current position : Nat) :
    access.written? current position =
      if access.offset ≤ position ∧ position < current then access.source[position - access.offset]?
      else none := by
  simp only [written?, limited, true_implies]

/-- An access leaves the bytes that it writes and no others. -/
theorem perform_cell (access : Access) (memory : Memory) (position : Nat) :
    (access.perform memory).cell position =
      (access.written? memory.size position).getD (memory.cell position) := by
  cases access with
  | extend offset size | read offset size =>
      rw [written?_of_free rfl, source, Array.getElem?_empty, ite_self]
      exact memory.extend_cell offset size position
  | readWord offset =>
      rw [written?_of_free rfl, source, Array.getElem?_empty, ite_self]
      exact memory.extend_cell offset 32 position
  | write offset data size =>
      rw [written?_of_free rfl]
      exact memory.write_cell_eq offset data size position
  | writeWithin offset data size =>
      rw [written?_of_limited rfl]
      exact memory.writeWithin_cell_eq offset data size position
  | writeWord offset word =>
      have whole : word.toBytes.extract 0 32 = word.toBytes := by simp [Word.toBytes, Bytes.ofNat]
      have left := memory.write_cell_eq offset word.toBytes 32 position
      rw [whole] at left
      rw [written?_of_free rfl]
      exact left
  | writeByte offset byte =>
      rw [written?_of_free rfl]
      exact memory.write_cell_eq offset #[byte] 1 position

end Access

def after : List Access → Memory
  | [] => {}
  | access :: earlier => access.perform (after earlier)

end Memory

namespace Tape

open Memory

/-- The whole words that the accesses reach into, counted in bytes. -/
def size : List Access → Nat
  | [] => 0
  | access :: earlier =>
      if access.isLimited = true ∨ access.size = 0 then size earlier
      else max (size earlier) ((access.offset + access.size + 31) / 32 * 32)

def byte : List Access → Nat → UInt8
  | [], _ => 0
  | access :: earlier, position =>
      (access.written? (size earlier) position).getD (byte earlier position)

def window (accesses : List Access) (offset size : Nat) : Bytes :=
  Array.ofFn fun i : Fin size => byte accesses (offset + i)

def Covers (accesses : List Access) (bound : Nat) : Prop :=
  ∀ access ∈ accesses, access.isLimited = false → access.size ≠ 0 →
    access.offset + access.size ≤ bound

theorem dvd_size (accesses : List Access) : 32 ∣ size accesses := by
  induction accesses with
  | nil => exact Nat.dvd_zero 32
  | cons access earlier ih =>
      rw [size]
      split
      · exact ih
      · omega

theorem covers_cons {access : Access} {earlier : List Access} {bound : Nat} :
    Covers (access :: earlier) bound ↔
      (access.isLimited = false → access.size ≠ 0 → access.offset + access.size ≤ bound) ∧
      Covers earlier bound :=
  List.forall_mem_cons

theorem size_le_of_covers {accesses : List Access} {bound : Nat} (whole : 32 ∣ bound)
    (covers : Covers accesses bound) : size accesses ≤ bound := by
  induction accesses with
  | nil => exact Nat.zero_le bound
  | cons access earlier ih =>
      obtain ⟨here, rest⟩ := covers_cons.mp covers
      rw [size]
      split
      · exact ih rest
      · rename_i grows
        obtain ⟨free, nonempty⟩ := not_or.mp grows
        have reached := here (Bool.eq_false_of_not_eq_true free) nonempty
        exact max_le (ih rest) (by omega)

theorem covers_size (accesses : List Access) : Covers accesses (size accesses) := by
  induction accesses with
  | nil => exact List.forall_mem_nil _
  | cons access earlier ih =>
      refine covers_cons.mpr ⟨?here, ?rest⟩
      case here =>
        intro free nonempty
        rw [size, if_neg (by simp [free, nonempty])]
        omega
      case rest =>
        intro other member free nonempty
        have reached := ih other member free nonempty
        rw [size]
        split <;> omega

/-- No smaller number of whole words covers the windows. -/
theorem size_isLeast (accesses : List Access) :
    IsLeast {bound | 32 ∣ bound ∧ Covers accesses bound} (size accesses) :=
  ⟨⟨dvd_size accesses, covers_size accesses⟩, fun _ fits => size_le_of_covers fits.1 fits.2⟩

theorem size_after (accesses : List Access) : (after accesses).size = size accesses := by
  induction accesses with
  | nil => rfl
  | cons access earlier ih =>
      have whole := dvd_size earlier
      rw [after, Access.perform_size, extend_size, ih, size]
      by_cases limited : access.isLimited = true
      · simp [limited]
      · by_cases empty : access.size = 0
        · simp [limited, empty]
        · simp only [limited, empty, false_or, if_false, Bool.false_eq_true]
          split <;> omega

theorem cell_after (accesses : List Access) (position : Nat) :
    (after accesses).cell position = byte accesses position := by
  induction accesses with
  | nil => rfl
  | cons access earlier ih => rw [after, Access.perform_cell, ih, size_after, byte]

theorem read_after (accesses : List Access) (offset size : Nat) :
    ((after accesses).read offset size).1 = window accesses offset size := by
  apply Array.ext_getElem?
  intro i
  rw [read_getElem?, cell_after, window, Array.getElem?_ofFn]
  split <;> rfl

end Tape

/-- After any accesses to a fresh memory, in whatever order, its size is the least number of whole
words that covers every window that was extended, read or written without a limit and is not empty.
Each read gives the bytes of the tape, so for each position what was last written there, or zero. A
write changes as many bytes at its offset as it is asked for and has, and no others; with a limit it
changes those of them that memory has, and memory does not grow. -/
theorem memory_is_endless_tape (accesses : List Memory.Access) :
    IsLeast {bound | 32 ∣ bound ∧ Tape.Covers accesses bound} (Memory.after accesses).size ∧
    (∀ offset size,
      ((Memory.after accesses).read offset size).1 = Tape.window accesses offset size) ∧
    (∀ offset,
      ((Memory.after accesses).readWord offset).1 = Word.ofBytes (Tape.window accesses offset 32)) ∧
    (∀ offset data size position, ((Memory.after accesses).write offset data size).cell position =
      if offset ≤ position ∧ position < offset + min size data.size then
        data.zeroExtended (position - offset)
      else Tape.byte accesses position) ∧
    (∀ offset data size, ((Memory.after accesses).writeWithin offset data size).size =
      (Memory.after accesses).size ∧
      ∀ position, ((Memory.after accesses).writeWithin offset data size).cell position =
        if offset ≤ position ∧ position < offset + min size data.size ∧
            position < (Memory.after accesses).size then
          data.zeroExtended (position - offset)
        else Tape.byte accesses position) := by
  refine ⟨?size, Tape.read_after accesses, ?readWord, ?write, ?writeWithin⟩
  case size =>
    rw [Tape.size_after]
    exact Tape.size_isLeast accesses
  case readWord =>
    intro offset
    rw [← Tape.read_after]
    rfl
  case write =>
    intro offset data size position
    rw [Memory.write_cell, Tape.cell_after]
  case writeWithin =>
    intro offset data size
    refine ⟨Memory.writeWithin_size .., fun position => ?_⟩
    rw [Memory.writeWithin_cell, Tape.cell_after]

end ContractMachine
