import ContractMachine.Bytes
import ContractMachine.Opcode

/-!
Code is a byte string read from the front: an instruction takes one byte, a PUSH also those of its
immediate, and a byte that is no instruction takes itself. The positions met this way are the starts
of instructions. The jump table, the listing and the machine all go by them.
-/

namespace ContractMachine.Code

/-- The byte at a position; past the end of the code it is that of STOP. -/
def opByte (code : Bytes) (pc : Nat) : UInt8 := code.zeroExtended pc

def immediateSize (byte : UInt8) : Nat :=
  match Opcode.ofByte? byte with
  | some op => op.immediate
  | none => 0

def next (code : Bytes) (pc : Nat) : Nat := pc + 1 + immediateSize (opByte code pc)

inductive Start (code : Bytes) : Nat → Prop where
  | first (inside : 0 < code.size) : Start code 0
  | after {pc : Nat} (start : Start code pc) (inside : next code pc < code.size) :
      Start code (next code pc)

theorem lt_next (code : Bytes) (pc : Nat) : pc < next code pc := by
  unfold next; omega

theorem Start.lt_size {code : Bytes} {pc : Nat} (start : Start code pc) : pc < code.size := by
  cases start with
  | first inside => exact inside
  | after _ inside => exact inside

/-- A later start lies past the whole instruction: no start is inside an immediate. -/
theorem Start.next_le {code : Bytes} {pc later : Nat} (start : Start code pc)
    (laterStart : Start code later) (before : pc < later) : next code pc ≤ later := by
  induction later using Nat.strongRecOn generalizing pc with
  | ind later ih =>
      cases laterStart with
      | first _ => omega
      | @after previous previousStart _ =>
          have advance := lt_next code previous
          rcases Nat.lt_trichotomy pc previous with smaller | same | larger
          · have reached := ih previous advance start previousStart smaller
            omega
          · exact Nat.le_of_eq (congrArg (next code) same)
          · have passed := ih pc before previousStart start larger
            omega

end ContractMachine.Code
