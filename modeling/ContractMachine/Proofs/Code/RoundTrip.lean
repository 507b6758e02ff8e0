import ContractMachine.Proofs.Code.Sweep
import ContractMachine.Proofs.Code.Tokens

/-!
A listing is assembled to the code it was made of. Only a last PUSH whose immediate the code ends in
comes back longer, with zeros before the bytes of its immediate that are there.
-/

namespace ContractMachine

namespace Code

/-- The code ends inside the immediate of the PUSH at `pc`, of which it has the first `present`
bytes. -/
structure EndsInside (code : Bytes) (pc : Nat) (index : Fin 32) (present : Nat) : Prop where
  start : pc ∈ starts code
  push : code[pc]? = some (Opcode.push index).byte
  ends : code.size = pc + 1 + present
  short : present < index.val + 1

/-- Only a PUSH has an immediate. -/
theorem push_of_immediateSize {byte : UInt8} (belongs : 0 < immediateSize byte) :
    ∃ index : Fin 32, (Opcode.push index).byte = byte ∧ immediateSize byte = index.val + 1 := by
  unfold immediateSize at belongs ⊢
  cases found : Opcode.ofByte? byte with
  | none => simp [found] at belongs
  | some op =>
      cases op with
      | push index => exact ⟨index, Opcode.byte_of_ofByte? found, rfl⟩
      | _ => simp [found, Opcode.immediate, Opcode.immediate?] at belongs

theorem immediateSize_push (index : Fin 32) :
    immediateSize (Opcode.push index).byte = index.val + 1 := by
  simp [immediateSize, Opcode.ofByte?_byte, Opcode.immediate, Opcode.immediate?]

theorem EndsInside.next {code : Bytes} {pc present : Nat} {index : Fin 32}
    (cut : EndsInside code pc index present) : next code pc = pc + 1 + (index.val + 1) := by
  have ends := cut.ends
  have byte : opByte code pc = (Opcode.push index).byte := by
    apply Option.some.inj
    rw [← cut.push, getElem?_eq_opByte (by omega)]
  rw [Code.next, byte, immediateSize_push]

/-- An instruction of the sweep that the code ends in is a PUSH. -/
theorem endsInside_of_cut {code : Bytes} {pc : Nat} (start : pc ∈ starts code)
    (cut : code.size < Code.next code pc) :
    ∃ index present, EndsInside code pc index present := by
  have inside := (mem_starts.mp start).lt_size
  unfold Code.next at cut
  have belongs : 0 < immediateSize (opByte code pc) := by omega
  obtain ⟨index, push, size⟩ := push_of_immediateSize belongs
  exact ⟨index, code.size - (pc + 1),
    start, by rw [getElem?_eq_opByte inside, push], by omega, by omega⟩

end Code

namespace Assembly

def written (code : Bytes) (pc : Nat) : List UInt8 :=
  let present := (Code.immediate code pc).toList
  Code.opByte code pc ::
    (List.replicate (Code.immediateSize (Code.opByte code pc) - present.length) 0 ++ present)

theorem written_of_whole {code : Bytes} {pc : Nat} (whole : Code.next code pc ≤ code.size) :
    written code pc = (code.toList.drop pc).take (Code.next code pc - pc) := by
  have inside := Code.lt_next code pc
  have length : Code.next code pc - pc = Code.immediateSize (Code.opByte code pc) + 1 := by
    unfold Code.next
    omega
  have all : (Code.immediate code pc).toList.length = Code.immediateSize (Code.opByte code pc) := by
    rw [Code.immediate_length]
    unfold Code.next at whole
    omega
  rw [written, all, Nat.sub_self, List.replicate_zero, List.nil_append,
    Code.drop_eq_cons (by omega), length, List.take_succ_cons, Code.immediate_toList]

theorem written_of_cut {code : Bytes} {pc : Nat} (inside : pc < code.size)
    (cut : code.size < Code.next code pc) :
    written code pc = Code.opByte code pc ::
      (List.replicate (Code.next code pc - code.size) 0 ++ code.toList.drop (pc + 1)) := by
  unfold Code.next at cut ⊢
  have rest : (code.toList.drop (pc + 1)).length ≤ Code.immediateSize (Code.opByte code pc) := by
    rw [List.length_drop, Array.length_toList]
    omega
  have missing : Code.immediateSize (Code.opByte code pc) - (code.toList.drop (pc + 1)).length =
      pc + 1 + Code.immediateSize (Code.opByte code pc) - code.size := by
    rw [List.length_drop, Array.length_toList]
    omega
  rw [written, Code.immediate_toList, List.take_of_length_le rest, missing]

section Tokens

variable {rest : List (List Char)} {tail : List UInt8} (assembled : assembleTokens rest = .ok tail)
include assembled

theorem assembleTokens_hexToken (bytes : List UInt8) :
    assembleTokens (hexToken bytes :: rest) = .ok (bytes ++ tail) := by
  simp [assembleTokens, hexToken, afterMark?, Hex.decode_digits, liftHex, assembled, bind,
    Except.bind]

theorem assembleTokens_name {op : Opcode} (sized : op.immediate? = none) :
    assembleTokens (op.mnemonic.toList :: rest) = .ok (op.byte :: tail) := by
  obtain ⟨-, unmarked, -⟩ := op.mnemonic_spec
  simp [assembleTokens, unmarked, op.ofMnemonic?_mnemonic, sized, assembled, bind, Except.bind]

theorem assembleTokens_immediate {op : Opcode} {size : Nat} (sized : op.immediate? = some size)
    {bytes : List UInt8} (limited : bytes.length ≤ size) :
    assembleTokens (op.mnemonic.toList :: hexToken bytes :: rest) =
      .ok (op.byte :: (List.replicate (size - bytes.length) 0 ++ bytes) ++ tail) := by
  obtain ⟨-, unmarked, -⟩ := op.mnemonic_spec
  have filled :
      fill op.mnemonic size (hexToken bytes) =
        .ok (List.replicate (size - bytes.length) 0 ++ bytes) := by
    simp [fill, immediateBytes_hexToken, limited, bind, Except.bind]
  simp [assembleTokens, unmarked, op.ofMnemonic?_mnemonic, sized, filled, assembled, bind,
    Except.bind]

/-- One instruction is read back from its tokens, whatever stands behind them. -/
theorem assembleTokens_tokensAt (code : Bytes) (pc : Nat) :
    assembleTokens (tokensAt code pc ++ rest) = .ok (written code pc ++ tail) := by
  have limited :
      (Code.immediate code pc).toList.length ≤ Code.immediateSize (Code.opByte code pc) := by
    rw [Code.immediate_length]
    exact Nat.min_le_left _ _
  rw [tokensAt, written]
  cases found : Opcode.ofByte? (Code.opByte code pc) with
  | none =>
      have size : Code.immediateSize (Code.opByte code pc) = 0 := by
        simp [Code.immediateSize, found]
      have nothing : (Code.immediate code pc).toList = [] :=
        List.eq_nil_of_length_eq_zero (by omega)
      rw [size, nothing]
      exact assembleTokens_hexToken assembled _
  | some op =>
      rw [← Opcode.byte_of_ofByte? found] at limited ⊢
      have immediate : Code.immediateSize op.byte = op.immediate := by
        simp [Code.immediateSize, Opcode.ofByte?_byte]
      rw [immediate] at limited ⊢
      cases sized : op.immediate? with
      | none =>
          have size : op.immediate = 0 := by simp [Opcode.immediate, sized]
          have nothing : (Code.immediate code pc).toList = [] :=
            List.eq_nil_of_length_eq_zero (by omega)
          simp only [size, nothing, sized]
          exact assembleTokens_name assembled sized
      | some size =>
          have same : op.immediate = size := by simp [Opcode.immediate, sized]
          rw [same] at limited ⊢
          simp only [sized]
          exact assembleTokens_immediate assembled sized limited

end Tokens

theorem assembleTokens_flatMap (code : Bytes) (positions : List Nat) :
    assembleTokens (positions.flatMap (tokensAt code)) =
      .ok (positions.flatMap (written code)) := by
  induction positions with
  | nil => rfl
  | cons pc positions ih => exact assembleTokens_tokensAt ih code pc

theorem unbroken_of_mem_listing {code : Bytes} {token : List Char} (listed : token ∈ listing code) :
    Text.Unbroken token := by
  rw [listing_eq, List.mem_flatMap] at listed
  obtain ⟨pc, -, here⟩ := listed
  unfold tokensAt at here
  split at here
  · rw [List.mem_singleton.mp here]
    exact unbroken_hexToken _
  · rename_i op _
    have name := (Opcode.mnemonic_spec op).1
    split at here
    · rw [List.mem_singleton.mp here]
      exact name
    · rcases List.mem_pair.mp here with rfl | rfl
      · exact name
      · exact unbroken_hexToken _

/-- A listing is assembled instruction by instruction, along the sweep. -/
theorem assemble_listing (code : Bytes) :
    assemble (disassemble code) = .ok ((Code.starts code).flatMap (written code)).toArray := by
  have parted : Text.words (disassemble code).toList = listing code := by
    rw [disassemble, String.toList_ofList]
    exact Text.words_intercalate fun token => unbroken_of_mem_listing
  rw [assemble, parted, listing_eq, assembleTokens_flatMap]
  rfl

/-- Where every instruction from `pc` on is whole, they are the code from `pc` on. -/
theorem flatMap_written_of_whole {code : Bytes} {fuel pc : Nat} (enough : code.size ≤ pc + fuel)
    (whole : ∀ position ∈ Code.startsFrom code fuel pc, Code.next code position ≤ code.size) :
    (Code.startsFrom code fuel pc).flatMap (written code) = code.toList.drop pc := by
  induction fuel generalizing pc with
  | zero =>
      have outside : code.size ≤ pc := enough
      simp [Code.startsFrom, outside]
  | succ fuel ih =>
      have advance := Code.lt_next code pc
      by_cases inside : pc < code.size
      · rw [Code.startsFrom, if_pos inside] at whole ⊢
        obtain ⟨here, others⟩ := List.forall_mem_cons.mp whole
        rw [List.flatMap_cons, ih (by omega) others, written_of_whole here,
          Code.take_append_drop_next]
      · simp [Code.startsFrom, inside, Nat.le_of_not_lt inside]

/-- An instruction that is cut short is the last, and is filled up behind its first byte. -/
theorem flatMap_written_of_cut {code : Bytes} {fuel pc last : Nat}
    (sweep : last ∈ Code.startsFrom code fuel pc) (cut : code.size < Code.next code last) :
    (Code.startsFrom code fuel pc).flatMap (written code) =
      (code.toList.drop pc).take (last + 1 - pc) ++
        (List.replicate (Code.next code last - code.size) 0 ++ code.toList.drop (last + 1)) := by
  induction fuel generalizing pc with
  | zero => cases sweep
  | succ fuel ih =>
      obtain ⟨_, inside⟩ := Code.le_of_mem_startsFrom sweep
      rw [Code.startsFrom, if_pos (by omega)] at sweep ⊢
      rw [List.flatMap_cons]
      -- Behind an instruction that is cut short the sweep is over.
      rcases List.mem_cons.mp sweep with rfl | later
      · have one : last + 1 - last = 1 := by omega
        rw [Code.startsFrom_of_outside (Nat.le_of_lt cut), List.flatMap_nil, List.append_nil,
          written_of_cut inside cut, one, Code.drop_eq_cons inside]
        rfl
      · obtain ⟨passed, _⟩ := Code.le_of_mem_startsFrom later
        have advance := Code.lt_next code pc
        have further :
            last + 1 - pc = (Code.next code pc - pc) + (last + 1 - Code.next code pc) := by omega
        have behind : pc + (Code.next code pc - pc) = Code.next code pc := by omega
        rw [ih later, written_of_whole (by omega), further, List.take_add, List.drop_drop, behind,
          List.append_assoc]

end Assembly

/-- Every code can be listed and assembled again. It comes back as it was unless it ends inside the
immediate of a last PUSH, which is then filled up with zeros behind its first byte to the size it
should have. -/
theorem listing_assembles_to_code (code : Bytes) :
    ∃ result, Assembly.assemble (Assembly.disassemble code) = .ok result ∧
      (result = code ↔ ¬ ∃ pc index present, Code.EndsInside code pc index present) ∧
      ∀ pc index present, Code.EndsInside code pc index present →
        result = code.extract 0 (pc + 1) ++ Array.replicate (index.val + 1 - present) 0 ++
          code.extract (pc + 1) (pc + 1 + present) := by
  refine ⟨_, Assembly.assemble_listing code, ?same, ?filled⟩
  case filled =>
    intro pc index present cut
    have next := cut.next
    have ends := cut.ends
    have short := cut.short
    have missing : Code.next code pc - code.size = index.val + 1 - present := by omega
    have last : code.toList.drop (pc + 1) = (code.toList.drop (pc + 1)).take present := by
      apply Eq.symm
      apply List.take_of_length_le
      rw [List.length_drop, Array.length_toList]
      omega
    rw [Code.starts, Assembly.flatMap_written_of_cut cut.start (by omega), missing, last]
    apply Array.ext'
    simp
  case same =>
    constructor
    · rintro same ⟨pc, index, present, cut⟩
      have next := cut.next
      have ends := cut.ends
      have short := cut.short
      have longer := congrArg Array.size same
      rw [Code.starts, Assembly.flatMap_written_of_cut cut.start (by omega)] at longer
      simp only [List.size_toArray, List.length_append, List.length_take, List.length_drop,
        List.length_replicate, Array.length_toList] at longer
      omega
    · intro whole
      have every : ∀ pc ∈ Code.starts code, Code.next code pc ≤ code.size := by
        intro pc start
        apply Nat.le_of_not_lt
        intro cut
        exact whole ⟨pc, Code.endsInside_of_cut start cut⟩
      rw [Code.starts, Assembly.flatMap_written_of_whole (Nat.le_add_left _ _) every]
      simp

-- A STOP and a PUSH3 that has only one byte of its immediate.
theorem listing_assembles_to_code_filled :
    ∃ result, Assembly.assemble (Assembly.disassemble #[0x00, 0x62, 0x5b]) = .ok result ∧
      result = #[0x00, 0x62, 0x00, 0x00, 0x5b] := by
  obtain ⟨result, assembled, -, filled⟩ := listing_assembles_to_code #[0x00, 0x62, 0x5b]
  have cut : Code.EndsInside #[0x00, 0x62, 0x5b] 1 2 1 :=
    ⟨by decide, by decide, rfl, by decide⟩
  exact ⟨result, assembled, filled 1 2 1 cut⟩

end ContractMachine
