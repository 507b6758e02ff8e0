import ContractMachine.Code.Assembly

/-!
The linear sweep of a code: the starts of its instructions, in order. A listing of the code is made
along the sweep, one instruction after the other.
-/

namespace ContractMachine

namespace Code

def startsFrom (code : Bytes) : Nat → Nat → List Nat
  | 0, _ => []
  | fuel + 1, pc => if pc < code.size then pc :: startsFrom code fuel (next code pc) else []

def starts (code : Bytes) : List Nat := startsFrom code code.size 0

def immediate (code : Bytes) (pc : Nat) : Bytes := code.extract (pc + 1) (next code pc)

theorem startsFrom_of_outside {code : Bytes} {pc : Nat} (outside : code.size ≤ pc) (fuel : Nat) :
    startsFrom code fuel pc = [] := by
  cases fuel with
  | zero => rfl
  | succ fuel => simp [startsFrom, outside]

theorem mem_startsFrom {code : Bytes} {fuel pc position : Nat} (enough : code.size ≤ pc + fuel)
    (start : pc < code.size → Start code pc) :
    position ∈ startsFrom code fuel pc ↔ pc ≤ position ∧ Start code position := by
  induction fuel generalizing pc with
  | zero =>
      simp only [startsFrom, List.not_mem_nil, false_iff]
      rintro ⟨past, met⟩
      have inside := met.lt_size
      omega
  | succ fuel ih =>
      have advance := lt_next code pc
      by_cases inside : pc < code.size
      · have here := start inside
        rw [startsFrom, if_pos inside, List.mem_cons, ih (by omega) (Start.after here)]
        constructor
        · rintro (rfl | ⟨past, met⟩)
          · exact ⟨Nat.le_refl _, here⟩
          · exact ⟨by omega, met⟩
        · rintro ⟨past, met⟩
          rcases Nat.eq_or_lt_of_le past with same | before
          · exact .inl same.symm
          · exact .inr ⟨here.next_le met before, met⟩
      · rw [startsFrom_of_outside (Nat.le_of_not_lt inside)]
        simp only [List.not_mem_nil, false_iff]
        rintro ⟨past, met⟩
        have within := met.lt_size
        omega

theorem le_of_mem_startsFrom {code : Bytes} {fuel pc position : Nat}
    (member : position ∈ startsFrom code fuel pc) : pc ≤ position ∧ position < code.size := by
  induction fuel generalizing pc with
  | zero => cases member
  | succ fuel ih =>
      have advance := lt_next code pc
      rw [startsFrom] at member
      split at member
      · rename_i inside
        rcases List.mem_cons.mp member with rfl | later
        · exact ⟨Nat.le_refl _, inside⟩
        · have bounds := ih later
          omega
      · cases member

/-- The sweep comes to the starts of instructions and to nothing else. -/
theorem mem_starts {code : Bytes} {pc : Nat} : pc ∈ starts code ↔ Start code pc := by
  rw [starts, mem_startsFrom (Nat.le_add_left _ _) Start.first]
  exact and_iff_right (Nat.zero_le pc)

theorem getElem?_eq_opByte {code : Bytes} {pc : Nat} (inside : pc < code.size) :
    code[pc]? = some (opByte code pc) := by
  simp [opByte, Bytes.zeroExtended, Array.getD_eq_getD_getElem?, inside]

theorem drop_eq_cons {code : Bytes} {pc : Nat} (inside : pc < code.size) :
    code.toList.drop pc = opByte code pc :: code.toList.drop (pc + 1) := by
  have inList : pc < code.toList.length := by simpa using inside
  have byte : code.toList[pc] = opByte code pc := by
    apply Option.some.inj
    rw [← getElem?_eq_opByte inside, ← List.getElem?_eq_getElem, Array.getElem?_toList]
  rw [List.drop_eq_getElem_cons inList, byte]

theorem immediate_toList (code : Bytes) (pc : Nat) :
    (immediate code pc).toList =
      (code.toList.drop (pc + 1)).take (immediateSize (opByte code pc)) := by
  rw [immediate, Array.toList_extract, List.extract_eq_take_drop, next, Nat.add_sub_cancel_left]

theorem immediate_length (code : Bytes) (pc : Nat) :
    (immediate code pc).toList.length =
      min (immediateSize (opByte code pc)) (code.size - (pc + 1)) := by
  simp [immediate_toList]

theorem drop_next (code : Bytes) (pc : Nat) :
    (code.toList.drop (pc + 1)).drop (immediateSize (opByte code pc)) =
      code.toList.drop (next code pc) := by
  rw [List.drop_drop, next]

theorem take_append_drop_next (code : Bytes) (pc : Nat) :
    (code.toList.drop pc).take (next code pc - pc) ++ code.toList.drop (next code pc) =
      code.toList.drop pc := by
  have advance := lt_next code pc
  have behind :
      code.toList.drop (next code pc) = (code.toList.drop pc).drop (next code pc - pc) := by
    rw [List.drop_drop]
    congr 1
    omega
  rw [behind, List.take_append_drop]

end Code

namespace Assembly

def tokensAt (code : Bytes) (pc : Nat) : List (List Char) :=
  match Opcode.ofByte? (Code.opByte code pc) with
  | none => [hexToken [Code.opByte code pc]]
  | some op =>
      match op.immediate? with
      | none => [op.mnemonic.toList]
      | some _ => [op.mnemonic.toList, hexToken (Code.immediate code pc).toList]

theorem tokensOf_instruction (fuel : Nat) {code : Bytes} {pc : Nat} (inside : pc < code.size) :
    tokensOf (fuel + 1) (code.toList.drop pc) =
      tokensAt code pc ++ tokensOf fuel (code.toList.drop (Code.next code pc)) := by
  rw [Code.drop_eq_cons inside, ← Code.drop_next, tokensAt, Code.immediate_toList]
  cases found : Opcode.ofByte? (Code.opByte code pc) with
  | none => simp [tokensOf, found, Code.immediateSize]
  | some op =>
      cases sized : op.immediate? with
      | none => simp [tokensOf, found, sized, Code.immediateSize, Opcode.immediate]
      | some size => simp [tokensOf, found, sized, Code.immediateSize, Opcode.immediate]

theorem tokensOf_drop (code : Bytes) (fuel pc : Nat) :
    tokensOf fuel (code.toList.drop pc) =
      (Code.startsFrom code fuel pc).flatMap (tokensAt code) := by
  induction fuel generalizing pc with
  | zero => rfl
  | succ fuel ih =>
      by_cases inside : pc < code.size
      · rw [tokensOf_instruction fuel inside, ih, Code.startsFrom, if_pos inside, List.flatMap_cons]
      · have outside := Nat.le_of_not_lt inside
        rw [Code.startsFrom_of_outside outside, List.drop_eq_nil_of_le (by simpa using outside)]
        rfl

/-- A listing is made along the sweep. -/
theorem listing_eq (code : Bytes) : listing code = (Code.starts code).flatMap (tokensAt code) :=
  tokensOf_drop code code.size 0

end Assembly

end ContractMachine
