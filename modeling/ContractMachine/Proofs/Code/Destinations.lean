import ContractMachine.Frame
import ContractMachine.Proofs.Code.Sweep
import Mathlib.Data.Nat.Count
import Mathlib.Data.Set.Card

/-!
The destinations of a code are the JUMPDESTs that its linear sweep comes to. A jump table has a mark
for each of them and no other, and as many as it counts; a jump is let through to one of them alone;
and the tables of a cache are those of the codes asked for, as long as no two of these have one
hash.
-/

namespace ContractMachine

/-- A JUMPDEST that is an instruction and not part of an immediate. -/
def Code.Destination (code : Bytes) (pc : Nat) : Prop :=
  code[pc]? = some 0x5b ∧ pc ∈ Code.starts code

theorem Code.destination_iff {code : Bytes} {pc : Nat} :
    Code.Destination code pc ↔ Code.Start code pc ∧ Code.opByte code pc = Opcode.jumpDest.byte := by
  rw [Destination, mem_starts, and_comm]
  apply and_congr_right
  intro start
  rw [getElem?_eq_opByte start.lt_size]
  simp [Opcode.byte]

namespace JumpTable

theorem cpopNatRec_eq_count {width : Nat} (bits : BitVec width) (n : Nat) :
    bits.cpopNatRec n 0 = Nat.count (fun i => bits.getLsbD i = true) n := by
  induction n with
  | zero => rfl
  | succ n ih =>
      rw [BitVec.cpopNatRec_succ, BitVec.cpopNatRec_eq, ih, Nat.count_succ]
      cases bits.getLsbD n <;> simp

/-- The marks in one word are those of 64 positions. -/
theorem count_word (words : Array UInt64) (n : Nat) :
    (words.getD n 0).toBitVec.cpop.toNat =
      Nat.count (fun i => marked words (64 * n + i) = true) 64 := by
  rw [BitVec.toNat_cpop, cpopNatRec_eq_count, Nat.count_eq_card_filter_range,
    Nat.count_eq_card_filter_range]
  congr 1
  apply Finset.filter_congr
  intro i inside
  have narrow : i < 64 := Finset.mem_range.mp inside
  have word : (64 * n + i) / 64 = n := by omega
  have place : (64 * n + i) % 64 = i := by omega
  rw [marked_eq, word, place]

theorem count_take (words : Array UInt64) {n : Nat} (within : n ≤ words.size) :
    (words.toList.take n).foldl (fun total word => total + word.toBitVec.cpop.toNat) 0 =
      Nat.count (fun pc => marked words pc = true) (64 * n) := by
  induction n with
  | zero => rfl
  | succ n ih =>
      have inside : n < words.toList.length := by simpa using within
      have word : words.toList[n] = words.getD n 0 := by
        simp [Array.getD_eq_getD_getElem?, Nat.lt_of_succ_le within]
      rw [← List.take_append_getElem inside, List.foldl_append, ih (Nat.le_of_succ_le within),
        List.foldl_cons, List.foldl_nil, word, count_word, Nat.mul_succ, Nat.count_add]

theorem ofCode_words_size (code : Bytes) : (ofCode code).words.size = (code.size + 63) / 64 := by
  rw [ofCode, mark_size, Array.size_replicate]

/-- As many marks are counted as there are destinations, since none is set behind the code. -/
theorem count_ofCode (code : Bytes) :
    (ofCode code).count = {pc | Code.Destination code pc}.ncard := by
  have all := count_take (ofCode code).words (Nat.le_refl _)
  have marks : {pc | Code.Destination code pc} =
      ((Finset.range (64 * (ofCode code).words.size)).filter fun pc =>
        marked (ofCode code).words pc = true) := by
    ext pc
    rw [Set.mem_ofPred_eq, Code.destination_iff, Finset.coe_filter, Set.mem_ofPred_eq,
      marked_ofCode_iff, Finset.mem_range, ofCode_words_size]
    constructor
    · intro destination
      have inside := destination.1.lt_size
      exact ⟨by omega, destination⟩
    · exact And.right
  rw [← Array.length_toList, List.take_length, Array.foldl_toList] at all
  rw [marks, Set.ncard_coe_finset, ← Nat.count_eq_card_filter_range, ← Array.length_toList]
  exact all

theorem allows_iff_destination (code : Bytes) (pc : Nat) :
    (ofCode code).allows pc = true ↔ Code.Destination code pc := by
  rw [allows_ofCode_iff, Code.destination_iff]

end JumpTable

theorem Word.occupied_le_four_iff (word : Word) : word.occupied ≤ 4 ↔ word.toNat < 2 ^ 32 := by
  unfold occupied
  by_cases zero : word = 0
  · simp [zero]
  · have nonzero : word.toNat ≠ 0 := by
      intro none
      exact zero (BitVec.eq_of_toNat_eq none)
    rw [if_neg zero, ← Nat.log2_lt nonzero]
    omega

/-- A word is let through as the destination of a jump exactly when it is the position of one, in
four bytes. -/
theorem Frame.jumpTarget_eq_ok_iff {frame : Frame}
    (jumps : frame.jumps = JumpTable.ofCode frame.code) (destination : Word) (pc : Nat) :
    frame.jumpTarget destination = .ok pc ↔
      destination.toNat = pc ∧ pc < 2 ^ 32 ∧ Code.Destination frame.code pc := by
  have narrow := destination.occupied_le_four_iff
  rw [jumpTarget, jumps]
  by_cases wide : 4 < destination.occupied
  · rw [if_pos wide]
    constructor
    · intro none
      cases none
    · rintro ⟨rfl, small, _⟩
      omega
  · rw [if_neg wide]
    by_cases allowed : (JumpTable.ofCode frame.code).allows destination.toNat = true
    · rw [if_pos allowed]
      rw [JumpTable.allows_iff_destination] at allowed
      constructor
      · intro found
        cases found
        exact ⟨rfl, by omega, allowed⟩
      · rintro ⟨rfl, _, _⟩
        rfl
    · rw [if_neg allowed]
      rw [JumpTable.allows_iff_destination] at allowed
      constructor
      · intro none
        cases none
      · rintro ⟨rfl, _, destination⟩
        exact absurd destination allowed

namespace JumpCache

def Holds (codes : Bytes → Prop) (cache : JumpCache) : Prop :=
  ∀ key table, cache.tables[key]? = some table →
    ∃ code, codes code ∧ Keccak.hash code = key ∧ table = JumpTable.ofCode code

theorem holds_empty (codes : Bytes → Prop) : Holds codes {} := by
  intro key table found
  rw [Std.TreeMap.getElem?_emptyc] at found
  cases found

/-- Among codes that their hashes tell apart, a code gets its own table and no other. -/
theorem get_spec {codes : Bytes → Prop} {cache : JumpCache} (holds : cache.Holds codes)
    (apart : ∀ first second, codes first → codes second → Keccak.hash first = Keccak.hash second →
      first = second)
    {code : Bytes} (known : codes code) :
    (cache.get code).1 = JumpTable.ofCode code ∧ (cache.get code).2.Holds codes := by
  cases kept : cache.tables[Keccak.hash code]? with
  | some table =>
      have got : cache.get code = (table, cache) := by simp only [get, kept]
      obtain ⟨other, fits, hash, rfl⟩ := holds _ _ kept
      rw [got, apart other code fits known hash]
      exact ⟨rfl, holds⟩
  | none =>
      have got : cache.get code =
          (JumpTable.ofCode code,
            ⟨cache.tables.insert (Keccak.hash code) (JumpTable.ofCode code)⟩) := by
        simp only [get, kept]
      rw [got]
      refine ⟨rfl, ?_⟩
      intro key table found
      rw [Std.TreeMap.getElem?_insert] at found
      split at found
      · rename_i same
        cases found
        exact ⟨code, known, Std.LawfulEqCmp.eq_of_compare same, rfl⟩
      · exact holds key table found

def getAll (cache : JumpCache) : List Bytes → List JumpTable × JumpCache
  | [] => ([], cache)
  | code :: rest =>
      let (table, cache) := cache.get code
      let (tables, cache) := cache.getAll rest
      (table :: tables, cache)

theorem getAll_spec {codes : Bytes → Prop}
    (apart : ∀ first second, codes first → codes second → Keccak.hash first = Keccak.hash second →
      first = second)
    {cache : JumpCache} (holds : cache.Holds codes) {asked : List Bytes}
    (known : ∀ code ∈ asked, codes code) :
    (cache.getAll asked).1 = asked.map JumpTable.ofCode := by
  induction asked generalizing cache with
  | nil => rfl
  | cons code rest ih =>
      obtain ⟨here, others⟩ := List.forall_mem_cons.mp known
      obtain ⟨table, kept⟩ := get_spec holds apart here
      rw [getAll, List.map_cons, ← ih kept others, ← table]

end JumpCache

/-- For every code, the linear sweep that a listing is made along comes to the same JUMPDESTs that
the jump table allows and counts. A jump is let through exactly to the position of one of them that
is written in four bytes. And whatever codes a cache is asked for, it answers as if each table were
made afresh, if their hashes tell them apart. -/
theorem tables_hold_destinations :
    (∀ code, Assembly.listing code = (Code.starts code).flatMap (Assembly.tokensAt code)) ∧
    (∀ code pc, (JumpTable.ofCode code).allows pc = true ↔ code[pc]? = some 0x5b ∧
      pc ∈ Code.starts code) ∧
    (∀ code, (JumpTable.ofCode code).count =
      {pc | code[pc]? = some 0x5b ∧ pc ∈ Code.starts code}.ncard) ∧
    (∀ frame : Frame, frame.jumps = JumpTable.ofCode frame.code → ∀ destination pc,
      frame.jumpTarget destination = .ok pc ↔
        destination.toNat = pc ∧ pc < 2 ^ 32 ∧ frame.code[pc]? = some 0x5b ∧
          pc ∈ Code.starts frame.code) ∧
    (∀ codes : List Bytes,
      (∀ first ∈ codes, ∀ second ∈ codes, Keccak.hash first = Keccak.hash second → first = second) →
        (JumpCache.getAll {} codes).1 = codes.map JumpTable.ofCode) := by
  refine ⟨Assembly.listing_eq, JumpTable.allows_iff_destination, JumpTable.count_ofCode, ?target,
    ?cache⟩
  case target =>
    intro frame jumps destination pc
    exact Frame.jumpTarget_eq_ok_iff jumps destination pc
  case cache =>
    intro codes apart
    exact JumpCache.getAll_spec (fun first second asked also => apart first asked second also)
      (JumpCache.holds_empty fun code => code ∈ codes) fun code asked => asked

-- A PUSH2 of two bytes that are no JUMPDESTs, one that is, and a PUSH32 that has only one byte of
-- its immediate.
def pushingCode : Bytes := #[0x61, 0x5b, 0x5b, 0x5b, 0x7f, 0x5b]

def pushingFrame : Frame :=
  Frame.start pushingCode
    { address := 7, origin := 7, caller := 7, value := 0, data := #[], gas := 1000000,
      gasPrice := 1, block := {}, depth := 0, isStatic := false, transactionHash := 0 } 1024

theorem tables_hold_destination_of_pushingCode :
    pushingFrame.jumpTarget 3 = .ok 3 ∧ pushingFrame.jumpTarget 2 ≠ .ok 2 ∧
    (JumpCache.getAll {} [pushingCode, #[0x5b], pushingCode]).1 =
      [JumpTable.ofCode pushingCode, JumpTable.ofCode #[0x5b], JumpTable.ofCode pushingCode] := by
  obtain ⟨-, -, -, target, cache⟩ := tables_hold_destinations
  have distinct : Keccak.hash pushingCode ≠ Keccak.hash #[0x5b] := by decide +kernel
  have jumps : pushingFrame.jumps = JumpTable.ofCode pushingFrame.code := rfl
  refine ⟨(target pushingFrame jumps 3 3).mpr (by decide +kernel), ?inside, cache _ ?apart⟩
  case inside =>
    intro passes
    have passed := (target pushingFrame jumps 2 2).mp passes
    revert passed
    decide +kernel
  case apart =>
    have either : ∀ code ∈ [pushingCode, #[0x5b], pushingCode], code = pushingCode ∨
        code = #[0x5b] := by simp
    intro first asked second also hash
    rcases either first asked with rfl | rfl <;> rcases either second also with rfl | rfl
    · rfl
    · exact absurd hash distinct
    · exact absurd hash.symm distinct
    · rfl

end ContractMachine
