import ContractMachine.Code.Assembly
import Mathlib.Data.List.Basic
import Mathlib.Data.List.Nodup

/-!
The tokens of a listing, read back. A name is that of one instruction alone, bytes that are written
as digits are decoded to themselves, and words that are put together with a blank between them are
parted again.
-/

namespace ContractMachine

namespace Text

def Unbroken (token : List Char) : Prop := token ≠ [] ∧ ∀ c ∈ token, isBlank c = false

instance (token : List Char) : Decidable (Unbroken token) :=
  decidable_of_iff (token ≠ [] ∧ (token.all fun c => !isBlank c) = true) (by simp [Unbroken])

theorem keep_of_unbroken {token : List Char} (word : Unbroken token) (words : List (List Char)) :
    keep token words = token :: words := by
  simp [keep, word.1]

theorem split_append {token : List Char} (unbroken : ∀ c ∈ token, isBlank c = false)
    (text : List Char) :
    split (token ++ text) = (token ++ (split text).1, (split text).2) := by
  induction token with
  | nil => rfl
  | cons c token ih =>
      obtain ⟨letter, others⟩ := List.forall_mem_cons.mp unbroken
      simp only [split, List.cons_append, List.foldr_cons] at ih ⊢
      rw [ih others]
      simp [letter]

/-- A word that is followed by a blank has ended. -/
theorem words_append {token : List Char} (word : Unbroken token) (text : List Char) :
    words (token ++ ' ' :: text) = token :: words text := by
  have ended : split (' ' :: text) = ([], words text) := rfl
  rw [words, split_append word.2, ended, List.append_nil, keep_of_unbroken word]

theorem words_intercalate {tokens : List (List Char)} (parted : ∀ token ∈ tokens, Unbroken token) :
    words ([' '].intercalate tokens) = tokens := by
  induction tokens with
  | nil => rfl
  | cons token rest ih =>
      obtain ⟨word, others⟩ := List.forall_mem_cons.mp parted
      cases rest with
      | nil =>
          have last : split token = (token, []) := by simpa [split] using split_append word.2 []
          simp [words, last, keep_of_unbroken word]
      | cons following rest =>
          rw [List.intercalate_cons_cons, List.append_assoc, List.singleton_append,
            words_append word, ih others]

end Text

namespace Hex

/-- A digit is written as one byte, which reads as its value. -/
theorem read_digitChar {n : Nat} (small : n < 16) :
    (String.utf8EncodeChar (Nat.digitChar n)).map digitValue? = [some n] := by
  have every : ∀ n : Fin 16, (String.utf8EncodeChar (Nat.digitChar n)).map digitValue? =
      [some n.val] := by
    decide +kernel
  exact every ⟨n, small⟩

theorem utf8_append (first second : List Char) :
    utf8 (first ++ second) = utf8 first ++ utf8 second :=
  List.flatMap_append

/-- A byte is written as two digits, which read as its value. -/
theorem utf8_digits (byte : UInt8) :
    ∃ high low, utf8 (digits byte) = [high, low] ∧
      digitValue? high = some (byte.toNat / 16) ∧ digitValue? low = some (byte.toNat % 16) := by
  have narrow := byte.toNat_lt
  obtain ⟨high, highWritten, highRead⟩ :=
    List.map_eq_singleton_iff.mp (read_digitChar (n := byte.toNat / 16) (by omega))
  obtain ⟨low, lowWritten, lowRead⟩ :=
    List.map_eq_singleton_iff.mp (read_digitChar (n := byte.toNat % 16) (by omega))
  refine ⟨high, low, ?written, highRead, lowRead⟩
  simp [utf8, digits, highWritten, lowWritten]

theorem utf8_flatMap_digits_length (bytes : List UInt8) :
    (utf8 (bytes.flatMap digits)).length = 2 * bytes.length := by
  induction bytes with
  | nil => rfl
  | cons byte bytes ih =>
      obtain ⟨high, low, written, -, -⟩ := utf8_digits byte
      rw [List.flatMap_cons, utf8_append, List.length_append, ih, written, List.length_cons]
      simp only [List.length_cons, List.length_nil]
      omega

theorem decodePairs_digits (position : Nat) (bytes : List UInt8) :
    decodePairs position (utf8 (bytes.flatMap digits)) = .ok bytes := by
  induction bytes generalizing position with
  | nil => rfl
  | cons byte bytes ih =>
      obtain ⟨high, low, written, highRead, lowRead⟩ := utf8_digits byte
      have value : byte.toNat / 16 * 16 + byte.toNat % 16 = byte.toNat := by omega
      rw [List.flatMap_cons, utf8_append, written]
      simp [decodePairs, digitAt, highRead, lowRead, ih, value, bind, Except.bind, pure,
        Except.pure]

/-- What is written with two digits a byte is read back. -/
theorem decode_digits (bytes : List UInt8) : decode (utf8 (bytes.flatMap digits)) = .ok bytes := by
  have even : ¬ (utf8 (bytes.flatMap digits)).length % 2 = 1 := by
    rw [utf8_flatMap_digits_length]
    omega
  rw [decode, if_neg even, decodePairs_digits]

theorem isBlank_digitChar {n : Nat} (small : n < 16) : Text.isBlank (Nat.digitChar n) = false := by
  have every : ∀ n : Fin 16, Text.isBlank (Nat.digitChar n.val) = false := by decide +kernel
  exact every ⟨n, small⟩

end Hex

namespace Opcode

theorem mem_all (op : Opcode) : op ∈ all := by
  have found : ofByte? (UInt8.ofNat op.byte.toNat) = some op := by
    rw [UInt8.ofNat_toNat, ofByte?_byte]
  exact List.mem_filterMap.mpr ⟨op.byte.toNat, List.mem_range.mpr op.byte.toNat_lt, found⟩

/-- No two instructions have one name. -/
theorem mnemonic_injective : Function.Injective mnemonic := by
  have distinct : (all.map mnemonic).Nodup := by decide +kernel
  intro first second same
  exact List.inj_on_of_nodup_map distinct (mem_all first) (mem_all second) same

/-- A name is a word in upper case, which is not taken for digits. -/
theorem mnemonic_spec (op : Opcode) :
    Text.Unbroken op.mnemonic.toList ∧ Assembly.afterMark? op.mnemonic.toList = none ∧
      op.mnemonic.toList.map Char.toUpper = op.mnemonic.toList := by
  cases op
  case binary operation => cases operation <;> decide +kernel
  case ternary operation => cases operation <;> decide +kernel
  case unary operation => cases operation <;> decide +kernel
  case reading what => cases what <;> decide +kernel
  case copy source => cases source <;> decide +kernel
  case call kind => cases kind <;> decide +kernel
  case push index => revert index; decide +kernel
  case dup index => revert index; decide +kernel
  case swap index => revert index; decide +kernel
  case log topics => revert topics; decide +kernel
  all_goals decide +kernel

/-- The instruction of a name is the one that has it. -/
theorem ofMnemonic?_mnemonic (op : Opcode) : ofMnemonic? op.mnemonic.toList = some op := by
  obtain ⟨-, -, upper⟩ := mnemonic_spec op
  rw [ofMnemonic?, upper]
  cases found : all.find? fun other => other.mnemonic.toList == op.mnemonic.toList with
  | none =>
      have absent := List.find?_eq_none.mp found op (mem_all op)
      simp at absent
  | some other =>
      have same := List.find?_some found
      rw [beq_iff_eq, String.toList_inj] at same
      rw [mnemonic_injective same]

end Opcode

namespace Assembly

theorem unbroken_hexToken (bytes : List UInt8) : Text.Unbroken (hexToken bytes) := by
  constructor
  · simp [hexToken]
  · intro c written
    simp only [hexToken, List.mem_cons, List.mem_flatMap, Hex.digits, List.not_mem_nil,
      or_false] at written
    rcases written with rfl | rfl | ⟨byte, -, rfl | rfl⟩
    · rfl
    · rfl
    · exact Hex.isBlank_digitChar (Nat.div_lt_of_lt_mul byte.toNat_lt)
    · exact Hex.isBlank_digitChar (Nat.mod_lt _ (by decide))

theorem immediateBytes_hexToken (bytes : List UInt8) :
    immediateBytes (hexToken bytes) = .ok bytes := by
  have even : ¬ (Hex.utf8 (bytes.flatMap Hex.digits)).length % 2 = 1 := by
    rw [Hex.utf8_flatMap_digits_length]
    omega
  simp only [immediateBytes, hexToken, afterMark?, if_neg even, Hex.decode_digits, liftHex]

end Assembly

end ContractMachine
