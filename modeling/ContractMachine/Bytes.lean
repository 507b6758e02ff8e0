/-!
Byte strings. A position past the end of a byte string reads as zero, so every byte string has an
endless continuation; `window` cuts a stretch of given length out of it. Numbers are written with
the most significant byte first.
-/

namespace ContractMachine

abbrev Bytes := Array UInt8

namespace Bytes

def zeroExtended (source : Bytes) (position : Nat) : UInt8 :=
  source.getD position 0

def window (source : Bytes) (offset size : Nat) : Bytes :=
  let present := source.extract offset (offset + size)
  present ++ Array.replicate (size - present.size) 0

def overlay (target : Bytes) (offset : Nat) (data : Bytes) (size : Nat) : Bytes :=
  size.fold (fun i _ bytes => bytes.setIfInBounds (offset + i) (data.zeroExtended i)) target

def toNat (bytes : Bytes) : Nat :=
  bytes.foldl (fun total byte => total * 256 + byte.toNat) 0

/-- `size` bytes that write `value`, or its remainder when they are too few. -/
def ofNat (size value : Nat) : Bytes :=
  Array.ofFn fun i : Fin size => UInt8.ofNat (value >>> (8 * (size - 1 - i.val)))

theorem zeroExtended_of_past {source : Bytes} {position : Nat} (past : source.size ≤ position) :
    source.zeroExtended position = 0 := by
  rw [zeroExtended, Array.getD_eq_getD_getElem?, Array.getElem?_eq_none past]
  rfl

theorem window_size (source : Bytes) (offset size : Nat) :
    (source.window offset size).size = size := by
  simp only [window, Array.size_append, Array.size_extract, Array.size_replicate]
  omega

theorem window_getElem? (source : Bytes) (offset size i : Nat) :
    (source.window offset size)[i]? =
      if i < size then some (source.zeroExtended (offset + i)) else none := by
  simp only [window, zeroExtended, Array.getD_eq_getD_getElem?]
  grind

theorem overlay_size (target : Bytes) (offset : Nat) (data : Bytes) (size : Nat) :
    (target.overlay offset data size).size = target.size := by
  unfold overlay
  induction size with
  | zero => rfl
  | succ n ih => rw [Nat.fold_succ, Array.size_setIfInBounds]; exact ih

theorem overlay_getElem? (target : Bytes) (offset : Nat) (data : Bytes) (size i : Nat) :
    (target.overlay offset data size)[i]? =
      if offset ≤ i ∧ i < offset + size ∧ i < target.size then some (data.zeroExtended (i - offset))
      else target[i]? := by
  induction size with
  | zero =>
      rw [if_neg (by omega)]; rfl
  | succ n ih =>
      have step : target.overlay offset data (n + 1) =
          (target.overlay offset data n).setIfInBounds (offset + n) (data.zeroExtended n) := by
        simp only [overlay, Nat.fold_succ]
      rw [step, Array.getElem?_setIfInBounds, overlay_size, ih]
      by_cases here : offset + n = i
      · subst here
        by_cases inside : offset + n < target.size
        · simp [inside]
        · simp [inside]
      · by_cases before : offset ≤ i ∧ i < offset + n ∧ i < target.size
        · rw [if_neg here, if_pos before, if_pos (by omega)]
        · rw [if_neg here, if_neg before, if_neg (by omega)]

end Bytes

end ContractMachine
