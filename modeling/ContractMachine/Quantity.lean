/-!
Amounts of gas, counts and the like are natural numbers; where one is stored it is clamped into 64
bits. Sums are therefore exact until the moment they are kept.
-/

namespace ContractMachine.Quantity

def limit : Nat := 18446744073709551615

def clamp (n : Nat) : Nat := min n limit

theorem clamp_le (n : Nat) : clamp n ≤ limit := Nat.min_le_right n limit

theorem clamp_eq_iff (n : Nat) : clamp n = n ↔ n ≤ limit := by
  unfold clamp; omega

/-- A bound that is itself the largest amount is never exceeded. -/
theorem clamp_le_iff {n bound : Nat} : clamp n ≤ bound ↔ n ≤ bound ∨ limit ≤ bound := by
  unfold clamp; omega

theorem clamp_mono {m n : Nat} (le : m ≤ n) : clamp m ≤ clamp n := by
  unfold clamp; omega

end ContractMachine.Quantity
