import ContractMachine.Proofs.Frame.Compute
import ContractMachine.Proofs.Frame.Gas

/-!
Memory is paid for before it is used. The price of an instruction is worked out from its operands as
they are, the memory is read and written where they are narrowed to; a window that has a price loses
nothing by that. So memory never outgrows what its growth has cost.
-/

namespace ContractMachine

/-- The window is empty, or it loses nothing when it is narrowed and ends within `bound`. -/
def Window.Within (window : Window) (bound : Nat) : Prop :=
  window.size ≠ 0 → window.offset.index = window.offset.toNat ∧
  window.size.index = window.size.toNat ∧
    window.offset.toNat + window.size.toNat ≤ bound

theorem Window.within_of_needed {window : Window} {bound : Nat} (narrow : bound ≤ Word.indexLimit)
    (needed : memoryNeeded window.offset window.size ≤ bound) : window.Within bound := by
  intro nonempty
  rw [memoryNeeded, if_neg nonempty] at needed
  have small : Word.indexLimit < Word.limit := by decide
  have inside : window.offset.toNat + window.size.toNat ≤ bound := by omega
  unfold Word.index
  omega

/-- Where a narrowed offset leaves room for a byte, nothing is lost by narrowing it. -/
theorem Window.within_of_narrowed {offset size : Word}
    (narrow : memoryNeeded (Word.ofNat offset.index) size ≤ Word.indexLimit) :
    Window.Within ⟨offset, size⟩ (memoryNeeded (Word.ofNat offset.index) size) := by
  intro nonempty
  have positive : 0 < size.toNat :=
    Nat.pos_of_ne_zero fun none => nonempty (BitVec.eq_of_toNat_eq none)
  have small : Word.indexLimit < Word.limit := by decide
  rw [memoryNeeded, if_neg nonempty, Word.toNat_ofNat_of_le (Word.index_le offset)] at narrow ⊢
  simp only [Word.index] at narrow ⊢
  omega

def Fees.PaysFor (fees : Fees) (size : Nat) (windows : List Window) (growth : Nat) : Prop :=
  ∃ needed, fees.growth size needed = .ok growth ∧ ∀ window ∈ windows, window.Within needed

theorem wordsFor_mono {fewer more : Nat} (le : fewer ≤ more) : wordsFor fewer ≤ wordsFor more :=
  Nat.div_le_div_right (Nat.add_le_add_right le 31)

namespace Fees

variable {fees : Fees} {size needed growth : Nat} {windows : List Window}

theorem growth_spec (grown : fees.growth size needed = .ok growth) :
    needed ≤ Word.indexLimit ∧
      growth =
        if size < wordsFor needed * 32 then
          fees.memoryCost (wordsFor needed) - fees.memoryCost (size / 32)
        else 0 := by
  unfold Fees.growth at grown
  split at grown
  · cases grown
  · rename_i narrow
    refine ⟨Nat.le_of_not_lt narrow, ?_⟩
    split at grown <;> cases grown
    · rename_i grows
      exact (if_pos grows).symm
    · rename_i enough
      exact (if_neg enough).symm

theorem memoryCost_mono (fees : Fees) {fewer more : Nat} (le : fewer ≤ more) :
    fees.memoryCost fewer ≤ fees.memoryCost more := by
  have linear := Nat.mul_le_mul_left fees.memoryWord le
  have square := Nat.div_le_div_right (c := 512) (Nat.mul_le_mul le le)
  unfold memoryCost
  omega

theorem paysFor_of_needed (grown : fees.growth size needed = .ok growth)
    (asked : ∀ window ∈ windows, memoryNeeded window.offset window.size ≤ needed) :
      fees.PaysFor size windows growth :=
  ⟨needed, grown, fun window named =>
    Window.within_of_needed (growth_spec grown).1 (asked window named)⟩

/-- Where no window is named nothing grows. -/
theorem growth_none (fees : Fees) (size : Nat) : fees.growth size 0 = .ok 0 := rfl

end Fees

namespace Memory

theorem size_extend_bounds (memory : Memory) {offset count needed : Nat}
    (within : count ≠ 0 → offset + count ≤ needed) :
    memory.size ≤ (memory.extend offset count).size ∧
      (memory.extend offset count).size ≤ max memory.size (wordsFor needed * 32) ∧
      (memory.size % 32 = 0 → (memory.extend offset count).size % 32 = 0) := by
  rw [extend_size]
  unfold wordsFor
  split
  · omega
  · omega

theorem Touches.size_bounds {windows : List Window} {memory later : Memory} {needed : Nat}
    (touches : memory.Touches windows later) (within : ∀ window ∈ windows, window.Within needed) :
    memory.size ≤ later.size ∧ later.size ≤ max memory.size (wordsFor needed * 32) ∧
      (memory.size % 32 = 0 → later.size % 32 = 0) := by
  -- Part of a window that lies within the bound lies there too.
  have part {offset size : Word} (named : ⟨offset, size⟩ ∈ windows) {count : Nat}
      (less : count ≤ size.index) (some : count ≠ 0) : offset.index + count ≤ needed := by
    have nonempty : size ≠ 0 := by
      rintro rfl
      rw [Word.index_zero] at less
      omega
    have inside := within _ named nonempty
    simp only at inside
    omega
  induction touches with
  | none => omega
  | @extend middle before offset size named ih =>
      have grown := middle.size_extend_bounds (part named (Nat.le_refl _))
      omega
  | @write middle before offset size named data ih =>
      have grown := middle.size_extend_bounds (part named (Nat.min_le_left size.index data.size))
      rw [write_size]
      omega

/-- The memory has whole words, every position of it can be used, and its cost is paid. -/
structure Covered (fees : Fees) (paid : Nat) (memory : Memory) : Prop where
  whole : memory.size % 32 = 0
  bounded : memory.size ≤ 2147483648
  cost : fees.memoryCost (memory.size / 32) ≤ paid

variable {fees : Fees} {paid growth : Nat} {memory later : Memory} {windows : List Window}

theorem covered_empty (fees : Fees) (paid : Nat) : ({} : Memory).Covered fees paid := by
  refine ⟨rfl, Nat.zero_le _, ?_⟩
  have free : fees.memoryCost (({} : Memory).size / 32) = 0 := rfl
  rw [free]
  exact Nat.zero_le paid

/-- What is touched is covered when the growth is paid for as well. -/
theorem Covered.touches (covered : memory.Covered fees paid)
    (pays : fees.PaysFor memory.size windows growth) (touches : memory.Touches windows later) :
    later.Covered fees (paid + growth) := by
  obtain ⟨needed, grown, within⟩ := pays
  obtain ⟨narrow, charge⟩ := Fees.growth_spec grown
  obtain ⟨more, most, whole⟩ := touches.size_bounds within
  have bounded := covered.bounded
  have cost := covered.cost
  have limit : Word.indexLimit = 2147483647 := rfl
  refine ⟨whole covered.whole, ?_, ?_⟩
  · unfold wordsFor at most
    omega
  · split at charge
    · have words : later.size / 32 ≤ wordsFor needed := by omega
      have less := fees.memoryCost_mono words
      omega
    · have same : later.size = memory.size := by omega
      rw [same]
      omega

/-- An answer that is written within the size costs nothing. -/
theorem Covered.writeWithin (covered : memory.Covered fees paid) (offset : Nat) (data : Bytes)
    (size : Nat) :
    (memory.writeWithin offset data size).Covered fees paid := by
  have same := memory.writeWithin_size offset data size
  refine ⟨?_, ?_, ?_⟩
  · rw [same]
    exact covered.whole
  · rw [same]
    exact covered.bounded
  · rw [same]
    exact covered.cost

end Memory

namespace Window

def needed (windows : List Window) : Nat :=
  (windows.map fun window => memoryNeeded window.offset window.size).foldr max 0

@[simp] theorem needed_nil : needed [] = 0 := rfl

@[simp] theorem needed_cons (window : Window) (windows : List Window) :
    needed (window :: windows) = max (memoryNeeded window.offset window.size) (needed windows) :=
      rfl

variable {windows : List Window}

theorem le_needed {window : Window} (named : window ∈ windows) :
    memoryNeeded window.offset window.size ≤ needed windows := by
  induction windows with
  | nil => cases named
  | cons first rest ih =>
      rw [needed_cons]
      rcases List.mem_cons.mp named with rfl | later
      · exact Nat.le_max_left _ _
      · exact Nat.le_trans (ih later) (Nat.le_max_right _ _)

theorem needed_le {bound : Nat}
    (asked : ∀ window ∈ windows, memoryNeeded window.offset window.size ≤ bound) :
    needed windows ≤ bound := by
  induction windows with
  | nil => exact Nat.zero_le _
  | cons first rest ih =>
      rw [needed_cons]
      exact Nat.max_le.mpr ⟨asked first List.mem_cons_self, ih fun window named =>
        asked window (List.mem_cons_of_mem first named)⟩

end Window

namespace Frame

variable {frame : Frame} {fees : Fees} {ledger : Ledger} {op : Opcode} {price : Price}

/-- The growth that an instruction is charged is that to the windows that its operands name. -/
theorem growth_of_price (priced : frame.price fees ledger op = .ok price) :
    fees.growth frame.memory.size (Window.needed (op.windows frame)) = .ok price.growth := by
  have single {window : Window} {growth : Nat}
      (grown : frame.growthFor fees window.offset window.size = .ok growth) :
      fees.growth frame.memory.size (Window.needed [window]) = .ok growth := by
    rwa [Window.needed_cons, Window.needed_nil, Nat.max_zero]
  have grown {work : Nat} {window : Window}
      (priced : frame.workAndGrowth fees work window.offset window.size = .ok price) :
      fees.growth frame.memory.size (Window.needed [window]) = .ok price.growth :=
    single (workAndGrowth_spec priced).2.2.2
  have copied {fixed : Nat} {window : Window}
      (priced : frame.copyPrice fees fixed window.offset window.size = .ok price) :
      fees.growth frame.memory.size (Window.needed [window]) = .ok price.growth :=
    single (copyPrice_spec priced).2.2
  have fixed {work : Nat} (priced : (.ok { work := work } : Except Fault Price) = .ok price) :
      fees.growth frame.memory.size (Window.needed []) = .ok price.growth := by
    cases priced
    exact fees.growth_none _
  -- What is read from the stack for the price is the operand that the window is made of.
  unfold Frame.price at priced
  cases op with
  | sstore =>
      obtain ⟨key, _, priced⟩ := of_bind_eq_ok priced
      obtain ⟨value, _, priced⟩ := of_bind_eq_ok priced
      cases priced
      exact fees.growth_none _
  | mload | mstore | mstore8 =>
      obtain ⟨offset, gotOffset, priced⟩ := of_bind_eq_ok priced
      rw [Stack.of_get_eq_ok gotOffset] at priced
      exact grown priced
  | returning | revert | create =>
      obtain ⟨offset, gotOffset, priced⟩ := of_bind_eq_ok priced
      obtain ⟨size, gotSize, priced⟩ := of_bind_eq_ok priced
      rw [Stack.of_get_eq_ok gotOffset, Stack.of_get_eq_ok gotSize] at priced
      exact grown priced
  | sha3 =>
      obtain ⟨size, gotSize, priced⟩ := of_bind_eq_ok priced
      obtain ⟨offset, gotOffset, priced⟩ := of_bind_eq_ok priced
      rw [Stack.of_get_eq_ok gotOffset, Stack.of_get_eq_ok gotSize] at priced
      exact grown priced
  | copy | extCodeCopy =>
      obtain ⟨offset, gotOffset, priced⟩ := of_bind_eq_ok priced
      obtain ⟨size, gotSize, priced⟩ := of_bind_eq_ok priced
      rw [Stack.of_get_eq_ok gotOffset, Stack.of_get_eq_ok gotSize] at priced
      exact copied priced
  | call kind =>
      rw [Opcode.windows, Window.needed_cons, Window.needed_cons, Window.needed_nil, Nat.max_zero]
      exact (callPrice_spec priced).2.2
  | log topics =>
      obtain ⟨size, gotSize, priced⟩ := of_bind_eq_ok priced
      simp only at priced
      split at priced
      · cases priced
      · split at priced
        · cases priced
        · obtain ⟨offset, gotOffset, priced⟩ := of_bind_eq_ok priced
          rw [Stack.of_get_eq_ok gotOffset, Stack.of_get_eq_ok gotSize] at priced
          exact grown priced
  | binary operation =>
      cases operation with
      | exp =>
          obtain ⟨exponent, _, priced⟩ := of_bind_eq_ok priced
          exact fixed priced
      | _ => exact fixed priced
  | _ => exact fixed priced

/-- The price of an instruction pays for every window that its operands name. -/
theorem paysFor_of_price (priced : frame.price fees ledger op = .ok price) :
    fees.PaysFor frame.memory.size (op.windows frame) price.growth :=
  Fees.paysFor_of_needed (growth_of_price priced) fun _ named => Window.le_needed named

end Frame

theorem FrameAction.memory_jumpTo (destination : Word) (frame : Frame) :
    ((jumpTo destination).after frame).memory = frame.memory := by
  unfold after jumpTo
  cases frame.jumpTarget destination <;> rfl

/-- An instruction that concerns the frame only touches the windows that its operands name, and no
memory beside them, whether it ends in a fault or not. -/
theorem FrameAction.touches_perform (environment : Environment) (ledger : Ledger) {op : Opcode}
    {frame : Frame} (enough : op.pops ≤ frame.stack.size) :
    frame.memory.Touches (op.windows frame)
      ((perform environment ledger op).after frame).memory := by
  have behind : frame.memory.Touches (op.windows frame)
      ((compute environment ledger op >>= fun _ => advance).after frame).memory := by
    have stays := stays_compute environment ledger enough
    unfold after at stays ⊢
    rw [bind_apply]
    cases computed : compute environment ledger op frame <;> rw [computed] at stays <;>
      exact stays.memory
  cases op with
  | stop => exact .none
  | jump =>
      -- Operands come off one by one; before the first none is gone.
      change frame.memory.Touches []
        ((perform environment ledger .jump).after (frame.dropWords 0)).memory
      rw [perform, after_bind_of_ok (pop_dropWords frame 0 enough), memory_jumpTo]
      exact .none
  | jumpi =>
      change frame.memory.Touches []
        ((perform environment ledger .jumpi).after (frame.dropWords 0)).memory
      rw [perform, after_bind_of_ok (pop_dropWords frame 0 (Nat.zero_lt_of_lt enough)),
        after_bind_of_ok (pop_dropWords frame 1 enough)]
      split
      · exact .none
      · rw [memory_jumpTo]
        exact .none
  | push index =>
      have moved : advance frame = .ok () frame.advance := rfl
      have fetched : update (fun frame => frame.fetch (index.val + 1)) frame.advance =
          .ok (frame.advance.fetch (index.val + 1)).1 (frame.advance.fetch (index.val + 1)).2 := rfl
      rw [perform, after_bind_of_ok moved, after_bind_of_ok fetched]
      have pushed : Frame.Stays [] (frame.advance.fetch (index.val + 1)).2
          ((push (Word.ofBytes (frame.advance.fetch (index.val + 1)).1)).after
            (frame.advance.fetch (index.val + 1)).2) :=
        stays_push _ _
      exact pushed.memory
  | returning =>
      change frame.memory.Touches _
        ((perform environment ledger .returning).after (frame.dropWords 0)).memory
      rw [perform, after_bind_of_ok (popWindow_dropWords frame 0 enough)]
      exact .extend .none (List.mem_singleton_self _)
  | revert =>
      change frame.memory.Touches _
        ((perform environment ledger .revert).after (frame.dropWords 0)).memory
      rw [perform, after_bind_of_ok (popWindow_dropWords frame 0 enough)]
      exact .extend .none (List.mem_singleton_self _)
  | _ => exact behind

end ContractMachine
