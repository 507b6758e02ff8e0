import ContractMachine.Proofs.Frame.Position

/-!
Arithmetic and slices that are checked. A sum, difference or product must be a number of 64 bits; a
slice must lie in its byte string, and what is copied must be as long as the place it goes to.
Memory, call data and code are read and written here with each such condition asked for, and nothing
else is changed: where the operands are narrow, the result is that of the operation that does not
ask.
-/

namespace ContractMachine

inductive Breach where
  | overflow
  | range
  deriving DecidableEq

/-- A fault ends a frame and is part of what code may do; a breach would end the machine. -/
inductive Stop where
  | fault (fault : Fault)
  | breach (breach : Breach)

abbrev Checked := Except Stop

namespace Checked

def add (a b : Nat) : Checked Nat :=
  if a + b ≤ Quantity.limit then .ok (a + b) else .error (.breach .overflow)

def sub (a b : Nat) : Checked Nat :=
  if b ≤ a then .ok (a - b) else .error (.breach .overflow)

def mul (a b : Nat) : Checked Nat :=
  if a * b ≤ Quantity.limit then .ok (a * b) else .error (.breach .overflow)

def slice (bytes : Bytes) (start stop : Nat) : Checked Bytes :=
  if start ≤ stop ∧ stop ≤ bytes.size then .ok (bytes.extract start stop)
  else .error (.breach .range)

def copy (target : Bytes) (start stop : Nat) (source : Bytes) : Checked Bytes :=
  if start ≤ stop ∧ stop ≤ target.size ∧ source.size = stop - start then
    .ok (target.overlay start source source.size)
  else .error (.breach .range)

section

variable {a b start stop : Nat} {bytes source : Bytes}

theorem ok_bind {α β : Type} (value : α) (next : α → Checked β) :
    (Except.ok value : Checked α) >>= next = next value :=
  rfl

theorem add_eq (fits : a + b ≤ Quantity.limit) : add a b = .ok (a + b) := if_pos fits

theorem sub_eq (covered : b ≤ a) : sub a b = .ok (a - b) := if_pos covered

theorem mul_eq (fits : a * b ≤ Quantity.limit) : mul a b = .ok (a * b) := if_pos fits

theorem slice_eq (ordered : start ≤ stop) (inside : stop ≤ bytes.size) :
    slice bytes start stop = .ok (bytes.extract start stop) :=
  if_pos ⟨ordered, inside⟩

theorem copy_eq (ordered : start ≤ stop) (inside : stop ≤ bytes.size)
    (long : source.size = stop - start) :
    copy bytes start stop source = .ok (bytes.overlay start source (stop - start)) := by
  rw [copy, if_pos ⟨ordered, inside, long⟩, long]

end

end Checked

/-- A position and a length that were narrowed have a sum. -/
theorem Word.sum_le_limit {offset size : Nat} (narrow : offset ≤ indexLimit)
    (short : size ≤ indexLimit) : offset + size ≤ Quantity.limit := by
  have limit : indexLimit + indexLimit ≤ Quantity.limit := by decide
  omega

namespace Bytes

/-- Only as many bytes count as are put over. -/
theorem overlay_extract (target data : Bytes) (offset : Nat) {size : Nat}
    (enough : size ≤ data.size) :
    target.overlay offset (data.extract 0 size) size = target.overlay offset data size := by
  apply Array.ext_getElem?
  intro i
  simp only [overlay_getElem?, zeroExtended, Array.getD_eq_getD_getElem?]
  grind

theorem zeroExtended_extract (source : Bytes) {start count i : Nat} (inside : i < count)
    (enough : start + count ≤ source.size) :
    zeroExtended (source.extract start (start + count)) i = source.zeroExtended (start + i) := by
  have within : i < min (start + count) source.size - start := by omega
  simp only [zeroExtended, Array.getD_eq_getD_getElem?, Array.getElem?_extract, if_pos within]

/-- What there is of a window, put over zeros. -/
theorem overlay_zeros (source : Bytes) {offset size start count : Nat}
    (present : count = min (source.size - offset) size) (begins : start = offset ∨ count = 0) :
    Bytes.overlay (Array.replicate size 0) 0 (source.extract start (start + count)) count =
      source.window offset size := by
  apply Array.ext_getElem?
  intro i
  rw [overlay_getElem?, window_getElem?, Array.size_replicate, Array.getElem?_replicate]
  by_cases inside : i < count
  · have same : start = offset := by omega
    subst same
    rw [if_pos (by omega), if_pos (by omega), Nat.sub_zero,
      source.zeroExtended_extract inside (by omega)]
  · rw [if_neg (by omega)]
    by_cases asked : i < size
    · -- Behind the end of the byte string the window reads zeros as well.
      have past : source.size ≤ offset + i := by omega
      rw [if_pos asked, if_pos asked, zeroExtended_of_past past]
    · rw [if_neg asked, if_neg asked]

def padded? (source : Bytes) (start stop count size : Nat) : Checked Bytes := do
  let stretch ← Checked.slice source start stop
  Checked.copy (Array.replicate size 0) 0 count stretch

theorem padded?_eq (source : Bytes) {offset size start stop count : Nat}
    (present : count = min (source.size - offset) size) (begins : start = offset ∨ count = 0)
    (ends : stop = start + count) (inside : stop ≤ source.size) :
    source.padded? start stop count size = .ok (source.window offset size) := by
  subst ends
  have room : count ≤ (Array.replicate size (0 : UInt8)).size := by
    rw [Array.size_replicate]
    omega
  have long : (source.extract start (start + count)).size = count - 0 := by
    rw [Array.size_extract]
    omega
  rw [padded?, Checked.slice_eq (Nat.le_add_right _ _) inside, Checked.ok_bind,
    Checked.copy_eq (Nat.zero_le _) room long]
  exact congrArg Except.ok (overlay_zeros source present begins)

def window? (source : Bytes) (offset size : Nat) : Checked Bytes :=
  if offset < source.size then do
    let rest ← Checked.sub source.size offset
    let stop ← Checked.add offset (min rest size)
    source.padded? offset stop (min rest size) size
  else .ok (Array.replicate size 0)

theorem window?_eq (source : Bytes) {offset size : Nat}
    (fits : min (offset + size) source.size ≤ Quantity.limit) :
    source.window? offset size = .ok (source.window offset size) := by
  unfold window?
  split
  · rename_i inside
    rw [Checked.sub_eq (Nat.le_of_lt inside), Checked.ok_bind, Checked.add_eq (by omega),
      Checked.ok_bind]
    exact source.padded?_eq rfl (.inl rfl) rfl (by omega)
  · rename_i outside
    have none : 0 = min (source.size - offset) size := by omega
    exact congrArg Except.ok (overlay_zeros source none (.inl rfl))

end Bytes

namespace Memory

def read? (memory : Memory) (offset size : Nat) : Checked (Bytes × Memory) :=
  if size = 0 then .ok (#[], memory)
  else do
    let grown := memory.extend offset size
    let stop ← Checked.add offset size
    let data ← Checked.slice grown.bytes offset stop
    .ok (data, grown)

theorem read?_eq (memory : Memory) {offset size : Nat} (fits : offset + size ≤ Quantity.limit) :
    memory.read? offset size = .ok (memory.read offset size) := by
  unfold read?
  split
  · rename_i none
    subst none
    rw [read, extend_of_inside fun some => absurd rfl some, Nat.add_zero,
      Array.extract_eq_empty_of_le (Nat.min_le_left _ _)]
  · rename_i some
    rw [Checked.add_eq fits, Checked.ok_bind,
      Checked.slice_eq (Nat.le_add_right _ _) (memory.inside_extend offset some)]
    rfl

def put? (memory : Memory) (offset : Nat) (data : Bytes) (count : Nat) : Checked Memory :=
  if count = 0 then .ok memory
  else do
    let stop ← Checked.add offset count
    let source ← Checked.slice data 0 count
    let bytes ← Checked.copy memory.bytes offset stop source
    .ok ⟨bytes⟩

theorem put?_eq (memory : Memory) {offset count : Nat} {data : Bytes}
    (fits : offset + count ≤ Quantity.limit) (enough : count ≤ data.size)
    (room : count ≠ 0 → offset + count ≤ memory.size) :
    memory.put? offset data count = .ok ⟨memory.bytes.overlay offset data count⟩ := by
  unfold put?
  split
  · rename_i none
    subst none
    rfl
  · rename_i some
    have long : (data.extract 0 count).size = offset + count - offset := by
      rw [Array.size_extract]
      omega
    rw [Checked.add_eq fits, Checked.ok_bind, Checked.slice_eq (Nat.zero_le _) enough,
      Checked.ok_bind, Checked.copy_eq (Nat.le_add_right _ _) (room some) long, Checked.ok_bind,
      Nat.add_sub_cancel_left,
      Bytes.overlay_extract _ _ _ enough]

def write? (memory : Memory) (offset : Nat) (data : Bytes) (size : Nat) : Checked Memory :=
  let count := min size data.size
  (memory.extend offset count).put? offset data count

theorem write?_eq (memory : Memory) {offset size : Nat} {data : Bytes}
    (fits : offset + min size data.size ≤ Quantity.limit) :
    memory.write? offset data size = .ok (memory.write offset data size) :=
  put?_eq _ fits (Nat.min_le_right _ _) (memory.inside_extend offset)

def writeWithin? (memory : Memory) (offset : Nat) (data : Bytes) (size : Nat) : Checked Memory :=
  let asked := min size data.size
  memory.put? offset data
    (if memory.size < Quantity.clamp (offset + asked) then memory.size - offset else asked)

theorem writeWithin?_eq (memory : Memory) {offset size : Nat} (data : Bytes)
    (fits : offset + size ≤ Quantity.limit) :
    memory.writeWithin? offset data size = .ok (memory.writeWithin offset data size) := by
  have exact : Quantity.clamp (offset + min size data.size) = offset + min size data.size :=
    (Quantity.clamp_eq_iff _).mpr (by omega)
  unfold writeWithin? writeWithin
  simp only [exact]
  split
  · rename_i past
    exact put?_eq _ (by omega) (by omega) (by omega)
  · rename_i within
    exact put?_eq _ (by omega) (Nat.min_le_right _ _) fun _ => Nat.le_of_not_lt within

end Memory

namespace Context

def dataWord? (context : Context) (offset : Word) : Checked Word :=
  match context.dataOffset? offset with
  | some start => do
      let stop := min (← Checked.add start 32) context.data.size
      let count ← Checked.sub stop start
      let data ← context.data.padded? start stop count 32
      .ok (Word.ofBytes data)
  | none => .ok 0

def dataCopy? (context : Context) (offset : Word) (size : Nat) : Checked Bytes :=
  match context.dataOffset? offset with
  | some start => context.data.window? start size
  | none => .ok (Array.replicate size 0)

theorem of_dataOffset? {context : Context} {offset : Word} {start : Nat}
    (found : context.dataOffset? offset = some start) :
    start ≤ Word.indexLimit ∧ start < context.data.size := by
  unfold dataOffset? Word.index? at found
  grind

theorem dataWord?_eq (context : Context) (offset : Word) :
    context.dataWord? offset = .ok (context.dataWord offset) := by
  unfold dataWord? dataWord
  cases found : context.dataOffset? offset with
  | none => rfl
  | some start =>
      obtain ⟨narrow, inside⟩ := of_dataOffset? found
      have limit : Word.indexLimit + 32 ≤ Quantity.limit := by decide
      have ordered : start ≤ min (start + 32) context.data.size := by omega
      simp only [Checked.add_eq (show start + 32 ≤ Quantity.limit by omega), Checked.ok_bind,
        Checked.sub_eq ordered]
      rw [context.data.padded?_eq (by omega) (.inl rfl) (by omega) (Nat.min_le_right _ _)]
      rfl

theorem dataCopy?_eq (context : Context) (offset : Word) {size : Nat}
    (narrow : size ≤ Word.indexLimit) :
    context.dataCopy? offset size = .ok (context.dataCopy offset size) := by
  unfold dataCopy? dataCopy
  cases found : context.dataOffset? offset with
  | none => rfl
  | some start =>
      have fits := Word.sum_le_limit (of_dataOffset? found).1 narrow
      exact context.data.window?_eq (Nat.le_trans (Nat.min_le_left _ _) fits)

/-- Any length will do where all positions of the data are numbers of 64 bits. -/
theorem dataCopy?_of_size (context : Context) (offset : Word) (size : Nat)
    (fits : context.data.size ≤ Quantity.limit) :
    context.dataCopy? offset size = .ok (context.dataCopy offset size) := by
  unfold dataCopy? dataCopy
  cases context.dataOffset? offset with
  | none => rfl
  | some start => exact context.data.window?_eq (Nat.le_trans (Nat.min_le_right _ _) fits)

end Context

namespace Frame

def fetch? (frame : Frame) (size : Nat) : Checked (Bytes × Frame) := do
  let start := min frame.pc frame.code.size
  let behind := Quantity.clamp (frame.pc + size)
  let stop := min behind frame.code.size
  let count ← Checked.sub stop start
  let data ← frame.code.padded? start stop count size
  .ok (data, frame.setPc behind)

/-- A position that is clamped is behind the code. -/
theorem fetch?_eq (frame : Frame) (size : Nat) (addressable : Code.Addressable frame.code) :
    frame.fetch? size = .ok (frame.fetch size) := by
  unfold Code.Addressable at addressable
  have clamped :
      min (Quantity.clamp (frame.pc + size)) frame.code.size =
        min (frame.pc + size) frame.code.size := by
    unfold Quantity.clamp
    omega
  have ordered : min frame.pc frame.code.size ≤ min (frame.pc + size) frame.code.size := by omega
  simp only [fetch?, clamped, Checked.sub_eq ordered, Checked.ok_bind]
  have begins : min frame.pc frame.code.size = frame.pc ∨
      min (frame.pc + size) frame.code.size - min frame.pc frame.code.size = 0 := by
    omega
  rw [frame.code.padded?_eq (by omega) begins (by omega) (Nat.min_le_right _ _)]
  rfl

end Frame

end ContractMachine
