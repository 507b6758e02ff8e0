import ContractMachine.Word

/-!
Keccak-256, the hash with the padding that precedes the SHA-3 standard. The state is five rows of
five 64-bit lanes; a message is absorbed in blocks of seventeen lanes, least significant byte first.
-/

namespace ContractMachine.Keccak

structure Row where
  l0 : UInt64
  l1 : UInt64
  l2 : UInt64
  l3 : UInt64
  l4 : UInt64

structure State where
  r0 : Row
  r1 : Row
  r2 : Row
  r3 : Row
  r4 : Row

def rotate (lane : UInt64) (amount : UInt64) : UInt64 :=
  (lane <<< amount) ||| (lane >>> (64 - amount))

namespace Row

def zero : Row := ⟨0, 0, 0, 0, 0⟩

def xor (a b : Row) : Row :=
  ⟨a.l0 ^^^ b.l0, a.l1 ^^^ b.l1, a.l2 ^^^ b.l2, a.l3 ^^^ b.l3, a.l4 ^^^ b.l4⟩

def spread (parity : Row) : Row :=
  ⟨parity.l4 ^^^ rotate parity.l1 1,
   parity.l0 ^^^ rotate parity.l2 1,
   parity.l1 ^^^ rotate parity.l3 1,
   parity.l2 ^^^ rotate parity.l4 1,
   parity.l3 ^^^ rotate parity.l0 1⟩

def chi (row : Row) : Row :=
  ⟨row.l0 ^^^ (~~~row.l1 &&& row.l2),
   row.l1 ^^^ (~~~row.l2 &&& row.l3),
   row.l2 ^^^ (~~~row.l3 &&& row.l4),
   row.l3 ^^^ (~~~row.l4 &&& row.l0),
   row.l4 ^^^ (~~~row.l0 &&& row.l1)⟩

end Row

namespace State

def zero : State := ⟨.zero, .zero, .zero, .zero, .zero⟩

def theta (s : State) : State :=
  let change := ((((s.r0.xor s.r1).xor s.r2).xor s.r3).xor s.r4).spread
  ⟨s.r0.xor change, s.r1.xor change, s.r2.xor change, s.r3.xor change, s.r4.xor change⟩

def rhoPi (s : State) : State :=
  ⟨⟨s.r0.l0, rotate s.r1.l1 44, rotate s.r2.l2 43, rotate s.r3.l3 21, rotate s.r4.l4 14⟩,
   ⟨rotate s.r0.l3 28, rotate s.r1.l4 20, rotate s.r2.l0 3, rotate s.r3.l1 45, rotate s.r4.l2 61⟩,
   ⟨rotate s.r0.l1 1, rotate s.r1.l2 6, rotate s.r2.l3 25, rotate s.r3.l4 8, rotate s.r4.l0 18⟩,
   ⟨rotate s.r0.l4 27, rotate s.r1.l0 36, rotate s.r2.l1 10, rotate s.r3.l2 15, rotate s.r4.l3 56⟩,
   ⟨rotate s.r0.l2 62, rotate s.r1.l3 55, rotate s.r2.l4 39, rotate s.r3.l0 41, rotate s.r4.l1 2⟩⟩

def chi (s : State) : State := ⟨s.r0.chi, s.r1.chi, s.r2.chi, s.r3.chi, s.r4.chi⟩

def iota (s : State) (constant : UInt64) : State :=
  { s with r0 := { s.r0 with l0 := s.r0.l0 ^^^ constant } }

def round (s : State) (constant : UInt64) : State := (s.theta.rhoPi.chi).iota constant

def xor (a b : State) : State :=
  ⟨a.r0.xor b.r0, a.r1.xor b.r1, a.r2.xor b.r2, a.r3.xor b.r3, a.r4.xor b.r4⟩

end State

def roundConstants : List UInt64 :=
  [0x0000000000000001, 0x0000000000008082, 0x800000000000808a, 0x8000000080008000,
   0x000000000000808b, 0x0000000080000001, 0x8000000080008081, 0x8000000000008009,
   0x000000000000008a, 0x0000000000000088, 0x0000000080008009, 0x000000008000000a,
   0x000000008000808b, 0x800000000000008b, 0x8000000000008089, 0x8000000000008003,
   0x8000000000008002, 0x8000000000000080, 0x000000000000800a, 0x800000008000000a,
   0x8000000080008081, 0x8000000000008080, 0x0000000080000001, 0x8000000080008008]

def permute (state : State) : State := roundConstants.foldl State.round state

def rate : Nat := 136

def pad (message : Bytes) : Bytes :=
  let fill := rate - message.size % rate
  if fill = 1 then message.push 0x81
  else message.push 0x01 ++ Array.replicate (fill - 2) (0 : UInt8) |>.push 0x80

def lane (bytes : Bytes) (offset : Nat) : UInt64 :=
  (List.range 8).foldr
    (fun i total => (total <<< 8) ||| (bytes.zeroExtended (offset + i)).toUInt64) 0

def row (bytes : Bytes) (offset : Nat) : Row :=
  ⟨lane bytes offset, lane bytes (offset + 8), lane bytes (offset + 16), lane bytes (offset + 24),
   lane bytes (offset + 32)⟩

def block (bytes : Bytes) (offset : Nat) : State :=
  ⟨row bytes offset, row bytes (offset + 40), row bytes (offset + 80),
   ⟨lane bytes (offset + 120), lane bytes (offset + 128), 0, 0, 0⟩, .zero⟩

def absorb (bytes : Bytes) : State :=
  (bytes.size / rate).fold (fun i _ state => permute (state.xor (block bytes (i * rate)))) .zero

def reversed (lane : UInt64) : Nat :=
  (List.range 8).foldl (fun total i => total * 256 + (lane >>> (8 * i.toUInt64)).toUInt8.toNat) 0

def hash (message : Bytes) : Hash :=
  let first := (absorb (pad message)).r0
  let lanes := [first.l0, first.l1, first.l2, first.l3]
  BitVec.ofNat 256 (lanes.foldl (fun total lane => (total <<< 64) + reversed lane) 0)

end ContractMachine.Keccak
