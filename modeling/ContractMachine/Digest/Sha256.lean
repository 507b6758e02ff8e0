import ContractMachine.Word

/-!
SHA-256. A message is padded to blocks of sixteen 32-bit words, most significant byte first; each
block is expanded to a schedule of 64 words that drives the eight registers of the state.
-/

namespace ContractMachine.Sha256

structure Registers where
  a : UInt32
  b : UInt32
  c : UInt32
  d : UInt32
  e : UInt32
  f : UInt32
  g : UInt32
  h : UInt32

def initial : Registers :=
  ⟨0x6a09e667, 0xbb67ae85, 0x3c6ef372, 0xa54ff53a, 0x510e527f, 0x9b05688c, 0x1f83d9ab, 0x5be0cd19⟩

def constants : Array UInt32 :=
  #[0x428a2f98, 0x71374491, 0xb5c0fbcf, 0xe9b5dba5, 0x3956c25b, 0x59f111f1, 0x923f82a4, 0xab1c5ed5,
    0xd807aa98, 0x12835b01, 0x243185be, 0x550c7dc3, 0x72be5d74, 0x80deb1fe, 0x9bdc06a7, 0xc19bf174,
    0xe49b69c1, 0xefbe4786, 0x0fc19dc6, 0x240ca1cc, 0x2de92c6f, 0x4a7484aa, 0x5cb0a9dc, 0x76f988da,
    0x983e5152, 0xa831c66d, 0xb00327c8, 0xbf597fc7, 0xc6e00bf3, 0xd5a79147, 0x06ca6351, 0x14292967,
    0x27b70a85, 0x2e1b2138, 0x4d2c6dfc, 0x53380d13, 0x650a7354, 0x766a0abb, 0x81c2c92e, 0x92722c85,
    0xa2bfe8a1, 0xa81a664b, 0xc24b8b70, 0xc76c51a3, 0xd192e819, 0xd6990624, 0xf40e3585, 0x106aa070,
    0x19a4c116, 0x1e376c08, 0x2748774c, 0x34b0bcb5, 0x391c0cb3, 0x4ed8aa4a, 0x5b9cca4f, 0x682e6ff3,
    0x748f82ee, 0x78a5636f, 0x84c87814, 0x8cc70208, 0x90befffa, 0xa4506ceb, 0xbef9a3f7, 0xc67178f2]

def rotate (word : UInt32) (amount : UInt32) : UInt32 :=
  (word >>> amount) ||| (word <<< (32 - amount))

def blockSize : Nat := 64

def pad (message : Bytes) : Bytes :=
  let fill := (2 * blockSize - 9 - message.size % blockSize) % blockSize
  message.push 0x80 ++ Array.replicate fill (0 : UInt8) ++ Bytes.ofNat 8 (8 * message.size)

def word (bytes : Bytes) (offset : Nat) : UInt32 :=
  (List.range 4).foldl
    (fun total i => (total <<< 8) ||| (bytes.zeroExtended (offset + i)).toUInt32) 0

/-- The block and 48 further words, each from those 2, 7, 15 and 16 places back. -/
def schedule (bytes : Bytes) (offset : Nat) : Array UInt32 :=
  let first := (List.range 16).map (fun i => word bytes (offset + 4 * i)) |>.toArray
  (48).fold (fun i _ words =>
    let s := words.getD (i + 1) 0
    let t := words.getD (i + 14) 0
    let low := rotate s 7 ^^^ rotate s 18 ^^^ (s >>> 3)
    let high := rotate t 17 ^^^ rotate t 19 ^^^ (t >>> 10)
    words.push (words.getD i 0 + low + words.getD (i + 9) 0 + high)) first

def round (r : Registers) (key : UInt32) : Registers :=
  let high := rotate r.e 6 ^^^ rotate r.e 11 ^^^ rotate r.e 25
  let choice := (r.e &&& r.f) ^^^ (~~~r.e &&& r.g)
  let first := r.h + high + choice + key
  let low := rotate r.a 2 ^^^ rotate r.a 13 ^^^ rotate r.a 22
  let majority := (r.a &&& r.b) ^^^ (r.a &&& r.c) ^^^ (r.b &&& r.c)
  ⟨first + low + majority, r.a, r.b, r.c, r.d + first, r.e, r.f, r.g⟩

def Registers.add (x y : Registers) : Registers :=
  ⟨x.a + y.a, x.b + y.b, x.c + y.c, x.d + y.d, x.e + y.e, x.f + y.f, x.g + y.g, x.h + y.h⟩

def compress (state : Registers) (bytes : Bytes) (offset : Nat) : Registers :=
  let words := schedule bytes offset
  state.add <| (64).fold (fun i _ r => round r (constants.getD i 0 + words.getD i 0)) state

def Registers.toNat (r : Registers) : Nat :=
  [r.a, r.b, r.c, r.d, r.e, r.f, r.g, r.h].foldl (fun total x => (total <<< 32) + x.toNat) 0

def hash (message : Bytes) : Hash :=
  let bytes := pad message
  let final :=
    (bytes.size / blockSize).fold (fun i _ state => compress state bytes (i * blockSize)) initial
  BitVec.ofNat 256 final.toNat

end ContractMachine.Sha256
