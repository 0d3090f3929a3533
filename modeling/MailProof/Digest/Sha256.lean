import MailProof.Bytes

/-! SHA-256 over byte strings. -/

namespace MailProof.Sha256

/-- Working variables `a` to `h`. -/
structure Registers where
  a : UInt32
  b : UInt32
  c : UInt32
  d : UInt32
  e : UInt32
  f : UInt32
  g : UInt32
  h : UInt32

def initial : Registers :=
  ⟨0x6a09e667, 0xbb67ae85, 0x3c6ef372, 0xa54ff53a, 0x510e527f, 0x9b05688c, 0x1f83d9ab, 0x5be0cd19⟩

def roundConstants : List UInt32 :=
  [0x428a2f98, 0x71374491, 0xb5c0fbcf, 0xe9b5dba5, 0x3956c25b, 0x59f111f1, 0x923f82a4, 0xab1c5ed5,
   0xd807aa98, 0x12835b01, 0x243185be, 0x550c7dc3, 0x72be5d74, 0x80deb1fe, 0x9bdc06a7, 0xc19bf174,
   0xe49b69c1, 0xefbe4786, 0x0fc19dc6, 0x240ca1cc, 0x2de92c6f, 0x4a7484aa, 0x5cb0a9dc, 0x76f988da,
   0x983e5152, 0xa831c66d, 0xb00327c8, 0xbf597fc7, 0xc6e00bf3, 0xd5a79147, 0x06ca6351, 0x14292967,
   0x27b70a85, 0x2e1b2138, 0x4d2c6dfc, 0x53380d13, 0x650a7354, 0x766a0abb, 0x81c2c92e, 0x92722c85,
   0xa2bfe8a1, 0xa81a664b, 0xc24b8b70, 0xc76c51a3, 0xd192e819, 0xd6990624, 0xf40e3585, 0x106aa070,
   0x19a4c116, 0x1e376c08, 0x2748774c, 0x34b0bcb5, 0x391c0cb3, 0x4ed8aa4a, 0x5b9cca4f, 0x682e6ff3,
   0x748f82ee, 0x78a5636f, 0x84c87814, 0x8cc70208, 0x90befffa, 0xa4506ceb, 0xbef9a3f7, 0xc67178f2]

def rotateRight (word amount : UInt32) : UInt32 :=
  (word >>> amount) ||| (word <<< (32 - amount))

/-- Extend the window of the last sixteen schedule words by `count` further words. -/
def extend : (count : Nat) → List UInt32 → List UInt32
  | 0, window => window
  | count + 1, window =>
    let back := fun distance => window.getD (window.length - distance) 0
    let near := back 2
    let far := back 15
    let s0 := rotateRight far 7 ^^^ rotateRight far 18 ^^^ (far >>> 3)
    let s1 := rotateRight near 17 ^^^ rotateRight near 19 ^^^ (near >>> 10)
    extend count (window ++ [back 16 + s0 + back 7 + s1])

/-- The sixty-four schedule words of a 64-byte block. -/
def schedule (block : Bytes) : List UInt32 :=
  extend 48 ((Bytes.blocks 4 16 block).map fun word => UInt32.ofNat word.toNatBE)

def round (v : Registers) (word : UInt32 × UInt32) : Registers :=
  let sum1 := rotateRight v.e 6 ^^^ rotateRight v.e 11 ^^^ rotateRight v.e 25
  let choice := (v.e &&& v.f) ^^^ (~~~v.e &&& v.g)
  let first := v.h + sum1 + choice + word.1 + word.2
  let sum0 := rotateRight v.a 2 ^^^ rotateRight v.a 13 ^^^ rotateRight v.a 22
  let majority := (v.a &&& v.b) ^^^ (v.a &&& v.c) ^^^ (v.b &&& v.c)
  ⟨first + sum0 + majority, v.a, v.b, v.c, v.d + first, v.e, v.f, v.g⟩

def compress (v : Registers) (block : Bytes) : Registers :=
  let w := (roundConstants.zip (schedule block)).foldl round v
  ⟨v.a + w.a, v.b + w.b, v.c + w.c, v.d + w.d, v.e + w.e, v.f + w.f, v.g + w.g, v.h + w.h⟩

/-- Append 0x80, zeros, and the bit length in eight bytes, up to a multiple of 64. -/
def pad (message : Bytes) : Bytes :=
  let zeros := (119 - message.length % 64) % 64
  message ++ 0x80 :: List.replicate zeros 0 ++ Bytes.bigEndian 8 (8 * message.length)

def digest (message : Bytes) : Bytes :=
  let padded := pad message
  let v := (Bytes.blocks 64 (padded.length / 64) padded).foldl compress initial
  [v.a, v.b, v.c, v.d, v.e, v.f, v.g, v.h].flatMap fun word => Bytes.bigEndian 4 word.toNat

end MailProof.Sha256
