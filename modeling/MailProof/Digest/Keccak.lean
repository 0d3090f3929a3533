import MailProof.Bytes

/-! Keccak-256 with the padding byte 0x01, which SHA-3 does not use. The state is
twenty-five 64-bit lanes, lane `x + 5 y` first by column `x` and then by row `y`. -/

namespace MailProof.Keccak

/-- Lanes of the permutation state. -/
abbrev State := Vector UInt64 25

/-- Bytes of a message block. -/
def rate : Nat := 136

def roundConstants : List UInt64 :=
  [0x0000000000000001, 0x0000000000008082, 0x800000000000808a, 0x8000000080008000,
   0x000000000000808b, 0x0000000080000001, 0x8000000080008081, 0x8000000000008009,
   0x000000000000008a, 0x0000000000000088, 0x0000000080008009, 0x000000008000000a,
   0x000000008000808b, 0x800000000000008b, 0x8000000000008089, 0x8000000000008003,
   0x8000000000008002, 0x8000000000000080, 0x000000000000800a, 0x800000008000000a,
   0x8000000080008081, 0x8000000000008080, 0x0000000080000001, 0x8000000080008008]

/-- Left rotation of each lane. -/
def offsets : Vector UInt64 25 :=
  #v[0, 1, 62, 28, 27, 36, 44, 6, 55, 20, 3, 10, 43, 25, 39, 41, 45, 15, 21, 8, 18, 2, 61, 56, 14]

def rotate (lane amount : UInt64) : UInt64 :=
  if amount = 0 then lane else (lane <<< amount) ||| (lane >>> (64 - amount))

/-- Add to each lane the parities of two neighbouring columns. -/
def mixColumns (state : State) : State :=
  let parity : Vector UInt64 5 := Vector.ofFn fun x =>
    state[x.val] ^^^ state[x.val + 5] ^^^ state[x.val + 10] ^^^ state[x.val + 15] ^^^ state[x.val + 20]
  Vector.ofFn fun i =>
    state[i.val] ^^^ parity[(i.val + 4) % 5] ^^^ rotate parity[(i.val + 1) % 5] 1

/-- Rotate every lane and move it to its new place: row `y` of the result at column `x`
comes from column `x + 3 y` of row `x`. -/
def rotateAndMove (state : State) : State :=
  Vector.ofFn fun i =>
    let x := i.val % 5
    let y := i.val / 5
    let source := (x + 3 * y) % 5 + 5 * x
    rotate (state.getD source 0) (offsets.getD source 0)

/-- Combine each lane with the next two of its row. -/
def mixRows (state : State) : State :=
  Vector.ofFn fun i =>
    let x := i.val % 5
    let row := 5 * (i.val / 5)
    state[i.val] ^^^ (~~~(state.getD (row + (x + 1) % 5) 0) &&& state.getD (row + (x + 2) % 5) 0)

def round (state : State) (constant : UInt64) : State :=
  let mixed := mixRows (rotateAndMove (mixColumns state))
  mixed.set 0 (mixed[0] ^^^ constant)

def permute (state : State) : State := roundConstants.foldl round state

/-- Append 0x01, zeros up to a full block, and set the top bit of the last byte. -/
def pad (message : Bytes) : Bytes :=
  let room := rate - message.length % rate
  if room = 1 then message ++ [0x81]
  else message ++ 0x01 :: List.replicate (room - 2) 0 ++ [0x80]

def absorb (state : State) (block : Bytes) : State :=
  permute (Vector.ofFn fun i =>
    state[i.val] ^^^ UInt64.ofNat (Bytes.toNatLE ((block.drop (8 * i.val)).take 8)))

/-- Keccak-256 digest: the first four lanes after the last block. -/
def digest (message : Bytes) : Bytes :=
  let padded := pad message
  let final := (Bytes.blocks rate (padded.length / rate) padded).foldl absorb (Vector.replicate 25 0)
  (final.toList.take 4).flatMap fun lane => Bytes.littleEndian 8 lane.toNat

end MailProof.Keccak
