import MailProof.Mimc

/-! Hashing a stream of 32-byte blocks. A block is the big-endian form of an element below
the field order. -/

namespace MailProof

inductive HashError where
  | misalignedInput (length : Nat)
  | nonCanonicalBlock (index : Nat)
  deriving DecidableEq, Repr

def HashError.message : HashError → String
  | .misalignedInput length => s!"Input length {length} is not a multiple of the block size"
  | .nonCanonicalBlock index => s!"Block {index} is not a canonical field element"

namespace Mimc

def blockSize : Nat := 32

/-- The blocks absorbed so far, oldest first. -/
structure Hasher where
  blocks : Array Scalar := #[]

namespace Hasher

def absorb (hasher : Hasher) (block : Scalar) : Hasher := ⟨hasher.blocks.push block⟩

/-- The element with the given big-endian bytes, if they are below the field order. -/
def element? (block : Bytes) : Option Scalar :=
  if canonical : block.toNatBE < scalarOrder then some ⟨block.toNatBE, canonical⟩ else none

/-- Absorb blocks up to the first that is not canonical. It is reported by the number of
blocks absorbed at that moment plus its index in this call. -/
def absorbBlocks (hasher : Hasher) (index : Nat) : List Bytes → Hasher × Except HashError Unit
  | [] => (hasher, .ok ())
  | block :: rest =>
    match element? block with
    | some element => absorbBlocks (hasher.absorb element) (index + 1) rest
    | none => (hasher, .error (.nonCanonicalBlock (hasher.blocks.size + index)))

/-- Absorb bytes; the good blocks before a fault stay absorbed. -/
def update (hasher : Hasher) (bytes : Bytes) : Hasher × Except HashError Unit :=
  if bytes.length % blockSize ≠ 0 then (hasher, .error (.misalignedInput bytes.length))
  else hasher.absorbBlocks 0 (Bytes.blocks blockSize (bytes.length / blockSize) bytes)

def digest (hasher : Hasher) : Scalar := hash hasher.blocks.toList

end Hasher

end Mimc

end MailProof
