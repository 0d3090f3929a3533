import MailProof.Digest.Keccak
import MailProof.Packing

/-! MiMC over the scalar field: a keyed cipher of fifth powers, chained over blocks to a
hash. Each block is encrypted under the running digest and added to it. -/

namespace MailProof.Mimc

def rounds : Nat := 110

/-- Power of a round. -/
def exponent : Nat := 5

def seed : String := "seed"

/-- Successive Keccak digests as big-endian numbers, starting after `previous`. -/
def constantsAfter : (count : Nat) → (previous : Bytes) → List Scalar
  | 0, _ => []
  | count + 1, previous =>
    let next := Keccak.digest previous
    Scalar.ofNat next.toNatBE :: constantsAfter count next

/-- The round constants: the digests that follow the digest of the seed. -/
def roundConstants : List Scalar :=
  constantsAfter rounds (Keccak.digest (Utf8.encode seed))

def fifthPower (x : Scalar) : Scalar :=
  let square := x * x
  square * square * x

/-- Encrypt a message: each round adds key and constant and takes the fifth power. -/
def encrypt (constants : List Scalar) (message key : Scalar) : Scalar :=
  constants.foldl (fun m constant => fifthPower (m + key + constant)) message + key

/-- Digest after one more block. -/
def chain (digest block : Scalar) : Scalar :=
  digest + encrypt roundConstants block digest + block

def hash (blocks : List Scalar) : Scalar := blocks.foldl chain 0

end MailProof.Mimc
