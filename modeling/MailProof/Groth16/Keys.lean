import MailProof.Curve.Compressed

/-! Groth16 keys and proofs, and their bytes. Keys may be followed by other bytes, which
are ignored; a proof may not. -/

namespace MailProof

abbrev G1 := Point Base
abbrev G2 := Point Quadratic

structure VerifyingKey where
  alpha : G1
  beta : G2
  gamma : G2
  delta : G2
  /-- The constant term and one point for each public input. -/
  inputs : List G1
  deriving DecidableEq, Repr

namespace VerifyingKey

def toBytes (key : VerifyingKey) : Bytes :=
  key.alpha.toBytes ++ key.beta.toBytes ++ key.gamma.toBytes ++ key.delta.toBytes ++
    Point.listToBytes key.inputs

def read : Reader PointError VerifyingKey := do
  let alpha ← Point.read
  let beta ← Point.read
  let gamma ← Point.read
  let delta ← Point.read
  let inputs ← Point.readList
  return { alpha, beta, gamma, delta, inputs }

def ofBytes (bytes : Bytes) : Except PointError VerifyingKey := do
  return (← read bytes).1

end VerifyingKey

/-- Each query has a point for every wire, in the order constant, public inputs and
witnesses, except for the last two. -/
structure ProvingKey where
  verifyingKey : VerifyingKey
  beta : G1
  delta : G1
  left : List G1
  right : List G1
  rightTwist : List G2
  /-- One point for each coefficient of the quotient. -/
  quotient : List G1
  /-- One point for each witness. -/
  witness : List G1
  deriving DecidableEq, Repr

namespace ProvingKey

def toBytes (key : ProvingKey) : Bytes :=
  key.verifyingKey.toBytes ++ key.beta.toBytes ++ key.delta.toBytes ++
    Point.listToBytes key.left ++ Point.listToBytes key.right ++
    Point.listToBytes key.rightTwist ++ Point.listToBytes key.quotient ++
    Point.listToBytes key.witness

def read : Reader PointError ProvingKey := do
  let verifyingKey ← VerifyingKey.read
  let beta ← Point.read
  let delta ← Point.read
  let left ← Point.readList
  let right ← Point.readList
  let rightTwist ← Point.readList
  let quotient ← Point.readList
  let witness ← Point.readList
  return { verifyingKey, beta, delta, left, right, rightTwist, quotient, witness }

def ofBytes (bytes : Bytes) : Except PointError ProvingKey := do
  return (← read bytes).1

end ProvingKey

structure Proof where
  a : G1
  b : G2
  c : G1
  deriving DecidableEq, Repr

inductive ProofError where
  | malformed (cause : PointError)
  | trailing (count : Nat)
  deriving DecidableEq, Repr

def ProofError.message : ProofError → String
  | .malformed cause => cause.message
  | .trailing count => s!"{count} trailing bytes after proof"

namespace Proof

def toBytes (proof : Proof) : Bytes := proof.a.toBytes ++ proof.b.toBytes ++ proof.c.toBytes

def read : Reader PointError Proof := do
  let a ← Point.read
  let b ← Point.read
  let c ← Point.read
  return { a, b, c }

/-- Read a proof that takes up all of the bytes. -/
def ofBytes (bytes : Bytes) : Except ProofError Proof :=
  match read bytes with
  | .error cause => .error (.malformed cause)
  | .ok (proof, []) => .ok proof
  | .ok (_, rest) => .error (.trailing rest.length)

end Proof

end MailProof
