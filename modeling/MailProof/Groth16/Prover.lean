import MailProof.Circuit
import MailProof.Error
import MailProof.Groth16.Keys
import MailProof.Groth16.Quotient

/-! Proofs that some email derives a code from a salt. -/

namespace MailProof

/-- The two random elements that hide the witness. -/
structure Blinding where
  r : Scalar
  s : Scalar
  deriving DecidableEq, Repr

namespace ProvingKey

/-- Multiples of the quotient points. Where all of them are at infinity the coefficients
do not matter. -/
def quotientTerms (key : ProvingKey) (constraints : List Constraint)
    (assignment : Assignment) : List (Scalar × G1) :=
  if key.quotient.all Point.isInfinity then []
  else (Quotient.coefficients constraints assignment).zip key.quotient

/-- The proof for the values of a satisfied system. A query that is shorter than the
values it goes with is taken as far as it reaches. The left and right queries need a point
for the constant wire: without it a prover stops, which is not represented. -/
def proof (key : ProvingKey) (constraints : List Constraint) (assignment : Assignment)
    (blinding : Blinding) : Proof :=
  let witnesses := assignment.witnesses.toList
  let values := 1 :: (assignment.inputs.toList ++ witnesses)
  let a := Point.combine
    ((1, key.verifyingKey.alpha) :: (blinding.r, key.delta) :: values.zip key.left)
  let b := Point.combine
    ((1, key.verifyingKey.beta) :: (blinding.s, key.verifyingKey.delta) ::
      values.zip key.rightTwist)
  let b1 := Point.combine ((1, key.beta) :: (blinding.s, key.delta) :: values.zip key.right)
  let c := Point.combine
    ((blinding.s, a) :: (blinding.r, b1) :: (-(blinding.r * blinding.s), key.delta) ::
      (witnesses.zip key.witness ++ key.quotientTerms constraints assignment))
  { a, b, c }

end ProvingKey

/-- A proving key under the number of its key pair. -/
structure Prover where
  keyPair : KeyPairId
  key : ProvingKey

namespace Prover

/-- Prove that an email derives a code under a salt. The witness is checked against the
circuit first, so that a wrong code never yields a proof. -/
def prove (prover : Prover) (email salt code : String) (blinding : Blinding) :
    Except CryptoError Proof := do
  let claim ← (CodeClaim.ofText email salt code).mapError .encoding
  let system ← (claim.synthesize .proving).mapError fun error => .synthesis error.message
  let unsatisfied ← system.firstUnsatisfied.mapError fun error => .synthesis error.message
  match unsatisfied, system.assignment with
  | none, some assignment => return prover.key.proof system.constraints assignment blinding
  | _, _ => .error .unsatisfiedWitness

end Prover

end MailProof
