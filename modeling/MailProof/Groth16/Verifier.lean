import MailProof.Circuit
import MailProof.Curve.Pairing
import MailProof.Error
import MailProof.Groth16.Keys
import MailProof.Session

/-! Checks of proofs against a code and a salt. -/

namespace MailProof

inductive VerifierError where
  /-- The key has points for another number of public inputs. -/
  | malformedKey
  deriving DecidableEq, Repr

def VerifierError.message : VerifierError → String
  | .malformedKey => "malformed verifying key"

namespace VerifyingKey

/-- The pairing equation `e(a, b) = e(alpha, beta) e(inputs, gamma) e(c, delta)`. -/
def Satisfied (key : VerifyingKey) (inputs : List Scalar) (proof : Proof) : Prop :=
  let prepared := Point.combine ((1 :: inputs).zip key.inputs)
  Pairing.product
    [(proof.a, proof.b), (key.alpha.neg, key.beta), (prepared.neg, key.gamma),
      (proof.c.neg, key.delta)] = 1

instance (key : VerifyingKey) (inputs : List Scalar) (proof : Proof) :
    Decidable (key.Satisfied inputs proof) :=
  inferInstanceAs (Decidable (_ = _))

/-- Whether a proof is valid for public inputs. -/
def accepts (key : VerifyingKey) (inputs : List Scalar) (proof : Proof) :
    Except VerifierError Bool :=
  if inputs.length + 1 ≠ key.inputs.length then .error .malformedKey
  else .ok (key.Satisfied inputs proof)

end VerifyingKey

/-- A verifying key under the number of its key pair. -/
structure Verifier where
  keyPair : KeyPairId
  key : VerifyingKey

namespace Verifier

/-- Check a decoded proof. -/
def verifyProof (verifier : Verifier) (code salt : String) (proof : Proof) :
    Except CryptoError Unit := do
  let claim ← (CodeClaim.ofPublicText salt code).mapError .encoding
  match claim.publicInputs? with
  | none => .error (.verification "missing public inputs")
  | some inputs =>
    let accepted ← (verifier.key.accepts inputs proof).mapError fun error =>
      .verification error.message
    if accepted then return () else .error .invalidProof

/-- Check the bytes of a proof. -/
def verify (verifier : Verifier) (code salt : String) (proof : Bytes) :
    Except CryptoError Unit := do
  let proof ← (Proof.ofBytes proof).mapError fun error => .serialization error.message
  verifier.verifyProof code salt proof

/-- Check a stored record; it must have been made under this key pair. -/
def verifyRecord (verifier : Verifier) (record : ProofRecord) (salt : String) :
    Except CryptoError Unit :=
  if record.keyPair ≠ verifier.keyPair then
    .error (.keyPairMismatch record.keyPair verifier.keyPair)
  else verifier.verify record.consumedCode salt record.proof

end Verifier

end MailProof
