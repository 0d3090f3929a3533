import MailProof.Circuit
import MailProof.Digest.Sha256
import MailProof.Groth16.Prover
import MailProof.Groth16.Verifier
import MailProof.KeyPair
import MailProof.Processor

/-! Keys bound to a circuit. Stored keys carry a fingerprint of the circuit they were
minted for, and keys of another circuit are refused. -/

namespace MailProof

inductive SetupError where
  | synthesis (detail : String)
  | ceremony (detail : String)
  | serialization (detail : String)
  | storage (cause : StorageError)
  | circuitMismatch (id : KeyPairId) (stored current : String)
  deriving DecidableEq, Repr

def SetupError.message : SetupError → String
  | .synthesis detail => "Constraint synthesis failed: " ++ detail
  | .ceremony detail => "Trusted setup failed: " ++ detail
  | .serialization detail => "Serialization error: " ++ detail
  | .storage cause => "Storage error: " ++ cause.message
  | .circuitMismatch id stored current =>
    "Key pair " ++ toString id ++ " was generated for circuit " ++ stored ++
      ", current circuit is " ++ current

/-- SHA-256 in hexadecimal over the sizes of the circuit and the parameters of packing
and hashing, each in eight bytes. -/
def Shape.fingerprint (shape : Shape) : String :=
  let parameters := [shape.constraints, shape.instanceVariables, shape.witnessVariables,
    packedSize, charsPerElement, codeLength, Mimc.rounds, Mimc.exponent]
  Hex.encode (Sha256.digest (Utf8.encode "verification-code-circuit/mimc-bn254" ++
    parameters.flatMap (Bytes.littleEndian 8)))

/-- Keys for the current circuit. -/
structure CircuitKeys where
  keyPair : KeyPairId
  provingKey : ProvingKey
  verifyingKey : VerifyingKey
  shape : Shape
  deriving DecidableEq, Repr

namespace CircuitKeys

private def decoded (keys : Except PointError α) : Except SetupError α :=
  keys.mapError fun error => .serialization error.message

/-- Decode stored keys, refusing those of another circuit. -/
def ofKeyPair (keyPair : KeyPair) (shape : Shape) : Except SetupError CircuitKeys := do
  let current := shape.fingerprint
  if keyPair.material.circuitFingerprint ≠ current then
    .error (.circuitMismatch keyPair.id keyPair.material.circuitFingerprint current)
  else
    let provingKey ← decoded (ProvingKey.ofBytes keyPair.material.provingKey)
    let verifyingKey ← decoded (VerifyingKey.ofBytes keyPair.material.verifyingKey)
    return { keyPair := keyPair.id, provingKey, verifyingKey, shape }

/-- Keys as they are stored. -/
def material (shape : Shape) (provingKey : ProvingKey) (verifyingKey : VerifyingKey) :
    KeyMaterial :=
  ⟨provingKey.toBytes, verifyingKey.toBytes, shape.fingerprint⟩

/-- The latest keys of a store, which must fit the verification circuit. -/
def loadLatest {σ : Type} [KeyPairStore σ] (store : σ) : Except SetupError CircuitKeys := do
  let keyPair ← (KeyPairStore.latest store).mapError .storage
  ofKeyPair keyPair verificationShape

def prover (keys : CircuitKeys) : Prover := ⟨keys.keyPair, keys.provingKey⟩

def verifier (keys : CircuitKeys) : Verifier := ⟨keys.keyPair, keys.verifyingKey⟩

/-- Proofs made under these keys with the given blinding. -/
def processor (keys : CircuitKeys) (blinding : Blinding) : Processor where
  generate email salt code := do
    let proof ← keys.prover.prove email salt code blinding
    return (proof.toBytes, keys.keyPair)
  verify := keys.verifier.verify

end CircuitKeys

end MailProof
