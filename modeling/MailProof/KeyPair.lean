import MailProof.Error

/-! Key pairs as they are stored, and the stores that number them. -/

namespace MailProof

/-- Serialized keys with the fingerprint of the circuit they were minted for. -/
structure KeyMaterial where
  provingKey : Bytes
  verifyingKey : Bytes
  circuitFingerprint : String
  deriving DecidableEq, Repr

/-- Stored keys under the number that their store gave them. -/
structure KeyPair where
  id : KeyPairId
  material : KeyMaterial
  deriving DecidableEq, Repr

/-- A store of key pairs. A failing call changes nothing. -/
class KeyPairStore (σ : Type) where
  latest : σ → Except StorageError KeyPair
  save : σ → KeyMaterial → Except StorageError (KeyPairId × σ)

/-- The answer of a store without keys. -/
def StorageError.noKeyPair : StorageError := .notFound "key pair"

end MailProof
