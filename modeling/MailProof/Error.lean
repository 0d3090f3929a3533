import MailProof.Mimc.Hasher

/-! Failures of proving, storage, mail and sessions, each with its wording. -/

namespace MailProof

abbrev UserId := Nat

/-- Key pairs are numbered by 64-bit words. -/
abbrev KeyPairId := UInt64

inductive CryptoError where
  | encoding (cause : EncodingError)
  | hash (cause : HashError)
  | unsatisfiedWitness
  | synthesis (detail : String)
  | proving (detail : String)
  | verification (detail : String)
  | invalidProof
  | serialization (detail : String)
  | keyPairMismatch (proof loaded : KeyPairId)
  deriving DecidableEq, Repr

def CryptoError.message : CryptoError → String
  | .encoding cause => "Encoding failed: " ++ cause.message
  | .hash cause => "Hashing failed: " ++ cause.message
  | .unsatisfiedWitness => "Witness does not satisfy the verification circuit"
  | .synthesis detail => "Constraint synthesis failed: " ++ detail
  | .proving detail => "Proof generation failed: " ++ detail
  | .verification detail => "Verification failed: " ++ detail
  | .invalidProof => "Proof is invalid"
  | .serialization detail => "Serialization error: " ++ detail
  | .keyPairMismatch proof loaded =>
    "Proof was generated under key pair " ++ toString proof ++
      " but the loaded key pair is " ++ toString loaded

inductive StorageError where
  | notFound (entity : String)
  | sessionConsumed (user : UserId)
  | backend (detail : String)
  deriving DecidableEq, Repr

def StorageError.message : StorageError → String
  | .notFound entity => entity ++ " not found"
  | .sessionConsumed user =>
    s!"Verification session for user {user} was already consumed or replaced"
  | .backend detail => "Storage backend error: " ++ detail

structure MailError where
  detail : String
  deriving DecidableEq, Repr

def MailError.message (error : MailError) : String :=
  "Failed to send verification email: " ++ error.detail

inductive VerificationError where
  | encoding (cause : EncodingError)
  | notFound (user : UserId)
  | expired
  | mismatch
  | crypto (cause : CryptoError)
  | storage (cause : StorageError)
  | mail (cause : MailError)
  deriving DecidableEq, Repr

namespace VerificationError

def message : VerificationError → String
  | .encoding cause => cause.message
  | .notFound user => s!"No verification session found for user {user}"
  | .expired => "The verification code is expired. Please run the verification process again"
  | .mismatch => "Invalid verification code"
  | .crypto cause => cause.message
  | .storage cause => cause.message
  | .mail cause => cause.message

/-- An encoding failure stays one; it is the user's input that does not fit. -/
def ofCrypto : CryptoError → VerificationError
  | .encoding cause => .encoding cause
  | other => .crypto other

/-- Expected rejections, shown to the user as they are. -/
def isUserFacing : VerificationError → Bool
  | .encoding _ | .notFound _ | .expired | .mismatch => true
  | .crypto _ | .storage _ | .mail _ => false

end VerificationError

end MailProof
