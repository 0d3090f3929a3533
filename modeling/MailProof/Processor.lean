import MailProof.Code

/-! Makers and checkers of proofs, seen by the session service. -/

namespace MailProof

structure Processor where
  /-- Prove that an email derives a code under a salt; with the key pair used. -/
  generate : (email salt code : String) → Except CryptoError (Bytes × KeyPairId)
  /-- Check a proof against a code and a salt. No email is needed. -/
  verify : (code salt : String) → Bytes → Except CryptoError Unit

namespace Processor

/-- Processors that stand in for real proofs: a proof is the bytes of the code. -/
def matchesCode (code _salt : String) (proof : Bytes) : Except CryptoError Unit :=
  if proof = Utf8.encode code then .ok () else .error .invalidProof

def standInKeyPair : KeyPairId := 7

/-- Proves the derived code only. -/
def checking : Processor where
  generate email salt code := do
    let derived ← deriveCode email salt
    if derived = code then return (Utf8.encode code, standInKeyPair)
    else .error .unsatisfiedWitness
  verify := matchesCode

/-- Proves any code. -/
def echo : Processor where
  generate _ _ code := .ok (Utf8.encode code, standInKeyPair)
  verify := matchesCode

/-- Proves nothing. -/
def failing (detail : String) : Processor where
  generate _ _ _ := .error (.proving detail)
  verify := matchesCode

end Processor

end MailProof
