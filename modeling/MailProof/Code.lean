import MailProof.Error
import MailProof.Hex

/-! Derivation of verification codes. The packed email and salt are combined bit by bit,
hashed, and the low twenty-four bits of the digest are written in hexadecimal. -/

namespace MailProof

/-- Bitwise exclusive or of two elements, as a 32-byte block. It may exceed the field
order when the elements are not packed text. -/
def mixBytes (email salt : Scalar) : Bytes :=
  List.zipWith (· ^^^ ·) email.toBytes salt.toBytes

/-- Code of an email under a salt. -/
def deriveCode (email salt : String) : Except CryptoError String := do
  let email ← (pack email).mapError .encoding
  let salt ← (pack salt).mapError .encoding
  let stream := (List.zipWith mixBytes email.toList salt.toList).flatten
  let (hasher, absorbed) := Mimc.Hasher.update {} stream
  absorbed.mapError .hash
  return Hex.encode (hasher.digest.toBytes.drop 29)

/-- Code written by three bytes of entropy. -/
def randomCode (first second third : UInt8) : String := Hex.encode [first, second, third]

end MailProof
