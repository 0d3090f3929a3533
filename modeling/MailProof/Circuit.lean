import MailProof.Gadget.Building

/-! The verification circuit: a secret email and a public salt derive a public code. It is built for
a claim with the values of the claim at hand, and drafted without any. -/

namespace MailProof

open Synthesis Gadget

/-- The claim that an email derives a code under a salt. Parts that are not known are
left out. -/
structure CodeClaim where
  email : Option PackedText
  salt : Option PackedText
  code : Option CodeDigits
  deriving DecidableEq

namespace CodeClaim

/-- The all-zero email and salt with the code they derive. -/
def empty : CodeClaim :=
  let zeros : PackedText := Vector.replicate packedSize 0
  ⟨some zeros, some zeros, some (CodeDigits.ofDigest (Mimc.hash zeros.toList))⟩

def ofText (email salt code : String) : Except EncodingError CodeClaim := do
  let email ← pack email
  let salt ← pack salt
  let code ← CodeDigits.ofText code
  return ⟨some email, some salt, some code⟩

/-- The claim with its public parts only; zeros stand for the email. -/
def ofPublicText (salt code : String) : Except EncodingError CodeClaim := do
  let salt ← pack salt
  let code ← CodeDigits.ofText code
  return ⟨some (Vector.replicate packedSize 0), some salt, some code⟩

def digitElements (code : CodeDigits) : List Scalar :=
  code.toList.map fun digit => Scalar.ofNat digit.toNat

/-- The salt and the digits of the code, in the order in which the circuit takes them. -/
def publicInputs? (claim : CodeClaim) : Option (List Scalar) := do
  let salt ← claim.salt
  let code ← claim.code
  return salt.toList ++ digitElements code

/-- Values of a part, or as many unknown ones. -/
def known (count : Nat) : Option (List Scalar) → List (Option Scalar)
  | some values => values.map some
  | none => List.replicate count none

def supply (claim : CodeClaim) : Supply where
  inputs := known packedSize (claim.salt.map Vector.toList) ++
    known codeLength (claim.code.map digitElements)
  secrets := known packedSize (claim.email.map Vector.toList)

end CodeClaim

/-- Absorb the exclusive or of an email element and a salt element. -/
def absorbMixed (digest : Quantity) (pair : Wire × Wire) : Synthesis Quantity := do
  let mixed ← mix (.ofWire pair.1) (.ofWire pair.2)
  absorb digest (.combination mixed)

/-- Require that a digit of the code is the nibble that starts at a binary digit. -/
def enforceDigit (digits : List Wire) (digit : Wire × Nat) : Synthesis Unit :=
  Quantity.enforceEqual
    (.combination (weigh ((digits.drop (4 * (codeLength - 1 - digit.2))).take 4)))
    (.ofWire digit.1)

/-- Salt and code are public inputs and the email elements are the first witnesses. The
low nibbles of the digest, most significant first, are the code. -/
def verificationCircuit : Synthesis Unit := do
  let salt ← replicate input packedSize
  let code ← replicate input codeLength
  let email ← replicate secret packedSize
  let digest ← chain absorbMixed (.constant 0) (email.zip salt)
  let digits ← bits digest.terms
  let _ ← each (enforceDigit digits) code.zipIdx
  return ()

/-- The steps of the verification circuit. -/
def verificationDraft : Draft Unit := verificationCircuit {}

/-- Shape of the verification circuit. -/
def verificationShape : Shape := verificationDraft.shape

namespace Building

/-- Absorb the exclusive or of an email element and a salt element. -/
def absorbMixed (digest : Quantity) (pair : Wire × Wire) : Building Quantity := do
  let mixed ← mix pair.1 pair.2
  absorb digest (.combination mixed)

/-- Require that a digit of the code is the nibble that starts at a binary digit. -/
def enforceDigit (digits : List Wire) (digit : Wire × Nat) : Building Unit := do
  let nibble := (digits.drop (4 * (codeLength - 1 - digit.2))).take 4
  place (Quantity.enforceEqual (.combination (weigh nibble)) (.ofWire digit.1))

end Building

namespace CodeClaim

/-- Build the verification circuit for a claim. Salt, code and email are allocated with their values,
which need not be known in setup mode. -/
def build (claim : CodeClaim) : Building Unit := do
  let salt ← (List.finRange packedSize).mapM fun i => Building.input (claim.salt.map (·.get i))
  let code ← (List.finRange codeLength).mapM fun i =>
    Building.input (claim.code.map fun code => Scalar.ofNat (code.get i).toNat)
  let email ← (List.finRange packedSize).mapM fun i =>
    Building.witness (claim.email.map (·.get i))
  let digest ← (email.zip salt).foldlM Building.absorbMixed (.constant 0)
  let digits ← Building.place (bits digest.terms)
  code.zipIdx.forM (Building.enforceDigit digits)

/-- The system that is built for a claim. -/
def synthesize (claim : CodeClaim) (mode : Mode) : Except SynthesisError System :=
  (claim.build mode.start).map fun built => built.2.system

end CodeClaim

end MailProof
