import MailProof.Groth16.Verifier
import MailProof.Proofs.Circuit.PublicInputs

/-! Why texts are refused. A text is refused for its length alone, so packing, deriving, proving and
verifying fail alike for texts of as many characters. -/

namespace MailProof

/-- The error of a computation that fails. -/
def failure? : Except ε α → Option ε
  | .ok _ => none
  | .error error => some error

/-- Computations that fail alike fail with the same error or both succeed. -/
theorem failure?_eq_cases {first : Except ε α} {second : Except ε β}
    (alike : failure? first = failure? second) :
    (∃ error, first = .error error ∧ second = .error error) ∨
      ∃ x y, first = .ok x ∧ second = .ok y := by
  cases first with
  | ok x =>
    cases second with
    | ok y => exact .inr ⟨x, y, rfl, rfl⟩
    | error error => cases alike
  | error error =>
    cases second with
    | ok y => cases alike
    | error other => exact .inl ⟨error, rfl, by rw [Option.some.inj alike]⟩

private theorem pack_failure (text : String) : failure? (pack text) =
    if text.length > textCapacity then some (.inputTooLong text.length textCapacity) else none := by
  rw [pack, String.length_toList]
  split <;> rfl

variable {email email' salt salt' code : String}

/-- Deriving fails if a text does not pack, and reports the first that does not. -/
theorem deriveCode_failure (email salt : String) : failure? (deriveCode email salt) =
    ((failure? (pack email)).or (failure? (pack salt))).map .encoding := by
  cases packs : pack email with
  | error cause => simp [deriveCode_of_email_error packs salt, failure?]
  | ok packedEmail =>
    cases packs' : pack salt with
    | error cause => simp [deriveCode_of_salt_error packs packs', failure?]
    | ok packedSalt =>
      rw [deriveCode_eq packs packs']
      rfl

private theorem rejection_eq (email salt code : String) : rejection email salt code =
    (((failure? (pack email)).or (failure? (pack salt))).or
      (failure? (CodeDigits.ofText code))).elim .unsatisfiedWitness .encoding := by
  rw [rejection]
  cases pack email <;> cases pack salt <;> cases CodeDigits.ofText code <;> rfl

theorem deriveCode_failure_congr (emails : email.length = email'.length)
    (salts : salt.length = salt'.length) :
    failure? (deriveCode email salt) = failure? (deriveCode email' salt') := by
  simp only [deriveCode_failure, pack_failure, emails, salts]

theorem rejection_congr (emails : email.length = email'.length) (salts : salt.length = salt'.length)
    (code : String) : rejection email salt code = rejection email' salt' code := by
  simp only [rejection_eq, pack_failure, emails, salts]

namespace Verifier

variable (verifier : Verifier)

/-- Why a decoded proof is refused that is not accepted: a text does not encode, the key is for
another number of inputs, or the proof is wrong. -/
def proofRefusal (code salt : String) : CryptoError :=
  match (failure? (pack salt)).or (failure? (CodeDigits.ofText code)) with
  | some cause => .encoding cause
  | none =>
    if packedSize + codeLength + 1 ≠ verifier.key.inputs.length then
      .verification VerifierError.malformedKey.message
    else .invalidProof

/-- Why the bytes of a proof are refused. -/
def refusal (code salt : String) (proof : Bytes) : CryptoError :=
  match Proof.ofBytes proof with
  | .error error => .serialization error.message
  | .ok _ => verifier.proofRefusal code salt

private theorem verifyProof_cases (code salt : String) (proof : Proof) :
    verifier.verifyProof code salt proof = .ok () ∨
      verifier.verifyProof code salt proof = .error (verifier.proofRefusal code salt) := by
  rw [proofRefusal]
  cases packs : pack salt with
  | error cause =>
    right
    rw [verifyProof, CodeClaim.ofPublicText, packs]
    rfl
  | ok packed =>
    cases reads : CodeDigits.ofText code with
    | error cause =>
      right
      rw [verifyProof, CodeClaim.ofPublicText, packs, reads]
      rfl
    | ok digits =>
      have inputs : CodeClaim.publicInputs?
          ⟨some (Vector.replicate packedSize 0), some packed, some digits⟩ =
          some (CodeClaim.publicList packed digits) := rfl
      simp only [verifyProof, CodeClaim.ofPublicText_eq packs reads, Except.mapError, bind,
        Except.bind, inputs, VerifyingKey.accepts, CodeClaim.publicList_length, failure?,
        Option.or_none]
      by_cases fits : packedSize + codeLength + 1 ≠ verifier.key.inputs.length
      · right
        simp [fits]
      · by_cases satisfied : verifier.key.Satisfied (CodeClaim.publicList packed digits) proof
        · left
          simp [fits, satisfied]
          rfl
        · right
          simp [fits, satisfied]

/-- A proof is accepted, or it is refused for a reason that the length of the salt settles. -/
theorem verify_cases (code salt : String) (proof : Bytes) :
    verifier.verify code salt proof = .ok () ∨
      verifier.verify code salt proof = .error (verifier.refusal code salt proof) := by
  rw [refusal, verify]
  cases Proof.ofBytes proof with
  | error error => exact .inr rfl
  | ok decoded => exact verifier.verifyProof_cases code salt decoded

private theorem refusal_congr (salts : salt.length = salt'.length) (code : String) (proof : Bytes) :
    verifier.refusal code salt proof = verifier.refusal code salt' proof := by
  simp only [refusal, proofRefusal, pack_failure, salts]

/-- Under salts of as many characters, a proof has one answer if it is accepted under both or
under neither. -/
theorem verify_congr (salts : salt.length = salt'.length) {code : String} {proof : Bytes}
    (accepted : verifier.verify code salt proof = .ok () ↔
      verifier.verify code salt' proof = .ok ()) :
    verifier.verify code salt proof = verifier.verify code salt' proof := by
  rcases verifier.verify_cases code salt proof with accepts | refuses
  · rw [accepts, accepted.mp accepts]
  · rcases verifier.verify_cases code salt' proof with accepts | refuses'
    · rw [accepts, accepted.mpr accepts]
    · rw [refuses, refuses', verifier.refusal_congr salts]

end Verifier

end MailProof
