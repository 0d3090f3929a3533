import MailProof.Groth16.Verifier
import MailProof.Proofs.Circuit.PublicInputs
import MailProof.Proofs.Curve.Pairing

/-! What it takes that a proof is accepted: its bytes can be read, the key has a point for each
public input, and the pairing equation holds. -/

namespace MailProof

/-- The pairing equation for a given pairing of two points. -/
def VerifyingKey.SatisfiedUnder {T : Type} [CommMonoid T] (pairing : G1 → G2 → T)
    (key : VerifyingKey) (inputs : List Scalar) (proof : Proof) : Prop :=
  let prepared := Point.combine ((1 :: inputs).zip key.inputs)
  pairing proof.a proof.b * (pairing key.alpha.neg key.beta * pairing prepared.neg key.gamma) *
    pairing proof.c.neg key.delta = 1

theorem VerifyingKey.satisfied_iff (key : VerifyingKey) (inputs : List Scalar) (proof : Proof) :
    key.Satisfied inputs proof ↔ key.SatisfiedUnder Pairing.pairing inputs proof := by
  simp only [Satisfied, SatisfiedUnder, Pairing.product_cons, Pairing.product_nil, mul_one,
    mul_assoc]

namespace Verifier

/-- The answer about a proof that can be read. -/
def verdict (verifier : Verifier) (inputs : List Scalar) (proof : Proof) : Except CryptoError Unit :=
  if inputs.length + 1 ≠ verifier.key.inputs.length then
    .error (.verification VerifierError.malformedKey.message)
  else if verifier.key.Satisfied inputs proof then .ok ()
  else .error .invalidProof

theorem verify_eq_verdict (verifier : Verifier) {code salt : String} {claim : CodeClaim}
    {inputs : List Scalar} (reads : CodeClaim.ofPublicText salt code = .ok claim)
    (known : claim.publicInputs? = some inputs) {proof : Proof} {bytes : Bytes}
    (decoded : Proof.ofBytes bytes = .ok proof) :
    verifier.verify code salt bytes = verifier.verdict inputs proof := by
  simp only [verify, decoded, verifyProof, reads, Except.mapError, bind, Except.bind, known,
    VerifyingKey.accepts, verdict]
  by_cases sized : inputs.length + 1 ≠ verifier.key.inputs.length
  · rw [if_pos sized, if_pos sized]
  · rw [if_neg sized, if_neg sized]
    simp only [decide_eq_true_eq]
    rfl

/-- The verifier accepts the bytes of a proof, if the pairing of two points is the given one. -/
def AcceptsUnder {T : Type} [CommMonoid T] (pairing : G1 → G2 → T) (verifier : Verifier)
    (code salt : String) (bytes : Bytes) : Prop :=
  ∃ claim inputs proof, CodeClaim.ofPublicText salt code = .ok claim ∧
    claim.publicInputs? = some inputs ∧ Proof.ofBytes bytes = .ok proof ∧
      inputs.length + 1 = verifier.key.inputs.length ∧
        verifier.key.SatisfiedUnder pairing inputs proof

theorem verify_of_error (verifier : Verifier) (code salt : String) {bytes : Bytes}
    {cause : ProofError} (fails : Proof.ofBytes bytes = .error cause) :
    verifier.verify code salt bytes = .error (.serialization cause.message) := by
  rw [verify, fails]
  rfl

theorem verdict_eq_ok_iff (verifier : Verifier) (inputs : List Scalar) (proof : Proof) :
    verifier.verdict inputs proof = .ok () ↔
      inputs.length + 1 = verifier.key.inputs.length ∧ verifier.key.Satisfied inputs proof := by
  rw [verdict]
  by_cases sized : inputs.length + 1 = verifier.key.inputs.length
  · by_cases satisfied : verifier.key.Satisfied inputs proof
    · simp [sized, satisfied]
    · simp [sized, satisfied]
  · simp [sized]

/-- Acceptance is that under the pairing of the program. -/
theorem verify_eq_ok_iff (verifier : Verifier) (code salt : String) (bytes : Bytes) :
    verifier.verify code salt bytes = .ok () ↔
      verifier.AcceptsUnder Pairing.pairing code salt bytes := by
  cases decoded : Proof.ofBytes bytes with
  | error cause =>
    rw [verify_of_error verifier code salt decoded]
    constructor
    · rintro ⟨⟩
    · rintro ⟨_, _, _, _, _, other, _⟩
      rw [decoded] at other
      cases other
  | ok proof =>
    cases made : CodeClaim.ofPublicText salt code with
    | error cause =>
      have refused : verifier.verify code salt bytes = .error (.encoding cause) := by
        simp only [verify, decoded, verifyProof, made]
        rfl
      rw [refused]
      constructor
      · rintro ⟨⟩
      · rintro ⟨_, _, _, other, _⟩
        rw [made] at other
        cases other
    | ok claim =>
      obtain ⟨_, _, _, _, known⟩ := CodeClaim.encodes_of_ofPublicText made
      rw [verify_eq_verdict verifier made known decoded, verdict_eq_ok_iff,
        VerifyingKey.satisfied_iff]
      constructor
      · rintro ⟨sized, satisfied⟩
        exact ⟨_, _, _, made, known, decoded, sized, satisfied⟩
      · rintro ⟨_, _, _, made', known', decoded', sized, satisfied⟩
        cases made.symm.trans made'
        cases known.symm.trans known'
        cases decoded.symm.trans decoded'
        exact ⟨sized, satisfied⟩

end Verifier

end MailProof
