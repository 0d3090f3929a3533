import MailProof.Groth16.Prover
import MailProof.Proofs.Circuit.Satisfaction

/-! The derivation of codes and the verification circuit agree. A proof is made exactly if the
code is the one that the email derives under the salt. -/

namespace MailProof

/-- Why texts have no proof: the first of them that does not encode, or else the witness. -/
def rejection (email salt code : String) : CryptoError :=
  match pack email, pack salt, CodeDigits.ofText code with
  | .error cause, _, _ => .encoding cause
  | .ok _, .error cause, _ => .encoding cause
  | .ok _, .ok _, .error cause => .encoding cause
  | .ok _, .ok _, .ok _ => .unsatisfiedWitness

namespace CodeClaim

variable {email salt code : String} {packedEmail packedSalt : PackedText} {digits : CodeDigits}

theorem ofText_eq (packs : pack email = .ok packedEmail) (packs' : pack salt = .ok packedSalt)
    (reads : CodeDigits.ofText code = .ok digits) :
    ofText email salt code = .ok ⟨some packedEmail, some packedSalt, some digits⟩ := by
  rw [ofText, packs, packs', reads]
  rfl

/-- Either all three texts encode, or the first that does not is reported. -/
theorem ofText_cases (email salt code : String) :
    (∃ packedEmail packedSalt digits, pack email = .ok packedEmail ∧ pack salt = .ok packedSalt ∧
      CodeDigits.ofText code = .ok digits) ∨
    ∃ cause, ofText email salt code = .error cause ∧
      rejection email salt code = .encoding cause := by
  cases packs : pack email with
  | error cause => exact .inr ⟨cause, by rw [ofText, packs]; rfl, by rw [rejection, packs]⟩
  | ok packedEmail =>
    cases packs' : pack salt with
    | error cause =>
      exact .inr ⟨cause, by rw [ofText, packs, packs']; rfl, by rw [rejection, packs, packs']⟩
    | ok packedSalt =>
      cases reads : CodeDigits.ofText code with
      | error cause =>
        refine .inr ⟨cause, ?_, ?_⟩
        · rw [ofText, packs, packs', reads]
          rfl
        · rw [rejection, packs, packs', reads]
      | ok digits => exact .inl ⟨packedEmail, packedSalt, digits, rfl, rfl, rfl⟩

/-- A derived code encodes, and so do the texts that it is derived from. -/
theorem ofText_isOk_of_deriveCode (derives : deriveCode email salt = .ok code) {cause : EncodingError} :
    ofText email salt code ≠ .error cause := by
  obtain ⟨packedEmail, packedSalt, packs, packs', reads⟩ := ofText_of_deriveCode derives
  rw [ofText_eq packs packs' reads]
  nofun

end CodeClaim

namespace Prover

variable (prover : Prover) (blinding : Blinding) {email salt code : String}

private theorem prove_of_error {cause : EncodingError}
    (fails : CodeClaim.ofText email salt code = .error cause) :
    prover.prove email salt code blinding = .error (.encoding cause) := by
  rw [prove, fails]
  rfl

/-- The witness is checked once a claim has a system with values. -/
theorem prove_of_system {claim : CodeClaim} {constraints : List Constraint} {shape : Shape}
    {assignment : Assignment} (reads : CodeClaim.ofText email salt code = .ok claim)
    (run : claim.synthesize .proving = .ok ⟨constraints, shape, some assignment⟩) :
    prover.prove email salt code blinding =
      match firstUnsatisfied constraints assignment.value with
      | none => .ok (prover.key.proof constraints assignment blinding)
      | some _ => .error .unsatisfiedWitness := by
  simp only [prove, reads, run, Except.mapError, bind, Except.bind, System.firstUnsatisfied]
  cases firstUnsatisfied constraints assignment.value <;> rfl

/-- Texts that encode have a proof if the code is right, and fail the witness check if not. -/
theorem prove_of_encodes {packedEmail packedSalt : PackedText} {digits : CodeDigits}
    (packs : pack email = .ok packedEmail) (packs' : pack salt = .ok packedSalt)
    (reads : CodeDigits.ofText code = .ok digits) :
    (deriveCode email salt = .ok code ∧
      ∃ proof, prover.prove email salt code blinding = .ok proof) ∨
    (deriveCode email salt ≠ .ok code ∧
      prover.prove email salt code blinding = .error .unsatisfiedWitness) := by
  obtain ⟨assignment, run, right⟩ := CodeClaim.satisfied_iff packedEmail packedSalt digits
  have derives := (deriveCode_iff packs packs' reads).trans right.symm
  have proven := prover.prove_of_system blinding (CodeClaim.ofText_eq packs packs' reads) run
  cases judged : firstUnsatisfied verificationDraft.constraints assignment.value with
  | none =>
    exact .inl ⟨derives.mpr judged, _, by rw [proven, judged]⟩
  | some index =>
    refine .inr ⟨fun derived => ?_, by rw [proven, judged]⟩
    rw [derives.mp derived] at judged
    cases judged

/-- A proof comes of exactly the derived code, and nothing else of exactly the other codes. -/
theorem prove_iff (email salt code : String) :
    ((∃ proof, prover.prove email salt code blinding = .ok proof) ↔
      deriveCode email salt = .ok code) ∧
    (deriveCode email salt ≠ .ok code →
      prover.prove email salt code blinding = .error (rejection email salt code)) := by
  rcases CodeClaim.ofText_cases email salt code with
    ⟨packedEmail, packedSalt, digits, packs, packs', reads⟩ | ⟨cause, fails, reason⟩
  · rcases prove_of_encodes prover blinding packs packs' reads with
      ⟨derives, proven⟩ | ⟨wrong, refused⟩
    · exact ⟨⟨fun _ => derives, fun _ => proven⟩, fun wrong => absurd derives wrong⟩
    · have reason : rejection email salt code = .unsatisfiedWitness := by
        rw [rejection, packs, packs', reads]
      refine ⟨⟨fun ⟨proof, proven⟩ => ?_, fun derives => absurd derives wrong⟩, fun _ => ?_⟩
      · rw [refused] at proven
        cases proven
      · rw [refused, reason]
  · have refused := prove_of_error prover blinding fails
    refine ⟨⟨fun ⟨proof, proven⟩ => ?_, fun derives => ?_⟩, fun _ => ?_⟩
    · rw [refused] at proven
      cases proven
    · exact absurd fails (CodeClaim.ofText_isOk_of_deriveCode derives)
    · rw [refused, reason]

end Prover

/-- The system of the texts is satisfied exactly if the code is the derived one. -/
theorem satisfied_iff_derives (email salt code : String) :
    (∃ claim system, CodeClaim.ofText email salt code = .ok claim ∧
      claim.synthesize .proving = .ok system ∧ system.firstUnsatisfied = .ok none) ↔
    deriveCode email salt = .ok code := by
  constructor
  · rintro ⟨claim, system, made, synthesized, satisfied⟩
    rcases CodeClaim.ofText_cases email salt code with
      ⟨packedEmail, packedSalt, digits, packs, packs', reads⟩ | ⟨cause, fails, _⟩
    · obtain ⟨assignment, run, right⟩ := CodeClaim.satisfied_iff packedEmail packedSalt digits
      rw [CodeClaim.ofText_eq packs packs' reads] at made
      rw [← Except.ok.inj made, run] at synthesized
      rw [← Except.ok.inj synthesized] at satisfied
      exact (deriveCode_iff packs packs' reads).mpr (right.mp (Except.ok.inj satisfied))
    · rw [fails] at made
      cases made
  · intro derives
    obtain ⟨packedEmail, packedSalt, packs, packs', reads⟩ := ofText_of_deriveCode derives
    obtain ⟨assignment, run, right⟩ := CodeClaim.satisfied_iff packedEmail packedSalt
      (CodeDigits.ofDigest (mixedDigest packedEmail packedSalt))
    exact ⟨_, _, CodeClaim.ofText_eq packs packs' reads, run, congrArg Except.ok (right.mpr rfl)⟩

/-- The two derivations agree on all texts. The circuit accepts exactly the derived code; under
every key and all random elements a proof is made of exactly that code, and otherwise the answer
is the encoding error of the first text that has one or an unsatisfied witness. -/
theorem derivations_agree (email salt code : String) :
    ((∃ claim system, CodeClaim.ofText email salt code = .ok claim ∧
        claim.synthesize .proving = .ok system ∧ system.firstUnsatisfied = .ok none) ↔
      deriveCode email salt = .ok code) ∧
    ∀ (prover : Prover) (blinding : Blinding),
      ((∃ proof, prover.prove email salt code blinding = .ok proof) ↔
        deriveCode email salt = .ok code) ∧
      (deriveCode email salt ≠ .ok code →
        prover.prove email salt code blinding = .error (rejection email salt code)) :=
  ⟨satisfied_iff_derives email salt code,
    fun prover blinding => prover.prove_iff blinding email salt code⟩

end MailProof
