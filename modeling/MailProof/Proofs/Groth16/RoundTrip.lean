import MailProof.Proofs.Circuit.Uniformity
import MailProof.Proofs.Groth16.Codec
import MailProof.Proofs.Groth16.Completeness

/-! Proofs under loaded keys. Loading compares the fingerprint of the circuit and reads the two
keys; it does not compare them with each other or with the circuit. A proof under loaded keys can
be read, and it is judged by the pairing equation. Under keys that one key generation made for the
circuit the equation holds for every pairing with the laws of pairings. -/

namespace MailProof

open CodeClaim

/-- Values of all wires of the verification circuit, which satisfy it with the given inputs. -/
structure Assignment.Proves (assignment : Assignment) (inputs : List Scalar) : Prop where
  fits : assignment.Fits verificationDraft.layout
  inputs_eq : assignment.inputs.toList = inputs
  holds : ∀ constraint ∈ verificationDraft.constraints, constraint.Holds assignment.value

/-- The domain of the verification circuit. -/
theorem verificationDomain :
    Quotient.Domain (Ceremony.levels verificationDraft.constraints verificationDraft.layout) := by
  rw [Ceremony.levels, verificationConstraints_length, verificationLayout_eq]
  exact .of_lt (by decide)

/-- An assignment that keeps the supplied values begins with the salt and the digits. -/
theorem CodeClaim.inputs_eq {email salt : PackedText} {code : CodeDigits} {assignment : Assignment}
    (fits : assignment.Fits verificationDraft.layout)
    (kept : ∀ wire, Verification.supplied.Has wire →
      assignment.value wire = (honest email salt code).value wire) :
    assignment.inputs.toList = salt.toList ++ digitElements code := by
  have same : verificationDraft.layout.publicWires = Verification.supplied.publicWires := by
    rw [verificationLayout_eq]
    rfl
  have agree : verificationDraft.layout.publicWires.map assignment.value =
      Verification.supplied.publicWires.map (honest email salt code).value := by
    rw [same]
    refine List.map_congr_left fun wire member => kept wire ?_
    exact (Layout.mem_wires_iff _).mp (List.mem_append_left _ member)
  rw [← fits.publicValues, ← (honest_fits email salt code).publicValues] at agree
  exact (List.cons.inj agree).2

namespace Prover

variable {email salt code : String}

/-- The values for a derived code, which are the same under all keys. -/
theorem prove_derived (derives : deriveCode email salt = .ok code) :
    ∃ claim inputs assignment, ofPublicText salt code = .ok claim ∧
      claim.publicInputs? = some inputs ∧ Assignment.Proves assignment inputs ∧
      ∀ (prover : Prover) (blinding : Blinding), prover.prove email salt code blinding =
        .ok (prover.key.proof verificationDraft.constraints assignment blinding) := by
  obtain ⟨packedEmail, packedSalt, packs, packs', reads⟩ := ofText_of_deriveCode derives
  obtain ⟨assignment, run, kept, computed⟩ := synthesize_proving packedEmail packedSalt
    (CodeDigits.ofDigest (mixedDigest packedEmail packedSalt))
  have holds := constraints_of_derived rfl computed ((derived_iff kept).mpr rfl)
  have satisfied := (firstUnsatisfied_eq_none_iff _ assignment.value).mpr holds
  have drafted := run
  rw [synthesize_eq] at drafted
  obtain ⟨_, same, fits⟩ :=
    Draft.fits_of_filled rfl (Draft.system_filled verificationDraft_counted drafted)
  cases same
  have claim : ofPublicText salt code = .ok ⟨some (Vector.replicate packedSize 0), some packedSalt,
      some (CodeDigits.ofDigest (mixedDigest packedEmail packedSalt))⟩ := by
    rw [ofPublicText, packs', reads]
    rfl
  refine ⟨_, _, assignment, claim, rfl, ⟨fits, inputs_eq fits kept, holds⟩,
    fun prover blinding => ?_⟩
  rw [prover.prove_of_system blinding (ofText_eq packs packs' reads) run, satisfied]

end Prover

namespace Ceremony

variable (ceremony : Ceremony)

section

variable {constraints : List Constraint} {layout : Layout}

private theorem first_admissible (factor : Scalar) : (ceremony.first.multiple factor).Admissible :=
  (ceremony.first_inGroup.multiple factor).admissible_first

private theorem second_admissible (factor : Scalar) : (ceremony.second.multiple factor).Admissible :=
  (ceremony.second_inGroup.multiple factor).admissible_second

private theorem verifyingKey_admissible (counted : layout.publicWires.length < 2 ^ 64) :
    (ceremony.verifyingKey constraints layout).Admissible := by
  rw [verifyingKey]
  constructor <;> dsimp only
  case alpha => exact ceremony.first_admissible _
  case beta => exact ceremony.second_admissible _
  case gamma => exact ceremony.second_admissible _
  case delta => exact ceremony.second_admissible _
  case inputs => exact Point.listAdmissible_map counted fun _ => ceremony.first_admissible _

private theorem provingKey_admissible (counted : layout.wires.length < 2 ^ 64)
    (bounded : levels constraints layout ≤ 64) :
    (ceremony.provingKey constraints layout).Admissible := by
  have parts : layout.publicWires.length < 2 ^ 64 ∧ layout.witnessWires.length < 2 ^ 64 := by
    rw [Layout.wires, List.length_append] at counted
    omega
  have powers : (List.range (2 ^ levels constraints layout - 1)).length < 2 ^ 64 := by
    have size := Nat.pow_le_pow_right (by decide : 0 < 2) bounded
    have positive := Nat.two_pow_pos (levels constraints layout)
    rw [List.length_range]
    omega
  rw [provingKey]
  constructor <;> dsimp only
  case verifyingKey => exact ceremony.verifyingKey_admissible parts.1
  case beta => exact ceremony.first_admissible _
  case delta => exact ceremony.first_admissible _
  case left => exact Point.listAdmissible_map counted fun _ => ceremony.first_admissible _
  case right => exact Point.listAdmissible_map counted fun _ => ceremony.first_admissible _
  case rightTwist => exact Point.listAdmissible_map counted fun _ => ceremony.second_admissible _
  case quotient => exact Point.listAdmissible_map powers fun _ => ceremony.first_admissible _
  case witness => exact Point.listAdmissible_map parts.2 fun _ => ceremony.first_admissible _

end

/-- The keys for the verification circuit, under a number. -/
noncomputable def keys (id : KeyPairId) : CircuitKeys where
  keyPair := id
  provingKey := ceremony.provingKey verificationDraft.constraints verificationDraft.layout
  verifyingKey := ceremony.verifyingKey verificationDraft.constraints verificationDraft.layout
  shape := verificationShape

/-- The keys of a key generation, as they are stored, are accepted. -/
theorem ofKeyPair_material (id : KeyPairId) :
    CircuitKeys.ofKeyPair ⟨id, CircuitKeys.material verificationShape (ceremony.keys id).provingKey
      (ceremony.keys id).verifyingKey⟩ verificationShape = .ok (ceremony.keys id) := by
  have publicWires : verificationDraft.layout.publicWires.length = 45 := by
    rw [Layout.publicWires_length, verificationLayout_eq]
  have wires : verificationDraft.layout.wires.length = 45 + 61307 := by
    rw [Layout.wires, List.length_append, publicWires, Layout.witnessWires_length, verificationLayout_eq]
  have bounded : levels verificationDraft.constraints verificationDraft.layout ≤ 64 := by
    rw [levels, verificationConstraints_length, verificationLayout_eq]
    decide
  rw [keys]
  exact CircuitKeys.ofKeyPair_material id verificationShape
    (ceremony.provingKey_admissible (by omega) bounded)
    (ceremony.verifyingKey_admissible (by omega))

end Ceremony

/-- Both keys come of one key generation for the verification circuit. -/
structure CircuitKeys.Minted (keys : CircuitKeys) (ceremony : Ceremony) : Prop where
  provingKey : keys.provingKey =
    ceremony.provingKey verificationDraft.constraints verificationDraft.layout
  verifyingKey : keys.verifyingKey =
    ceremony.verifyingKey verificationDraft.constraints verificationDraft.layout

/-- Proofs under accepted keys. Every proof can be read, and it is verified exactly if the
verifying key has a point for each input of the circuit and the pairing equation holds. Under keys
of one key generation, every derived code has a proof, and the proof is accepted under every pairing
with the laws of pairings. The verifier's answers are those under the pairing of the program. -/
theorem accepted_keys_round_trip {keyPair : KeyPair} {keys : CircuitKeys}
    (accepted : CircuitKeys.ofKeyPair keyPair verificationShape = .ok keys)
    {email salt code : String} (derives : deriveCode email salt = .ok code) (blinding : Blinding) :
    (∀ bytes id, (keys.processor blinding).generate email salt code = .ok (bytes, id) →
      id = keyPair.id ∧
        ∃ proof claim inputs, Proof.ofBytes bytes = .ok proof ∧
          ofPublicText salt code = .ok claim ∧ claim.publicInputs? = some inputs ∧
          (keys.processor blinding).verify code salt bytes = keys.verifier.verdict inputs proof) ∧
      (∀ ceremony : Ceremony, keys.Minted ceremony →
        ∃ bytes, (keys.processor blinding).generate email salt code = .ok (bytes, keyPair.id) ∧
          ∀ {T : Type} [CommMonoid T] {pairing : G1 → G2 → T}, Pairing.Lawful pairing →
            keys.verifier.AcceptsUnder pairing code salt bytes) ∧
      ∀ bytes, (keys.processor blinding).verify code salt bytes = .ok () ↔
        keys.verifier.AcceptsUnder Pairing.pairing code salt bytes := by
  obtain ⟨claim, inputs, assignment, reads, known, proves, run⟩ := Prover.prove_derived derives
  obtain ⟨-, proving, -, numbered, -⟩ := (CircuitKeys.ofKeyPair_eq_ok_iff _ _ _).mp accepted
  have admissible := ProvingKey.proof_admissible (ProvingKey.admissible_of_ofBytes proving)
    verificationDraft.constraints assignment blinding
  have decoded := Proof.ofBytes_toBytes admissible
  have generated : (keys.processor blinding).generate email salt code =
      .ok ((keys.provingKey.proof verificationDraft.constraints assignment blinding).toBytes,
        keyPair.id) := by
    simp only [CircuitKeys.processor, run, CircuitKeys.prover, numbered]
    rfl
  refine ⟨fun bytes id given => ?_, fun ceremony minted => ⟨_, generated, fun lawful => ?_⟩,
    keys.verifier.verify_eq_ok_iff code salt⟩
  · rw [generated] at given
    cases given
    exact ⟨rfl, _, claim, inputs, decoded, reads, known,
      keys.verifier.verify_eq_verdict reads known decoded⟩
  · have satisfied :=
      ceremony.proof_satisfied proves.fits lawful verificationDomain proves.holds blinding
    rw [← minted.provingKey, ← minted.verifyingKey, proves.inputs_eq] at satisfied
    have sized : inputs.length + 1 = keys.verifier.key.inputs.length := by
      rw [publicInputs_length known, CircuitKeys.verifier, minted.verifyingKey, Ceremony.verifyingKey,
        List.length_map, Layout.publicWires_length, verificationLayout_eq]
      rfl
    exact ⟨claim, inputs, _, reads, known, decoded, sized, satisfied⟩

/-- Choices with the usual generators. -/
def Ceremony.sample : Ceremony where
  first := firstGenerator
  second := secondGenerator
  alpha := 2
  beta := 3
  gamma := 5
  delta := 7
  tau := 11
  first_inGroup := firstGenerator_inGroup
  second_inGroup := secondGenerator_inGroup
  gamma_ne_zero := by decide
  delta_ne_zero := by decide

/-- Stored keys of the choices above make a proof for an address, and they accept it under a pairing
with the laws of pairings. -/
theorem accepted_keys_round_trip_sample :
    ∃ keyPair keys code bytes, CircuitKeys.ofKeyPair keyPair verificationShape = .ok keys ∧
      keys.Minted .sample ∧
      deriveCode "myemail@gmail.com" "ajdjsjsaafktyowqqrtgpowrkdkdkfak" = .ok code ∧
      (keys.processor ⟨2, 3⟩).generate "myemail@gmail.com" "ajdjsjsaafktyowqqrtgpowrkdkdkfak"
        code = .ok (bytes, keyPair.id) ∧
      keys.verifier.AcceptsUnder Pairing.logarithmic code "ajdjsjsaafktyowqqrtgpowrkdkdkfak"
        bytes := by
  obtain ⟨email, packs⟩ : ∃ email, pack "myemail@gmail.com" = .ok email :=
    pack_of_fits (by decide)
  obtain ⟨salt, packs'⟩ : ∃ salt, pack "ajdjsjsaafktyowqqrtgpowrkdkdkfak" = .ok salt :=
    pack_of_fits (by decide)
  have derives := deriveCode_eq packs packs'
  have accepted := Ceremony.sample.ofKeyPair_material 1
  have minted : (Ceremony.sample.keys 1).Minted .sample := ⟨rfl, rfl⟩
  obtain ⟨bytes, generated, valid⟩ :=
    (accepted_keys_round_trip accepted derives ⟨2, 3⟩).2.1 .sample minted
  exact ⟨_, _, _, bytes, accepted, minted, derives, generated, valid Pairing.logarithmic_lawful⟩

/-- Points at infinity, and none for inputs. -/
def VerifyingKey.hollow : VerifyingKey :=
  ⟨.infinity, .infinity, .infinity, .infinity, []⟩

/-- Points at infinity, with only the constant wire in the queries that have it. -/
def ProvingKey.hollow : ProvingKey :=
  ⟨.hollow, .infinity, .infinity, [.infinity], [.infinity], [.infinity], [], []⟩

/-- Stored keys with the fingerprint of the verification circuit. -/
def hollowKeyPair : KeyPair := ⟨3, CircuitKeys.material verificationShape .hollow .hollow⟩

theorem VerifyingKey.hollow_admissible : VerifyingKey.hollow.Admissible where
  alpha := Point.infinity_inGroup.admissible_first
  beta := Point.infinity_inGroup.admissible_second
  gamma := Point.infinity_inGroup.admissible_second
  delta := Point.infinity_inGroup.admissible_second
  inputs := ⟨by decide, nofun⟩

theorem ProvingKey.hollow_admissible : ProvingKey.hollow.Admissible where
  verifyingKey := VerifyingKey.hollow_admissible
  beta := Point.infinity_inGroup.admissible_first
  delta := Point.infinity_inGroup.admissible_first
  left := ⟨by decide, List.forall_mem_singleton.mpr Point.infinity_inGroup.admissible_first⟩
  right := ⟨by decide, List.forall_mem_singleton.mpr Point.infinity_inGroup.admissible_first⟩
  rightTwist := ⟨by decide, List.forall_mem_singleton.mpr Point.infinity_inGroup.admissible_second⟩
  quotient := ⟨by decide, nofun⟩
  witness := ⟨by decide, nofun⟩

/-- Loading accepts keys that do not fit the circuit: their proofs are never verified. -/
theorem hollow_keys_accepted :
    ∃ keys code, CircuitKeys.ofKeyPair hollowKeyPair verificationShape = .ok keys ∧
      deriveCode "" "" = .ok code ∧
      ∀ blinding, ∃ bytes, (keys.processor blinding).generate "" "" code = .ok (bytes, 3) ∧
        (keys.processor blinding).verify code "" bytes =
          .error (.verification VerifierError.malformedKey.message) := by
  have packs : pack "" = .ok _ := rfl
  have derives := deriveCode_eq packs packs
  obtain ⟨claim, inputs, assignment, reads, known, -, run⟩ := Prover.prove_derived derives
  have accepted := CircuitKeys.ofKeyPair_material 3 verificationShape
    ProvingKey.hollow_admissible VerifyingKey.hollow_admissible
  refine ⟨_, _, accepted, derives, fun blinding =>
    ⟨(ProvingKey.hollow.proof verificationDraft.constraints assignment blinding).toBytes, ?_, ?_⟩⟩
  · simp only [CircuitKeys.processor, run, CircuitKeys.prover]
    rfl
  · have decoded := Proof.ofBytes_toBytes (ProvingKey.proof_admissible ProvingKey.hollow_admissible
      verificationDraft.constraints assignment blinding)
    refine (Verifier.verify_eq_verdict _ reads known decoded).trans (if_pos ?_)
    simp [CircuitKeys.verifier, VerifyingKey.hollow]

end MailProof
