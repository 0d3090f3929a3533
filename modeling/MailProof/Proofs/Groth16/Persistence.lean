import MailProof.Proofs.Code
import MailProof.Proofs.Curve.Order
import MailProof.Proofs.Groth16.Codec
import MailProof.Proofs.KeyPair.File

/-! Persisted keys. Keys with all points in the groups are loaded as they were, also from a file and
with bytes added to them, and under another circuit no keys are loaded at all. -/

namespace MailProof

theorem Hex.encode_length (bytes : Bytes) :
    (Utf8.encode (Hex.encode bytes)).length = 2 * bytes.length := by
  have ascii : ∀ char ∈ bytes.flatMap Hex.ofByte, char.val ≤ 127 := by
    intro char member
    obtain ⟨byte, _, digit⟩ := List.mem_flatMap.mp member
    rcases List.mem_pair.mp digit with rfl | rfl <;> exact Hex.digit_ascii _
  rw [Hex.encode, Utf8.encode_ascii ascii, List.length_map, List.length_flatMap]
  simp [Hex.ofByte, mul_comm]

theorem Sha256.digest_length (message : Bytes) : (Sha256.digest message).length = 32 := by
  simp [Sha256.digest]

theorem Shape.fingerprint_length (shape : Shape) : (Utf8.encode shape.fingerprint).length = 64 := by
  rw [fingerprint, Hex.encode_length, Sha256.digest_length]

namespace Point

variable {K : Type} [Compressible K]

private theorem toBytes_length_pos (p : Point K) : 0 < p.toBytes.length := by
  cases p <;> simp [toBytes, flagged]

/-- There are no more points in a list than bytes. -/
theorem length_le_listToBytes (points : List (Point K)) :
    points.length ≤ (listToBytes points).length := by
  have each : points.length ≤ (points.flatMap toBytes).length := by
    induction points with
    | nil => exact Nat.zero_le _
    | cons p points ih =>
      have positive := p.toBytes_length_pos
      rw [List.flatMap_cons, List.length_append, List.length_cons]
      omega
  rw [listToBytes, List.length_append]
  exact each.trans (Nat.le_add_left _ _)

theorem listAdmissible_of_length {points : List (Point K)} (all : ∀ p ∈ points, p.Admissible)
    (small : (listToBytes points).length < 2 ^ 64) : ListAdmissible points :=
  ⟨(length_le_listToBytes points).trans_lt small, all⟩

end Point

/-- All points of the key are in the groups. -/
structure VerifyingKey.InGroups (key : VerifyingKey) : Prop where
  alpha : key.alpha.InGroup
  beta : key.beta.InGroup
  gamma : key.gamma.InGroup
  delta : key.delta.InGroup
  inputs : ∀ p ∈ key.inputs, p.InGroup

/-- All points of the key and of the verifying key in it are in the groups. -/
structure ProvingKey.InGroups (key : ProvingKey) : Prop where
  verifyingKey : key.verifyingKey.InGroups
  beta : key.beta.InGroup
  delta : key.delta.InGroup
  left : ∀ p ∈ key.left, p.InGroup
  right : ∀ p ∈ key.right, p.InGroup
  rightTwist : ∀ p ∈ key.rightTwist, p.InGroup
  quotient : ∀ p ∈ key.quotient, p.InGroup
  witness : ∀ p ∈ key.witness, p.InGroup

/-- A key whose bytes can be counted can be read. -/
theorem VerifyingKey.InGroups.admissible {key : VerifyingKey} (members : key.InGroups)
    (small : key.toBytes.length < 2 ^ 64) : key.Admissible := by
  simp only [toBytes, List.length_append] at small
  refine ⟨members.alpha.admissible_first, members.beta.admissible_second,
    members.gamma.admissible_second, members.delta.admissible_second, ?_⟩
  exact Point.listAdmissible_of_length (fun p listed => (members.inputs p listed).admissible_first)
    (by omega)

theorem ProvingKey.InGroups.admissible {key : ProvingKey} (members : key.InGroups)
    (small : key.toBytes.length < 2 ^ 64) : key.Admissible := by
  simp only [toBytes, List.length_append] at small
  have first {points : List G1} (inGroup : ∀ p ∈ points, p.InGroup) :
      ∀ p ∈ points, p.Admissible := fun p listed => (inGroup p listed).admissible_first
  constructor
  case verifyingKey => exact members.verifyingKey.admissible (by omega)
  case beta => exact members.beta.admissible_first
  case delta => exact members.delta.admissible_first
  case left => exact Point.listAdmissible_of_length (first members.left) (by omega)
  case right => exact Point.listAdmissible_of_length (first members.right) (by omega)
  case rightTwist => exact Point.listAdmissible_of_length members.rightTwist (by omega)
  case quotient => exact Point.listAdmissible_of_length (first members.quotient) (by omega)
  case witness => exact Point.listAdmissible_of_length (first members.witness) (by omega)

/-- The material with bytes added to both keys. -/
def KeyMaterial.extended (material : KeyMaterial) (more more' : Bytes) : KeyMaterial :=
  { material with
    provingKey := material.provingKey ++ more
    verifyingKey := material.verifyingKey ++ more' }

namespace CircuitKeys

/-- Keys of another circuit are refused, whatever their bytes. -/
theorem ofKeyPair_of_mismatch {keyPair : KeyPair} {shape : Shape}
    (other : keyPair.material.circuitFingerprint ≠ shape.fingerprint) :
    ofKeyPair keyPair shape =
      .error (.circuitMismatch keyPair.id keyPair.material.circuitFingerprint shape.fingerprint) :=
  if_pos other

private theorem ofKeyPair_extended (id : KeyPairId) (shape : Shape) {provingKey : ProvingKey}
    {verifyingKey : VerifyingKey} (proving : provingKey.Admissible)
    (verifying : verifyingKey.Admissible) (more more' : Bytes) :
    ofKeyPair ⟨id, (material shape provingKey verifyingKey).extended more more'⟩ shape =
      .ok ⟨id, provingKey, verifyingKey, shape⟩ :=
  (ofKeyPair_eq_ok_iff _ _ _).mpr ⟨rfl, ProvingKey.ofBytes_toBytes proving more,
    VerifyingKey.ofBytes_toBytes verifying more', rfl, rfl⟩

end CircuitKeys

/-- Keys with points in the groups, stored for a circuit with any bytes added to them, are loaded for
that circuit as they were. The same holds after the pair was saved in place of nothing or of some
file, whatever is added to the file. For a circuit with another fingerprint the pair is refused, and
so is every pair with this fingerprint. Byte strings have lengths that eight bytes can hold. -/
theorem persisted_keys_come_back (shape : Shape) (id : KeyPairId) {provingKey : ProvingKey}
    {verifyingKey : VerifyingKey} (proving : provingKey.InGroups)
    (verifying : verifyingKey.InGroups) (more more' : Bytes)
    (small : (provingKey.toBytes ++ more).length < 2 ^ 64)
    (small' : (verifyingKey.toBytes ++ more').length < 2 ^ 64) :
    let stored : KeyPair :=
      ⟨id, (CircuitKeys.material shape provingKey verifyingKey).extended more more'⟩
    CircuitKeys.ofKeyPair stored shape = .ok ⟨id, provingKey, verifyingKey, shape⟩ ∧
      (∀ node : FileNode, node = .absent ∨ (∃ bytes, node = .file bytes) →
        ∃ bytes, node.saveKeyPair stored = .ok (.file bytes) ∧
          ∀ rest, (FileNode.file (bytes ++ rest)).loadKeyPair = .ok stored) ∧
      ∀ other : Shape, shape.fingerprint ≠ other.fingerprint → ∀ provingBytes verifyingBytes,
        CircuitKeys.ofKeyPair ⟨id, provingBytes, verifyingBytes, shape.fingerprint⟩ other =
          .error (.circuitMismatch id shape.fingerprint other.fingerprint) := by
  intro stored
  have countable : stored.Countable :=
    ⟨small, small', (Shape.fingerprint_length shape).trans_lt (by decide)⟩
  rw [List.length_append] at small small'
  refine ⟨?_, fun node free => ?_, fun other differs provingBytes verifyingBytes => ?_⟩
  · exact CircuitKeys.ofKeyPair_extended id shape (proving.admissible (by omega))
      (verifying.admissible (by omega)) more more'
  · exact ⟨_, FileNode.saveKeyPair_eq_ok_iff.mpr ⟨free, rfl⟩, FileNode.loadKeyPair_file countable⟩
  · exact CircuitKeys.ofKeyPair_of_mismatch differs

/-- A verifying key of generators. -/
def VerifyingKey.generators : VerifyingKey :=
  ⟨firstGenerator, secondGenerator, secondGenerator, secondGenerator,
    [firstGenerator, firstGenerator]⟩

/-- A proving key of generators. -/
def ProvingKey.generators : ProvingKey :=
  ⟨.generators, firstGenerator, firstGenerator, [firstGenerator], [firstGenerator],
    [secondGenerator], [], [firstGenerator, firstGenerator]⟩

theorem VerifyingKey.generators_inGroups : VerifyingKey.generators.InGroups where
  alpha := firstGenerator_inGroup
  beta := secondGenerator_inGroup
  gamma := secondGenerator_inGroup
  delta := secondGenerator_inGroup
  inputs := by simp [generators, firstGenerator_inGroup]

theorem ProvingKey.generators_inGroups : ProvingKey.generators.InGroups where
  verifyingKey := VerifyingKey.generators_inGroups
  beta := firstGenerator_inGroup
  delta := firstGenerator_inGroup
  left := by simp [generators, firstGenerator_inGroup]
  right := by simp [generators, firstGenerator_inGroup]
  rightTwist := by simp [generators, secondGenerator_inGroup]
  quotient := nofun
  witness := by simp [generators, firstGenerator_inGroup]

theorem persisted_keys_come_back_generators :
    CircuitKeys.ofKeyPair ⟨7, (CircuitKeys.material verificationShape .generators
        .generators).extended [1, 2] [3]⟩ verificationShape =
      .ok ⟨7, .generators, .generators, verificationShape⟩ :=
  (persisted_keys_come_back verificationShape 7 ProvingKey.generators_inGroups
    VerifyingKey.generators_inGroups [1, 2] [3] (by decide +kernel) (by decide +kernel)).1

end MailProof
