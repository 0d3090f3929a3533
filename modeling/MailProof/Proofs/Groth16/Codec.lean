import MailProof.Proofs.Curve.Compressed
import MailProof.Proofs.Curve.Group
import MailProof.Setup

/-! Keys and proofs are read back from their bytes, so stored keys are loaded as they were. Keys
that are read have all of their points in the groups. -/

namespace MailProof

namespace Point

theorem InGroup.admissible_first {p : G1} (member : p.InGroup) : p.Admissible := ⟨member.1, rfl⟩

theorem InGroup.admissible_second {p : G2} (member : p.InGroup) : p.Admissible := member

private theorem combine_admissible_first {terms : List (Scalar × G1)}
    (all : ∀ term ∈ terms, term.2.Admissible) : (combine terms).Admissible :=
  ⟨combine_onCurve fun term member => (all term member).1, rfl⟩

private theorem combine_admissible_second {terms : List (Scalar × G2)}
    (all : ∀ term ∈ terms, term.2.Admissible) : (combine terms).Admissible :=
  combine_inGroup all

theorem ListAdmissible.zip {K : Type} [Compressible K] {points : List (Point K)}
    (all : ListAdmissible points) (values : List Scalar) :
    ∀ term ∈ values.zip points, term.2.Admissible :=
  fun _ member => all.2 _ (List.of_mem_zip member).2

end Point

namespace VerifyingKey

/-- All points can be read. -/
structure Admissible (key : VerifyingKey) : Prop where
  alpha : key.alpha.Admissible
  beta : key.beta.Admissible
  gamma : key.gamma.Admissible
  delta : key.delta.Admissible
  inputs : Point.ListAdmissible key.inputs

variable {key : VerifyingKey} (admissible : key.Admissible)

include admissible

private theorem read_toBytes : read.Reads key.toBytes key := by
  rw [toBytes, List.append_assoc, List.append_assoc, List.append_assoc]
  exact .bind (Point.read_toBytes admissible.alpha) (.bind (Point.read_toBytes admissible.beta)
    (.bind (Point.read_toBytes admissible.gamma) (.bind (Point.read_toBytes admissible.delta)
      (.map (Point.readList_toBytes admissible.inputs) (.pure key)))))

/-- Whatever follows a key is left out. -/
theorem ofBytes_toBytes (rest : Bytes) : ofBytes (key.toBytes ++ rest) = .ok key := by
  rw [ofBytes, read_toBytes admissible]
  rfl

omit admissible in
private theorem yields_read : read.Yields Admissible :=
  .bind Point.yields_read fun _ alpha => .bind Point.yields_read fun _ beta =>
    .bind Point.yields_read fun _ gamma => .bind Point.yields_read fun _ delta =>
      .bind Point.yields_readList fun _ inputs => .pure ⟨alpha, beta, gamma, delta, inputs⟩

end VerifyingKey

namespace ProvingKey

/-- All points can be read. -/
structure Admissible (key : ProvingKey) : Prop where
  verifyingKey : key.verifyingKey.Admissible
  beta : key.beta.Admissible
  delta : key.delta.Admissible
  left : Point.ListAdmissible key.left
  right : Point.ListAdmissible key.right
  rightTwist : Point.ListAdmissible key.rightTwist
  quotient : Point.ListAdmissible key.quotient
  witness : Point.ListAdmissible key.witness

variable {key : ProvingKey} (admissible : key.Admissible)

include admissible

private theorem read_toBytes : read.Reads key.toBytes key := by
  simp only [toBytes, List.append_assoc]
  exact .bind (VerifyingKey.read_toBytes admissible.verifyingKey)
    (.bind (Point.read_toBytes admissible.beta) (.bind (Point.read_toBytes admissible.delta)
      (.bind (Point.readList_toBytes admissible.left) (.bind (Point.readList_toBytes admissible.right)
        (.bind (Point.readList_toBytes admissible.rightTwist)
          (.bind (Point.readList_toBytes admissible.quotient)
            (.map (Point.readList_toBytes admissible.witness) (.pure key))))))))

/-- Whatever follows a key is left out. -/
theorem ofBytes_toBytes (rest : Bytes) : ofBytes (key.toBytes ++ rest) = .ok key := by
  rw [ofBytes, read_toBytes admissible]
  rfl

omit admissible in
private theorem yields_read : read.Yields Admissible :=
  .bind VerifyingKey.yields_read fun _ verifyingKey => .bind Point.yields_read fun _ beta =>
    .bind Point.yields_read fun _ delta => .bind Point.yields_readList fun _ left =>
      .bind Point.yields_readList fun _ right => .bind Point.yields_readList fun _ rightTwist =>
        .bind Point.yields_readList fun _ quotient => .bind Point.yields_readList fun _ witness =>
          .pure ⟨verifyingKey, beta, delta, left, right, rightTwist, quotient, witness⟩

omit admissible in
theorem admissible_of_ofBytes {bytes : Bytes} (reads : ofBytes bytes = .ok key) :
    key.Admissible := by
  cases taken : read bytes with
  | error cause =>
    rw [ofBytes, taken] at reads
    cases reads
  | ok pair =>
    rw [ofBytes, taken] at reads
    cases reads
    exact yields_read bytes pair.1 pair.2 taken

end ProvingKey

namespace Proof

/-- All points can be read. -/
structure Admissible (proof : Proof) : Prop where
  a : proof.a.Admissible
  b : proof.b.Admissible
  c : proof.c.Admissible

variable {proof : Proof} (admissible : proof.Admissible)

include admissible

theorem read_toBytes : read.Reads proof.toBytes proof := by
  rw [toBytes, List.append_assoc]
  exact .bind (Point.read_toBytes admissible.a) (.bind (Point.read_toBytes admissible.b)
    (.map (Point.read_toBytes admissible.c) (.pure proof)))

theorem ofBytes_toBytes : ofBytes proof.toBytes = .ok proof := by
  have whole := read_toBytes admissible []
  rw [List.append_nil] at whole
  rw [ofBytes, whole]

end Proof

/-- Proofs under a key that can be read can be read. -/
theorem ProvingKey.proof_admissible {key : ProvingKey} (admissible : key.Admissible)
    (constraints : List Constraint) (assignment : Assignment) (blinding : Blinding) :
    (key.proof constraints assignment blinding).Admissible := by
  have quotient : ∀ term ∈ key.quotientTerms constraints assignment, term.2.Admissible := by
    rw [quotientTerms]
    split
    · nofun
    · exact admissible.quotient.zip _
  have a : (key.proof constraints assignment blinding).a.Admissible :=
    Point.combine_admissible_first <| List.forall_mem_cons.mpr ⟨admissible.verifyingKey.alpha,
      List.forall_mem_cons.mpr ⟨admissible.delta, admissible.left.zip _⟩⟩
  have b : (key.proof constraints assignment blinding).b.Admissible :=
    Point.combine_admissible_second <| List.forall_mem_cons.mpr ⟨admissible.verifyingKey.beta,
      List.forall_mem_cons.mpr ⟨admissible.verifyingKey.delta, admissible.rightTwist.zip _⟩⟩
  have b1 (values : List Scalar) : (Point.combine
      ((1, key.beta) :: (blinding.s, key.delta) :: values.zip key.right)).Admissible :=
    Point.combine_admissible_first <| List.forall_mem_cons.mpr ⟨admissible.beta,
      List.forall_mem_cons.mpr ⟨admissible.delta, admissible.right.zip values⟩⟩
  have c : (key.proof constraints assignment blinding).c.Admissible :=
    Point.combine_admissible_first <| List.forall_mem_cons.mpr ⟨a, List.forall_mem_cons.mpr ⟨b1 _,
      List.forall_mem_cons.mpr ⟨admissible.delta,
        List.forall_mem_append.mpr ⟨admissible.witness.zip _, quotient⟩⟩⟩⟩
  exact ⟨a, b, c⟩

namespace CircuitKeys

/-- Loaded keys are those of the bytes, and nothing else is looked at but the fingerprint. -/
theorem ofKeyPair_eq_ok_iff (keyPair : KeyPair) (shape : Shape) (keys : CircuitKeys) :
    ofKeyPair keyPair shape = .ok keys ↔
      keyPair.material.circuitFingerprint = shape.fingerprint ∧
        ProvingKey.ofBytes keyPair.material.provingKey = .ok keys.provingKey ∧
        VerifyingKey.ofBytes keyPair.material.verifyingKey = .ok keys.verifyingKey ∧
        keys.keyPair = keyPair.id ∧ keys.shape = shape := by
  rw [ofKeyPair]
  by_cases current : keyPair.material.circuitFingerprint = shape.fingerprint
  · simp only [current, ne_eq, not_true_eq_false, if_false, true_and]
    cases ProvingKey.ofBytes keyPair.material.provingKey with
    | error cause => exact ⟨nofun, nofun⟩
    | ok provingKey =>
      cases VerifyingKey.ofBytes keyPair.material.verifyingKey with
      | error cause => exact ⟨nofun, nofun⟩
      | ok verifyingKey =>
        constructor
        · rintro ⟨⟩
          exact ⟨rfl, rfl, rfl, rfl⟩
        · obtain ⟨id, _, _, shape'⟩ := keys
          rintro ⟨⟨⟩, ⟨⟩, numbered, sized⟩
          subst numbered sized
          rfl
  · simp only [ne_eq, current, not_false_eq_true, if_true, false_and, iff_false]
    nofun

/-- Stored keys are loaded as they were, under the number of their key pair. -/
theorem ofKeyPair_material (id : KeyPairId) (shape : Shape) {provingKey : ProvingKey}
    {verifyingKey : VerifyingKey} (proving : provingKey.Admissible)
    (verifying : verifyingKey.Admissible) :
    ofKeyPair ⟨id, material shape provingKey verifyingKey⟩ shape =
      .ok ⟨id, provingKey, verifyingKey, shape⟩ := by
  have first := ProvingKey.ofBytes_toBytes proving []
  have second := VerifyingKey.ofBytes_toBytes verifying []
  rw [List.append_nil] at first second
  exact (ofKeyPair_eq_ok_iff _ _ _).mpr ⟨rfl, first, second, rfl, rfl⟩

end CircuitKeys

end MailProof
