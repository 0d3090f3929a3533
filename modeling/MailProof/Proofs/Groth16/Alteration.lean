import MailProof.Proofs.Circuit.PublicInputs
import MailProof.Proofs.Curve.Lawful
import MailProof.Proofs.Curve.Pairing
import MailProof.Proofs.Groth16.Framing
import MailProof.Proofs.Groth16.RoundTrip

/-! Altered proofs. Bytes of another length than those of an accepted proof are rejected, and so are
bytes that differ in one of the three points only. Where several points are altered, the bytes are
accepted exactly if the new points meet the equation that the old ones do; the opposites of the
first two points always do. -/

namespace MailProof

/-- The proofs can stand for each other under the key: either meets its equation if the other does. -/
def VerifyingKey.Exchanges {T : Type} [CommMonoid T] (pairing : G1 → G2 → T) (key : VerifyingKey)
    (proof proof' : Proof) : Prop :=
  pairing proof'.a proof'.b * pairing proof.c key.delta =
    pairing proof.a proof.b * pairing proof'.c key.delta

/-- Two equations with a factor in common, whose last factors have inverses. -/
theorem exchange_iff {T : Type} [CommMonoid T] {x x' shared c c' d d' : T}
    (holds : x * shared * d = 1) (unit : c * d = 1) (unit' : c' * d' = 1) :
    x' * shared * d' = 1 ↔ x' * c = x * c' := by
  constructor
  · intro holds'
    calc x' * c = x' * c * (x * shared * d) := by rw [holds, mul_one]
      _ = x' * shared * x * (c * d) := by ac_rfl
      _ = x' * shared * x * (c' * d') := by rw [unit, unit']
      _ = x' * shared * d' * (x * c') := by ac_rfl
      _ = x * c' := by rw [holds', one_mul]
  · intro same
    calc x' * shared * d' = x' * shared * d' * (c * d) := by rw [unit, mul_one]
      _ = x' * c * (shared * d' * d) := by ac_rfl
      _ = x * c' * (shared * d' * d) := by rw [same]
      _ = x * shared * d * (c' * d') := by ac_rfl
      _ = 1 := by rw [holds, unit', one_mul]

namespace Proof

variable {bytes altered : Bytes} {proof proof' : Proof} (reads : ofBytes bytes = .ok proof)
  (reads' : ofBytes altered = .ok proof')

include reads reads'

private theorem first_eq (same : altered.take 32 = bytes.take 32) : proof'.a = proof.a := by
  have written := (writtenAs_of_ofBytes reads').first
  rw [same] at written
  exact written.unique (writtenAs_of_ofBytes reads).first (admissible_of_ofBytes reads').a
    (admissible_of_ofBytes reads).a

private theorem second_eq (same : (altered.drop 32).take 64 = (bytes.drop 32).take 64) :
    proof'.b = proof.b := by
  have written := (writtenAs_of_ofBytes reads').second
  rw [same] at written
  exact written.unique (writtenAs_of_ofBytes reads).second (admissible_of_ofBytes reads').b
    (admissible_of_ofBytes reads).b

private theorem third_eq (same : altered.drop 96 = bytes.drop 96) : proof'.c = proof.c := by
  have written := (writtenAs_of_ofBytes reads').third
  rw [same] at written
  exact written.unique (writtenAs_of_ofBytes reads).third (admissible_of_ofBytes reads').c
    (admissible_of_ofBytes reads).c

end Proof

namespace VerifyingKey.Exchanges

variable {T : Type} [CommMonoid T] {pairing : G1 → G2 → T} (lawful : Pairing.Lawful pairing)
  {key : VerifyingKey} {proof proof' : Proof} (exchanges : key.Exchanges pairing proof proof')
  (delta : key.delta.InGroup) (admissible : proof.Admissible) (admissible' : proof'.Admissible)

include lawful exchanges delta admissible admissible'

private theorem first_eq (finite : proof.b ≠ .infinity) (second : proof'.b = proof.b)
    (third : proof'.c = proof.c) : proof'.a = proof.a := by
  have same : pairing proof'.a proof.b = pairing proof.a proof.b := by
    refine lawful.mul_left_cancel admissible.c.1 delta ?_
    rw [Exchanges, second, third] at exchanges
    rw [mul_comm, exchanges, mul_comm]
  exact lawful.first_injective admissible'.a.1 admissible.a.1 admissible.b finite same

private theorem second_eq (finite : proof.a ≠ .infinity) (first : proof'.a = proof.a)
    (third : proof'.c = proof.c) : proof'.b = proof.b := by
  have same : pairing proof.a proof'.b = pairing proof.a proof.b := by
    refine lawful.mul_left_cancel admissible.c.1 delta ?_
    rw [Exchanges, first, third] at exchanges
    rw [mul_comm, exchanges, mul_comm]
  exact lawful.second_injective admissible.a.1 admissible'.b admissible.b finite same

private theorem third_eq (finite : key.delta ≠ .infinity) (first : proof'.a = proof.a)
    (second : proof'.b = proof.b) : proof'.c = proof.c := by
  rw [Exchanges, first, second] at exchanges
  have same := lawful.mul_left_cancel admissible.a.1 admissible.b exchanges
  exact (lawful.first_injective admissible.c.1 admissible'.c.1 delta finite same).symm

end VerifyingKey.Exchanges

namespace Verifier.AcceptsUnder

variable {T : Type} [CommMonoid T] {pairing : G1 → G2 → T} {verifier : Verifier}
  {code salt : String} {bytes altered : Bytes} {proof proof' : Proof}

/-- What else is accepted for the same code and salt, if the last factor of the equation has an
inverse. -/
theorem accepts_iff (unit : ∀ p : G1, p.OnCurve →
      pairing p verifier.key.delta * pairing p.neg verifier.key.delta = 1)
    (accepted : verifier.AcceptsUnder pairing code salt bytes)
    (decoded : Proof.ofBytes bytes = .ok proof) (altered : Bytes) :
    verifier.AcceptsUnder pairing code salt altered ↔
      ∃ proof', Proof.ofBytes altered = .ok proof' ∧
        verifier.key.Exchanges pairing proof proof' := by
  obtain ⟨claim, inputs, proof, made, known, decoded', sized, satisfied⟩ := accepted
  cases decoded.symm.trans decoded'
  have cancel := unit proof.c (Proof.admissible_of_ofBytes decoded).c.1
  constructor
  · rintro ⟨claim', inputs', proof', made', known', reads, _, satisfied'⟩
    cases made.symm.trans made'
    cases known.symm.trans known'
    have cancel' := unit proof'.c (Proof.admissible_of_ofBytes reads).c.1
    exact ⟨proof', reads, (exchange_iff satisfied cancel cancel').mp satisfied'⟩
  · rintro ⟨proof', reads, exchanges⟩
    have cancel' := unit proof'.c (Proof.admissible_of_ofBytes reads).c.1
    exact ⟨claim, inputs, proof', made, known, reads, sized,
      (exchange_iff satisfied cancel cancel').mpr exchanges⟩

section Parts

variable (lawful : Pairing.Lawful pairing) (delta : verifier.key.delta.InGroup)
  (accepted : verifier.AcceptsUnder pairing code salt bytes)
  (decoded : Proof.ofBytes bytes = .ok proof)

include lawful delta accepted decoded

private theorem exchanges (accepted' : verifier.AcceptsUnder pairing code salt altered) :
    ∃ proof', Proof.ofBytes altered = .ok proof' ∧
      verifier.key.Exchanges pairing proof proof' := by
  refine (accepts_iff ?_ accepted decoded altered).mp accepted'
  intro p on
  exact lawful.mul_neg_first on delta

/-- Other bytes of the first point. -/
theorem rejects_first (finite : proof.a ≠ .infinity) (finite' : proof.b ≠ .infinity)
    (other : altered ≠ bytes) (rest : altered.drop 32 = bytes.drop 32) :
    ¬verifier.AcceptsUnder pairing code salt altered := by
  intro accepted'
  obtain ⟨proof', reads, exchanges⟩ := exchanges lawful delta accepted decoded accepted'
  have second := Proof.second_eq decoded reads (by rw [rest])
  have tail : altered.drop 96 = bytes.drop 96 := by
    rw [← List.drop_drop (i := 64) (j := 32), rest, List.drop_drop]
  have third := Proof.third_eq decoded reads tail
  have first := exchanges.first_eq lawful delta (Proof.admissible_of_ofBytes decoded)
    (Proof.admissible_of_ofBytes reads) finite' second third
  have front := (Proof.writtenAs_of_ofBytes reads).first
  rw [first] at front
  refine other ?_
  rw [← List.take_append_drop 32 altered, ← List.take_append_drop 32 bytes, rest,
    front.eq_toBytes finite, (Proof.writtenAs_of_ofBytes decoded).first.eq_toBytes finite]

/-- Other bytes of the second point. -/
theorem rejects_second (finite : proof.a ≠ .infinity) (finite' : proof.b ≠ .infinity)
    (other : altered ≠ bytes) (front : altered.take 32 = bytes.take 32)
    (back : altered.drop 96 = bytes.drop 96) :
    ¬verifier.AcceptsUnder pairing code salt altered := by
  intro accepted'
  obtain ⟨proof', reads, exchanges⟩ := exchanges lawful delta accepted decoded accepted'
  have first := Proof.first_eq decoded reads front
  have third := Proof.third_eq decoded reads back
  have second := exchanges.second_eq lawful delta (Proof.admissible_of_ofBytes decoded)
    (Proof.admissible_of_ofBytes reads) finite first third
  have middle := (Proof.writtenAs_of_ofBytes reads).second
  rw [second] at middle
  have split (whole : Bytes) :
      whole.take 32 ++ ((whole.drop 32).take 64 ++ whole.drop 96) = whole := by
    rw [← List.drop_drop (i := 64) (j := 32), List.take_append_drop, List.take_append_drop]
  refine other ?_
  rw [← split altered, ← split bytes, front, back, middle.eq_toBytes finite',
    (Proof.writtenAs_of_ofBytes decoded).second.eq_toBytes finite']

/-- Other bytes of the third point. -/
theorem rejects_third (finite : proof.c ≠ .infinity) (finite' : verifier.key.delta ≠ .infinity)
    (other : altered ≠ bytes) (front : altered.take 96 = bytes.take 96) :
    ¬verifier.AcceptsUnder pairing code salt altered := by
  intro accepted'
  obtain ⟨proof', reads, exchanges⟩ := exchanges lawful delta accepted decoded accepted'
  have head : altered.take 32 = bytes.take 32 := by
    have shorter := congrArg (List.take 32) front
    rwa [List.take_take, List.take_take] at shorter
  have middle : (altered.drop 32).take 64 = (bytes.drop 32).take 64 := by
    have shorter := congrArg (List.drop 32) front
    rwa [List.drop_take, List.drop_take] at shorter
  have first := Proof.first_eq decoded reads head
  have second := Proof.second_eq decoded reads middle
  have third := exchanges.third_eq lawful delta (Proof.admissible_of_ofBytes decoded)
    (Proof.admissible_of_ofBytes reads) finite' first second
  have back := (Proof.writtenAs_of_ofBytes reads).third
  rw [third] at back
  refine other ?_
  rw [← List.take_append_drop 96 altered, ← List.take_append_drop 96 bytes, front,
    back.eq_toBytes finite, (Proof.writtenAs_of_ofBytes decoded).third.eq_toBytes finite]

end Parts

end Verifier.AcceptsUnder

/-- The proof with the opposites of its first two points. -/
def Proof.opposite (proof : Proof) : Proof :=
  { proof with
    a := proof.a.neg
    b := proof.b.neg }

theorem Proof.opposite_admissible {proof : Proof} (admissible : proof.Admissible) :
    proof.opposite.Admissible :=
  ⟨⟨admissible.a.1.neg, rfl⟩, Point.InGroup.neg admissible.b, admissible.c⟩

/-- What else the verifier accepts, if it accepts a proof. -/
theorem Verifier.verify_iff_exchanges {verifier : Verifier} {code salt : String} {bytes : Bytes}
    {proof : Proof} (decoded : Proof.ofBytes bytes = .ok proof)
    (accepted : verifier.verify code salt bytes = .ok ()) (altered : Bytes) :
    verifier.verify code salt altered = .ok () ↔
      ∃ proof', Proof.ofBytes altered = .ok proof' ∧
        verifier.key.Exchanges Pairing.pairing proof proof' := by
  rw [verify_eq_ok_iff] at accepted ⊢
  exact accepted.accepts_iff (fun p on => Pairing.pairing_mul_neg on verifier.key.delta) decoded
    altered

/-- The verifier accepts the opposite of every proof that it accepts. -/
theorem Verifier.verify_opposite {verifier : Verifier} {code salt : String} {bytes : Bytes}
    {proof : Proof} (decoded : Proof.ofBytes bytes = .ok proof)
    (accepted : verifier.verify code salt bytes = .ok ()) :
    verifier.verify code salt proof.opposite.toBytes = .ok () := by
  have admissible := Proof.opposite_admissible (Proof.admissible_of_ofBytes decoded)
  refine (verify_iff_exchanges decoded accepted _).mpr
    ⟨proof.opposite, Proof.ofBytes_toBytes admissible, ?_⟩
  rw [VerifyingKey.Exchanges, Proof.opposite, Pairing.pairing_neg_neg]

/-- Take the bytes of a proof. Bytes of another length are no proof. If the verifier accepts the
proof, then it accepts other bytes exactly if the points in them can stand for those of the proof in
the pairing equation, as the opposites of the first two points always can. Bytes that differ in the
part of one point only are rejected under every pairing with the laws of pairings, if this point and
the one that it is paired with are finite, and so is every change of a single byte if all of these
points are. The verifier's answers are those under the pairing of the program. -/
theorem altered_proofs_rejected (verifier : Verifier) (code salt : String) {bytes : Bytes}
    {proof : Proof} (decoded : Proof.ofBytes bytes = .ok proof) :
    (∀ altered, altered.length ≠ bytes.length → ∃ cause, Proof.ofBytes altered = .error cause ∧
        verifier.verify code salt altered = .error (.serialization cause.message)) ∧
      (verifier.verify code salt bytes = .ok () →
        (∀ altered, verifier.verify code salt altered = .ok () ↔
          ∃ proof', Proof.ofBytes altered = .ok proof' ∧
            verifier.key.Exchanges Pairing.pairing proof proof') ∧
        verifier.verify code salt proof.opposite.toBytes = .ok ()) ∧
      ∀ {T : Type} [CommMonoid T] {pairing : G1 → G2 → T}, Pairing.Lawful pairing →
        verifier.key.delta.InGroup → verifier.AcceptsUnder pairing code salt bytes →
        (proof.a ≠ .infinity → proof.b ≠ .infinity → ∀ altered, altered ≠ bytes →
          (altered.drop 32 = bytes.drop 32 ∨
            altered.take 32 = bytes.take 32 ∧ altered.drop 96 = bytes.drop 96) →
          ¬verifier.AcceptsUnder pairing code salt altered) ∧
        (proof.c ≠ .infinity → verifier.key.delta ≠ .infinity → ∀ altered, altered ≠ bytes →
          altered.take 96 = bytes.take 96 → ¬verifier.AcceptsUnder pairing code salt altered) ∧
        (proof.a ≠ .infinity → proof.b ≠ .infinity → proof.c ≠ .infinity →
          verifier.key.delta ≠ .infinity → ∀ index byte, bytes.set index byte ≠ bytes →
          ¬verifier.AcceptsUnder pairing code salt (bytes.set index byte)) := by
  refine ⟨fun altered other => ?_, fun accepted => ⟨Verifier.verify_iff_exchanges decoded accepted,
    Verifier.verify_opposite decoded accepted⟩, fun lawful delta accepted => ?_⟩
  · rw [Proof.length_of_ofBytes decoded] at other
    obtain ⟨cause, fails⟩ := Proof.ofBytes_of_length_ne other
    exact ⟨cause, fails, verifier.verify_of_error code salt fails⟩
  · refine ⟨?_, ?_, ?_⟩
    · rintro finite finite' altered other (rest | ⟨front, back⟩)
      · exact accepted.rejects_first lawful delta decoded finite finite' other rest
      · exact accepted.rejects_second lawful delta decoded finite finite' other front back
    · intro finite finite' altered other front
      exact accepted.rejects_third lawful delta decoded finite finite' other front
    · intro first second third fourth index byte other
      by_cases early : index < 32
      · exact accepted.rejects_first lawful delta decoded first second other
          (List.drop_set_of_lt early)
      have front := List.take_set_of_le (a := byte) (l := bytes) (Nat.le_of_not_lt early)
      by_cases middle : index < 96
      · exact accepted.rejects_second lawful delta decoded first second other front
          (List.drop_set_of_lt middle)
      · exact accepted.rejects_third lawful delta decoded third fourth other
          (List.take_set_of_le (Nat.le_of_not_lt middle))

/-- A key whose points for the public inputs are at infinity. -/
def VerifyingKey.indifferent : VerifyingKey :=
  ⟨firstGenerator, secondGenerator, secondGenerator, secondGenerator,
    firstGenerator.neg :: List.replicate 44 .infinity⟩

/-- Under the key above this is a proof of everything. -/
def Proof.generators : Proof := ⟨firstGenerator, secondGenerator, firstGenerator⟩

theorem Proof.generators_admissible : Proof.generators.Admissible :=
  ⟨firstGenerator_inGroup.admissible_first, secondGenerator_inGroup.admissible_second,
    firstGenerator_inGroup.admissible_first⟩

theorem VerifyingKey.indifferent_prepared (inputs : List Scalar) :
    Point.combine ((1 :: inputs).zip indifferent.inputs) = firstGenerator.neg := by
  have single : firstGenerator.neg.multiple 1 = firstGenerator.neg := by
    obtain ⟨g, same⟩ := Point.onCurve_iff.mp firstGenerator_inGroup.1.neg
    have one : (1 : Scalar).val = 1 := by decide
    rw [same, Point.multiple_ofElement, one, one_nsmul]
  have infinite : ∀ term ∈ inputs.zip (List.replicate 44 (Point.infinity : G1)),
      term.2 = .infinity := fun term member => List.eq_of_mem_replicate (List.of_mem_zip member).2
  rw [← single]
  exact Point.combine_append_infinity [(1, firstGenerator.neg)] infinite

/-- The proof is accepted under every pairing in which opposite generators cancel. -/
theorem Verifier.generators_accepted {T : Type} [CommMonoid T] {pairing : G1 → G2 → T}
    (cancel : pairing firstGenerator secondGenerator * pairing firstGenerator.neg secondGenerator = 1)
    (keyPair : KeyPairId) : (Verifier.mk keyPair .indifferent).AcceptsUnder pairing "000000" ""
      Proof.generators.toBytes := by
  have packs : pack "" = .ok _ := rfl
  have reads : CodeDigits.ofText "000000" = .ok _ := rfl
  have twice : firstGenerator.neg.neg = firstGenerator := by decide
  refine ⟨_, _, _, CodeClaim.ofPublicText_eq packs reads, rfl,
    Proof.ofBytes_toBytes Proof.generators_admissible, ?_, ?_⟩
  · rfl
  · rw [VerifyingKey.SatisfiedUnder, VerifyingKey.indifferent_prepared]
    change pairing firstGenerator secondGenerator * (pairing firstGenerator.neg secondGenerator *
      pairing firstGenerator.neg.neg secondGenerator) *
        pairing firstGenerator.neg secondGenerator = 1
    rw [twice, ← mul_assoc, cancel, one_mul, cancel]

theorem altered_proofs_rejected_generators :
    let verifier : Verifier := ⟨1, .indifferent⟩
    let bytes := Proof.generators.toBytes
    verifier.AcceptsUnder Pairing.logarithmic "000000" "" bytes ∧
      (∀ byte ≠ 1, ¬verifier.AcceptsUnder Pairing.logarithmic "000000" "" (bytes.set 0 byte)) ∧
      verifier.verify "000000" "" bytes = .ok () ∧
      ∃ cause, verifier.verify "000000" "" (bytes ++ [0]) = .error (.serialization cause) := by
  intro verifier bytes
  have accepted := Verifier.generators_accepted (Pairing.logarithmic_lawful.mul_neg_first
    firstGenerator_inGroup.1 secondGenerator_inGroup) 1
  have verified := (verifier.verify_eq_ok_iff "000000" "" bytes).mpr (Verifier.generators_accepted
    (Pairing.pairing_mul_neg firstGenerator_inGroup.1 secondGenerator) 1)
  obtain ⟨lengths, _, parts⟩ := altered_proofs_rejected verifier "000000" ""
    (Proof.ofBytes_toBytes Proof.generators_admissible)
  have rejected := (parts Pairing.logarithmic_lawful secondGenerator_inGroup accepted).2.2
    nofun nofun nofun nofun
  have first : bytes[0]? = some 1 := by decide +kernel
  refine ⟨accepted, fun byte other => rejected 0 byte fun same => other ?_, verified, ?_⟩
  · have head := congrArg (fun whole : Bytes => whole[0]?) same
    rw [List.getElem?_set_self (by decide +kernel), first] at head
    exact Option.some.inj head
  · obtain ⟨cause, _, refused⟩ := lengths (bytes ++ [0]) (by simp [bytes])
    exact ⟨cause.message, refused⟩

/-- Both signs can be flipped in the bytes of a proof. -/
theorem flipped_signs_accepted :
    let verifier : Verifier := ⟨1, .indifferent⟩
    let bytes := Proof.generators.toBytes
    let altered := (bytes.modify 31 (· ^^^ 0x80)).modify 95 (· ^^^ 0x80)
    altered ≠ bytes ∧ altered.length = bytes.length ∧
      verifier.verify "000000" "" bytes = .ok () ∧
      verifier.verify "000000" "" altered = .ok () := by
  intro verifier bytes altered
  have cancel := Pairing.pairing_mul_neg firstGenerator_inGroup.1 secondGenerator
  have accepted : verifier.verify "000000" "" bytes = .ok () :=
    (verifier.verify_eq_ok_iff "000000" "" bytes).mpr (Verifier.generators_accepted cancel 1)
  have opposite : altered = Proof.generators.opposite.toBytes := by decide +kernel
  refine ⟨by decide +kernel, by decide +kernel, accepted, ?_⟩
  rw [opposite]
  exact Verifier.verify_opposite (Proof.ofBytes_toBytes Proof.generators_admissible) accepted

end MailProof
