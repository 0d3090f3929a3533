import MailProof.Proofs.Curve.Lawful
import MailProof.Proofs.Groth16.Acceptance
import MailProof.Proofs.Groth16.Ceremony

/-! Completeness of proofs. Under the keys of one key generation, the proof for a satisfied system
meets the equation of every pairing with the laws of pairings, whatever the random elements are. -/

namespace MailProof

open MailProof.Quotient

namespace Point

variable {K : Type} [CoordinateField K] [DecidableEq K]

/-- Multiples of the point at infinity change no sum. -/
theorem combine_append_infinity (terms : List (Scalar × Point K)) {more : List (Scalar × Point K)}
    (infinite : ∀ term ∈ more, term.2 = .infinity) : combine (terms ++ more) = combine terms := by
  have unchanged (digit : Nat) (sum : Jacobian K) :
      (more.map fun term => (term.1.val, term.2)).foldl
        (fun sum term => if term.1.testBit digit then sum.add term.2 else sum) sum = sum := by
    induction more with
    | nil => rfl
    | cons term more ih =>
      have none : sum.add term.2 = sum := by rw [infinite term (List.mem_cons_self ..)]; rfl
      simp only [List.map_cons, List.foldl_cons, none, ite_self]
      exact ih fun other member => infinite other (List.mem_cons_of_mem term member)
  simp only [combine, combineJacobian, List.map_append, List.foldl_append, unchanged]

section

variable {K : Type} [CurveField K] [DecidableEq K] {p : Point K} (member : p.InGroup)

include member

/-- Some multiples, and those that go with the values of wires. -/
theorem combine_wires (front : List (Scalar × Scalar)) (wires : List Wire) (value f : Wire → Scalar) :
    combine (front.map (fun term => (term.1, p.multiple term.2)) ++
        (wires.map value).zip (wires.map fun wire => p.multiple (f wire))) =
      p.multiple ((front.map fun term => term.1 * term.2).sum +
        (wires.map fun wire => value wire * f wire).sum) := by
  have zipped : (wires.map value).zip (wires.map fun wire => p.multiple (f wire)) =
      (wires.map fun wire => (value wire, f wire)).map fun term => (term.1, p.multiple term.2) := by
    rw [List.zip_map', List.map_map]
    rfl
  rw [zipped, ← List.map_append, combine_multiples member, List.map_append, List.sum_append,
    List.map_map]
  rfl

end

end Point

namespace ProvingKey

/-- Leaving out the quotient where all its points are at infinity changes no sum. -/
theorem combine_quotientTerms (key : ProvingKey) (terms : List (Scalar × G1))
    (constraints : List Constraint) (assignment : Assignment) :
    Point.combine (terms ++ key.quotientTerms constraints assignment) =
      Point.combine (terms ++ (coefficients constraints assignment).zip key.quotient) := by
  rw [quotientTerms]
  split
  case isTrue infinite =>
    rw [List.append_nil, Point.combine_append_infinity]
    rintro ⟨factor, p⟩ member
    have point := List.all_eq_true.mp infinite p (List.of_mem_zip member).2
    cases p with
    | infinity => rfl
    | affine x y => cases point
  case isFalse => rfl

end ProvingKey

namespace Ceremony

variable (ceremony : Ceremony) {constraints : List Constraint} {layout : Layout}
  {assignment : Assignment} (fits : assignment.Fits layout)

/-- Multiples in a proof. -/
structure Exponents where
  a : Scalar
  b : Scalar
  c : Scalar

noncomputable def exponents (constraints : List Constraint) (layout : Layout)
    (assignment : Assignment) (blinding : Blinding) : Exponents :=
  let a := ceremony.alpha + blinding.r * ceremony.delta +
    ceremony.valueOf constraints layout (leftValues constraints assignment)
  let b := ceremony.beta + blinding.s * ceremony.delta +
    ceremony.valueOf constraints layout (rightValues constraints assignment)
  let witness := (layout.witnessWires.map fun wire =>
    assignment.value wire * (ceremony.blend constraints layout wire * ceremony.delta⁻¹)).sum
  { a, b
    c := blinding.s * a + blinding.r * b - blinding.r * blinding.s * ceremony.delta + witness +
      ceremony.vanishing constraints layout * ceremony.delta⁻¹ *
        (polynomial (coefficients constraints assignment)).eval ceremony.tau }

/-- The multiple that the public inputs add up to. -/
noncomputable def prepared (constraints : List Constraint) (layout : Layout)
    (assignment : Assignment) : Scalar :=
  (layout.publicWires.map fun wire =>
    assignment.value wire * (ceremony.blend constraints layout wire * ceremony.gamma⁻¹)).sum

section

include fits

private theorem values_eq : 1 :: (assignment.inputs.toList ++ assignment.witnesses.toList) =
    layout.wires.map assignment.value := by
  rw [Layout.wires, List.map_append, ← fits.publicValues, ← fits.witnessValues, List.cons_append]

private theorem proof_a (blinding : Blinding) :
    ((ceremony.provingKey constraints layout).proof constraints assignment blinding).a =
      ceremony.first.multiple (ceremony.exponents constraints layout assignment blinding).a := by
  have combined := Point.combine_wires ceremony.first_inGroup
    [(1, ceremony.alpha), (blinding.r, ceremony.delta)] layout.wires assignment.value
    (ceremony.left constraints layout)
  rw [ceremony.sum_left fits] at combined
  simp only [ProvingKey.proof, provingKey, verifyingKey, values_eq fits, exponents]
  refine combined.trans (congrArg _ ?_)
  simp

/-- The right polynomials are taken in both groups. -/
theorem combine_right {K : Type} [CurveField K] [DecidableEq K] {p : Point K} (member : p.InGroup)
    (blinding : Blinding) :
    Point.combine ((1, p.multiple ceremony.beta) :: (blinding.s, p.multiple ceremony.delta) ::
        (layout.wires.map assignment.value).zip (layout.wires.map fun wire =>
          p.multiple (ceremony.right constraints layout wire))) =
      p.multiple (ceremony.exponents constraints layout assignment blinding).b := by
  have combined := Point.combine_wires member
    [(1, ceremony.beta), (blinding.s, ceremony.delta)] layout.wires assignment.value
    (ceremony.right constraints layout)
  rw [ceremony.sum_right fits] at combined
  refine combined.trans (congrArg _ ?_)
  simp [exponents]

private theorem proof_b (blinding : Blinding) :
    ((ceremony.provingKey constraints layout).proof constraints assignment blinding).b =
      ceremony.second.multiple (ceremony.exponents constraints layout assignment blinding).b := by
  simp only [ProvingKey.proof, provingKey, verifyingKey, values_eq fits]
  exact ceremony.combine_right fits ceremony.second_inGroup blinding

/-- The coefficients that have a point. -/
theorem zip_quotient (domain : Domain (levels constraints layout))
    (holds : ∀ constraint ∈ constraints, constraint.Holds assignment.value) :
    (coefficients constraints assignment).zip (ceremony.provingKey constraints layout).quotient =
      ((List.range (2 ^ levels constraints layout - 1)).map fun i =>
        ((coefficients constraints assignment).getD i 0,
          ceremony.vanishing constraints layout * ceremony.delta⁻¹ * ceremony.tau ^ i)).map
        fun term => (term.1, ceremony.first.multiple term.2) := by
  have same : systemLevels constraints assignment = levels constraints layout := by
    rw [systemLevels, levels, fits.1]
  have size := (coefficients_eq (same ▸ domain) holds).1
  rw [same] at size
  refine List.ext_getElem ?_ fun i bounded _ => ?_
  · simp [provingKey, size]
  · have inside : i < (coefficients constraints assignment).length := by
      simp [provingKey] at bounded
      omega
    simp [provingKey, inside]

private theorem proof_c (domain : Domain (levels constraints layout))
    (holds : ∀ constraint ∈ constraints, constraint.Holds assignment.value) (blinding : Blinding) :
    ((ceremony.provingKey constraints layout).proof constraints assignment blinding).c =
      ceremony.first.multiple (ceremony.exponents constraints layout assignment blinding).c := by
  have opened : ((ceremony.provingKey constraints layout).proof constraints assignment blinding).c =
      Point.combine (([(blinding.s, (ceremony.exponents constraints layout assignment blinding).a),
          (blinding.r, (ceremony.exponents constraints layout assignment blinding).b),
          (-(blinding.r * blinding.s), ceremony.delta)].map
            (fun term => (term.1, ceremony.first.multiple term.2)) ++
          (layout.witnessWires.map assignment.value).zip (layout.witnessWires.map fun wire =>
            ceremony.first.multiple (ceremony.blend constraints layout wire * ceremony.delta⁻¹))) ++
        (ceremony.provingKey constraints layout).quotientTerms constraints assignment) := by
    rw [List.map_cons, ← ceremony.proof_a fits, List.map_cons,
      ← ceremony.combine_right fits ceremony.first_inGroup]
    simp only [ProvingKey.proof, provingKey, verifyingKey, values_eq fits, List.map_cons,
      List.map_nil, List.cons_append, List.nil_append]
    rw [fits.witnessValues]
  have listed : (layout.witnessWires.map assignment.value).zip (layout.witnessWires.map fun wire =>
        ceremony.first.multiple (ceremony.blend constraints layout wire * ceremony.delta⁻¹)) =
      (layout.witnessWires.map fun wire => (assignment.value wire,
        ceremony.blend constraints layout wire * ceremony.delta⁻¹)).map
          fun term => (term.1, ceremony.first.multiple term.2) := by
    rw [List.zip_map', List.map_map]
    rfl
  rw [opened, ProvingKey.combine_quotientTerms, ceremony.zip_quotient fits domain holds, listed,
    ← List.map_append, ← List.map_append, Point.combine_multiples ceremony.first_inGroup]
  refine congrArg _ ?_
  simp only [List.map_append, List.sum_append, List.map_map, Function.comp_def,
    ceremony.sum_quotient fits domain holds, exponents]
  simp
  ring

private theorem prepared_eq :
    Point.combine ((1 :: assignment.inputs.toList).zip (ceremony.verifyingKey constraints layout).inputs) =
      ceremony.first.multiple (ceremony.prepared constraints layout assignment) := by
  have combined := Point.combine_wires ceremony.first_inGroup [] layout.publicWires assignment.value
    fun wire => ceremony.blend constraints layout wire * ceremony.gamma⁻¹
  rw [fits.publicValues, verifyingKey]
  refine combined.trans (congrArg _ ?_)
  simp [prepared]

/-- The multiples on the two sides of the pairing equation are equal. -/
theorem exponents_balance (domain : Domain (levels constraints layout))
    (holds : ∀ constraint ∈ constraints, constraint.Holds assignment.value) (blinding : Blinding) :
    let exponents := ceremony.exponents constraints layout assignment blinding
    exponents.a * exponents.b = ceremony.alpha * ceremony.beta +
      ceremony.prepared constraints layout assignment * ceremony.gamma +
        exponents.c * ceremony.delta := by
  have product := ceremony.valueOf_product fits domain holds
  have blended := ceremony.sum_blend constraints fits
  have scaled (wires : List Wire) {factor : Scalar} (nonzero : factor ≠ 0) :
      (wires.map fun wire =>
        assignment.value wire * (ceremony.blend constraints layout wire * factor⁻¹)).sum * factor =
        (wires.map fun wire => assignment.value wire * ceremony.blend constraints layout wire).sum := by
    rw [← List.sum_map_mul_right]
    refine congrArg List.sum (List.map_congr_left fun wire _ => ?_)
    rw [← mul_assoc, inv_mul_cancel_right₀ nonzero]
  have publicPart := scaled layout.publicWires ceremony.gamma_ne_zero
  have witnessPart := scaled layout.witnessWires ceremony.delta_ne_zero
  have cancel := inv_mul_cancel₀ ceremony.delta_ne_zero
  rw [Layout.wires, List.map_append, List.sum_append, ← publicPart, ← witnessPart] at blended
  simp only [exponents, prepared]
  linear_combination product - blended -
    ceremony.vanishing constraints layout *
      (polynomial (coefficients constraints assignment)).eval ceremony.tau * cancel

/-- Under the keys of one key generation, the proof for a satisfied system is valid. -/
theorem proof_satisfied {T : Type} [CommMonoid T] {pairing : G1 → G2 → T}
    (lawful : Pairing.Lawful pairing) (domain : Domain (levels constraints layout))
    (holds : ∀ constraint ∈ constraints, constraint.Holds assignment.value) (blinding : Blinding) :
    (ceremony.verifyingKey constraints layout).SatisfiedUnder pairing assignment.inputs.toList
      ((ceremony.provingKey constraints layout).proof constraints assignment blinding) := by
  have balance := ceremony.exponents_balance fits domain holds blinding
  simp only at balance
  rw [VerifyingKey.SatisfiedUnder]
  simp only [ceremony.proof_a fits, ceremony.proof_b fits, ceremony.proof_c fits domain holds,
    ceremony.prepared_eq fits]
  generalize ceremony.exponents constraints layout assignment blinding = exponents at *
  generalize ceremony.prepared constraints layout assignment = prepared at *
  simp only [verifyingKey, Point.neg_multiple ceremony.first_inGroup]
  have zero : ([(exponents.a, exponents.b), (-ceremony.alpha, ceremony.beta),
      (-prepared, ceremony.gamma), (-exponents.c, ceremony.delta)].map
        fun pair : Scalar × Scalar => pair.1 * pair.2).sum = 0 := by
    simp only [List.map_cons, List.map_nil, List.sum_cons, List.sum_nil]
    linear_combination balance
  have equation := lawful.prod_multiples ceremony.first_inGroup.1 ceremony.second_inGroup
    [(exponents.a, exponents.b), (-ceremony.alpha, ceremony.beta), (-prepared, ceremony.gamma),
      (-exponents.c, ceremony.delta)]
  rw [zero, Fin.val_zero, pow_zero] at equation
  simpa [mul_assoc] using equation

end

end Ceremony

end MailProof
