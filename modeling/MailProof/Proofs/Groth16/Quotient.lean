import MailProof.Proofs.Groth16.Domain

/-! The quotient polynomial. Where all products hold on the domain, the computed coefficients are
those of the left polynomial times the right less the output, over the vanishing polynomial. -/

namespace MailProof.Quotient

open Polynomial

/-- The polynomial of least degree with the given values on the domain, and zero where there are
none. -/
noncomputable def interpolant (levels : Nat) (values : List Scalar) : Scalar[X] :=
  Lagrange.interpolate (Finset.range (2 ^ levels)) (fun i => rootOfUnity levels ^ i)
    fun i => values.getD i 0

private theorem natDegree_le_of_lt {p : Scalar[X]} {count : Nat} (bound : p.degree < (count : Nat)) :
    p.natDegree ≤ count - 1 := by
  by_cases zero : p = 0
  · simp [zero]
  · exact Nat.le_sub_one_of_lt ((natDegree_lt_iff_degree_lt zero).mpr bound)

/-- The domain of `2 ^ levels` roots of unity, which the generator is shifted off. -/
structure Domain (levels : Nat) : Prop where
  primitive : IsPrimitiveRoot (rootOfUnity levels) (2 ^ levels)
  shifted : generator ^ 2 ^ levels ≠ 1

namespace Domain

variable {levels : Nat} (domain : Domain levels)

include domain

private theorem injective :
    Set.InjOn (fun i => rootOfUnity levels ^ i) (Finset.range (2 ^ levels) : Set Nat) := by
  intro i first j second same
  exact domain.primitive.pow_inj (Finset.mem_range.mp first) (Finset.mem_range.mp second) same

private theorem interpolant_eq {values : List Scalar} (fits : values.length ≤ 2 ^ levels) :
    polynomial (interpolate (rootOfUnity levels) levels
      (values ++ List.replicate ((1 <<< levels) - values.length) 0)) = interpolant levels values := by
  have size : (values ++ List.replicate ((1 <<< levels) - values.length) (0 : Scalar)).length =
      2 ^ levels := by
    rw [List.length_append, List.length_replicate, Nat.one_shiftLeft]
    omega
  refine Lagrange.eq_interpolate_of_eval_eq _ domain.injective ?_ ?_
  · have bound := degree_polynomial_lt (interpolate (rootOfUnity levels) levels
      (values ++ List.replicate ((1 <<< levels) - values.length) 0))
    rwa [interpolate_length domain.primitive size, ← Finset.card_range (2 ^ levels)] at bound
  · intro i member
    rw [eval_interpolate domain.primitive size (Finset.mem_range.mp member)]
    simp only [List.getD_eq_getElem?_getD, List.getElem?_append, List.getElem?_replicate]
    split
    · rfl
    · split <;> simp_all

private theorem shift_eq (values : List Scalar) (fits : values.length ≤ 2 ^ levels) :
    shift levels values = (List.range (2 ^ levels)).map fun i =>
      (interpolant levels values).eval (generator * rootOfUnity levels ^ i) := by
  have size : (values ++ List.replicate ((1 <<< levels) - values.length) (0 : Scalar)).length =
      2 ^ levels := by
    rw [List.length_append, List.length_replicate, Nat.one_shiftLeft]
    omega
  have long := interpolate_length domain.primitive size
  rw [shift, evaluate_eq domain.primitive (by rw [scaleBy_length, long])]
  refine List.map_congr_left fun i _ => ?_
  rw [eval_scaleBy, one_mul, domain.interpolant_eq fits]

/-- Points on the domain and on the shifted domain. -/
theorem points_injective : Set.InjOn
    (fun point : Nat × Bool => (if point.2 then generator else 1) * rootOfUnity levels ^ point.1)
    (Finset.range (2 ^ levels) ×ˢ Finset.univ : Finset (Nat × Bool)) := by
  have closed (i : Nat) : (rootOfUnity levels ^ i) ^ 2 ^ levels = 1 := by
    rw [← pow_mul, mul_comm, pow_mul, domain.primitive.pow_eq_one, one_pow]
  have outside : generator ≠ 0 := by decide
  rintro ⟨i, shifted⟩ first ⟨j, shifted'⟩ second same
  have bounded : i < 2 ^ levels := by simpa using first
  have bounded' : j < 2 ^ levels := by simpa using second
  have powers := congrArg (· ^ 2 ^ levels) same
  simp only [mul_pow, closed, mul_one] at powers
  cases shifted <;> cases shifted'
  case false.false =>
    simp only [Bool.false_eq_true, if_false, one_mul] at same
    rw [domain.primitive.pow_inj bounded bounded' same]
  case false.true =>
    simp only [Bool.false_eq_true, if_false, if_true, one_pow] at powers
    exact absurd powers.symm domain.shifted
  case true.false =>
    simp only [Bool.false_eq_true, if_false, if_true, one_pow] at powers
    exact absurd powers domain.shifted
  case true.true =>
    simp only [if_true] at same
    rw [domain.primitive.pow_inj bounded bounded' (mul_left_cancel₀ outside same)]

private theorem eval_interpolant {values : List Scalar} {i : Nat} (bounded : i < 2 ^ levels) :
    (interpolant levels values).eval (rootOfUnity levels ^ i) = values.getD i 0 :=
  Lagrange.eval_interpolate_at_node _ domain.injective (Finset.mem_range.mpr bounded)

private theorem degree_interpolant_lt (values : List Scalar) :
    (interpolant levels values).degree < (2 ^ levels : Nat) := by
  have bound := Lagrange.degree_interpolate_lt (fun i => values.getD i 0) domain.injective
  rwa [Finset.card_range] at bound

/-- Coefficients from the values of the quotient on the shifted domain. -/
theorem quotient_eq {left right output : Scalar[X]} {coefficients : List Scalar}
    (left_lt : left.degree < (2 ^ levels : Nat)) (right_lt : right.degree < (2 ^ levels : Nat))
    (output_lt : output.degree < (2 ^ levels : Nat)) (size : coefficients.length = 2 ^ levels)
    (holds : ∀ i < 2 ^ levels, left.eval (rootOfUnity levels ^ i) *
      right.eval (rootOfUnity levels ^ i) = output.eval (rootOfUnity levels ^ i))
    (computed : ∀ i < 2 ^ levels,
      (polynomial coefficients).eval (generator * rootOfUnity levels ^ i) =
        (left.eval (generator * rootOfUnity levels ^ i) *
            right.eval (generator * rootOfUnity levels ^ i) -
          output.eval (generator * rootOfUnity levels ^ i)) * (generator ^ 2 ^ levels - 1)⁻¹) :
    polynomial coefficients * (X ^ 2 ^ levels - 1) = left * right - output := by
  have closed (i : Nat) : (rootOfUnity levels ^ i) ^ 2 ^ levels = 1 := by
    rw [← pow_mul, mul_comm, pow_mul, domain.primitive.pow_eq_one, one_pow]
  have proper : generator ^ 2 ^ levels - 1 ≠ 0 := sub_ne_zero.mpr domain.shifted
  have positive : 0 < 2 ^ levels := by positivity
  have count : (Finset.range (2 ^ levels) ×ˢ (Finset.univ : Finset Bool)).card = 2 * 2 ^ levels := by
    simp [mul_comm]
  have small {p : Scalar[X]} (bound : p.natDegree ≤ 2 * 2 ^ levels - 1) :
      p.degree < (Finset.range (2 ^ levels) ×ˢ (Finset.univ : Finset Bool)).card := by
    rw [count]
    refine degree_le_natDegree.trans_lt ?_
    exact_mod_cast (by omega : p.natDegree < 2 * 2 ^ levels)
  refine eq_of_degrees_lt_of_eval_index_eq _ domain.points_injective (small ?_) (small ?_) ?_
  · have first := natDegree_le_of_lt (size ▸ degree_polynomial_lt coefficients)
    have second : (X ^ 2 ^ levels - 1 : Scalar[X]).natDegree ≤ 2 ^ levels :=
      (natDegree_sub_le _ _).trans (by simp)
    have product := natDegree_mul_le (p := polynomial coefficients) (q := X ^ 2 ^ levels - 1)
    omega
  · have product := natDegree_mul_le_of_le (natDegree_le_of_lt left_lt) (natDegree_le_of_lt right_lt)
    have difference := natDegree_sub_le_of_le product (natDegree_le_of_lt output_lt)
    refine difference.trans ?_
    omega
  · rintro ⟨i, shifted⟩ member
    have bounded : i < 2 ^ levels := by simpa using member
    cases shifted with
    | false => simp [closed, holds i bounded]
    | true =>
      simp only [if_true, eval_mul, eval_sub, eval_pow, eval_X, eval_one, mul_pow, closed, mul_one,
        computed i bounded]
      rw [inv_mul_cancel_right₀ proper]

omit domain in
/-- The quotient has one coefficient less than the domain has members. -/
theorem last_eq_zero {left right output : Scalar[X]} {coefficients : List Scalar}
    (left_lt : left.degree < (2 ^ levels : Nat)) (right_lt : right.degree < (2 ^ levels : Nat))
    (output_lt : output.degree < (2 ^ levels : Nat)) (size : coefficients.length = 2 ^ levels)
    (quotient : polynomial coefficients * (X ^ 2 ^ levels - 1) = left * right - output) :
    coefficients.getD (2 ^ levels - 1) 0 = 0 := by
  have positive : 0 < 2 ^ levels := by positivity
  have top : (polynomial coefficients * (X ^ 2 ^ levels - 1)).coeff (2 ^ levels - 1 + 2 ^ levels) =
      coefficients.getD (2 ^ levels - 1) 0 := by
    have outside : coefficients.length ≤ 2 ^ levels - 1 + 2 ^ levels := by omega
    rw [mul_sub, mul_one, coeff_sub, coeff_mul_X_pow, coeff_polynomial, coeff_polynomial,
      List.getD_eq_getElem?_getD (l := coefficients) (i := 2 ^ levels - 1 + 2 ^ levels),
      List.getElem?_eq_none outside, Option.getD_none, sub_zero]
  have product := natDegree_mul_le_of_le (natDegree_le_of_lt left_lt) (natDegree_le_of_lt right_lt)
  have difference := natDegree_sub_le_of_le product (natDegree_le_of_lt output_lt)
  rw [← top, quotient]
  refine coeff_eq_zero_of_natDegree_lt (difference.trans_lt ?_)
  omega

omit domain in
/-- The generator is no square, so all its powers that are needed have their full order. -/
theorem of_lt (bounded : levels < 28) : Domain levels := by
  have nonzero : generator ≠ 0 := by decide
  have closed : generator ^ (scalarOrder - 1) = 1 := Residue.pow_order_sub_one scalarOrder_prime nonzero
  have half : generator ^ ((scalarOrder - 1) / 2) ≠ 1 := by
    rw [← power_eq_pow]
    decide +kernel
  have divides (k : Nat) (bound : k < 28) : 2 ^ k ∣ (scalarOrder - 1) / 2 :=
    (pow_dvd_pow 2 (Nat.lt_succ_iff.mp bound)).trans (by decide)
  have even : (scalarOrder - 1) / 2 * 2 = scalarOrder - 1 := by decide
  constructor
  case primitive =>
    rw [rootOfUnity, power_eq_pow, Nat.shiftRight_eq_div_pow]
    cases levels with
    | zero =>
      rw [pow_zero, Nat.div_one, closed]
      exact IsPrimitiveRoot.one
    | succ k =>
      have count : (scalarOrder - 1) / 2 ^ (k + 1) * 2 ^ k = (scalarOrder - 1) / 2 := by
        rw [pow_succ', ← Nat.div_div_eq_div_mul, Nat.div_mul_cancel (divides k (by omega))]
      have whole : (scalarOrder - 1) / 2 ^ (k + 1) * 2 ^ (k + 1) = scalarOrder - 1 := by
        rw [pow_succ _ k, ← mul_assoc, ← pow_succ, count, even]
      refine IsPrimitiveRoot.iff_orderOf.mpr (orderOf_eq_prime_pow ?_ ?_)
      · rwa [← pow_mul, count]
      · rw [← pow_mul, whole, closed]
  case shifted =>
    intro one
    obtain ⟨quotient, split⟩ := divides levels bounded
    rw [split, pow_mul, one, one_pow] at half
    exact half rfl

end Domain

private theorem le_levelsFor (count : Nat) : count ≤ 2 ^ levelsFor count := by
  rw [levelsFor]
  split
  · simpa
  · have bound := Nat.lt_log2_self (n := count - 1)
    omega

section System

variable (constraints : List Constraint) (assignment : Assignment)

/-- Values of the left sums, with the constant and the public inputs behind them. -/
def leftValues : List Scalar :=
  constraints.map (·.left.eval assignment.value) ++ 1 :: assignment.inputs.toList

def rightValues : List Scalar := constraints.map (·.right.eval assignment.value)

def outputValues : List Scalar := constraints.map (·.output.eval assignment.value)

/-- Number of levels of the domain of a system. -/
def systemLevels : Nat := levelsFor (constraints.length + (assignment.inputs.size + 1))

variable {constraints assignment}

private theorem values_product
    (holds : ∀ constraint ∈ constraints, constraint.Holds assignment.value)
    (i : Nat) :
    (leftValues constraints assignment).getD i 0 * (rightValues constraints assignment).getD i 0 =
      (outputValues constraints assignment).getD i 0 := by
  rcases Nat.lt_or_ge i constraints.length with within | beyond
  · have product : constraints[i].left.eval assignment.value *
        constraints[i].right.eval assignment.value = constraints[i].output.eval assignment.value :=
      holds constraints[i] (List.getElem_mem within)
    simpa [leftValues, rightValues, outputValues, within, List.getElem?_append] using product
  · simp [rightValues, outputValues, List.getElem?_eq_none beyond]

/-- Values of the quotient on the shifted domain, from which its coefficients are computed. -/
theorem coefficients_eq_scaleBy (domain : Domain (systemLevels constraints assignment)) :
    coefficients constraints assignment =
      let levels := systemLevels constraints assignment
      let point := fun i => generator * rootOfUnity levels ^ i
      scaleBy generator⁻¹ 1 (interpolate (rootOfUnity levels) levels
        ((List.range (2 ^ levels)).map fun i =>
          ((interpolant levels (leftValues constraints assignment)).eval (point i) *
              (interpolant levels (rightValues constraints assignment)).eval (point i) -
            (interpolant levels (outputValues constraints assignment)).eval (point i)) *
              (generator ^ 2 ^ levels - 1)⁻¹)) := by
  have bound := le_levelsFor (constraints.length + (assignment.inputs.size + 1))
  have fits : constraints.length + (assignment.inputs.size + 1) ≤
      2 ^ systemLevels constraints assignment := bound
  have left := domain.shift_eq (leftValues constraints assignment)
    (by simpa [leftValues] using fits)
  have right := domain.shift_eq (rightValues constraints assignment)
    (by simp [rightValues]; omega)
  have output := domain.shift_eq (outputValues constraints assignment)
    (by simp [outputValues]; omega)
  have same : levelsFor (constraints.length + (1 :: assignment.inputs.toList).length) =
      systemLevels constraints assignment := by simp [systemLevels]
  rw [coefficients]
  simp only [same]
  rw [leftValues] at left
  rw [rightValues] at right
  rw [outputValues] at output
  rw [left, right, output, power_eq_pow, Nat.one_shiftLeft]
  simp only [List.zipWith_map, List.zipWith_self, leftValues, rightValues, outputValues]

/-- The computed coefficients are those of the quotient polynomial. -/
theorem coefficients_eq (domain : Domain (systemLevels constraints assignment))
    (holds : ∀ constraint ∈ constraints, constraint.Holds assignment.value) :
    (coefficients constraints assignment).length = 2 ^ systemLevels constraints assignment ∧
      polynomial (coefficients constraints assignment) *
          (X ^ 2 ^ systemLevels constraints assignment - 1) =
        interpolant (systemLevels constraints assignment) (leftValues constraints assignment) *
            interpolant (systemLevels constraints assignment) (rightValues constraints assignment) -
          interpolant (systemLevels constraints assignment) (outputValues constraints assignment) := by
  rw [coefficients_eq_scaleBy domain]
  generalize systemLevels constraints assignment = levels at *
  have outside : generator ≠ 0 := by decide
  have size (f : Nat → Scalar) : (interpolate (rootOfUnity levels) levels
      ((List.range (2 ^ levels)).map f)).length = 2 ^ levels :=
    interpolate_length domain.primitive (by rw [List.length_map, List.length_range])
  refine ⟨by rw [scaleBy_length, size], ?_⟩
  refine domain.quotient_eq (domain.degree_interpolant_lt _) (domain.degree_interpolant_lt _)
    (domain.degree_interpolant_lt _) (by rw [scaleBy_length, size]) ?_ ?_
  · intro i bounded
    rw [domain.eval_interpolant bounded, domain.eval_interpolant bounded,
      domain.eval_interpolant bounded, values_product holds]
  · intro i bounded
    rw [eval_scaleBy, one_mul, inv_mul_cancel_left₀ outside,
      eval_interpolate domain.primitive (by rw [List.length_map, List.length_range]) bounded]
    simp [bounded]

theorem coefficients_last (domain : Domain (systemLevels constraints assignment))
    (holds : ∀ constraint ∈ constraints, constraint.Holds assignment.value) :
    (coefficients constraints assignment).getD (2 ^ systemLevels constraints assignment - 1) 0 = 0 := by
  obtain ⟨size, identity⟩ := coefficients_eq domain holds
  exact Domain.last_eq_zero (domain.degree_interpolant_lt _) (domain.degree_interpolant_lt _)
    (domain.degree_interpolant_lt _) size identity

end System

end MailProof.Quotient
