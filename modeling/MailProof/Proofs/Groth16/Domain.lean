import MailProof.Groth16.Quotient
import MailProof.Proofs.Curve.Field
import Mathlib.Algebra.Field.GeomSum
import Mathlib.LinearAlgebra.Lagrange
import Mathlib.RingTheory.RootsOfUnity.PrimitiveRoots

/-! Polynomials on a domain of roots of unity. Lists of coefficients stand for polynomials;
evaluation along the domain and interpolation on it are inverse to each other. -/

namespace MailProof.Quotient

open Polynomial

/-- The polynomial with the given coefficients, lowest first. -/
noncomputable def polynomial : List Scalar → Scalar[X]
  | [] => 0
  | first :: rest => C first + X * polynomial rest

@[simp] theorem polynomial_nil : polynomial [] = 0 := rfl

@[simp] theorem polynomial_cons (first : Scalar) (rest : List Scalar) :
    polynomial (first :: rest) = C first + X * polynomial rest := rfl

theorem coeff_polynomial (coefficients : List Scalar) (i : Nat) :
    (polynomial coefficients).coeff i = coefficients.getD i 0 := by
  induction coefficients generalizing i with
  | nil => simp
  | cons first rest ih =>
    cases i with
    | zero => simp
    | succ i => simp [ih]

theorem degree_polynomial_lt (coefficients : List Scalar) :
    (polynomial coefficients).degree < coefficients.length := by
  rw [degree_lt_iff_coeff_zero]
  intro i beyond
  have outside : coefficients.length ≤ i := by exact_mod_cast beyond
  simp [coeff_polynomial, List.getElem?_eq_none outside]

theorem polynomial_append (first rest : List Scalar) :
    polynomial (first ++ rest) = polynomial first + X ^ first.length * polynomial rest := by
  induction first with
  | nil => simp
  | cons coefficient first ih =>
    rw [List.cons_append, polynomial_cons, ih, polynomial_cons, List.length_cons]
    ring

private theorem eval_polynomial_range (f : Nat → Scalar) (count : Nat) (x : Scalar) :
    (polynomial ((List.range count).map f)).eval x = ∑ i ∈ Finset.range count, f i * x ^ i := by
  induction count with
  | zero => simp
  | succ count ih =>
    rw [List.range_succ, List.map_append, polynomial_append, eval_add, ih, Finset.sum_range_succ]
    simp

/-- The even and the odd part of a polynomial. -/
theorem eval_deal (coefficients : List Scalar) (x : Scalar) :
    (polynomial coefficients).eval x =
      (polynomial (deal coefficients).1).eval (x * x) +
        x * (polynomial (deal coefficients).2).eval (x * x) := by
  induction coefficients using deal.induct with
  | case1 => simp [deal]
  | case2 first => simp [deal]
  | case3 first second rest even odd split ih =>
    rw [split] at ih
    simp only [deal, split, polynomial_cons, eval_add, eval_mul, eval_C, eval_X, ih]
    ring

theorem deal_length (coefficients : List α) {half : Nat} (size : coefficients.length = 2 * half) :
    (deal coefficients).1.length = half ∧ (deal coefficients).2.length = half := by
  induction coefficients using deal.induct generalizing half with
  | case1 =>
    have none : half = 0 := by simpa using size.symm
    subst none
    exact ⟨rfl, rfl⟩
  | case2 first =>
    rw [List.length_singleton] at size
    omega
  | case3 first second rest even odd split ih =>
    rw [List.length_cons, List.length_cons] at size
    have lengths := @ih (half - 1) (by omega)
    rw [split] at lengths
    simp only [deal, split, List.length_cons, lengths]
    omega

private theorem scaleBy_map_range (factor first : Scalar) (f : Nat → Scalar) (count : Nat) :
    scaleBy factor first ((List.range count).map f) =
      (List.range count).map fun i => first * factor ^ i * f i := by
  induction count generalizing first f with
  | zero => rfl
  | succ count ih =>
    rw [List.range_succ_eq_map, List.map_cons, List.map_cons, scaleBy, List.map_map, List.map_map, ih]
    congr 1
    · simp
    · refine List.map_congr_left fun i _ => ?_
      simp only [Function.comp_def, pow_succ]
      ring

@[simp] theorem scaleBy_length (factor first : Scalar) (list : List Scalar) :
    (scaleBy factor first list).length = list.length := by
  induction list generalizing first with
  | nil => rfl
  | cons x rest ih => rw [scaleBy, List.length_cons, ih, List.length_cons]

/-- Scaling the coefficients by powers scales the argument. -/
theorem eval_scaleBy (factor first : Scalar) (coefficients : List Scalar) (x : Scalar) :
    (polynomial (scaleBy factor first coefficients)).eval x =
      first * (polynomial coefficients).eval (factor * x) := by
  induction coefficients generalizing first with
  | nil => simp [scaleBy]
  | cons coefficient rest ih =>
    simp only [scaleBy, polynomial_cons, eval_add, eval_mul, eval_C, eval_X, ih]
    ring

section Domain

variable {root : Scalar} {levels : Nat}

private theorem primitive_square (primitive : IsPrimitiveRoot root (2 ^ (levels + 1))) :
    IsPrimitiveRoot (root * root) (2 ^ levels) := by
  rw [← pow_two]
  exact primitive.pow (by positivity) (pow_succ' 2 levels)

private theorem primitive_half (primitive : IsPrimitiveRoot root (2 ^ (levels + 1))) :
    root ^ 2 ^ levels = -1 := by
  have square : root ^ 2 ^ levels * root ^ 2 ^ levels = 1 * 1 := by
    rw [← pow_add, ← mul_two, ← pow_succ, primitive.pow_eq_one, one_mul]
  refine (mul_self_eq_mul_self_iff.mp square).resolve_left ?_
  exact primitive.pow_ne_one_of_pos_of_lt (by positivity) (Nat.pow_lt_pow_right (by decide) (by omega))

/-- Evaluation along the powers of a root of unity. -/
theorem evaluate_eq (primitive : IsPrimitiveRoot root (2 ^ levels))
    {coefficients : List Scalar} (size : coefficients.length = 2 ^ levels) :
    evaluate root levels coefficients =
      (List.range (2 ^ levels)).map fun i => (polynomial coefficients).eval (root ^ i) := by
  induction levels generalizing root coefficients with
  | zero =>
    obtain ⟨only, rfl⟩ := List.length_eq_one_iff.mp size
    simp [evaluate]
  | succ levels ih =>
    have opposite : root ^ 2 ^ levels = -1 := primitive_half primitive
    have sizes := deal_length coefficients (size.trans (pow_succ' 2 levels))
    have split := eval_deal coefficients
    rcases parts : deal coefficients with ⟨even, odd⟩
    rw [parts] at sizes split
    simp only [evaluate, parts]
    rw [ih (primitive_square primitive) sizes.1, ih (primitive_square primitive) sizes.2,
      scaleBy_map_range]
    simp only [List.zipWith_map, List.zipWith_self]
    rw [pow_succ, mul_two, List.range_add, List.map_append, List.map_map]
    congr 1
    · refine List.map_congr_left fun i _ => ?_
      rw [split, one_mul, mul_pow]
    · refine List.map_congr_left fun i _ => ?_
      have turned : root ^ (2 ^ levels + i) = -root ^ i := by rw [pow_add, opposite, neg_one_mul]
      rw [Function.comp_apply, turned, split, one_mul, mul_pow, neg_mul_neg, neg_mul, sub_eq_add_neg]

theorem eval_polynomial (coefficients : List Scalar) (x : Scalar) :
    (polynomial coefficients).eval x =
      ∑ i ∈ Finset.range coefficients.length, coefficients.getD i 0 * x ^ i := by
  have listed : coefficients = (List.range coefficients.length).map fun i => coefficients.getD i 0 := by
    refine List.ext_getElem (by simp) fun i bounded _ => ?_
    simp [bounded]
  conv_lhs => rw [listed]
  exact eval_polynomial_range _ _ x

/-- Powers of two roots of unity add up to zero unless the roots are inverse to each other. -/
theorem sum_powers (primitive : IsPrimitiveRoot root (2 ^ levels)) {i j : Nat} (first : i < 2 ^ levels)
    (second : j < 2 ^ levels) :
    ∑ k ∈ Finset.range (2 ^ levels), (root ^ i * root⁻¹ ^ j) ^ k =
      if j = i then ((2 ^ levels : Nat) : Scalar) else 0 := by
  have nonzero : root ≠ 0 := primitive.ne_zero (by positivity)
  by_cases same : j = i
  · rw [if_pos same, same, ← mul_pow, mul_inv_cancel₀ nonzero, one_pow]
    simp
  · have apart : root ^ i * root⁻¹ ^ j ≠ 1 := by
      intro equal
      refine same (primitive.pow_inj second first ?_)
      rw [inv_pow] at equal
      exact (eq_of_div_eq_one (by rwa [div_eq_mul_inv])).symm
    have closed : (root ^ i * root⁻¹ ^ j) ^ 2 ^ levels = 1 := by
      rw [mul_pow, ← pow_mul, ← pow_mul, mul_comm i, mul_comm j, pow_mul, pow_mul, inv_pow,
        primitive.pow_eq_one, inv_one, one_pow, one_pow, one_mul]
    rw [if_neg same, geom_sum_eq apart, closed, sub_self, zero_div]

theorem interpolate_length (primitive : IsPrimitiveRoot root (2 ^ levels)) {values : List Scalar}
    (size : values.length = 2 ^ levels) : (interpolate root levels values).length = 2 ^ levels := by
  rw [interpolate, List.length_map, evaluate_eq primitive.inv size, List.length_map, List.length_range]

/-- Interpolation gives the polynomial with the given values. -/
theorem eval_interpolate (primitive : IsPrimitiveRoot root (2 ^ levels)) {values : List Scalar}
    (size : values.length = 2 ^ levels) {i : Nat} (bounded : i < 2 ^ levels) :
    (polynomial (interpolate root levels values)).eval (root ^ i) = values.getD i 0 := by
  have count : Scalar.ofNat (1 <<< levels) = ((2 ^ levels : Nat) : Scalar) := by
    rw [Nat.shiftLeft_eq, one_mul]
    rfl
  have proper : ((2 ^ levels : Nat) : Scalar) ≠ 0 := by
    rw [Nat.cast_pow]
    exact pow_ne_zero _ (by decide)
  rw [interpolate, evaluate_eq primitive.inv size, List.map_map, eval_polynomial_range]
  simp only [Function.comp_apply, eval_polynomial, size, count]
  calc ∑ k ∈ Finset.range (2 ^ levels),
        (∑ j ∈ Finset.range (2 ^ levels), values.getD j 0 * (root⁻¹ ^ k) ^ j) *
          ((2 ^ levels : Nat) : Scalar)⁻¹ * (root ^ i) ^ k
      = ∑ j ∈ Finset.range (2 ^ levels), values.getD j 0 * ((2 ^ levels : Nat) : Scalar)⁻¹ *
          ∑ k ∈ Finset.range (2 ^ levels), (root ^ i * root⁻¹ ^ j) ^ k := by
        simp only [Finset.sum_mul, Finset.mul_sum]
        rw [Finset.sum_comm]
        refine Finset.sum_congr rfl fun j _ => Finset.sum_congr rfl fun k _ => ?_
        rw [mul_pow, ← pow_mul, ← pow_mul, ← pow_mul, mul_comm k j]
        ring
    _ = values.getD i 0 := by
        rw [Finset.sum_eq_single i]
        · rw [sum_powers primitive bounded bounded, if_pos rfl, mul_assoc, inv_mul_cancel₀ proper,
            mul_one]
        · intro j member apart
          rw [sum_powers primitive bounded (Finset.mem_range.mp member), if_neg apart, mul_zero]
        · intro absent
          exact absurd (Finset.mem_range.mpr bounded) absent

end Domain

end MailProof.Quotient
