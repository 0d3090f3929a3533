import MailProof.Curve.Pairing
import MailProof.Proofs.Curve.Tower

/-! Pairings of opposite points. The loop at an opposite point is the conjugate of the loop at the
point, up to a factor in the extension of degree six. The final power takes such factors to one, so
the pairing of two opposite points is the pairing of the points, and the pairings of a point and of
its opposite with one point of the twist cancel. -/

namespace MailProof.Pairing

open Dodecic (ofSextic)

private theorem finish_one : finish 1 = 1 := by
  have first : (1 : Dodecic).conjugate * (1 : Dodecic)⁻¹ = 1 := by decide +kernel
  rw [finish, first, power_eq_pow, one_pow]

/-- Factors of degree six do not change the final power. -/
theorem finish_ofSextic_mul {factor : Sextic} (nonzero : factor ≠ 0) (value : Dodecic) :
    finish (ofSextic factor * value) = finish value := by
  by_cases zero : value = 0
  · rw [zero, mul_zero]
  have proper := Dodecic.ofSextic_ne_zero nonzero
  have base : (ofSextic factor * value).conjugate * (ofSextic factor * value)⁻¹ =
      value.conjugate * value⁻¹ := by
    rw [Dodecic.conjugate_mul, Dodecic.conjugate_ofSextic, Dodecic.inv_mul proper zero,
      mul_mul_mul_comm, Dodecic.mul_inv_cancel proper, one_mul]
  rw [finish, finish, base]

private theorem finish_zero : finish 0 = 0 := by
  have exponent : (Nat.pow baseOrder 6 + 1) / scalarOrder ≠ 0 := by decide
  rw [finish, power_eq_pow]
  change ((0 : Dodecic) * _) ^ _ = 0
  rw [zero_mul, zero_pow exponent]

private theorem finish_mul (x y : Dodecic) : finish (x * y) = finish x * finish y := by
  by_cases zero : x = 0
  · rw [zero, zero_mul, finish_zero, zero_mul]
  by_cases zero' : y = 0
  · rw [zero', mul_zero, finish_zero, mul_zero]
  rw [finish, finish, finish, Dodecic.conjugate_mul, Dodecic.inv_mul zero zero', power_eq_pow,
    power_eq_pow, power_eq_pow, ← mul_pow, mul_mul_mul_comm]

private theorem product_eq (pairs : List (Point Base × Point Quadratic)) :
    product pairs = finish (pairs.map loop).prod := by
  rw [List.prod_eq_foldl, List.foldl_map]
  rfl

/-- The pairing of two points. -/
def pairing (p : Point Base) (q : Point Quadratic) : Dodecic := product [(p, q)]

theorem product_nil : product [] = 1 := finish_one

theorem product_cons (p : Point Base) (q : Point Quadratic)
    (pairs : List (Point Base × Point Quadratic)) :
    product ((p, q) :: pairs) = pairing p q * product pairs := by
  rw [pairing, product_eq, product_eq, product_eq, List.map_cons, List.prod_cons, finish_mul,
    List.map_singleton, List.prod_singleton]

private theorem scale_neg (factor : Base) (x : Quadratic) : (-x).scale factor = -x.scale factor := by
  ext : 1 <;> simp [Quadratic.scale]

section Lines

variable (slope tx ty : Quadratic) (px py : Base)

private theorem line_neg_first :
    line slope tx ty px (-py) = ofSextic (-1) * (line slope tx ty px py).conjugate := by
  have opposite : (⟨-py, 0⟩ : Quadratic) = -⟨py, 0⟩ := by ext : 1 <;> simp
  ext : 1
  · rw [Dodecic.mul_c0]
    ext : 1 <;> simp [line, Dodecic.conjugate, ofSextic, opposite]
  · rw [Dodecic.mul_c1]
    ext : 1 <;> simp [line, Dodecic.conjugate, ofSextic]

private theorem line_neg_second :
    line (-slope) tx (-ty) px py = (line slope tx ty px py).conjugate := by
  ext : 1
  · rfl
  · ext : 1
    · simp [line, Dodecic.conjugate, scale_neg]
    · simp [line, Dodecic.conjugate]
      ring
    · simp [line, Dodecic.conjugate]

private theorem line_ne_zero {py : Base} (steep : py ≠ 0) : line slope tx ty px py ≠ 0 := fun zero =>
  steep (congrArg (fun value => value.c0.c0.re) zero)

end Lines

/-- States of the loops at a point of the curve and at its opposite. -/
structure State.OppositeFirst (state opposite : State) : Prop where
  x : opposite.x = state.x
  y : opposite.y = state.y
  value : ∃ factor : Sextic, factor ≠ 0 ∧
    opposite.value = ofSextic factor * state.value.conjugate

/-- States of the loops at a point of the twist and at its opposite. -/
structure State.OppositeSecond (state opposite : State) : Prop where
  x : opposite.x = state.x
  y : opposite.y = -state.y
  value : opposite.value = state.value.conjugate

namespace State

variable {state opposite : State} (px py : Base) (qx qy : Quadratic)

theorem OppositeFirst.double (related : state.OppositeFirst opposite) :
    (double px py state).OppositeFirst (double px (-py) opposite) := by
  obtain ⟨x, y, factor, nonzero, value⟩ := related
  have proper : factor * factor * -1 ≠ 0 :=
    mul_ne_zero (mul_ne_zero nonzero nonzero) (neg_ne_zero.mpr one_ne_zero)
  refine ⟨?_, ?_, factor * factor * -1, proper, ?_⟩
  · simp only [Pairing.double, follow, x, y]
  · simp only [Pairing.double, follow, x, y]
  · rw [Pairing.double, x, y]
    simp only [follow]
    rw [line_neg_first, value, Pairing.double]
    simp only [follow]
    rw [Dodecic.conjugate_mul, Dodecic.conjugate_mul, Dodecic.ofSextic_mul, Dodecic.ofSextic_mul,
      mul_mul_mul_comm (ofSextic factor), mul_mul_mul_comm]

theorem OppositeFirst.add (related : state.OppositeFirst opposite) :
    (add px py qx qy state).OppositeFirst (add px (-py) qx qy opposite) := by
  obtain ⟨x, y, factor, nonzero, value⟩ := related
  refine ⟨?_, ?_, factor * -1, mul_ne_zero nonzero (neg_ne_zero.mpr one_ne_zero), ?_⟩
  · simp only [Pairing.add, follow, x, y]
  · simp only [Pairing.add, follow, x, y]
  · rw [Pairing.add, x, y]
    simp only [follow]
    rw [line_neg_first, value, Pairing.add]
    simp only [follow]
    rw [Dodecic.conjugate_mul, Dodecic.ofSextic_mul, mul_mul_mul_comm]

theorem OppositeSecond.double (related : state.OppositeSecond opposite) :
    (double px py state).OppositeSecond (double px py opposite) := by
  obtain ⟨x, y, value⟩ := related
  have slope : (state.x * state.x + state.x * state.x + state.x * state.x) *
      (-state.y + -state.y)⁻¹ = -((state.x * state.x + state.x * state.x + state.x * state.x) *
        (state.y + state.y)⁻¹) := by
    rw [← neg_add, inv_neg, mul_neg]
  refine ⟨?_, ?_, ?_⟩
  · simp only [Pairing.double, follow, x, y, slope, neg_mul_neg]
  · simp only [Pairing.double, follow, x, y, slope, neg_mul_neg]
    ring
  · simp only [Pairing.double, follow, x, y, slope, value, line_neg_second,
      Dodecic.conjugate_mul]

theorem OppositeSecond.add (related : state.OppositeSecond opposite) :
    (add px py qx qy state).OppositeSecond (add px py qx (-qy) opposite) := by
  obtain ⟨x, y, value⟩ := related
  have slope : (-qy - -state.y) * (qx - state.x)⁻¹ = -((qy - state.y) * (qx - state.x)⁻¹) := by
    ring
  refine ⟨?_, ?_, ?_⟩
  · simp only [Pairing.add, follow, x, y, slope, neg_mul_neg]
  · simp only [Pairing.add, follow, x, y, slope, neg_mul_neg]
    ring
  · simp only [Pairing.add, follow, x, y, slope, value, line_neg_second, Dodecic.conjugate_mul]

end State

private theorem one_eq : (1 : Dodecic) = ofSextic 1 * (1 : Dodecic).conjugate := by decide

private theorem conjugate_one : (1 : Dodecic).conjugate = 1 := by decide

section Loops

variable (px py : Base) (qx qy : Quadratic)

private theorem lines_neg_first : ∃ factor : Sextic, factor ≠ 0 ∧
    lines px (-py) qx qy = ofSextic factor * (lines px py qx qy).conjugate := by
  have start : State.OppositeFirst ⟨qx, qy, 1⟩ ⟨qx, qy, 1⟩ :=
    ⟨rfl, rfl, 1, one_ne_zero, one_eq⟩
  refine State.OppositeFirst.value (List.foldl_rel start fun digit _ state opposite related => ?_)
  cases digit with
  | false => exact related.double px py
  | true => exact (related.double px py).add px py qx qy

private theorem lines_neg_second : lines px py qx (-qy) = (lines px py qx qy).conjugate := by
  have start : State.OppositeSecond ⟨qx, qy, 1⟩ ⟨qx, -qy, 1⟩ := ⟨rfl, rfl, conjugate_one.symm⟩
  refine State.OppositeSecond.value (List.foldl_rel start fun digit _ state opposite related => ?_)
  cases digit with
  | false => exact related.double px py
  | true => exact (related.double px py).add px py qx qy

private theorem lines_ne_zero {py : Base} (steep : py ≠ 0) : lines px py qx qy ≠ 0 := by
  have step (state : State) (nonzero : state.value ≠ 0) : (double px py state).value ≠ 0 :=
    Dodecic.mul_ne_zero (Dodecic.mul_ne_zero nonzero nonzero) (line_ne_zero _ _ _ _ steep)
  rw [lines]
  have one : (1 : Dodecic) ≠ 0 := by decide
  refine List.foldlRecOn (motive := fun state : State => state.value ≠ 0) _ _ one ?_
  intro state nonzero digit _
  cases digit with
  | false => exact step state nonzero
  | true => exact Dodecic.mul_ne_zero (step state nonzero) (line_ne_zero _ _ _ _ steep)

end Loops

private theorem loop_neg_first (p : Point Base) (q : Point Quadratic) :
    ∃ factor : Sextic, factor ≠ 0 ∧
    loop (p.neg, q) = ofSextic factor * (loop (p, q)).conjugate := by
  have one : ∃ factor : Sextic, factor ≠ 0 ∧ (1 : Dodecic) = ofSextic factor * (1 : Dodecic).conjugate :=
    ⟨1, one_ne_zero, one_eq⟩
  cases p with
  | infinity => exact one
  | affine px py =>
    cases q with
    | infinity => exact one
    | affine qx qy => exact lines_neg_first px py qx qy

private theorem loop_neg_second (p : Point Base) (q : Point Quadratic) :
    loop (p, q.neg) = (loop (p, q)).conjugate := by
  cases p with
  | infinity => exact conjugate_one.symm
  | affine px py =>
    cases q with
    | infinity => exact conjugate_one.symm
    | affine qx qy => exact lines_neg_second px py qx qy

/-- No point of the curve has `y = 0`, so no line of a loop vanishes there. -/
theorem loop_ne_zero {p : Point Base} (on : p.OnCurve) (q : Point Quadratic) : loop (p, q) ≠ 0 := by
  have one : (1 : Dodecic) ≠ 0 := by decide
  cases p with
  | infinity => exact one
  | affine px py =>
    cases q with
    | infinity => exact one
    | affine qx qy =>
      refine lines_ne_zero px qx qy ?_
      rintro rfl
      exact CanonicalCompressible.apart px 0 on neg_zero

/-- Two opposite points in the place of two points do not change a product of pairings. -/
theorem product_neg_neg (p : Point Base) (q : Point Quadratic)
    (pairs : List (Point Base × Point Quadratic)) :
    product ((p.neg, q.neg) :: pairs) = product ((p, q) :: pairs) := by
  obtain ⟨factor, nonzero, value⟩ := loop_neg_first p q.neg
  rw [loop_neg_second p q, Dodecic.conjugate_conjugate] at value
  rw [product_eq, product_eq, List.map_cons, List.map_cons, List.prod_cons, List.prod_cons, value,
    mul_assoc, finish_ofSextic_mul nonzero]

/-- The pairings of a point and of its opposite with the same point cancel. -/
theorem product_cancel {p : Point Base} (on : p.OnCurve) (q : Point Quadratic)
    (pairs : List (Point Base × Point Quadratic)) :
    product ((p, q) :: (p.neg, q) :: pairs) = product pairs := by
  obtain ⟨factor, nonzero, value⟩ := loop_neg_first p q
  have norm : factor * (loop (p, q)).norm ≠ 0 :=
    mul_ne_zero nonzero (Dodecic.norm_ne_zero (loop_ne_zero on q))
  have flat : loop (p, q) * loop (p.neg, q) = ofSextic (factor * (loop (p, q)).norm) := by
    rw [value, mul_left_comm, Dodecic.mul_conjugate, Dodecic.ofSextic_mul]
  rw [product_eq, product_eq, List.map_cons, List.map_cons, List.prod_cons, List.prod_cons,
    ← mul_assoc, flat, finish_ofSextic_mul norm]

theorem pairing_neg_neg (p : Point Base) (q : Point Quadratic) :
    pairing p.neg q.neg = pairing p q :=
  product_neg_neg p q []

theorem pairing_mul_neg {p : Point Base} (on : p.OnCurve) (q : Point Quadratic) :
    pairing p q * pairing p.neg q = 1 := by
  have cancel := product_cancel on q []
  rwa [product_cons, product_cons, product_nil, mul_one] at cancel

end MailProof.Pairing
