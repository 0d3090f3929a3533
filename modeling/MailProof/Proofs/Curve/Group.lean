import Mathlib.AlgebraicGeometry.EllipticCurve.Affine.Point
import MailProof.Curve.Point
import MailProof.Proofs.Curve.Field

/-! Sums of points. The points of a curve stand for the elements of its group, and sums in
Jacobian coordinates for sums in the group. -/

namespace MailProof

/-- The curve `y² = x³ + b`. -/
def curve (K : Type) [CurveField K] : WeierstrassCurve.Affine K where
  a₁ := 0
  a₂ := 0
  a₃ := 0
  a₄ := 0
  a₆ := CoordinateField.curveConstant

namespace Curve

variable {K : Type} [CurveField K]

@[simp] theorem a₁_eq : (curve K).a₁ = 0 := rfl
@[simp] theorem a₂_eq : (curve K).a₂ = 0 := rfl
@[simp] theorem a₃_eq : (curve K).a₃ = 0 := rfl
@[simp] theorem a₄_eq : (curve K).a₄ = 0 := rfl
@[simp] theorem a₆_eq : (curve K).a₆ = CoordinateField.curveConstant := rfl

@[simp] theorem negY_eq (x y : K) : (curve K).negY x y = -y := by
  simp [WeierstrassCurve.Affine.negY]

private theorem discriminant_ne_zero : (curve K).Δ ≠ 0 := by
  have discriminant : (curve K).Δ =
      -(2 ^ 4 * 3 ^ 3 * (CoordinateField.curveConstant : K) ^ 2) := by
    simp only [WeierstrassCurve.Δ, WeierstrassCurve.b₂, WeierstrassCurve.b₄, WeierstrassCurve.b₆,
      WeierstrassCurve.b₈, a₁_eq, a₂_eq, a₃_eq, a₄_eq, a₆_eq]
    ring
  rw [discriminant]
  refine neg_ne_zero.mpr (mul_ne_zero (mul_ne_zero ?_ ?_) ?_)
  · exact pow_ne_zero _ CurveField.two_ne_zero
  · exact pow_ne_zero _ CurveField.three_ne_zero
  · exact pow_ne_zero _ CurveField.curveConstant_ne_zero

/-- The curve has no singular points. -/
theorem nonsingular_iff {x y : K} :
    (curve K).Nonsingular x y ↔ y * y = x * x * x + CoordinateField.curveConstant := by
  rw [← WeierstrassCurve.Affine.equation_iff_nonsingular_of_Δ_ne_zero discriminant_ne_zero,
    WeierstrassCurve.Affine.equation_iff]
  simp only [a₁_eq, a₂_eq, a₃_eq, a₄_eq, a₆_eq]
  constructor <;> intro equation <;> linear_combination equation

end Curve

namespace Point

variable {K : Type} [CurveField K]

/-- The coordinates of an element of the group. -/
def ofElement : (curve K).Point → Point K
  | .zero => .infinity
  | .some x y _ => .affine x y

@[simp] theorem ofElement_zero : ofElement (0 : (curve K).Point) = .infinity := rfl

theorem ofElement_injective : Function.Injective (ofElement (K := K)) := by
  rintro (_ | ⟨x, y, _⟩) (_ | ⟨x', y', _⟩) same <;> cases same <;> rfl

/-- The points of the curve are those of the elements. -/
theorem onCurve_iff {p : Point K} : p.OnCurve ↔ ∃ g : (curve K).Point, p = ofElement g := by
  constructor
  · intro on
    cases p with
    | infinity => exact ⟨0, rfl⟩
    | affine x y => exact ⟨.some x y (Curve.nonsingular_iff.mpr on), rfl⟩
  · rintro ⟨_ | ⟨x, y, on⟩, rfl⟩
    · trivial
    · exact Curve.nonsingular_iff.mp on

theorem neg_ofElement (g : (curve K).Point) : (ofElement g).neg = ofElement (-g) := by
  cases g with
  | zero => rfl
  | some x y on =>
    rw [WeierstrassCurve.Affine.Point.neg_some, ofElement, ofElement, neg, Curve.negY_eq]

end Point

namespace Jacobian

variable {K : Type} [CurveField K] [DecidableEq K]

private theorem toPoint_of_zero {p : Jacobian K} (zero : p.z = 0) : p.toPoint = .infinity := by
  rw [toPoint, if_pos zero]

private theorem toPoint_of_ne_zero {p : Jacobian K} (nonzero : p.z ≠ 0) :
    p.toPoint = .affine (p.x / p.z ^ 2) (p.y / p.z ^ 3) := by
  rw [toPoint, if_neg nonzero]
  field_simp

/-- Coordinates with `z` nonzero stand for an element other than zero. -/
theorem exists_of_ne_zero {p : Jacobian K} {g : (curve K).Point} (known : p.toPoint = .ofElement g)
    (nonzero : p.z ≠ 0) :
    ∃ on, g = .some (p.x / p.z ^ 2) (p.y / p.z ^ 3) on := by
  rw [toPoint_of_ne_zero nonzero] at known
  cases g with
  | zero => cases known
  | some x y on =>
    cases known
    exact ⟨on, rfl⟩

private theorem eq_zero_of_zero {p : Jacobian K} {g : (curve K).Point}
    (known : p.toPoint = .ofElement g)
    (zero : p.z = 0) : g = 0 := by
  rw [toPoint_of_zero zero] at known
  exact Point.ofElement_injective known.symm

omit [DecidableEq K] in
private theorem double_eq (p : Jacobian K) : p.double =
    ⟨9 * p.x ^ 4 - 8 * p.x * p.y ^ 2,
      3 * p.x ^ 2 * (12 * p.x * p.y ^ 2 - 9 * p.x ^ 4) - 8 * p.y ^ 4, 2 * (p.y * p.z)⟩ := by
  rw [double]
  congr 1 <;> ring

private theorem double_toPoint {p : Jacobian K} {g : (curve K).Point}
    (known : p.toPoint = .ofElement g) :
    p.double.toPoint = .ofElement (g + g) := by
  rw [double_eq]
  by_cases zero : p.z = 0
  · rw [eq_zero_of_zero known zero, add_zero]
    exact toPoint_of_zero (by simp [zero])
  obtain ⟨on, rfl⟩ := exists_of_ne_zero known zero
  by_cases flat : p.y = 0
  · have opposite : p.y / p.z ^ 3 = (curve K).negY (p.x / p.z ^ 2) (p.y / p.z ^ 3) := by
      simp [flat]
    rw [WeierstrassCurve.Affine.Point.add_self_of_Y_eq opposite]
    exact toPoint_of_zero (by simp [flat])
  have two : (2 : K) ≠ 0 := CurveField.two_ne_zero
  have steep : p.y / p.z ^ 3 ≠ (curve K).negY (p.x / p.z ^ 2) (p.y / p.z ^ 3) := by
    rw [Curve.negY_eq]
    intro same
    field_simp at same
    exact two (by linear_combination same)
  have slope : (curve K).slope (p.x / p.z ^ 2) (p.x / p.z ^ 2) (p.y / p.z ^ 3) (p.y / p.z ^ 3) =
      3 * p.x ^ 2 / (2 * (p.y * p.z)) := by
    rw [WeierstrassCurve.Affine.slope_of_Y_ne rfl steep, Curve.negY_eq, Curve.a₁_eq, Curve.a₂_eq,
      Curve.a₄_eq, sub_neg_eq_add, ← two_mul]
    field_simp
    ring
  rw [WeierstrassCurve.Affine.Point.add_self_of_Y_ne steep, Point.ofElement,
    toPoint_of_ne_zero (by simp [two, flat, zero])]
  simp only [slope, WeierstrassCurve.Affine.addX, WeierstrassCurve.Affine.addY,
    WeierstrassCurve.Affine.negAddY, Curve.negY_eq, Curve.a₁_eq, Curve.a₂_eq]
  congr 1
  · field_simp
    ring
  · field_simp
    ring

/-- The sum of two elements with different first coordinates. -/
theorem add_eq (p : Jacobian K) {x y : K} (nonzero : p.z ≠ 0) (apart : x * p.z ^ 2 - p.x ≠ 0) :
    p.add (.affine x y) =
      let d := x * p.z ^ 2 - p.x
      let e := y * p.z ^ 3 - p.y
      let x' := e ^ 2 - d ^ 3 - 2 * p.x * d ^ 2
      ⟨x', e * (p.x * d ^ 2 - x') - p.y * d ^ 3, p.z * d⟩ := by
  have distinct : x * (p.z * p.z) - p.x ≠ 0 := by rwa [← pow_two]
  rw [add]
  simp only [if_neg nonzero, if_neg distinct]
  congr 1 <;> ring

private theorem add_toPoint_of_apart {p : Jacobian K} {x y : K} (nonzero : p.z ≠ 0)
    (apart : x * p.z ^ 2 - p.x ≠ 0) (on : (curve K).Nonsingular (p.x / p.z ^ 2) (p.y / p.z ^ 3))
    (on' : (curve K).Nonsingular x y) :
    (p.add (.affine x y)).toPoint =
      .ofElement (WeierstrassCurve.Affine.Point.some _ _ on + .some x y on') := by
  rw [add_eq p nonzero apart]
  obtain ⟨px, py, z⟩ := p
  -- The fractions are over `z` and the difference of the first coordinates.
  obtain ⟨d, rfl⟩ : ∃ d, px = x * z ^ 2 - d := ⟨x * z ^ 2 - px, by ring⟩
  have difference : x * z ^ 2 - (x * z ^ 2 - d) = d := by ring
  simp only [difference] at *
  have distinct : (x * z ^ 2 - d) / z ^ 2 ≠ x := by
    intro same
    field_simp at same
    exact apart (by linear_combination -same)
  have slope : (curve K).slope ((x * z ^ 2 - d) / z ^ 2) x (py / z ^ 3) y =
      (y * z ^ 3 - py) / (z * d) := by
    have gap : (x * z ^ 2 - d) / z ^ 2 - x = -(d / z ^ 2) := by
      field_simp
      ring
    rw [WeierstrassCurve.Affine.slope_of_X_ne distinct, gap]
    field_simp
    ring
  rw [WeierstrassCurve.Affine.Point.add_of_X_ne distinct, Point.ofElement,
    toPoint_of_ne_zero (mul_ne_zero nonzero apart)]
  simp only [slope, WeierstrassCurve.Affine.addX, WeierstrassCurve.Affine.addY,
    WeierstrassCurve.Affine.negAddY, Curve.negY_eq, Curve.a₁_eq, Curve.a₂_eq]
  congr 1
  · field_simp
    ring
  · field_simp
    ring

private theorem add_toPoint {p : Jacobian K} {g h : (curve K).Point}
    (known : p.toPoint = .ofElement g) :
    (p.add (.ofElement h)).toPoint = .ofElement (g + h) := by
  cases h with
  | zero => rwa [← WeierstrassCurve.Affine.Point.zero_def, add_zero]
  | some x y on =>
    rw [Point.ofElement]
    by_cases zero : p.z = 0
    · rw [eq_zero_of_zero known zero, zero_add, add]
      simp [zero, toPoint, Point.ofElement]
    obtain ⟨on', rfl⟩ := exists_of_ne_zero known zero
    by_cases same : x * p.z ^ 2 - p.x = 0
    · have aligned : p.x / p.z ^ 2 = x := by
        field_simp
        linear_combination -same
      have meet : x * (p.z * p.z) - p.x = 0 := by rwa [← pow_two]
      rw [add]
      simp only [if_neg zero, if_pos meet]
      split
      case isTrue coincide =>
        have level : p.y / p.z ^ 3 = y := by
          field_simp
          linear_combination -coincide
        have equal : WeierstrassCurve.Affine.Point.some x y on = .some _ _ on' := by
          simp only [aligned, level]
        rw [equal]
        exact double_toPoint known
      case isFalse differ =>
        have opposite : p.y / p.z ^ 3 = (curve K).negY x y := by
          refine (WeierstrassCurve.Affine.Y_eq_of_X_eq on'.1 on.1 aligned).resolve_left ?_
          intro level
          field_simp at level
          exact differ (by linear_combination -level)
        rw [WeierstrassCurve.Affine.Point.add_of_Y_eq aligned opposite]
        exact toPoint_of_zero rfl
    · exact add_toPoint_of_apart zero same on' on

theorem toPoint_eq_infinity_iff {p : Jacobian K} : p.toPoint = .infinity ↔ p.z = 0 := by
  refine ⟨fun same => ?_, toPoint_of_zero⟩
  by_contra nonzero
  rw [toPoint_of_ne_zero nonzero] at same
  cases same

end Jacobian

namespace Point

variable {K : Type} [CurveField K] [DecidableEq K]

/-- The sum of multiples of elements. -/
def total (terms : List (Nat × (curve K).Point)) : (curve K).Point :=
  (terms.map fun term => term.1 • term.2).sum

private theorem add_selected {sum : Jacobian K} {g : (curve K).Point}
    (known : sum.toPoint = .ofElement g)
    (digit : Nat) (terms : List (Nat × (curve K).Point)) :
    ((terms.map fun term => (term.1, ofElement term.2)).foldl
      (fun sum term => if term.1.testBit digit then sum.add term.2 else sum) sum).toPoint =
      ofElement (g + total (terms.map fun term => ((term.1.testBit digit).toNat, term.2))) := by
  induction terms generalizing sum g with
  | nil => simpa [total] using known
  | cons term terms ih =>
    rw [List.map_cons, List.foldl_cons]
    cases set : term.1.testBit digit with
    | false =>
      rw [if_neg (by simp), ih known]
      simp [total, set]
    | true =>
      rw [if_pos rfl, ih (Jacobian.add_toPoint known)]
      simp [total, set, add_assoc]

private theorem total_shift (digit : Nat) (terms : List (Nat × (curve K).Point)) :
    total (terms.map fun term => (term.1 >>> digit, term.2)) =
      let rest := total (terms.map fun term => (term.1 >>> (digit + 1), term.2))
      rest + rest + total (terms.map fun term => ((term.1.testBit digit).toNat, term.2)) := by
  induction terms with
  | nil => simp [total]
  | cons term terms ih =>
    have split : term.1 >>> digit =
        term.1 >>> (digit + 1) + term.1 >>> (digit + 1) + (term.1.testBit digit).toNat := by
      rw [Nat.shiftRight_succ, Nat.testBit, Nat.one_and_eq_mod_two]
      rcases Nat.mod_two_eq_zero_or_one (term.1 >>> digit) with even | odd
      · simp [even]
        omega
      · simp [odd]
        omega
    simp only [total, List.map_cons, List.sum_cons, List.map_map] at ih ⊢
    rw [ih, split, add_nsmul, add_nsmul]
    abel

/-- Doubling and adding, digit by digit, takes multiples. -/
theorem combineJacobian_toPoint (terms : List (Nat × (curve K).Point))
    (bounded : ∀ term ∈ terms, term.1 < 2 ^ exponentBits) :
    (combineJacobian (terms.map fun term => (term.1, ofElement term.2))).toPoint =
      ofElement (total terms) := by
  have run (digits : Nat) (sum : Jacobian K) (known : sum.toPoint =
      ofElement (total (terms.map fun term => (term.1 >>> digits, term.2)))) :
      ((List.range digits).reverse.foldl (fun sum digit =>
        (terms.map fun term => (term.1, ofElement term.2)).foldl
          (fun sum term => if term.1.testBit digit then sum.add term.2 else sum) sum.double)
        sum).toPoint = ofElement (total terms) := by
    induction digits generalizing sum with
    | zero => simpa using known
    | succ digits ih =>
      rw [List.range_succ, List.reverse_append, List.reverse_singleton, List.singleton_append,
        List.foldl_cons]
      refine ih _ ?_
      rw [add_selected (Jacobian.double_toPoint known)]
      exact congrArg ofElement (total_shift digits terms).symm
  refine run exponentBits .infinity ?_
  have none : total (terms.map fun term => (term.1 >>> exponentBits, term.2)) = 0 := by
    refine List.sum_eq_zero fun multiple member => ?_
    obtain ⟨shifted, present, rfl⟩ := List.mem_map.mp member
    obtain ⟨term, listed, rfl⟩ := List.mem_map.mp present
    rw [Nat.shiftRight_eq_div_pow, Nat.div_eq_of_lt (bounded term listed), zero_nsmul]
  rw [none]
  exact Jacobian.toPoint_of_zero rfl

private theorem hasGroupOrder_ofElement (g : (curve K).Point) :
    hasGroupOrder (ofElement g) = true ↔ scalarOrder • g = 0 := by
  have bounded : scalarOrder < 2 ^ exponentBits := by decide
  have known := combineJacobian_toPoint [(scalarOrder, g)] (by simpa using bounded)
  have same : total [(scalarOrder, g)] = scalarOrder • g := by simp [total]
  rw [same] at known
  rw [hasGroupOrder, decide_eq_true_iff, ← Jacobian.toPoint_eq_infinity_iff]
  change (combineJacobian [(scalarOrder, ofElement g)]).toPoint = _ at known
  rw [known]
  exact ⟨fun zero => ofElement_injective zero, fun zero => by rw [zero]; rfl⟩

private theorem combine_ofElement (terms : List (Scalar × (curve K).Point)) :
    combine (terms.map fun term => (term.1, ofElement term.2)) =
      ofElement (total (terms.map fun term => (term.1.val, term.2))) := by
  have known := combineJacobian_toPoint (terms.map fun term => (term.1.val, term.2)) ?_
  · rw [combine, ← known]
    simp only [List.map_map, Function.comp_def]
  · intro term member
    obtain ⟨scaled, present, rfl⟩ := List.mem_map.mp member
    exact Nat.lt_trans scaled.1.isLt (by decide)

/-- The multiple by a scalar. -/
def multiple (p : Point K) (a : Scalar) : Point K := combine [(a, p)]

/-- A point of the curve whose multiple by the group order is at infinity. -/
def InGroup (p : Point K) : Prop := p.OnCurve ∧ p.hasGroupOrder = true

theorem inGroup_iff {p : Point K} :
    p.InGroup ↔ ∃ g : (curve K).Point, p = ofElement g ∧ scalarOrder • g = 0 := by
  constructor
  · rintro ⟨on, order⟩
    obtain ⟨g, rfl⟩ := onCurve_iff.mp on
    exact ⟨g, rfl, (hasGroupOrder_ofElement g).mp order⟩
  · rintro ⟨g, rfl, order⟩
    exact ⟨onCurve_iff.mpr ⟨g, rfl⟩, (hasGroupOrder_ofElement g).mpr order⟩

theorem infinity_inGroup : (infinity : Point K).InGroup :=
  inGroup_iff.mpr ⟨0, rfl, nsmul_zero scalarOrder⟩

theorem multiple_ofElement (g : (curve K).Point) (a : Scalar) :
    (ofElement g).multiple a = ofElement (a.val • g) := by
  have same := combine_ofElement [(a, g)]
  rw [multiple]
  simpa [total] using same

omit [DecidableEq K] in
private theorem exists_elements {property : (curve K).Point → Prop} {terms : List (Scalar × Point K)}
    (each : ∀ term ∈ terms, ∃ g, term.2 = ofElement g ∧ property g) :
    ∃ elements : List (Scalar × (curve K).Point),
      terms = (elements.map fun term => (term.1, ofElement term.2)) ∧
        ∀ element ∈ elements, property element.2 := by
  induction terms with
  | nil => exact ⟨[], rfl, nofun⟩
  | cons term terms ih =>
    obtain ⟨⟨g, same, holds⟩, others⟩ := List.forall_mem_cons.mp each
    obtain ⟨elements, rfl, all⟩ := ih others
    exact ⟨(term.1, g) :: elements, by rw [List.map_cons, ← same],
      List.forall_mem_cons.mpr ⟨holds, all⟩⟩

theorem combine_onCurve {terms : List (Scalar × Point K)} (on : ∀ term ∈ terms, term.2.OnCurve) :
    (combine terms).OnCurve := by
  have each : ∀ term ∈ terms, ∃ g, term.2 = ofElement g ∧ True := fun term member => by
    obtain ⟨g, same⟩ := onCurve_iff.mp (on term member)
    exact ⟨g, same, trivial⟩
  obtain ⟨elements, rfl, -⟩ := exists_elements each
  exact onCurve_iff.mpr ⟨_, combine_ofElement elements⟩

theorem combine_inGroup {terms : List (Scalar × Point K)} (members : ∀ term ∈ terms, term.2.InGroup) :
    (combine terms).InGroup := by
  obtain ⟨elements, rfl, order⟩ := exists_elements fun term member =>
    inGroup_iff.mp (members term member)
  refine inGroup_iff.mpr ⟨_, combine_ofElement elements, ?_⟩
  rw [total, List.smul_sum]
  refine List.sum_eq_zero fun g member => ?_
  simp only [List.map_map, List.mem_map, Function.comp_apply] at member
  obtain ⟨element, present, rfl⟩ := member
  rw [smul_comm, order element present, smul_zero]

section Order

variable {g : (curve K).Point} (order : scalarOrder • g = 0)

include order

theorem mod_order_nsmul (n : Nat) : (n % scalarOrder) • g = n • g := by
  conv_rhs => rw [← Nat.mod_add_div n scalarOrder]
  rw [add_nsmul, mul_comm, mul_nsmul', order, nsmul_zero, add_zero]

private theorem val_add_nsmul (a b : Scalar) : (a + b).val • g = a.val • g + b.val • g := by
  rw [Fin.val_add, mod_order_nsmul order, add_nsmul]

private theorem val_mul_nsmul (a b : Scalar) : (a * b).val • g = a.val • b.val • g := by
  rw [Fin.val_mul, mod_order_nsmul order, mul_nsmul']

private theorem val_neg_nsmul (a : Scalar) : (-a).val • g = -(a.val • g) := by
  have cancel := val_add_nsmul order (-a) a
  rw [neg_add_cancel] at cancel
  exact eq_neg_of_add_eq_zero_left (cancel.symm.trans (zero_nsmul g))

private theorem total_multiples (terms : List (Scalar × Scalar)) :
    total (terms.map fun term => (term.1.val, term.2.val • g)) =
      (terms.map fun term : Scalar × Scalar => term.1 * term.2).sum.val • g := by
  induction terms with
  | nil => simp [total]
  | cons term terms ih =>
    rw [List.map_cons, List.map_cons, List.sum_cons, val_add_nsmul order, val_mul_nsmul order, ← ih]
    rfl

end Order

variable {p : Point K} (member : p.InGroup)

include member

theorem InGroup.multiple (a : Scalar) : (p.multiple a).InGroup := by
  obtain ⟨g, rfl, order⟩ := inGroup_iff.mp member
  refine inGroup_iff.mpr ⟨a.val • g, multiple_ofElement g a, ?_⟩
  rw [← mul_nsmul', mul_comm, mul_nsmul', order, nsmul_zero]

theorem neg_multiple (a : Scalar) : (p.multiple a).neg = p.multiple (-a) := by
  obtain ⟨g, rfl, order⟩ := inGroup_iff.mp member
  rw [multiple_ofElement, multiple_ofElement, neg_ofElement, val_neg_nsmul order]

/-- Sums of multiples of a point are multiples of it. -/
theorem combine_multiples (terms : List (Scalar × Scalar)) :
    combine (terms.map fun term => (term.1, p.multiple term.2)) =
      p.multiple (terms.map fun term => term.1 * term.2).sum := by
  obtain ⟨g, rfl, order⟩ := inGroup_iff.mp member
  have listed : terms.map (fun term => (term.1, (ofElement g).multiple term.2)) =
      (terms.map fun term => (term.1, term.2.val • g)).map fun term => (term.1, ofElement term.2) := by
    simp [multiple_ofElement]
  rw [listed, combine_ofElement, multiple_ofElement, ← total_multiples order, List.map_map]
  rfl

end Point

end MailProof
